import StorageTrials.Json.Token

namespace StorageTrials.Json

inductive Value
  | null
  | boolean (value : Bool)
  | number (lexeme : List Char)
  | string (lexeme : List Char)
  | array (items : List Value)
  | object (members : List (List Char × Value))
deriving Repr

/-- An array or object whose end has not been read. What it holds is in reverse. -/
inductive Frame
  | array (items : List Value)
  | object (members : List (List Char × Value)) (key : List Char)

inductive Build
  | value (stack : List Frame)
  | itemOrEnd (stack : List Frame)
  | keyOrEnd (stack : List Frame)
  | key (members : List (List Char × Value)) (stack : List Frame)
  | colon (members : List (List Char × Value)) (key : List Char) (stack : List Frame)
  | rest (frame : Frame) (stack : List Frame)
  | done (value : Value)

namespace Build

def put (v : Value) : List Frame → Build
  | [] => .done v
  | .array items :: stack => .rest (.array (v :: items)) stack
  | .object members k :: stack => .rest (.object ((k, v) :: members) []) stack

def start (stack : List Frame) : Token → Option Build
  | .null => some (put .null stack)
  | .boolean b => some (put (.boolean b) stack)
  | .number cs => some (put (.number cs) stack)
  | .string cs => some (put (.string cs) stack)
  | .openArray => some (.itemOrEnd stack)
  | .openObject => some (.keyOrEnd stack)
  | .closeArray | .closeObject | .comma | .colon => none

def step : Build → Token → Option Build
  | .value stack, t => start stack t
  | .itemOrEnd stack, .closeArray => some (put (.array []) stack)
  | .itemOrEnd stack, t => start (.array [] :: stack) t
  | .keyOrEnd stack, .closeObject => some (put (.object []) stack)
  | .keyOrEnd stack, .string k => some (.colon [] k stack)
  | .key members stack, .string k => some (.colon members k stack)
  | .colon members k stack, .colon => some (.value (.object members k :: stack))
  | .rest (.array items) stack, .comma => some (.value (.array items :: stack))
  | .rest (.array items) stack, .closeArray => some (put (.array items.reverse) stack)
  | .rest (.object members _) stack, .comma => some (.key members stack)
  | .rest (.object members _) stack, .closeObject => some (put (.object members.reverse) stack)
  | _, _ => none

def finish : Build → Option Value
  | .done v => some v
  | _ => none

end Build

def Value.ofTokens? (ts : List Token) : Option Value :=
  (ts.foldlM Build.step (.value [])).bind Build.finish

def Value.read? (s : String) : Option Value := (scan? s.toList).bind ofTokens?

end StorageTrials.Json
