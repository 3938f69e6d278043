import StorageTrials.Json.Value

namespace StorageTrials.Json

def newLine (depth : Nat) : List Char := '\n' :: List.replicate (2 * depth) ' '

def quote (lexeme : List Char) : List Char := '"' :: lexeme ++ ['"']

mutual

def Value.written (depth : Nat) : Value → List Char
  | .null => ['n', 'u', 'l', 'l']
  | .boolean true => ['t', 'r', 'u', 'e']
  | .boolean false => ['f', 'a', 'l', 's', 'e']
  | .number lexeme => lexeme
  | .string lexeme => quote lexeme
  | .array [] => ['[', ']']
  | .array (v :: vs) =>
    '[' :: newLine (depth + 1) ++ v.written (depth + 1) ++ writtenItems (depth + 1) vs ++
      newLine depth ++ [']']
  | .object [] => ['\x7b', '\x7d']
  | .object ((k, v) :: ms) =>
    '\x7b' :: newLine (depth + 1) ++ quote k ++ [':', ' '] ++ v.written (depth + 1) ++
      writtenMembers (depth + 1) ms ++ newLine depth ++ ['\x7d']

def writtenItems (depth : Nat) : List Value → List Char
  | [] => []
  | v :: vs => ',' :: newLine depth ++ v.written depth ++ writtenItems depth vs

def writtenMembers (depth : Nat) : List (List Char × Value) → List Char
  | [] => []
  | (k, v) :: ms =>
    ',' :: newLine depth ++ quote k ++ [':', ' '] ++ v.written depth ++ writtenMembers depth ms

end

def Value.text (v : Value) : String := String.ofList (v.written 0)

end StorageTrials.Json
