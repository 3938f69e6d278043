import StorageTrials.Record

namespace StorageTrials

inductive Line
  | columns (texts : List String)
  | record (r : Record)
deriving DecidableEq, Repr

namespace Line

def header : Line := columns Record.columns

def footer : Line := columns []

def texts : Line → List String
  | columns texts => texts
  | record r => r.fields

def text (l : Line) : String := "\t".intercalate l.texts ++ "\n"

def record? : Line → Option Record
  | columns _ => none
  | record r => some r

end Line

end StorageTrials
