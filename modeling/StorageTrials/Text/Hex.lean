import StorageTrials.Instances

namespace StorageTrials.Text

def isHexDigit (c : Char) : Bool :=
  c.isDigit || ('a' ≤ c && c ≤ 'f') || ('A' ≤ c && c ≤ 'F')

def hexValue (c : Char) : Nat :=
  if c.isDigit then c.toNat - 48 else c.toLower.toNat - 87

def hexNumber (ds : List Char) : Nat := ds.foldl (fun n c => 16 * n + hexValue c) 0

end StorageTrials.Text
