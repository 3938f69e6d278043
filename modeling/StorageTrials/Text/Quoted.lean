import StorageTrials.Text.Hidden

namespace StorageTrials.Text

def codePoint (c : Char) : List Char := ['\\', 'u', '{'] ++ Nat.toDigits 16 c.toNat ++ ['}']

def escape (c : Char) : List Char :=
  if c = '\x00' then ['\\', '0']
  else if c = '\t' then ['\\', 't']
  else if c = '\r' then ['\\', 'r']
  else if c = '\n' then ['\\', 'n']
  else if c = '"' || c = '\\' then ['\\', c]
  else if isHidden c then codePoint c
  else [c]

def quoted (s : String) : String :=
  String.ofList ('"' :: s.toList.flatMap escape ++ ['"'])

end StorageTrials.Text
