import SmallLisp.Text.Unseen

/-!
# Names in double quotes

Where a name is shown for inspection it stands in double quotes, with a backslash in
front of a quote and of a backslash, and characters that cannot be told by sight
written by their code point, so that what is shown tells which name it is.
-/

namespace SmallLisp

/-- A character inside double quotes. -/
def quoteChar (c : Char) : List Char :=
  if c = '"' ∨ c = '\\' then ['\\', c]
  else if c = '\t' then ['\\', 't']
  else if c = '\n' then ['\\', 'n']
  else if c = '\r' then ['\\', 'r']
  else if c = '\x00' then ['\\', '0']
  else if isUnseen c then ['\\', 'u', '\x7b'] ++ Nat.toDigits 16 c.toNat ++ ['\x7d']
  else [c]

/-- **A name in double quotes.** -/
def quoteName (name : String) : String :=
  "\"" ++ String.ofList (name.toList.flatMap quoteChar) ++ "\""

end SmallLisp
