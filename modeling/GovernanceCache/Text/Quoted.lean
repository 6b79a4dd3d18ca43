import GovernanceCache.Text.Hidden

/-!
# Quoted text

A text in double quotes, as messages show it: quotes and backslashes are escaped, tabs, line ends
and the null character have short escapes, and characters that would not show as themselves are
written by their code.
-/

namespace GovernanceCache.Text

/-- The written form of one character of a quoted text. -/
def escape (c : Char) : List Char :=
  if c = '"' then ['\\', '"']
  else if c = '\\' then ['\\', '\\']
  else if c = '\t' then ['\\', 't']
  else if c = '\r' then ['\\', 'r']
  else if c = '\n' then ['\\', 'n']
  else if c.toNat = 0 then ['\\', '0']
  else if isHidden c then '\\' :: 'u' :: '{' :: Nat.toDigits 16 c.toNat ++ ['}']
  else [c]

/-- The text in double quotes. -/
def quoted (text : String) : String :=
  String.ofList ('"' :: text.toList.flatMap escape ++ ['"'])

end GovernanceCache.Text
