import TreeScheme.Text.Category

/-!
# Quoted text in messages

A message shows a text between double quotes and a character between single quotes, on one line and
without doubt about what it holds: the quote itself, the backslash and the common controls have
short escapes, and every other character that leaves no mark of its own is written by its number.
-/

namespace TreeScheme.Text

/-- An escape by number: the lower-case hexadecimal digits of the code point, in braces. -/
def numbered (c : Char) : List Char :=
  '\\' :: 'u' :: '\x7b' :: (Nat.toDigits 16 c.toNat ++ ['\x7d'])

/-- How one character stands between two quotation marks `mark`. -/
def escaped (mark c : Char) : List Char :=
  if c = '\x00' then ['\\', '0']
  else if c = '\t' then ['\\', 't']
  else if c = '\n' then ['\\', 'n']
  else if c = '\r' then ['\\', 'r']
  else if c = '\\' || c = mark then ['\\', c]
  else if isAttached c || isHidden c then numbered c
  else [c]

/-- A text between double quotes. -/
def quote (text : String) : String :=
  .ofList ('"' :: text.toList.flatMap (escaped '"') ++ ['"'])

/-- A character between single quotes. -/
def quoteChar (c : Char) : String :=
  .ofList ('\'' :: escaped '\'' c ++ ['\''])

end TreeScheme.Text
