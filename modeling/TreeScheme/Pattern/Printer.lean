import TreeScheme.Pattern.Basic

/-!
# The canonical text of a pattern

Items are separated by one blank, alternatives by a bar between blanks, and a quantifier stands
right behind its operand. Sequences and choices inside another pattern stand in parentheses.
-/

namespace TreeScheme.Pattern

/-- A text between parentheses, if `nested`. -/
def enclose (nested : Bool) (text : List Char) : List Char :=
  if nested then '(' :: text ++ [')'] else text

/-- The characters of a pattern, inside another one if `nested`. -/
def chars (nested : Bool) : Pattern → List Char
  | leaf _ id => id.toList
  | sequence items => enclose nested ([' '].intercalate (charsAll items))
  | choice alternatives => enclose nested ([' ', '|', ' '].intercalate (charsAll alternatives))
  | quantified quantifier operand => operand.chars true ++ [quantifier.sign]
where
  /-- The characters of each of several patterns inside another one. -/
  charsAll : List Pattern → List (List Char)
  | [] => []
  | pattern :: rest => pattern.chars true :: charsAll rest

/-- The canonical text of a pattern. -/
def text (pattern : Pattern) : String :=
  .ofList (pattern.chars false)

end TreeScheme.Pattern
