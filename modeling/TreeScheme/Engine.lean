import TreeScheme.Text.Bytes

/-!
# Engines

What a regular expression is, and which of its matches is taken, is the business of an engine. A
grammar asks three things of it: which texts are regular expressions, how many groups one has, and
what it matches at a place of a text. `Engine` is these three, and whatever compiles a lexeme takes
one.

**Nothing is asked of what an engine answers.** What holds of grammars, schemes and documents holds
for every engine. One that runs is `Regex.engine`.
-/

namespace TreeScheme

open Text (Cursor)

namespace Engine

/-- The texts of groups by their numbers, the latest first. -/
abbrev Groups := List (Nat × List Char)

/-- A match: how many characters it took, and its groups. -/
structure Found where
  taken : Nat
  groups : Groups
deriving DecidableEq, Repr

/-- The text of a group, if it took part in the match. -/
def Found.group? (found : Found) (index : Nat) : Option (List Char) :=
  found.groups.lookup index

end Engine

/-- A regular expression that is ready to match. -/
structure Recognizer where
  /-- The number of groups. -/
  groupCount : Nat
  /-- The match at a place, with the text on both sides of it in view. -/
  match? : Cursor → Option Engine.Found

/-- A regular expression engine. -/
structure Engine where
  /-- What the engine makes of a regular expression. -/
  Compiled : Type
  /-- Compiles a text. Nothing is made of one that is no regular expression. -/
  compile? : String → Option Compiled
  /-- The number of groups. -/
  groupCount : Compiled → Nat
  /-- The match at a place of a text. -/
  match? : Compiled → Cursor → Option Engine.Found

/-- The recognizer of a text, if the text is a regular expression. -/
def Engine.recognizer? (engine : Engine) (text : String) : Option Recognizer :=
  (engine.compile? text).map fun compiled =>
    ⟨engine.groupCount compiled, engine.match? compiled⟩

/-- Whether the empty text is matched. -/
def Recognizer.isNullable (recognizer : Recognizer) : Bool :=
  (recognizer.match? (.start [])).isSome

end TreeScheme
