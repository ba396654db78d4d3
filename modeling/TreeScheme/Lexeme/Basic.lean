import TreeScheme.Capture.Basic
import TreeScheme.Grammar.Error
import TreeScheme.Regex.Reader

/-!
# Lexemes

A lexeme is a leaf of a grammar: a regular expression that is matched exactly at a place of the
text, but with the whole text in view, so that its conditions see both sides of the place. A match
has to take text: an empty one counts as none.

What a match records depends on the groups of the pattern: all of the matched text if there are
none, the text of the group if there is one, and otherwise the list of the texts of all groups.
-/

namespace TreeScheme

open Text (byteSize seek)

/-- A leaf of a grammar. -/
structure Lexeme where
  /-- The pattern as written. -/
  pattern : String
  recognizer : Recognizer

namespace Lexeme

/-- A match of a lexeme: the offset behind it, and what it records, if anything. -/
structure Hit where
  stop : Nat
  value : Option Value

/-- The lexeme of a pattern. The alias list is told to whoever wrote a pattern that is none. -/
def compile (aliases pattern : String) (engine : Engine := Regex.engine) :
    Except GrammarError Lexeme :=
  match engine.recognizer? pattern with
  | some recognizer => .ok ⟨pattern, recognizer⟩
  | none => .error (.invalidLexemePattern aliases)

/-- Whether the pattern itself matches the empty text. -/
def isNullable (lexeme : Lexeme) : Bool :=
  lexeme.recognizer.isNullable

/-- The number of groups of the pattern. -/
def groupCount (lexeme : Lexeme) : Nat :=
  lexeme.recognizer.groupCount

/-- What a match records. A single group that took no part records nothing; of several groups, one
that took no part counts as empty. -/
def valueOf (lexeme : Lexeme) (taken : List Char) (found : Engine.Found) : Option Value :=
  match lexeme.groupCount with
  | 0 => some (.text (.ofList taken))
  | 1 => (found.group? 1).map fun group => .text (.ofList group)
  | count =>
    some (.list ((List.range count).map fun i =>
      .text (.ofList ((found.group? (i + 1)).getD []))))

/-- The match of a lexeme at a byte offset of a text. -/
def matchAt (lexeme : Lexeme) (text : List Char) (offset : Nat) : Option Hit :=
  match seek text offset with
  | none => none
  | some cursor =>
    match lexeme.recognizer.match? cursor with
    | none => none
    | some found =>
      let taken := cursor.rest.take found.taken
      if taken.isEmpty then none
      else some ⟨offset + byteSize taken, lexeme.valueOf taken found⟩

end Lexeme

end TreeScheme
