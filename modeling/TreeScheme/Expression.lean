import TreeScheme.Pattern.Plurality
import TreeScheme.Pattern.Printer
import TreeScheme.Pattern.Reader

/-!
# Expressions

An expression is a text that was read as a pattern. A text without tokens is the empty expression,
which has no pattern and matches without taking anything. Its canonical text is the one text that
stands for all spellings of the same pattern.
-/

namespace TreeScheme

/-- A text and the pattern that was read from it. -/
structure Expression where
  /-- The text as written. -/
  source : String
  /-- The pattern, unless the expression is empty. -/
  root : Option Pattern
deriving DecidableEq

namespace Expression

/-- Reads an expression, given what names stand for. -/
def read (flavor : Flavor) (resolve : String → Option Symbol) (source : String) :
    Except GrammarError Expression := do
  return ⟨source, ← Pattern.read flavor resolve source.toList⟩

/-- Whether there is no pattern. -/
def isEmpty (expression : Expression) : Bool :=
  expression.root.isNone

/-- The canonical text. -/
def canonical (expression : Expression) : String :=
  match expression.root with
  | some pattern => pattern.text
  | none => ""

/-- Which names capture lists. -/
def plurality (expression : Expression) : Plurality :=
  match expression.root with
  | some pattern => .ofPattern pattern
  | none => []

end Expression

end TreeScheme
