import TreeScheme.Lexeme.Basic
import TreeScheme.Name

/-!
# The lexemes of a grammar

A registry holds lexemes in the order of their declaration, each with all its names. A declaration
is taken as a whole or not at all: its names must differ from each other and from all names before,
and its pattern must be a regular expression.
-/

namespace TreeScheme

/-- A lexeme and its names. -/
structure LexemeDeclaration where
  aliases : List String
  lexeme : Lexeme

/-- The declared lexemes, in order. -/
structure Registry where
  declarations : List LexemeDeclaration := []

namespace Registry

/-- All names, in the order of their declaration. -/
def names (registry : Registry) : List String :=
  registry.declarations.flatMap (·.aliases)

/-- The number of names. -/
def size (registry : Registry) : Nat :=
  registry.names.length

/-- The lexeme under a name. -/
def get? (registry : Registry) (name : String) : Option Lexeme :=
  (registry.declarations.find? (·.aliases.contains name)).map (·.lexeme)

/-- Whether a name is declared. -/
def contains (registry : Registry) (name : String) : Bool :=
  (registry.get? name).isSome

/-- Declares a lexeme under every name of an alias list. -/
def register (registry : Registry) (list pattern : String) (engine : Engine := Regex.engine) :
    Except GrammarError Registry :=
  let names := aliases list
  if names.isEmpty then .error (.emptyAliasList list)
  else
    match firstTaken registry.names names with
    | some name => .error (.duplicateLexeme name)
    | none =>
      (Lexeme.compile list pattern engine).map fun lexeme =>
        ⟨registry.declarations ++ [⟨names, lexeme⟩]⟩

/-- A name is declared exactly if it is one of the names. -/
theorem contains_iff_mem_names (registry : Registry) (name : String) :
    registry.contains name = true ↔ name ∈ registry.names := by
  simp [contains, get?, names]

end Registry

end TreeScheme
