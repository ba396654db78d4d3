import TreeScheme.Grammar.Error

/-!
# Why a scheme is refused

Every error speaks of one directive and says the row it was read from.
-/

namespace TreeScheme

open Text (quote)

/-- Why a scheme is refused. -/
inductive SchemeError where
  /-- A directive that needs an alias list has no argument. -/
  | missingAliases (tag : String) (row : Nat)
  /-- The argument of a directive does not start with an alias list. -/
  | badAliases (tag text : String) (row : Nat)
  /-- A lexeme without a pattern. -/
  | missingPattern (row : Nat)
  /-- A definition whose argument is not one name. -/
  | badName (text : String) (row : Nat)
  /-- A node where its tag may not stand. -/
  | unexpectedNode (tag : String) (row : Nat)
  /-- A directive whose lexeme, definition or expression is refused. -/
  | grammar (tag : String) (row : Nat) (cause : GrammarError)
deriving DecidableEq, Repr

namespace SchemeError

/-- The wording of an error. -/
def message : SchemeError → String
  | missingAliases tag row => s!"{tag}: missing alias list in row {row}"
  | badAliases tag text row => s!"{tag}: bad alias list " ++ quote text ++ s!" in row {row}"
  | missingPattern row => s!"lex: missing pattern in row {row}"
  | badName text row => "def: bad definition name " ++ quote text ++ s!" in row {row}"
  | unexpectedNode tag row => "node " ++ quote tag ++ s!" is not allowed here in row {row}"
  | grammar tag row cause => s!"{tag} in row {row}: " ++ cause.message

/-- The row of the directive. -/
def row : SchemeError → Nat
  | missingAliases _ row | badAliases _ _ row | missingPattern row | badName _ row
  | unexpectedNode _ row | grammar _ row _ => row

end SchemeError

end TreeScheme
