import TreeScheme.Text.Quoted

/-!
# Why a grammar or an expression is refused

One type covers everything that can be wrong with lexemes, definitions and pattern expressions. An
error in an expression says where it is, as a byte offset into the expression; an error in the body
of a definition is wrapped in the definition's name and keeps its place.
-/

namespace TreeScheme

open Text (quote quoteChar)

/-- Why a grammar or an expression is refused. -/
inductive GrammarError where
  /-- A character that belongs to no token. -/
  | unexpectedCharacter (found : Char) (offset : Nat)
  /-- A group, opened at `offset`, that is not closed. -/
  | unclosedGroup (offset : Nat)
  /-- A group, opened at `offset`, that holds nothing. -/
  | emptyGroup (offset : Nat)
  /-- A quantifier behind nothing that it could apply to. -/
  | danglingQuantifier (quantifier : Char) (offset : Nat)
  /-- Nothing on one side of the bar at `offset`. -/
  | emptyAlternative (offset : Nat)
  /-- A name that is neither a lexeme nor a definition. -/
  | unknownIdentifier (name : String) (offset : Nat)
  /-- A token behind the end of the expression. -/
  | trailingTokens (token : String) (offset : Nat)
  /-- An alias list without names. -/
  | emptyAliasList (list : String)
  /-- A lexeme name that is taken. -/
  | duplicateLexeme (name : String)
  /-- A definition name that is taken. -/
  | duplicateDefinition (name : String)
  /-- A case that its definition has already. -/
  | duplicateCase (id : String)
  /-- A lexeme, given by its alias list, whose pattern is no regular expression. -/
  | invalidLexemePattern (aliases : String)
  /-- An error in the body of a definition. -/
  | inDefinition (name : String) (cause : GrammarError)
deriving DecidableEq, Repr

namespace GrammarError

/-- The wording of an error. -/
def message : GrammarError → String
  | unexpectedCharacter found offset =>
    "unexpected character " ++ quoteChar found ++ s!" at offset {offset}"
  | unclosedGroup offset => s!"group opened at offset {offset} is not closed"
  | emptyGroup offset => s!"empty group at offset {offset}"
  | danglingQuantifier quantifier offset =>
    s!"quantifier '{quantifier}' at offset {offset} has no operand"
  | emptyAlternative offset => s!"empty alternative at offset {offset}"
  | unknownIdentifier name offset =>
    "unknown lexeme or definition " ++ quote name ++ s!" at offset {offset}"
  | trailingTokens token offset => "unexpected token " ++ quote token ++ s!" at offset {offset}"
  | emptyAliasList list => "empty alias list " ++ quote list
  | duplicateLexeme name => s!"lexeme {name} is already defined"
  | duplicateDefinition name => s!"definition {name} is already defined"
  | duplicateCase id => s!"case {id} is already defined"
  | invalidLexemePattern aliases =>
    s!"invalid pattern for lexeme {aliases}: error parsing pattern 0"
  | inDefinition name cause => s!"in definition {name}: " ++ cause.message

/-- The place in the expression, if the error has one. -/
def offset? : GrammarError → Option Nat
  | unexpectedCharacter _ offset | unclosedGroup offset | emptyGroup offset
  | danglingQuantifier _ offset | emptyAlternative offset | unknownIdentifier _ offset
  | trailingTokens _ offset => some offset
  | emptyAliasList _ | duplicateLexeme _ | duplicateDefinition _ | duplicateCase _
  | invalidLexemePattern _ => none
  | inDefinition _ cause => cause.offset?

end GrammarError

end TreeScheme
