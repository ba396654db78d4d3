import TreeScheme.Grammar.Definition
import TreeScheme.Lexeme.Registry
import TreeScheme.Matcher.Step

/-!
# From patterns to steps

A vocabulary is what a grammar's names stand for: its lexemes, and the names of its definitions in
order. A lexeme wins over a definition of the same name. Looking up every name of a pattern makes it
a step; a name that the vocabulary lacks is an error, at offset zero because a pattern no longer
knows where its names stood.
-/

namespace TreeScheme

/-- What names stand for. -/
structure Vocabulary where
  lexemes : Registry
  /-- The names of the definitions, in the order of their declaration. -/
  definitions : List String

namespace Vocabulary

/-- What a name stands for. -/
def resolve (vocabulary : Vocabulary) (name : String) : Option Symbol :=
  if vocabulary.lexemes.contains name then some .lexeme
  else if vocabulary.definitions.contains name then some .definition
  else none

/-- The lexeme under a name, or an error. -/
def lexeme (vocabulary : Vocabulary) (name : String) : Except GrammarError Lexeme :=
  match vocabulary.lexemes.get? name with
  | some lexeme => .ok lexeme
  | none => .error (.unknownIdentifier name 0)

/-- The number of the definition under a name, or an error. -/
def definition (vocabulary : Vocabulary) (name : String) : Except GrammarError Nat :=
  match vocabulary.definitions.idxOf? name with
  | some index => .ok index
  | none => .error (.unknownIdentifier name 0)

/-- The step of a pattern, given which names capture lists. -/
def compile (vocabulary : Vocabulary) (plurality : Plurality) : Pattern → Except GrammarError Step
  | .leaf .lexeme id => do
    return .lexeme id (← vocabulary.lexeme id) (plurality.isList id)
  | .leaf .definition id => do
    return .definition id (← vocabulary.definition id) (plurality.isList id)
  | .sequence items => do return .sequence (← compileAll items)
  | .choice alternatives => do return .choice (← compileAll alternatives)
  | .quantified quantifier operand => do
    return .quantified quantifier (← vocabulary.compile plurality operand)
where
  /-- The steps of several patterns. -/
  compileAll : List Pattern → Except GrammarError (List Step)
  | [] => .ok []
  | pattern :: rest => do
    let step ← vocabulary.compile plurality pattern
    let steps ← compileAll rest
    return step :: steps

/-- The step of an expression. -/
def compileExpression (vocabulary : Vocabulary) (expression : Expression) :
    Except GrammarError Step :=
  match expression.root with
  | none => .ok .empty
  | some pattern => vocabulary.compile expression.plurality pattern

/-- The step of a case, with its ids. -/
def compileCase (vocabulary : Vocabulary) (case : Case) :
    Except GrammarError (List String × Step) := do
  return (case.ids, ← vocabulary.compileExpression case.expression)

/-- What the sequences of a definition come to: nothing, the only one, or a choice. -/
def fallbackOf : List Step → Option Step
  | [] => none
  | [only] => some only
  | steps => some (.choice steps)

/-- The body of a definition. -/
def compileBody (vocabulary : Vocabulary) (definition : Definition) :
    Except GrammarError Body := do
  let steps ← definition.sequences.mapM vocabulary.compileExpression
  let table ← definition.cases.mapM vocabulary.compileCase
  let fallback := fallbackOf steps
  return if table.isEmpty then .plain (fallback.getD .empty) else .cases table fallback

end Vocabulary

end TreeScheme
