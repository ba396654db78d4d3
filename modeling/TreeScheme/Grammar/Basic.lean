import TreeScheme.Grammar.Vocabulary
import TreeScheme.Limits
import TreeScheme.Matcher.Basic

/-!
# Grammars

A grammar is a set of lexemes and definitions whose bodies are ready to run, with the limits for
matching. It reads expressions over its names and makes matchers of them. `Builder` collects the
declarations, in any order, and makes the grammar of them once all names are known.
-/

namespace TreeScheme

/-- Lexemes and definitions, ready to run. -/
structure Grammar where
  limits : Limits
  lexemes : Registry
  definitions : List Definition
  /-- The body of each definition, in the same order. -/
  bodies : List Body

namespace Grammar

/-- What the names of a grammar stand for. -/
def vocabulary (grammar : Grammar) : Vocabulary :=
  ⟨grammar.lexemes, grammar.definitions.map (·.name)⟩

/-- The definition under a name. -/
def definition? (grammar : Grammar) (name : String) : Option Definition :=
  grammar.definitions.find? (·.name == name)

/-- Reads an expression over the names of a grammar. -/
def read (grammar : Grammar) (flavor : Flavor) (text : String) : Except GrammarError Expression :=
  Expression.read flavor grammar.vocabulary.resolve text

/-- The matcher of an expression. -/
def compile (grammar : Grammar) (expression : Expression) : Except GrammarError Matcher := do
  let step ← grammar.vocabulary.compileExpression expression
  return { expression, step, bodies := grammar.bodies, limit := grammar.limits.maxRecursionDepth }

/-- The matcher of a text in a flavor. -/
def matcherIn (grammar : Grammar) (flavor : Flavor) (text : String) :
    Except GrammarError Matcher := do
  grammar.compile (← grammar.read flavor text)

/-- The matcher of a text. -/
def matcher (grammar : Grammar) (text : String) : Except GrammarError Matcher :=
  grammar.matcherIn .full text

end Grammar

/-- Declarations on the way to a grammar. -/
structure Builder where
  limits : Limits := {}
  lexemes : Registry := {}
  /-- The definitions, in the order of their declaration. -/
  drafts : List Draft := []

namespace Builder

/-- Declares a lexeme. -/
def lex (builder : Builder) (list pattern : String) (engine : Engine := Regex.engine) :
    Except GrammarError Builder := do
  return { builder with lexemes := ← builder.lexemes.register list pattern engine }

/-- Whether there is a definition with a name. -/
def defines (builder : Builder) (name : String) : Bool :=
  builder.drafts.any (·.name == name)

/-- Whether there is a lexeme or a definition with a name. -/
def declares (builder : Builder) (name : String) : Bool :=
  builder.lexemes.contains name || builder.defines name

/-- Refuses the name of a definition that is declared already. -/
def checkFresh (builder : Builder) (name : String) : Except GrammarError Unit :=
  if builder.defines name then .error (.duplicateDefinition name) else .ok ()

/-- Declares a definition. -/
def define (builder : Builder) (draft : Draft) : Except GrammarError Builder := do
  builder.checkFresh draft.name
  return { builder with drafts := builder.drafts ++ [draft] }

/-- What the declared names stand for. -/
def vocabulary (builder : Builder) : Vocabulary :=
  ⟨builder.lexemes, builder.drafts.map (·.name)⟩

/-- Puts the name of the definition around an error that arose in it. -/
def within {α : Type} (name : String) : Except GrammarError α → Except GrammarError α
  | .ok a => .ok a
  | .error cause => .error (.inDefinition name cause)

/-- Reads all definitions, in order, and makes them ready to run. -/
def build (builder : Builder) : Except GrammarError Grammar := do
  let vocabulary := builder.vocabulary
  let definitions ← builder.drafts.zipIdx.mapM fun (draft, index) =>
    within draft.name (draft.read vocabulary.resolve index)
  let bodies ← definitions.mapM fun definition =>
    within definition.name (vocabulary.compileBody definition)
  return { limits := builder.limits, lexemes := builder.lexemes, definitions, bodies }

end Builder

end TreeScheme
