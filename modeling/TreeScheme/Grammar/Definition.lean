import TreeScheme.Expression

/-!
# Definitions

A definition is a named production: alternative sequences, and cases that a word selects. It is
first declared as a draft of plain texts, because its expressions may speak of names that are
declared later; they are read once all names are known.
-/

namespace TreeScheme

/-- A definition as declared. -/
structure Draft where
  name : String
  /-- The alternative sequences, in order. -/
  sequences : List String := []
  /-- The cases, in order: an alias list of ids, and what follows the id. -/
  cases : List (String × String) := []

/-- A case of a definition: the ids that select it, and what follows the id. -/
structure Case where
  ids : List String
  expression : Expression

/-- A definition that was read. -/
structure Definition where
  /-- Its position among the definitions of its grammar. -/
  index : Nat
  name : String
  sequences : List Expression
  cases : List Case

namespace Draft

/-- The draft with another sequence. -/
def addSequence (draft : Draft) (expression : String) : Draft :=
  { draft with sequences := draft.sequences ++ [expression] }

/-- The draft with another case. -/
def addCase (draft : Draft) (ids expression : String) : Draft :=
  { draft with cases := draft.cases ++ [(ids, expression)] }

/-- Reads cases; `taken` are the ids of the cases before them. -/
def readCases (resolve : String → Option Symbol) (taken : List String) :
    List (String × String) → Except GrammarError (List Case)
  | [] => .ok []
  | (list, source) :: rest =>
    let ids := aliases list
    if ids.isEmpty then .error (.emptyAliasList list)
    else
      match firstTaken taken ids with
      | some id => .error (.duplicateCase id)
      | none => do
        let expression ← Expression.read .full resolve source
        let cases ← readCases resolve (taken ++ ids) rest
        return ⟨ids, expression⟩ :: cases

/-- Reads the expressions of a draft. -/
def read (draft : Draft) (resolve : String → Option Symbol) (index : Nat) :
    Except GrammarError Definition := do
  let sequences ← draft.sequences.mapM (Expression.read .full resolve)
  let cases ← readCases resolve [] draft.cases
  return { index, name := draft.name, sequences, cases }

end Draft

/-- Whether a definition has neither sequences nor cases. It then matches without taking text. -/
def Definition.isEmpty (definition : Definition) : Bool :=
  definition.sequences.isEmpty && definition.cases.isEmpty

end TreeScheme
