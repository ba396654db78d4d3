import TreeScheme.Proofs.Matcher.Derivation
import TreeScheme.Proofs.Result

/-!
# What steps and bodies were made from

Compiling looks up every name of a pattern and may be refused. `Compiled` says what a step was made
from once it was not: it is a relation between patterns and steps, so a proof about a step reads off
the pattern by cases instead of running the compiler backwards. `CompiledBody` does the same for the
bodies of definitions, which come in two shapes, and `Grammar.Linked` for a whole grammar: its
bodies stand in the order of its definitions, each made from the definition at its place.

Every grammar that a builder makes is linked (`linked_of_build`), whatever was declared and in
whatever order.
-/

namespace TreeScheme

/-! ## Looking up and compiling -/

namespace Vocabulary

variable {vocabulary : Vocabulary}

theorem lexeme_eq_ok_iff {name : String} {leaf : Lexeme} :
    vocabulary.lexeme name = .ok leaf ↔ vocabulary.lexemes.get? name = some leaf := by
  rw [lexeme]
  cases vocabulary.lexemes.get? name <;> simp

theorem definition_eq_ok_iff {name : String} {index : Nat} :
    vocabulary.definition name = .ok index ↔ vocabulary.definitions.idxOf? name = some index := by
  rw [definition]
  cases vocabulary.definitions.idxOf? name <;> simp

theorem compileCase_eq_ok_iff {case : Case} {entry : List String × Step} :
    vocabulary.compileCase case = .ok entry ↔
      entry.1 = case.ids ∧ vocabulary.compileExpression case.expression = .ok entry.2 := by
  constructor
  · intro compiled
    obtain ⟨step, here, same⟩ := bind_eq_ok.mp compiled
    cases same
    exact ⟨rfl, here⟩
  · obtain ⟨ids, step⟩ := entry
    rintro ⟨rfl, here⟩
    exact bind_eq_ok.mpr ⟨step, here, rfl⟩

end Vocabulary

/-! ## Steps -/

/-- What a step was made from: a pattern, or no pattern. -/
inductive Compiled (vocabulary : Vocabulary) (plurality : Plurality) :
    Option Pattern → Step → Prop where
  | empty : Compiled vocabulary plurality none .empty
  | lexeme {id leaf} :
    vocabulary.lexemes.get? id = some leaf →
    Compiled vocabulary plurality (some (.leaf .lexeme id))
      (.lexeme id leaf (plurality.isList id))
  | definition {id index} :
    vocabulary.definitions.idxOf? id = some index →
    Compiled vocabulary plurality (some (.leaf .definition id))
      (.definition id index (plurality.isList id))
  | sequence {items steps} :
    List.Forall₂ (fun item step => Compiled vocabulary plurality (some item) step) items steps →
    Compiled vocabulary plurality (some (.sequence items)) (.sequence steps)
  | choice {alternatives steps} :
    List.Forall₂ (fun item step => Compiled vocabulary plurality (some item) step)
      alternatives steps →
    Compiled vocabulary plurality (some (.choice alternatives)) (.choice steps)
  | quantified {quantifier operand step} :
    Compiled vocabulary plurality (some operand) step →
    Compiled vocabulary plurality (some (.quantified quantifier operand))
      (.quantified quantifier step)

section Patterns

variable {vocabulary : Vocabulary} {plurality : Plurality}

mutual

/-- A pattern that compiles is what its step was made from. -/
theorem compiled_of_compile : ∀ {pattern : Pattern} {step : Step},
    vocabulary.compile plurality pattern = .ok step →
    Compiled vocabulary plurality (some pattern) step
  | .leaf .lexeme id, step, compiled => by
    obtain ⟨leaf, known, same⟩ := bind_eq_ok.mp compiled
    cases same
    exact .lexeme (Vocabulary.lexeme_eq_ok_iff.mp known)
  | .leaf .definition id, step, compiled => by
    obtain ⟨index, known, same⟩ := bind_eq_ok.mp compiled
    cases same
    exact .definition (Vocabulary.definition_eq_ok_iff.mp known)
  | .sequence items, step, compiled => by
    obtain ⟨steps, known, same⟩ := bind_eq_ok.mp compiled
    cases same
    exact .sequence (compiled_of_compileAll known)
  | .choice alternatives, step, compiled => by
    obtain ⟨steps, known, same⟩ := bind_eq_ok.mp compiled
    cases same
    exact .choice (compiled_of_compileAll known)
  | .quantified quantifier operand, step, compiled => by
    obtain ⟨inner, known, same⟩ := bind_eq_ok.mp compiled
    cases same
    exact .quantified (compiled_of_compile known)

/-- Patterns that compile are what their steps were made from. -/
theorem compiled_of_compileAll : ∀ {patterns : List Pattern} {steps : List Step},
    Vocabulary.compile.compileAll vocabulary plurality patterns = .ok steps →
    List.Forall₂ (fun pattern step => Compiled vocabulary plurality (some pattern) step)
      patterns steps
  | [], steps, compiled => by
    cases compiled
    exact .nil
  | pattern :: rest, steps, compiled => by
    obtain ⟨step, here, later⟩ := bind_eq_ok.mp compiled
    obtain ⟨others, known, same⟩ := bind_eq_ok.mp later
    cases same
    exact .cons (compiled_of_compile here) (compiled_of_compileAll known)

end

/-- An expression that compiles is what its step was made from. -/
theorem compiled_of_compileExpression {expression : Expression} {step : Step}
    (compiled : vocabulary.compileExpression expression = .ok step) :
    Compiled vocabulary expression.plurality expression.root step := by
  obtain ⟨source, root⟩ := expression
  cases root with
  | none =>
    cases compiled
    exact .empty
  | some pattern => exact compiled_of_compile compiled

end Patterns

/-! ## Bodies -/

/-- What the steps of some expressions were made from. -/
abbrev CompiledExpressions (vocabulary : Vocabulary) : List Expression → List Step → Prop :=
  List.Forall₂ fun expression step =>
    Compiled vocabulary expression.plurality expression.root step

/-- What a body was made from: a definition without cases, or one with a table of them. -/
inductive CompiledBody (vocabulary : Vocabulary) (definition : Definition) : Body → Prop where
  | plain {steps step} :
    definition.cases = [] →
    CompiledExpressions vocabulary definition.alternatives steps →
    Vocabulary.fallbackOf steps = some step →
    CompiledBody vocabulary definition (.plain step)
  | cases {steps table} :
    CompiledExpressions vocabulary definition.alternatives steps →
    List.Forall₂ (fun (case : Case) (entry : List String × Step) => case.ids = entry.1 ∧
      Compiled vocabulary case.expression.plurality case.expression.root entry.2)
      definition.cases table →
    CompiledBody vocabulary definition (.cases table (Vocabulary.fallbackOf steps))

/-- A definition that compiles is what its body was made from. -/
theorem compiledBody_of_compileBody {vocabulary : Vocabulary} {definition : Definition}
    {body : Body} (compiled : vocabulary.compileBody definition = .ok body) :
    CompiledBody vocabulary definition body := by
  obtain ⟨steps, sequencesOk, rest⟩ := bind_eq_ok.mp compiled
  obtain ⟨table, casesOk, same⟩ := bind_eq_ok.mp rest
  cases same
  have sequences : CompiledExpressions vocabulary definition.sequences steps :=
    (mapM_eq_ok.mp sequencesOk).imp fun _ _ => compiled_of_compileExpression
  have entries := mapM_eq_ok.mp casesOk
  cases table with
  | nil =>
    have noCases : definition.cases = [] := List.forall₂_nil_right_iff.mp entries
    -- Without cases and sequences the body is the empty step, made from the empty expression.
    cases steps with
    | nil =>
      have noSequences : definition.sequences = [] := List.forall₂_nil_right_iff.mp sequences
      have nothing : definition.alternatives = [⟨"", none⟩] := by
        simp [Definition.alternatives, Definition.isEmpty, noCases, noSequences]
      have compiled : CompiledExpressions vocabulary definition.alternatives [.empty] := by
        rw [nothing]
        exact .cons .empty .nil
      exact .plain noCases compiled rfl
    | cons step steps =>
      have alternatives : definition.alternatives = definition.sequences := by
        have some : definition.sequences ≠ [] := by
          intro none
          rw [none] at sequences
          cases sequences
        simp [Definition.alternatives, Definition.isEmpty, some]
      refine .plain noCases (alternatives ▸ sequences) ?_
      cases steps <;> rfl
  | cons entry table =>
    have alternatives : definition.alternatives = definition.sequences := by
      have some : definition.cases ≠ [] := by
        intro none
        rw [none] at entries
        cases entries
      simp [Definition.alternatives, Definition.isEmpty, some]
    refine .cases (alternatives ▸ sequences) (entries.imp fun case entry made => ?_)
    obtain ⟨ids, known⟩ := Vocabulary.compileCase_eq_ok_iff.mp made
    exact ⟨ids.symm, compiled_of_compileExpression known⟩

/-! ## Grammars -/

/-- The bodies of a grammar are made from its definitions, in order. -/
def Grammar.Linked (grammar : Grammar) : Prop :=
  List.Forall₂ (CompiledBody grammar.vocabulary) grammar.definitions grammar.bodies

/-- Naming the definition around an error changes no result. -/
theorem within_eq_ok {α : Type} {name : String} {result : Except GrammarError α} {a : α} :
    Builder.within name result = .ok a ↔ result = .ok a := by
  cases result with
  | ok b => exact Iff.rfl
  | error e =>
    constructor <;>
    · intro h
      cases h

/-- Reading a draft keeps its name. -/
theorem Draft.name_of_read {draft : Draft} {resolve : String → Option Symbol} {index : Nat}
    {definition : Definition} (read : draft.read resolve index = .ok definition) :
    definition.name = draft.name := by
  obtain ⟨sequences, _, rest⟩ := bind_eq_ok.mp read
  obtain ⟨cases, _, same⟩ := bind_eq_ok.mp rest
  cases same
  rfl

/-- The vocabulary that the bodies were compiled with is that of the finished grammar. -/
theorem Builder.vocabulary_of_build {builder : Builder} {grammar : Grammar}
    (built : builder.build = .ok grammar) : grammar.vocabulary = builder.vocabulary := by
  obtain ⟨definitions, readAll, rest⟩ := bind_eq_ok.mp built
  obtain ⟨bodies, _, same⟩ := bind_eq_ok.mp rest
  cases same
  have names : builder.drafts.map Draft.name = definitions.map Definition.name := by
    have pairwise : List.Forall₂ (fun (entry : Draft × Nat) (definition : Definition) =>
        entry.1.name = definition.name) builder.drafts.zipIdx definitions :=
      (mapM_eq_ok.mp readAll).imp fun entry definition read =>
        (Draft.name_of_read (within_eq_ok.mp read)).symm
    have mapped : builder.drafts.zipIdx.map (Draft.name ∘ Prod.fst) =
        definitions.map Definition.name := by
      rw [← List.forall₂_eq_eq_eq, List.forall₂_map_left_iff, List.forall₂_map_right_iff]
      exact pairwise
    rw [← mapped, ← List.map_map, List.zipIdx_map_fst]
  rw [Grammar.vocabulary, Builder.vocabulary]
  exact congrArg _ names.symm

/-- The limits of a grammar are those of its builder. -/
theorem Builder.limits_of_build {builder : Builder} {grammar : Grammar}
    (built : builder.build = .ok grammar) : grammar.limits = builder.limits := by
  obtain ⟨definitions, _, rest⟩ := bind_eq_ok.mp built
  obtain ⟨bodies, _, same⟩ := bind_eq_ok.mp rest
  cases same
  rfl

/-- Every grammar that a builder makes is linked. -/
theorem linked_of_build {builder : Builder} {grammar : Grammar}
    (built : builder.build = .ok grammar) : grammar.Linked := by
  have vocabulary := Builder.vocabulary_of_build built
  obtain ⟨definitions, _, rest⟩ := bind_eq_ok.mp built
  obtain ⟨bodies, compiledAll, same⟩ := bind_eq_ok.mp rest
  cases same
  rw [Grammar.Linked, vocabulary]
  exact (mapM_eq_ok.mp compiledAll).imp fun definition body compiled =>
    compiledBody_of_compileBody (within_eq_ok.mp compiled)

/-- The definition under a name is the one at the place that its number names. -/
theorem Grammar.definition?_of_idxOf? {grammar : Grammar} {id : String} {index : Nat}
    (found : grammar.vocabulary.definitions.idxOf? id = some index) :
    ∃ definition, grammar.definition? id = some definition ∧
      grammar.definitions[index]? = some definition := by
  simp only [Grammar.vocabulary, Grammar.definition?] at *
  generalize grammar.definitions = definitions at *
  induction definitions generalizing index with
  | nil => cases found
  | cons definition definitions ih =>
    rw [List.map_cons, List.idxOf?_cons] at found
    cases h : definition.name == id with
    | true =>
      simp only [h, if_true, Option.some.injEq] at found
      subst found
      exact ⟨definition, List.find?_cons_of_pos h, rfl⟩
    | false =>
      simp only [h, Bool.false_eq_true, if_false] at found
      obtain ⟨before, later, rfl⟩ := Option.map_eq_some_iff.mp found
      obtain ⟨other, named, there⟩ := ih later
      refine ⟨other, ?_, there⟩
      rw [List.find?_cons_of_neg (by simp [h])]
      exact named

/-- What stands at a place of one list stands in relation to what stands at that place of the
other. -/
theorem forall₂_getElem? {α β : Type} {related : α → β → Prop} {first : List α} {second : List β}
    (all : List.Forall₂ related first second) {index : Nat} {a : α}
    (here : first[index]? = some a) : ∃ b, second[index]? = some b ∧ related a b := by
  induction all generalizing index with
  | nil => cases here
  | @cons a' b' _ _ head _ ih =>
    cases index with
    | zero =>
      cases here
      exact ⟨b', rfl, head⟩
    | succ index => exact ih here

/-- A linked grammar has a body for each of its names, made from the definition under the name. -/
theorem Grammar.Linked.body_of_idxOf? {grammar : Grammar} (linked : grammar.Linked) {id : String}
    {index : Nat} (found : grammar.vocabulary.definitions.idxOf? id = some index) :
    ∃ definition body, grammar.definition? id = some definition ∧
      grammar.bodies[index]? = some body ∧ CompiledBody grammar.vocabulary definition body := by
  obtain ⟨definition, named, here⟩ := Grammar.definition?_of_idxOf? found
  obtain ⟨body, there, made⟩ := forall₂_getElem? linked here
  exact ⟨definition, body, named, there, made⟩

/-- A definition without cases that has a sequence is a production: its body is made from its
sequences alone, as the choice of them or the only one. -/
theorem Grammar.exists_production {builder : Builder} {grammar : Grammar}
    (built : builder.build = .ok grammar) {id : String} {index : Nat}
    (found : grammar.vocabulary.definitions.idxOf? id = some index) {definition : Definition}
    (named : grammar.definition? id = some definition) (noCases : definition.cases = [])
    (written : definition.sequences ≠ []) :
    ∃ steps step, CompiledExpressions grammar.vocabulary definition.sequences steps ∧
      Vocabulary.fallbackOf steps = some step ∧ grammar.bodies[index]? = some (.plain step) := by
  have vocabulary := Builder.vocabulary_of_build built
  obtain ⟨other, namedOther, here⟩ := Grammar.definition?_of_idxOf? found
  cases named.symm.trans namedOther
  obtain ⟨definitions, _, rest⟩ := bind_eq_ok.mp built
  obtain ⟨bodies, compiledAll, same⟩ := bind_eq_ok.mp rest
  cases same
  rw [vocabulary]
  obtain ⟨body, there, made⟩ := forall₂_getElem? (mapM_eq_ok.mp compiledAll) here
  obtain ⟨steps, sequencesOk, rest⟩ := bind_eq_ok.mp (within_eq_ok.mp made)
  rw [noCases] at rest
  cases rest
  have sequences : CompiledExpressions builder.vocabulary definition.sequences steps :=
    (mapM_eq_ok.mp sequencesOk).imp fun _ _ => compiled_of_compileExpression
  refine ⟨steps, (Vocabulary.fallbackOf steps).getD .empty, sequences, ?_, there⟩
  rcases steps with _ | ⟨step, _ | ⟨next, steps⟩⟩
  · exact absurd (List.forall₂_nil_right_iff.mp sequences) written
  · rfl
  · rfl

end TreeScheme
