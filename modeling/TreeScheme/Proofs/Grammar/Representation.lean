import TreeScheme.Proofs.Grammar.Rearranged
import TreeScheme.Proofs.Matcher.Calls

/-!
# How a grammar holds its definitions

A grammar keeps its definitions in one list and their bodies in another, finds definitions by their
names, and finds the cases of a definition by their ids. `Grammar.Represents` says that all of this
fits together: a definition has the number of its place, is found under its name by that number,
has its body at that place, and the body dispatches to the case that a word is an id of.

Every grammar that is made of definitions with names of their own is such
(`Builder.represents_of_build`). A step that it compiles, and every body, then calls definitions
that have a body only (`Grammar.Represents.runOr_eq`).
-/

namespace TreeScheme

/-! ## Numbers of definitions -/

namespace Vocabulary

variable {vocabulary : Vocabulary}

/-- Where names differ, a name has the number of its place. -/
theorem definition_eq_ok_iff_getElem? (distinct : vocabulary.definitions.Nodup) {name : String}
    {index : Nat} :
    vocabulary.definition name = .ok index ↔ vocabulary.definitions[index]? = some name := by
  rw [definition_eq_ok_iff, List.idxOf?_eq_some_iff]
  constructor
  · rintro ⟨inside, here, _⟩
    exact List.getElem?_eq_some_iff.mpr ⟨inside, here⟩
  · intro found
    obtain ⟨inside, here⟩ := List.getElem?_eq_some_iff.mp found
    refine ⟨inside, here, fun earlier before same => ?_⟩
    have places : earlier = index := distinct.getElem_inj_iff.mp (same.trans here.symm)
    omega

/-- The definition under a name is one of all. -/
theorem lt_of_definition {name : String} {index : Nat}
    (found : vocabulary.definition name = .ok index) : index < vocabulary.definitions.length := by
  obtain ⟨inside, _⟩ := List.idxOf?_eq_some_iff.mp (definition_eq_ok_iff.mp found)
  exact inside

variable {plurality : Plurality}

mutual

/-- The step of a pattern calls definitions of the vocabulary only. -/
theorem calls_of_compile : ∀ {pattern : Pattern} {step : Step},
    vocabulary.compile plurality pattern = .ok step →
    ∀ index ∈ step.calls, index < vocabulary.definitions.length
  | .leaf .lexeme id, step, compiled => by
    obtain ⟨leaf, _, same⟩ := bind_eq_ok.mp compiled
    cases same
    exact fun _ mem => absurd mem List.not_mem_nil
  | .leaf .definition id, step, compiled => by
    obtain ⟨number, found, same⟩ := bind_eq_ok.mp compiled
    cases same
    intro index mem
    rw [List.mem_singleton.mp mem]
    exact lt_of_definition found
  | .sequence items, step, compiled => by
    obtain ⟨steps, here, same⟩ := bind_eq_ok.mp compiled
    cases same
    exact calls_of_compileAll here
  | .choice alternatives, step, compiled => by
    obtain ⟨steps, here, same⟩ := bind_eq_ok.mp compiled
    cases same
    exact calls_of_compileAll here
  | .quantified quantifier operand, step, compiled => by
    obtain ⟨inner, here, same⟩ := bind_eq_ok.mp compiled
    cases same
    have calls := calls_of_compile here
    exact calls

theorem calls_of_compileAll : ∀ {patterns : List Pattern} {steps : List Step},
    compile.compileAll vocabulary plurality patterns = .ok steps →
    ∀ index ∈ Step.calls.callsAll steps, index < vocabulary.definitions.length
  | [], steps, compiled => by
    cases compiled
    exact fun _ mem => absurd mem List.not_mem_nil
  | pattern :: rest, steps, compiled => by
    obtain ⟨step, here, later⟩ := bind_eq_ok.mp compiled
    obtain ⟨others, there, same⟩ := bind_eq_ok.mp later
    cases same
    exact List.forall_mem_append.mpr ⟨calls_of_compile here, calls_of_compileAll there⟩

end

/-- The step of an expression calls definitions of the vocabulary only. -/
theorem calls_of_compileExpression {expression : Expression} {step : Step}
    (compiled : vocabulary.compileExpression expression = .ok step) :
    ∀ index ∈ step.calls, index < vocabulary.definitions.length := by
  obtain ⟨source, root⟩ := expression
  cases root with
  | none =>
    cases compiled
    exact fun _ mem => absurd mem List.not_mem_nil
  | some pattern => exact calls_of_compile compiled

/-! ## Bodies -/

/-- What sequences come to calls what they call. -/
theorem calls_of_fallbackOf {steps : List Step} {step : Step}
    (same : fallbackOf steps = some step) : step.calls = steps.flatMap Step.calls := by
  match steps with
  | [only] =>
    cases same
    rw [List.flatMap_singleton]
  | first :: second :: rest =>
    cases same
    rw [Step.calls, Step.callsAll_eq_flatMap]

/-- The body of a definition calls definitions of the vocabulary only. -/
theorem calls_of_compileBody {definition : Definition} {body : Body}
    (compiled : vocabulary.compileBody definition = .ok body) :
    ∀ index ∈ body.calls, index < vocabulary.definitions.length := by
  obtain ⟨steps, stepsOk, rest⟩ := bind_eq_ok.mp compiled
  obtain ⟨table, tableOk, same⟩ := bind_eq_ok.mp rest
  have inSteps : ∀ index ∈ steps.flatMap Step.calls, index < vocabulary.definitions.length := by
    intro index mem
    obtain ⟨step, listed, called⟩ := List.mem_flatMap.mp mem
    obtain ⟨expression, _, here⟩ := exists_of_forall₂ (mapM_eq_ok.mp stepsOk).flip listed
    exact calls_of_compileExpression here index called
  have inTable : ∀ index ∈ table.flatMap (fun entry => entry.2.calls),
      index < vocabulary.definitions.length := by
    intro index mem
    obtain ⟨entry, listed, called⟩ := List.mem_flatMap.mp mem
    obtain ⟨case, _, here⟩ := exists_of_forall₂ (mapM_eq_ok.mp tableOk).flip listed
    exact calls_of_compileExpression (compileCase_eq_ok_iff.mp here).2 index called
  have inFallback : ∀ index ∈ (fallbackOf steps).elim [] Step.calls,
      index < vocabulary.definitions.length := by
    intro index mem
    cases found : fallbackOf steps with
    | none =>
      rw [found] at mem
      exact absurd mem List.not_mem_nil
    | some step =>
      rw [found, Option.elim_some, calls_of_fallbackOf found] at mem
      exact inSteps index mem
  split at same
  · cases same
    cases found : fallbackOf steps with
    | none => exact fun _ mem => absurd mem List.not_mem_nil
    | some step =>
      rw [found] at inFallback
      exact inFallback
  · cases same
    exact List.forall_mem_append.mpr ⟨inTable, inFallback⟩

end Vocabulary

/-! ## Cases -/

namespace Body

/-- The case that a body selects at an offset, if it does: the id there, and the step behind it. -/
def caseAt? (text : List Char) (offset : Nat) : Body → Option (String × Step)
  | plain _ => none
  | cases table _ => selected? table text offset

/-- The word at an offset selects what stands in the table under it. -/
theorem selected?_eq_some_iff {table : List (List String × Step)} {text : List Char}
    {offset : Nat} {id : String} {step : Step} :
    selected? table text offset = some (id, step) ↔
      nameAt text offset = some id.toList ∧ case? table id = some step := by
  refine ⟨nameAt_of_selected, fun ⟨word, found⟩ => ?_⟩
  simp only [selected?, word, String.ofList_toList, found, Option.map_some]

/-- Where the ids of a table differ, an id has the step of the entry that it stands in. -/
theorem case?_eq_some_iff {table : List (List String × Step)}
    (distinct : (table.flatMap (·.1)).Nodup) {id : String} {step : Step} :
    case? table id = some step ↔ ∃ entry ∈ table, id ∈ entry.1 ∧ entry.2 = step := by
  rw [case?, Option.map_eq_some_iff]
  constructor
  · rintro ⟨entry, found, same⟩
    have fits := List.find?_some found
    exact ⟨entry, List.mem_of_find?_eq_some found, List.contains_iff_mem.mp fits, same⟩
  · rintro ⟨entry, listed, named, same⟩
    have some : (table.find? (·.1.contains id)).isSome = true :=
      List.find?_isSome.mpr ⟨entry, listed, List.contains_iff_mem.mpr named⟩
    obtain ⟨first, found⟩ := Option.isSome_iff_exists.mp some
    have fits := List.find?_some found
    have one : first = entry := eq_of_shared_name distinct (List.mem_of_find?_eq_some found) listed
      (List.contains_iff_mem.mp fits) named
    exact ⟨entry, one ▸ found, same⟩

end Body

/-- A body dispatches to the cases of a definition. -/
structure Definition.Dispatched (vocabulary : Vocabulary) (definition : Definition) (body : Body) :
    Prop where
  /-- An id stands in one case only. -/
  only : ∀ {first second : Nat} {case other : Case} {id : String},
    definition.cases[first]? = some case → definition.cases[second]? = some other →
    id ∈ case.ids → id ∈ other.ids → first = second
  /-- A word selects the case that it is an id of, and nothing else is selected. -/
  selects : ∀ {text : List Char} {offset : Nat} {id : String} {step : Step},
    body.caseAt? text offset = some (id, step) ↔
      nameAt text offset = some id.toList ∧ ∃ case ∈ definition.cases,
        id ∈ case.ids ∧ vocabulary.compileExpression case.expression = .ok step

/-- Where all ids differ, an id tells the place of its case. -/
theorem eq_of_shared_id {cases : List Case} (distinct : (cases.flatMap (·.ids)).Nodup)
    {first second : Nat} {case other : Case} {id : String} (here : cases[first]? = some case)
    (there : cases[second]? = some other) (ofCase : id ∈ case.ids) (ofOther : id ∈ other.ids) :
    first = second := by
  have numbered : (cases.zipIdx.flatMap (·.1.ids)).Nodup := by
    rw [← List.zipIdx_map_fst 0 cases, List.flatMap_map] at distinct
    exact distinct
  have same := eq_of_shared_name (a := (case, first)) (b := (other, second)) numbered
    (List.mem_zipIdx_iff_getElem?.mpr here) (List.mem_zipIdx_iff_getElem?.mpr there) ofCase ofOther
  exact (Prod.mk.inj same).2

/-- The body of a definition whose cases have ids of their own dispatches to its cases. -/
theorem Vocabulary.dispatched_of_compileBody {vocabulary : Vocabulary} {definition : Definition}
    {body : Body} (distinct : (definition.cases.flatMap (·.ids)).Nodup)
    (compiled : vocabulary.compileBody definition = .ok body) :
    definition.Dispatched vocabulary body := by
  refine ⟨eq_of_shared_id distinct, fun {text offset id step} => ?_⟩
  obtain ⟨steps, _, rest⟩ := bind_eq_ok.mp compiled
  obtain ⟨table, tableOk, same⟩ := bind_eq_ok.mp rest
  have entries := mapM_eq_ok.mp tableOk
  have inTable : (∃ entry ∈ table, id ∈ entry.1 ∧ entry.2 = step) ↔ ∃ case ∈ definition.cases,
      id ∈ case.ids ∧ vocabulary.compileExpression case.expression = .ok step := by
    constructor
    · rintro ⟨entry, listed, named, rfl⟩
      obtain ⟨case, mem, made⟩ := exists_of_forall₂ entries.flip listed
      obtain ⟨ids, here⟩ := compileCase_eq_ok_iff.mp made
      exact ⟨case, mem, ids ▸ named, here⟩
    · rintro ⟨case, mem, named, here⟩
      obtain ⟨entry, listed, made⟩ := exists_of_forall₂ entries mem
      obtain ⟨ids, there⟩ := compileCase_eq_ok_iff.mp made
      exact ⟨entry, listed, ids ▸ named, Except.ok.inj (there.symm.trans here)⟩
  have unique : (table.flatMap (·.1)).Nodup := by
    rw [ids_of_compileCases tableOk]
    exact distinct
  rw [← inTable]
  cases table with
  | nil =>
    cases same
    simp [Body.caseAt?]
  | cons entry table =>
    cases same
    rw [← Body.case?_eq_some_iff unique]
    exact Body.selected?_eq_some_iff

/-! ## Grammars -/

/-- A grammar is made of definitions, in their order, and everything that it keeps about them fits
together. -/
structure Grammar.Represents (grammar : Grammar) (drafts : List Draft) : Prop where
  /-- Its definitions are these ones as they are read. -/
  definitions : List.Forall₂ (Draft.Reads grammar.vocabulary.resolve) drafts grammar.definitions
  /-- A definition has the number of its place. -/
  numbered : ∀ {index : Nat} {definition : Definition},
    grammar.definitions[index]? = some definition → definition.index = index
  /-- A name has the number of the definition with that name, and other names have none. -/
  names : ∀ {name : String} {index : Nat}, grammar.vocabulary.definition name = .ok index ↔
    ∃ definition, grammar.definitions[index]? = some definition ∧ definition.name = name
  /-- Every definition has its body at its place, and the body dispatches to its cases. -/
  bodies : List.Forall₂ (fun definition body =>
    grammar.vocabulary.compileBody definition = .ok body ∧
    definition.Dispatched grammar.vocabulary body) grammar.definitions grammar.bodies

/-- **A grammar represents what it is made of**, if its definitions have names of their own. -/
theorem Builder.represents_of_build {builder : Builder}
    (distinct : (builder.drafts.map Draft.name).Nodup) {grammar : Grammar}
    (built : builder.build = .ok grammar) : grammar.Represents builder.drafts := by
  have vocabulary := vocabulary_of_build built
  have reads := reads_of_build built
  obtain ⟨definitions, readAll, rest⟩ := bind_eq_ok.mp built
  obtain ⟨bodies, compiledAll, same⟩ := bind_eq_ok.mp rest
  cases same
  rw [← vocabulary] at reads compiledAll
  refine ⟨reads, fun {index definition} here => ?_, fun {name index} => ?_, ?_⟩
  · obtain ⟨entry, there, read⟩ := forall₂_getElem? (mapM_eq_ok.mp readAll).flip here
    rw [(Draft.read_eq_ok_iff.mp (within_eq_ok.mp read)).1]
    obtain ⟨draft, _, rfl⟩ := Option.map_eq_some_iff.mp ((List.getElem?_zipIdx ..).symm.trans there)
    exact Nat.zero_add index
  · have names : (Grammar.vocabulary ⟨builder.limits, builder.lexemes, definitions,
        bodies⟩).definitions.Nodup := by
      rw [vocabulary]
      exact distinct
    rw [Vocabulary.definition_eq_ok_iff_getElem? names, Grammar.vocabulary, List.getElem?_map,
      Option.map_eq_some_iff]
  · have ids : ∀ definition ∈ definitions, (definition.cases.flatMap (·.ids)).Nodup := by
      intro definition mem
      obtain ⟨draft, _, read⟩ := exists_of_forall₂ reads.flip mem
      exact read.ids_nodup
    refine ((List.forall₂_and_left _ _).mpr ⟨ids, mapM_eq_ok.mp compiledAll⟩).imp ?_
    rintro definition body ⟨distinct, compiled⟩
    have done := within_eq_ok.mp compiled
    exact ⟨done, Vocabulary.dispatched_of_compileBody distinct done⟩

namespace Grammar.Represents

variable {grammar : Grammar} {drafts : List Draft} (represents : grammar.Represents drafts)

include represents

/-- There are as many bodies as definitions. -/
theorem length_bodies : grammar.bodies.length = grammar.vocabulary.definitions.length := by
  rw [← represents.bodies.length_eq, vocabulary, List.length_map]

/-- The bodies call only each other. -/
theorem closed : Body.Closed grammar.bodies := by
  intro body mem
  obtain ⟨definition, _, compiled, _⟩ := exists_of_forall₂ represents.bodies.flip mem
  rw [represents.length_bodies]
  exact Vocabulary.calls_of_compileBody compiled

/-- **No call is without a body.** What would happen in a call without one is of no consequence for
an expression that the grammar compiles. -/
theorem runOr_eq {expression : Expression} {matcher : Matcher}
    (compiled : grammar.compile expression = .ok matcher) (missing : Nat → Run)
    (text : List Char) : matcher.runOr missing text = matcher.run text := by
  obtain ⟨step, here, same⟩ := bind_eq_ok.mp compiled
  cases same
  refine Matcher.runOr_of_closed represents.closed ?_ missing text
  show ∀ index ∈ step.calls, index < grammar.bodies.length
  rw [represents.length_bodies]
  exact Vocabulary.calls_of_compileExpression here

end Grammar.Represents

end TreeScheme
