import Mathlib.Data.List.Nodup
import TreeScheme.Proofs.Grammar.Totality
import TreeScheme.Proofs.Matcher.Renumbering

/-!
# The order of declarations does not matter

Names are declared once, so it does not matter for what they stand where they are declared. Two
grammars whose lexemes and definitions are declared in different orders know the same names
(`Vocabulary.Rearranged.resolve_eq`), read the same expressions, and make matchers that differ in
the numbers of definitions only (`Grammar.Renumbered.matcher_eq`). The cases of a definition may
stand in another order as well, since a word selects one of them at most.

Whether a grammar can be made does not depend on the order either
(`Builder.Rearranged.exists_build`).
-/

namespace TreeScheme

/-! ## Names -/

/-- The same names, declared in another order. -/
structure Vocabulary.Rearranged (vocabulary again : Vocabulary) : Prop where
  lexemes : vocabulary.lexemes.declarations.Perm again.lexemes.declarations
  lexemeNames : vocabulary.lexemes.names.Nodup
  definitions : vocabulary.definitions.Perm again.definitions

/-- The number that the definition with a number has in another order. -/
def Vocabulary.number (vocabulary again : Vocabulary) (index : Nat) : Nat :=
  match vocabulary.definitions[index]? with
  | some name => again.definitions.idxOf name
  | none => index

/-- A name has its first place as its number. -/
theorem idxOf?_of_mem {names : List String} {name : String} (mem : name ∈ names) :
    names.idxOf? name = some (names.idxOf name) := by
  obtain ⟨index, found⟩ := Option.isSome_iff_exists.mp (List.isSome_idxOf?.mpr mem)
  rw [List.idxOf_eq_getD_idxOf?, found, Option.getD_some]

namespace Vocabulary.Rearranged

section Lookup

variable {vocabulary again : Vocabulary} (rearranged : vocabulary.Rearranged again)

include rearranged

theorem get?_eq (name : String) : again.lexemes.get? name = vocabulary.lexemes.get? name := by
  rw [Registry.get?, Registry.get?, find?_eq_of_perm rearranged.lexemes]
  intro a memA b memB ofA ofB
  exact eq_of_shared_name rearranged.lexemeNames memA memB (List.contains_iff_mem.mp ofA)
    (List.contains_iff_mem.mp ofB)

/-- Names stand for the same. -/
theorem resolve_eq : again.resolve = vocabulary.resolve := by
  funext name
  have definitions : again.definitions.contains name = vocabulary.definitions.contains name := by
    rw [Bool.eq_iff_iff, List.contains_iff_mem, List.contains_iff_mem]
    exact rearranged.definitions.mem_iff.symm
  rw [resolve, resolve, Registry.contains, Registry.contains, rearranged.get?_eq, definitions]

theorem lexeme_eq (name : String) : again.lexeme name = vocabulary.lexeme name := by
  rw [lexeme, lexeme, rearranged.get?_eq]

/-- A definition has its number in the other order. -/
theorem definition_eq (name : String) :
    again.definition name = (vocabulary.definition name).map (vocabulary.number again) := by
  rw [definition, definition]
  cases found : vocabulary.definitions.idxOf? name with
  | none =>
    have unknown : again.definitions.idxOf? name = none := by
      rw [List.idxOf?_eq_none_iff] at found ⊢
      exact fun mem => found (rearranged.definitions.mem_iff.mpr mem)
    simp only [unknown, Except.map]
  | some index =>
    obtain ⟨inside, same, _⟩ := List.idxOf?_eq_some_iff.mp found
    have mem : name ∈ again.definitions :=
      rearranged.definitions.mem_iff.mp (same ▸ List.getElem_mem inside)
    simp only [idxOf?_of_mem mem, Except.map, number, List.getElem?_eq_getElem inside, same]

end Lookup

mutual

/-- A pattern compiles to the same step, up to numbers. -/
theorem compile_eq {vocabulary again : Vocabulary} (rearranged : vocabulary.Rearranged again)
    (plurality : Plurality) : ∀ pattern : Pattern, again.compile plurality pattern =
      (vocabulary.compile plurality pattern).map (Step.renumber (vocabulary.number again))
  | .leaf .lexeme id => by
    rw [compile, compile, rearranged.lexeme_eq]
    cases vocabulary.lexeme id <;> rfl
  | .leaf .definition id => by
    rw [compile, compile, rearranged.definition_eq]
    cases vocabulary.definition id <;> rfl
  | .sequence items => by
    rw [compile, compile, compileAll_eq rearranged plurality items]
    cases compile.compileAll vocabulary plurality items <;> rfl
  | .choice alternatives => by
    rw [compile, compile, compileAll_eq rearranged plurality alternatives]
    cases compile.compileAll vocabulary plurality alternatives <;> rfl
  | .quantified quantifier operand => by
    rw [compile, compile, compile_eq rearranged plurality operand]
    cases vocabulary.compile plurality operand <;> rfl

theorem compileAll_eq {vocabulary again : Vocabulary} (rearranged : vocabulary.Rearranged again)
    (plurality : Plurality) : ∀ patterns : List Pattern,
    compile.compileAll again plurality patterns =
      (compile.compileAll vocabulary plurality patterns).map
        (Step.renumberAll (vocabulary.number again))
  | [] => rfl
  | pattern :: patterns => by
    rw [compile.compileAll, compile.compileAll, compile_eq rearranged plurality pattern,
      compileAll_eq rearranged plurality patterns]
    cases vocabulary.compile plurality pattern with
    | error e => rfl
    | ok step => cases compile.compileAll vocabulary plurality patterns <;> rfl

end

theorem compileExpression_eq {vocabulary again : Vocabulary}
    (rearranged : vocabulary.Rearranged again) (expression : Expression) :
    again.compileExpression expression =
      (vocabulary.compileExpression expression).map (Step.renumber (vocabulary.number again)) := by
  rw [compileExpression, compileExpression]
  cases expression.root with
  | none => rfl
  | some pattern => exact rearranged.compile_eq _ pattern

theorem compileCase_eq {vocabulary again : Vocabulary}
    (rearranged : vocabulary.Rearranged again) (case : Case) : again.compileCase case =
    (vocabulary.compileCase case).map (renumberCase (vocabulary.number again)) := by
  rw [compileCase, compileCase, rearranged.compileExpression_eq]
  cases vocabulary.compileExpression case.expression <;> rfl

end Vocabulary.Rearranged

/-! ## Definitions -/

/-- The same definition with its cases in another order. -/
structure Draft.Rearranged (draft again : Draft) : Prop where
  name : again.name = draft.name
  sequences : again.sequences = draft.sequences
  cases : draft.cases.Perm again.cases

namespace Draft.Rearranged

variable {draft again : Draft}

theorem refl (draft : Draft) : draft.Rearranged draft :=
  ⟨rfl, rfl, .refl _⟩

/-- It can be read if it can be read in the other order. -/
theorem legal (rearranged : draft.Rearranged again) {resolve : String → Option Symbol}
    (legal : draft.Legal resolve) : again.Legal resolve := by
  refine ⟨?_, fun entry mem => legal.cases entry (rearranged.cases.mem_iff.mpr mem), ?_⟩
  · rw [rearranged.sequences]
    exact legal.sequences
  · exact (rearranged.cases.flatMap_right _).nodup_iff.mp legal.distinct

/-- What is read is the same up to the order of cases. -/
theorem reads (rearranged : draft.Rearranged again) {resolve : String → Option Symbol}
    {definition other : Definition} (reads : draft.Reads resolve definition)
    (readsAgain : again.Reads resolve other) :
    other.sequences = definition.sequences ∧ definition.cases.Perm other.cases := by
  have sequences := readsAgain.sequences
  rw [rearranged.sequences, ← mapM_eq_ok, mapM_eq_ok.mpr reads.sequences] at sequences
  obtain ⟨permuted, all, perm⟩ := exists_perm_forall₂ rearranged.cases reads.cases
  have unique : Relator.RightUnique (ReadsCase resolve) := by
    intro entry case case' first second
    have expressions := first.expression.symm.trans second.expression
    obtain ⟨ids, expression⟩ := case
    obtain ⟨ids', expression'⟩ := case'
    cases expressions
    rw [Case.mk.injEq]
    exact ⟨first.ids.trans second.ids.symm, rfl⟩
  rw [unique.forall₂ all readsAgain.cases] at perm
  exact ⟨(Except.ok.inj sequences).symm, perm⟩

end Draft.Rearranged

theorem Vocabulary.fallbackOf_map (number : Nat → Nat) (steps : List Step) :
    fallbackOf (steps.map (Step.renumber number)) =
      (fallbackOf steps).map (Step.renumber number) := by
  match steps with
  | [] => rfl
  | [only] => rfl
  | first :: second :: rest =>
    show some (Step.choice _) = some (Step.renumber number (.choice (first :: second :: rest)))
    rw [Step.renumber, Step.renumberAll_eq_map]
    rfl

/-- A table of cases has the ids of its definition. -/
theorem Vocabulary.ids_of_compileCases {vocabulary : Vocabulary} {cases : List Case}
    {table : List (List String × Step)} (compiled : cases.mapM vocabulary.compileCase = .ok table) :
    table.flatMap (·.1) = cases.flatMap (·.ids) := by
  have each := mapM_eq_ok.mp compiled
  induction each with
  | nil => rfl
  | cons here _ ih =>
    rw [List.flatMap_cons, List.flatMap_cons, (compileCase_eq_ok_iff.mp here).1,
      ih (mapM_eq_ok.mpr ‹_›)]

/-- The cases of a definition that was read have ids of their own. -/
theorem Draft.Reads.ids_nodup {resolve : String → Option Symbol} {draft : Draft}
    {definition : Definition} (reads : draft.Reads resolve definition) :
    (definition.cases.flatMap (·.ids)).Nodup := by
  have ids : draft.caseIds = definition.cases.flatMap (·.ids) := by
    rw [Draft.caseIds, List.flatMap, List.flatMap,
      map_eq_of_forall₂ reads.cases fun entry case read => read.ids.symm]
  rw [← ids]
  exact reads.distinct

/-- **One definition.** In another order of declarations, and with its cases in another order, it
compiles to the same body, up to numbers. -/
theorem Vocabulary.Rearranged.body_renumbered {vocabulary again : Vocabulary}
    (rearranged : vocabulary.Rearranged again) {draft draftAgain : Draft}
    (same : draft.Rearranged draftAgain) {resolve : String → Option Symbol}
    {definition other : Definition} (reads : draft.Reads resolve definition)
    (readsAgain : draftAgain.Reads resolve other) {body bodyAgain : Body}
    (compiled : vocabulary.compileBody definition = .ok body)
    (compiledAgain : again.compileBody other = .ok bodyAgain) :
    Body.Renumbered (vocabulary.number again) body bodyAgain := by
  obtain ⟨sequences, cases⟩ := same.reads reads readsAgain
  obtain ⟨steps, stepsOk, rest⟩ := bind_eq_ok.mp compiled
  obtain ⟨table, tableOk, result⟩ := bind_eq_ok.mp rest
  obtain ⟨stepsAgain, stepsOkAgain, rest⟩ := bind_eq_ok.mp compiledAgain
  obtain ⟨tableAgain, tableOkAgain, resultAgain⟩ := bind_eq_ok.mp rest
  cases result
  cases resultAgain
  rw [sequences, mapM_eq_map rearranged.compileExpression_eq, stepsOk] at stepsOkAgain
  cases stepsOkAgain
  have inOrder : definition.cases.mapM again.compileCase =
      .ok (table.map (renumberCase (vocabulary.number again))) := by
    rw [mapM_eq_map rearranged.compileCase_eq, tableOk]
    rfl
  obtain ⟨permuted, known, perm⟩ := exists_perm_mapM cases inOrder
  rw [tableOkAgain] at known
  cases known
  have distinct : (table.flatMap (·.1)).Nodup := by
    rw [ids_of_compileCases tableOk]
    exact reads.ids_nodup
  rw [fallbackOf_map]
  cases table with
  | nil =>
    rw [List.map_nil, List.nil_perm] at perm
    subst perm
    cases fallbackOf steps <;> exact .plain
  | cons entry table =>
    have some : tableAgain.isEmpty = false := by
      cases tableAgain with
      | nil => cases List.perm_nil.mp perm
      | cons _ _ => rfl
    rw [some]
    exact .cases perm distinct

/-! ## Grammars -/

/-- The same lexemes and definitions, declared in another order. -/
structure Builder.Rearranged (builder again : Builder) : Prop where
  limits : again.limits = builder.limits
  lexemes : builder.lexemes.declarations.Perm again.lexemes.declarations
  lexemeNames : builder.lexemes.names.Nodup
  drafts : ∃ middle, builder.drafts.Perm middle ∧
    List.Forall₂ Draft.Rearranged middle again.drafts
  draftNames : (builder.drafts.map Draft.name).Nodup

/-- The same grammar with other numbers of definitions. -/
structure Grammar.Renumbered (grammar again : Grammar) : Prop where
  limits : again.limits = grammar.limits
  vocabulary : grammar.vocabulary.Rearranged again.vocabulary
  bodies : RenumberedBodies (grammar.vocabulary.number again.vocabulary) grammar.bodies again.bodies

namespace Builder

/-- The bodies of a grammar come from the drafts, in order. -/
theorem bodies_of_build {builder : Builder} {grammar : Grammar}
    (built : builder.build = .ok grammar) :
    List.Forall₂ (fun draft body => ∃ definition,
      Draft.Reads builder.vocabulary.resolve draft definition ∧
      builder.vocabulary.compileBody definition = .ok body) builder.drafts grammar.bodies := by
  have reads := reads_of_build built
  obtain ⟨definitions, _, rest⟩ := bind_eq_ok.mp built
  obtain ⟨bodies, compiledAll, same⟩ := bind_eq_ok.mp rest
  cases same
  exact forall₂_comp reads ((mapM_eq_ok.mp compiledAll).imp fun _ _ => within_eq_ok.mp)

namespace Rearranged

variable {builder again : Builder} (rearranged : builder.Rearranged again)

include rearranged

theorem names_perm : (builder.drafts.map Draft.name).Perm (again.drafts.map Draft.name) := by
  obtain ⟨middle, perm, same⟩ := rearranged.drafts
  rw [← map_eq_of_forall₂ same fun _ _ both => both.name.symm]
  exact perm.map _

theorem vocabulary : builder.vocabulary.Rearranged again.vocabulary :=
  ⟨rearranged.lexemes, rearranged.lexemeNames, rearranged.names_perm⟩

/-- Every definition stands somewhere in the other order. -/
theorem exists_draft {draft : Draft} (mem : draft ∈ builder.drafts) :
    ∃ other ∈ again.drafts, draft.Rearranged other := by
  obtain ⟨middle, perm, same⟩ := rearranged.drafts
  exact exists_of_forall₂ same (perm.mem_iff.mp mem)

/-- A definition stands, in the other order, at the place that is its number there. -/
theorem getElem?_number {index : Nat} {draft : Draft} (here : builder.drafts[index]? = some draft) :
    ∃ other, again.drafts[builder.vocabulary.number again.vocabulary index]? = some other ∧
      draft.Rearranged other := by
  obtain ⟨other, listed, same⟩ := rearranged.exists_draft (List.mem_of_getElem? here)
  have name : builder.vocabulary.definitions[index]? = some draft.name := by
    rw [Builder.vocabulary, List.getElem?_map, here, Option.map_some]
  have place : (again.drafts.map Draft.name)[(again.drafts.map Draft.name).idxOf draft.name]? =
      some draft.name :=
    List.getElem?_idxOf (List.mem_map.mpr ⟨other, listed, same.name⟩)
  rw [List.getElem?_map] at place
  obtain ⟨found, there, sameName⟩ := Option.map_eq_some_iff.mp place
  have distinct := rearranged.names_perm.nodup_iff.mp rearranged.draftNames
  have only : found = other := List.inj_on_of_nodup_map distinct (List.mem_of_getElem? there) listed
    (sameName.trans same.name.symm)
  refine ⟨other, ?_, same⟩
  simp only [Vocabulary.number, name]
  rw [← only]
  exact there

/-- **All definitions.** If a grammar can be made, one can be made in the other order, and it is the
same up to numbers. -/
theorem exists_build {grammar : Grammar} (built : builder.build = .ok grammar) :
    ∃ other, again.build = .ok other ∧ grammar.Renumbered other := by
  have resolve := rearranged.vocabulary.resolve_eq
  have legal : ∀ draft ∈ again.drafts, draft.Legal again.vocabulary.resolve := by
    obtain ⟨middle, perm, same⟩ := rearranged.drafts
    intro other mem
    obtain ⟨draft, listed, both⟩ := exists_of_forall₂ same.flip mem
    rw [resolve]
    exact both.legal (exists_build_iff.mp ⟨grammar, built⟩ draft (perm.mem_iff.mpr listed))
  obtain ⟨other, builtAgain⟩ := exists_build_iff.mpr legal
  have bodies := bodies_of_build built
  have bodiesAgain := bodies_of_build builtAgain
  refine ⟨other, builtAgain, ?_, ?_, fun index => ?_⟩
  · obtain ⟨_, _, rest⟩ := bind_eq_ok.mp built
    obtain ⟨_, _, same⟩ := bind_eq_ok.mp rest
    obtain ⟨_, _, restAgain⟩ := bind_eq_ok.mp builtAgain
    obtain ⟨_, _, sameAgain⟩ := bind_eq_ok.mp restAgain
    cases same
    cases sameAgain
    exact rearranged.limits
  · rw [vocabulary_of_build built, vocabulary_of_build builtAgain]
    exact rearranged.vocabulary
  · rw [vocabulary_of_build built, vocabulary_of_build builtAgain]
    cases here : builder.drafts[index]? with
    | none =>
      have beyond : builder.drafts.length ≤ index := List.getElem?_eq_none_iff.mp here
      have lengths : again.drafts.length = builder.drafts.length := by
        simpa using rearranged.names_perm.length_eq.symm
      have kept : builder.vocabulary.number again.vocabulary index = index := by
        have noName : builder.vocabulary.definitions[index]? = none := by
          rw [Builder.vocabulary, List.getElem?_map, here, Option.map_none]
        simp only [Vocabulary.number, noName]
      rw [kept, List.getElem?_eq_none (bodies.length_eq ▸ beyond),
        List.getElem?_eq_none (bodiesAgain.length_eq ▸ lengths ▸ beyond)]
      exact .none
    | some draft =>
      obtain ⟨draftAgain, there, same⟩ := rearranged.getElem?_number here
      obtain ⟨body, found, definition, reads, compiled⟩ := forall₂_getElem? bodies here
      obtain ⟨bodyAgain, foundAgain, definitionAgain, readsAgain, compiledAgain⟩ :=
        forall₂_getElem? bodiesAgain there
      rw [resolve] at readsAgain
      rw [found, foundAgain]
      exact .some
        (rearranged.vocabulary.body_renumbered same reads readsAgain compiled compiledAgain)

end Rearranged

end Builder

namespace Grammar.Renumbered

variable {grammar again : Grammar} (renumbered : grammar.Renumbered again)

include renumbered

/-- **All expressions.** They have the same matchers, up to numbers. -/
theorem matcher_eq (text : String) : again.matcher text = (grammar.matcher text).map
    (Matcher.renumber (grammar.vocabulary.number again.vocabulary) again.bodies) := by
  rw [matcher, matcher, matcherIn, matcherIn, read, read, renumbered.vocabulary.resolve_eq]
  cases Expression.read .full grammar.vocabulary.resolve text with
  | error e => rfl
  | ok expression =>
    show again.compile expression = (grammar.compile expression).map _
    rw [compile, compile, renumbered.vocabulary.compileExpression_eq, renumbered.limits]
    cases grammar.vocabulary.compileExpression expression <;> rfl

/-- A matcher of the grammar matches the same with other numbers. -/
theorem evaluate_eq {text : String} {own : Matcher} (made : grammar.matcher text = .ok own)
    (input : String) : (own.renumber (grammar.vocabulary.number again.vocabulary)
      again.bodies).evaluate input = own.evaluate input := by
  obtain ⟨expression, _, compiled⟩ := bind_eq_ok.mp made
  obtain ⟨step, _, same⟩ := bind_eq_ok.mp compiled
  cases same
  exact Matcher.evaluate_renumber renumbered.bodies input

end Grammar.Renumbered

end TreeScheme
