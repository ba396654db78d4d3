import TreeScheme.Proofs.Grammar.Compilation
import TreeScheme.Proofs.Matcher.Cursor
import TreeScheme.Proofs.Matcher.Limit
import TreeScheme.Proofs.Matcher.Restoration

/-!
# Runs and derivations

A run of compiled steps, with its recorder, its limit on calls and its bound on rounds, does what
the patterns mean: if no call was cut short, a match is a derivation that ends where the match
stops, and what the run recorded is the values of the derivation, one after another; a failure is a
derivation that fails. `Runs.agrees` proves it for every kind of task by one rule induction.

Three facts about all runs come in from outside. Failed parts leave no captures
(`Runs.restored`), so what is tried next starts from the same recorder. Offsets stay within the text
(`Runs.matched_bounds`), so the bound on rounds is never what ends a repetition. And a call that was
cut short would have been noted (`Runs.limitHit_none`), so no part of a run without a note was cut
short.

**First of several.** The alternatives of a definition differ in which names are plural, while those
of a choice inside an expression do not. Both run as a choice, so the agreement of a choice speaks
of sources: patterns, each with its own table of plural names.
-/

namespace TreeScheme

open Text (byteSize)

/-- A pattern, or no pattern, with the table of names it is compiled by. -/
abbrev Source := Plurality × Option Pattern

/-- An expression as a source. -/
def sourceOf (expression : Expression) : Source :=
  (expression.plurality, expression.root)

section Agreement

variable (grammar : Grammar) (text : List Char)

/-- A run agrees with a pattern: they fare the same, and the run recorded the pattern's values. -/
def Agrees (source : Source) (offset : Nat) (progress later : Progress) : Outcome → Prop
  | .matched stop => ∃ events, Derives grammar text source.2 offset (.ends stop events) ∧
      later.recorder = progress.recorder.recordAll source.1 events
  | .failed _ => Derives grammar text source.2 offset .fails

/-- A run agrees with the first of several patterns that does not fail. -/
def AgreesFirst (sources : List Source) (offset : Nat) (progress later : Progress) :
    Outcome → Prop
  | .matched stop => ∃ (index : Nat) (source : Source) (events : List Event),
      sources[index]? = some source ∧
      (∀ earlier < index, ∀ other : Source, sources[earlier]? = some other →
        Derives grammar text other.2 offset .fails) ∧
      Derives grammar text source.2 offset (.ends stop events) ∧
      later.recorder = progress.recorder.recordAll source.1 events
  | .failed _ => ∀ source ∈ sources, Derives grammar text source.2 offset .fails

/-- A run with a recorder of its own agrees with a call of a definition. -/
def AgreesCall (id : String) (offset : Nat) (later : Progress) : Outcome → Prop
  | .matched stop => Derives grammar text (some (.leaf .definition id)) offset
      (.ends stop [(id, .context (later.recorder.finish (stop - offset)))])
  | .failed _ => Derives grammar text (some (.leaf .definition id)) offset .fails

/-- What steps were made from. -/
abbrev CompiledSources (vocabulary : Vocabulary) : List Source → List Step → Prop :=
  List.Forall₂ fun source step => Compiled vocabulary source.1 source.2 step

/-- What the run of a task agrees with. Rounds have to be enough for the text that is left; bodies
and calls start with nothing recorded. -/
def Task.Agreement : Task → Nat → Progress → Outcome → Progress → Prop
  | .step (.choice steps), offset, progress, outcome, later =>
    ∀ sources, CompiledSources grammar.vocabulary sources steps →
      AgreesFirst grammar text sources offset progress later outcome
  | .step made, offset, progress, outcome, later =>
    ∀ source : Source, Compiled grammar.vocabulary source.1 source.2 made →
      Agrees grammar text source offset progress later outcome
  | .items steps, offset, progress, outcome, later =>
    ∀ plurality patterns, List.Forall₂ (fun pattern made =>
        Compiled grammar.vocabulary plurality (some pattern) made) patterns steps →
      Agrees grammar text (plurality, some (.sequence patterns)) offset progress later outcome
  | .alternatives steps _, offset, progress, outcome, later =>
    ∀ sources, CompiledSources grammar.vocabulary sources steps →
      AgreesFirst grammar text sources offset progress later outcome
  | .rounds made count, offset, progress, outcome, later =>
    ∀ plurality operand, Compiled grammar.vocabulary plurality (some operand) made →
      max offset (byteSize text) < offset + count →
      Agrees grammar text (plurality, some (.quantified .star operand)) offset progress later
        outcome
  | .body made, offset, progress, outcome, later =>
    ∀ id definition, grammar.definition? id = some definition →
      CompiledBody grammar.vocabulary definition made → progress.recorder = {} →
      AgreesCall grammar text id offset later outcome
  | .fallback made _, offset, progress, outcome, later =>
    ∀ sources steps, CompiledSources grammar.vocabulary sources steps →
      Vocabulary.fallbackOf steps = made →
      AgreesFirst grammar text sources offset progress later outcome
  | .call index, offset, progress, outcome, later =>
    ∀ id, grammar.vocabulary.definitions.idxOf? id = some index → progress.recorder = {} →
      AgreesCall grammar text id offset later outcome

end Agreement

section Choices

variable {grammar : Grammar} {text : List Char} {offset : Nat} {progress later : Progress}
  {outcome : Outcome}

/-- The first of one is that one. -/
theorem agreesFirst_singleton {source : Source} :
    AgreesFirst grammar text [source] offset progress later outcome ↔
      Agrees grammar text source offset progress later outcome := by
  cases outcome with
  | matched stop =>
    constructor
    · rintro ⟨index, found, events, here, _, derived, recorded⟩
      cases List.mem_singleton.mp (List.mem_of_getElem? here)
      exact ⟨events, derived, recorded⟩
    · rintro ⟨events, derived, recorded⟩
      exact ⟨0, source, events, rfl, fun _ none => absurd none (Nat.not_lt_zero _), derived,
        recorded⟩
  | failed reached => simp [AgreesFirst, Agrees]

/-- A choice fares like the first of its patterns that does not fail. -/
theorem derives_choice {patterns : List Pattern} {index : Nat} {pattern : Pattern} {fate : Fate}
    (here : patterns[index]? = some pattern)
    (earlier : ∀ before < index, ∀ other, patterns[before]? = some other →
      Derives grammar text (some other) offset .fails)
    (derived : Derives grammar text (some pattern) offset fate) (ends : fate ≠ .fails) :
    Derives grammar text (some (.choice patterns)) offset fate := by
  induction patterns generalizing index with
  | nil => cases here
  | cons first patterns ih =>
    cases index with
    | zero =>
      cases here
      cases fate with
      | ends stop events => exact .chosen derived
      | fails => exact absurd rfl ends
    | succ index =>
      refine .passedOver (earlier 0 (Nat.succ_pos _) first rfl) (ih here ?_)
      intro before less other there
      exact earlier (before + 1) (Nat.succ_lt_succ less) other there

/-- Agreement with the first of several patterns of one table is agreement with their choice. -/
theorem agrees_choice {plurality : Plurality} {patterns : List Pattern}
    (first : AgreesFirst grammar text (patterns.map fun pattern => (plurality, some pattern)) offset
      progress later outcome) :
    Agrees grammar text (plurality, some (.choice patterns)) offset progress later outcome := by
  cases outcome with
  | matched stop =>
    obtain ⟨index, source, events, here, earlier, derived, recorded⟩ := first
    rw [List.getElem?_map] at here
    obtain ⟨pattern, there, rfl⟩ := Option.map_eq_some_iff.mp here
    refine ⟨events, derives_choice there ?_ derived (by simp), recorded⟩
    intro before less other found
    refine earlier before less (plurality, some other) ?_
    rw [List.getElem?_map, found, Option.map_some]
  | failed reached =>
    induction patterns with
    | nil => exact .noChoice
    | cons pattern patterns ih =>
      exact .passedOver (first (plurality, some pattern) List.mem_cons_self)
        (ih fun source mem => first source (List.mem_cons_of_mem _ mem))

/-- Every step agrees with what it was made from, also a choice. -/
theorem agrees_of_step {step : Step} {plurality : Plurality} {root : Option Pattern}
    (agreement : (Task.step step).Agreement grammar text offset progress outcome later)
    (made : Compiled grammar.vocabulary plurality root step) :
    Agrees grammar text (plurality, root) offset progress later outcome := by
  cases made with
  | choice all =>
    refine agrees_choice (agreement _ ?_)
    rw [CompiledSources, List.forall₂_map_left_iff]
    exact all
  | empty => exact agreement (plurality, none) .empty
  | lexeme known => exact agreement (plurality, _) (.lexeme known)
  | definition known => exact agreement (plurality, _) (.definition known)
  | sequence all => exact agreement (plurality, _) (.sequence all)
  | quantified operand => exact agreement (plurality, _) (.quantified operand)

/-- The steps of expressions as steps of sources. -/
theorem compiledSources_map {vocabulary : Vocabulary} {expressions : List Expression}
    {steps : List Step} (all : CompiledExpressions vocabulary expressions steps) :
    CompiledSources vocabulary (expressions.map sourceOf) steps := by
  rw [CompiledSources, List.forall₂_map_left_iff]
  exact all

/-- What several steps come to agrees with the first of what they were made from. -/
theorem agreesFirst_of_fallbackOf {sources : List Source} {steps : List Step} {step : Step}
    (all : CompiledSources grammar.vocabulary sources steps)
    (chosen : Vocabulary.fallbackOf steps = some step)
    (agreement : (Task.step step).Agreement grammar text offset progress outcome later) :
    AgreesFirst grammar text sources offset progress later outcome := by
  cases all with
  | nil => cases chosen
  | @cons source first sources steps made rest =>
    cases rest with
    | nil =>
      cases chosen
      exact agreesFirst_singleton.mpr (agrees_of_step agreement made)
    | cons second rest =>
      cases chosen
      exact agreement _ (.cons made (.cons second rest))

/-- A source that fails may be put before the others. -/
theorem agreesFirst_cons {source : Source} {sources : List Source}
    (failed : Derives grammar text source.2 offset .fails)
    (rest : AgreesFirst grammar text sources offset progress later outcome) :
    AgreesFirst grammar text (source :: sources) offset progress later outcome := by
  cases outcome with
  | matched stop =>
    obtain ⟨index, found, events, here, earlier, derived, recorded⟩ := rest
    refine ⟨index + 1, found, events, here, ?_, derived, recorded⟩
    intro before less other there
    cases before with
    | zero =>
      cases there
      exact failed
    | succ before => exact earlier before (Nat.lt_of_succ_lt_succ less) other there
  | failed reached =>
    intro other mem
    rcases List.mem_cons.mp mem with rfl | mem
    · exact failed
    · exact rest other mem

end Choices

/-! ## Cases and calls -/

/-- A definition without cases selects none. -/
theorem Definition.selected?_of_noCases {definition : Definition} (noCases : definition.cases = [])
    {text : List Char} {offset : Nat} : definition.selected? text offset = none := by
  rw [selected?, noCases]
  cases nameAt text offset <;> rfl

/-- The table of a body selects the step that was made from the case that its definition
selects. -/
theorem selected?_of_table {vocabulary : Vocabulary} (text : List Char) (offset : Nat)
    {definition : Definition} {table : List (List String × Step)}
    (entries : List.Forall₂ (fun (case : Case) (entry : List String × Step) =>
      case.ids = entry.1 ∧
        Compiled vocabulary case.expression.plurality case.expression.root entry.2)
      definition.cases table) :
    Option.Rel (fun (case : String × Case) (step : String × Step) => case.1 = step.1 ∧
        Compiled vocabulary case.2.expression.plurality case.2.expression.root step.2)
      (definition.selected? text offset) (Body.selected? table text offset) := by
  simp only [Definition.selected?, Body.selected?, Body.case?]
  cases nameAt text offset with
  | none => exact .none
  | some word =>
    generalize definition.cases = cases at entries
    induction entries with
    | nil => exact .none
    | @cons case entry cases table made _ ih =>
      obtain ⟨ids, compiled⟩ := made
      simp only [List.find?_cons, ids]
      cases entry.1.contains (String.ofList word) with
      | true => exact .some ⟨rfl, compiled⟩
      | false => exact ih

section Calls

variable {grammar : Grammar} {text : List Char} {offset : Nat} {progress later : Progress}
  {outcome : Outcome} {id : String} {definition : Definition}

/-- Recording the values of an expression gathers them, starting from no captures: no value is
given twice under a name that holds one only. -/
theorem Derives.gathers_recordAll (expression : Expression) {stop : Nat} {events : List Event}
    (derived : Derives grammar text expression.root offset (.ends stop events))
    (recorder : Recorder) (clean : recorder.context.captures = []) :
    Gathers expression.plurality events
      (recorder.recordAll expression.plurality events).context.captures := by
  have empty : Gathers expression.plurality [] recorder.context.captures := by
    rw [clean]
    exact .nil
  exact Recorder.gathers_recordAll empty events derived.length_valuesOf_le_one

/-- A call whose case failed, or that had none, agrees with the first of its alternatives. -/
theorem agreesCall_of_first (known : grammar.definition? id = some definition)
    (caseFailed : ∀ word case, definition.selected? text offset = some (word, case) →
      Derives grammar text case.expression.root (offset + byteSize word.toList) .fails)
    (clean : progress.recorder = {})
    (first : AgreesFirst grammar text (definition.alternatives.map sourceOf) offset progress later
      outcome) :
    AgreesCall grammar text id offset later outcome := by
  cases outcome with
  | matched stop =>
    obtain ⟨index, source, events, here, earlier, derived, recorded⟩ := first
    rw [List.getElem?_map] at here
    obtain ⟨expression, there, rfl⟩ := Option.map_eq_some_iff.mp here
    rw [clean] at recorded
    have gathers := derived.gathers_recordAll expression {} rfl
    have context : later.recorder.finish (stop - offset) =
        { length := stop - offset, caseId := none,
          captures := (Recorder.recordAll expression.plurality {} events).context.captures } := by
      rw [recorded, Recorder.finish]
      simp [sourceOf]
    rw [AgreesCall, context]
    refine .alternative known caseFailed there ?_ derived gathers
    intro before less other found
    refine earlier before less (sourceOf other) ?_
    rw [List.getElem?_map, found, Option.map_some]
  | failed reached =>
    refine .noAlternative known caseFailed fun other mem => ?_
    exact first (sourceOf other) (List.mem_map_of_mem mem)

/-- A call whose case matched agrees with that case. -/
theorem agreesCall_of_case {word : String} {case : Case} {stop : Nat}
    (known : grammar.definition? id = some definition)
    (selected : definition.selected? text offset = some (word, case))
    (clean : progress.recorder = {})
    (agrees : Agrees grammar text (sourceOf case.expression) (offset + byteSize word.toList)
      { progress with recorder := progress.recorder.selectCase word } later (.matched stop)) :
    AgreesCall grammar text id offset later (.matched stop) := by
  obtain ⟨events, derived, recorded⟩ := agrees
  rw [clean] at recorded
  have gathers := derived.gathers_recordAll case.expression (Recorder.selectCase {} word) rfl
  have context : later.recorder.finish (stop - offset) =
      { length := stop - offset, caseId := some word,
        captures := (Recorder.recordAll case.expression.plurality (Recorder.selectCase {} word)
          events).context.captures } := by
    rw [recorded, Recorder.finish]
    simp [sourceOf, Recorder.selectCase]
  rw [AgreesCall, context]
  exact .firedCase known selected derived gathers

end Calls

/-! ## All runs -/

/-- A run without a call that was cut short agrees with what its task was made from. -/
theorem Runs.agrees {grammar : Grammar} (linked : grammar.Linked) {text : List Char} {room : Nat}
    {task : Task} {offset : Nat} {progress later : Progress} {outcome : Outcome}
    (run : Runs grammar.bodies text room task offset progress outcome later)
    (unnoted : later.limitHit = none) :
    task.Agreement grammar text offset progress outcome later := by
  induction run with
  | empty =>
    rintro ⟨plurality, root⟩ ⟨⟩
    exact ⟨[], .nothing, rfl⟩
  | lexemeMissed missed =>
    rintro ⟨plurality, root⟩ made
    cases made with
    | lexeme known => exact .noLexeme known missed
  | @lexemeFound _ id leaf _ _ progress hit found =>
    rintro ⟨plurality, root⟩ made
    cases made with
    | lexeme known =>
      refine ⟨_, .lexeme known found, ?_⟩
      cases hit.value <;> rfl
  | definitionFailed _ ih =>
    rintro ⟨plurality, root⟩ made
    cases made with
    | definition known => exact ih unnoted _ known rfl
  | definitionMatched _ ih =>
    rintro ⟨plurality, root⟩ made
    rw [Progress.limitHit_record] at unnoted
    cases made with
    | definition known => exact ⟨_, ih unnoted _ known rfl, rfl⟩
  | sequenceMatched _ ih =>
    rintro ⟨plurality, root⟩ made
    cases made with
    | sequence all => exact ih unnoted _ _ all
  | sequenceFailed _ ih =>
    rintro ⟨plurality, root⟩ made
    cases made with
    | sequence all => exact ih unnoted _ _ all
  | itemsDone =>
    rintro plurality patterns ⟨⟩
    exact ⟨[], .noItems, rfl⟩
  | itemFailed _ ih =>
    rintro plurality patterns (_ | ⟨made, _⟩)
    exact .noItem (agrees_of_step (ih unnoted) made)
  | @itemMatched _ _ _ _ progress _ between outcome later _ restRun first rest =>
    rintro plurality patterns (_ | ⟨made, all⟩)
    obtain ⟨events, derived, recorded⟩ :=
      agrees_of_step (first (restRun.limitHit_none unnoted)) made
    have further := rest unnoted plurality _ all
    cases outcome with
    | matched stop =>
      obtain ⟨others, derivedRest, recordedRest⟩ := further
      refine ⟨events ++ others, .items derived derivedRest, ?_⟩
      rw [Recorder.recordAll_append, ← recorded]
      exact recordedRest
    | failed reached => exact .noFurtherItem derived further
  | choice _ ih =>
    intro sources all
    exact ih unnoted sources all
  | alternativesDone =>
    rintro sources ⟨⟩ source mem
    cases mem
  | alternativeMatched _ ih =>
    rintro sources (_ | ⟨made, _⟩)
    obtain ⟨events, derived, recorded⟩ := agrees_of_step (ih unnoted) made
    exact ⟨0, _, events, rfl, fun _ none => absurd none (Nat.not_lt_zero _), derived, recorded⟩
  | alternativeFailed firstRun restRun first rest =>
    rintro sources (_ | ⟨made, all⟩)
    have failed := agrees_of_step (first (restRun.limitHit_none unnoted)) made
    have further := rest unnoted _ all
    -- The alternative that failed left no captures behind.
    have same := firstRun.restored.eq_of_failed trivial
    refine agreesFirst_cons failed ?_
    simp only [AgreesFirst, same] at further ⊢
    exact further
  | optionalMatched _ ih =>
    rintro ⟨plurality, root⟩ made
    cases made with
    | quantified operand =>
      obtain ⟨events, derived, recorded⟩ :=
        agrees_of_step (ih unnoted) operand
      exact ⟨events, .present derived, recorded⟩
  | optionalFailed run ih =>
    rintro ⟨plurality, root⟩ made
    cases made with
    | quantified operand =>
      have failed := agrees_of_step (ih unnoted) operand
      exact ⟨[], .absent failed, run.restored.eq_of_failed trivial⟩
  | star _ ih =>
    rintro ⟨plurality, root⟩ made
    cases made with
    | quantified operand => exact ih unnoted plurality _ operand (by omega)
  | roundsDone =>
    intro plurality operand _ enough
    omega
  | roundFailed run ih =>
    intro plurality operand made _
    have failed := agrees_of_step (ih unnoted) made
    exact ⟨[], .starFailed failed, run.restored.eq_of_failed trivial⟩
  | roundStood _ ih =>
    intro plurality operand made _
    obtain ⟨events, derived, recorded⟩ :=
      agrees_of_step (ih unnoted) made
    exact ⟨events, .starStood derived, recorded⟩
  | roundAdvanced firstRun advanced restRun first rest =>
    intro plurality operand made enough
    obtain ⟨events, derived, recorded⟩ :=
      agrees_of_step
        (first (restRun.limitHit_none unnoted)) made
    -- The round took at least a byte, so one round less is enough for what is left.
    have bounds := firstRun.matched_bounds _ rfl
    obtain ⟨others, derivedRest, recordedRest⟩ := rest unnoted plurality operand made (by omega)
    refine ⟨events ++ others, .starAdvanced derived advanced derivedRest, ?_⟩
    rw [Recorder.recordAll_append, ← recorded]
    exact recordedRest
  | plusFailed _ ih =>
    rintro ⟨plurality, root⟩ made
    cases made with
    | quantified operand =>
      exact .plusFailed (agrees_of_step (ih unnoted) operand)
  | plusStood _ ih =>
    rintro ⟨plurality, root⟩ made
    cases made with
    | quantified operand =>
      obtain ⟨events, derived, recorded⟩ :=
        agrees_of_step (ih unnoted) operand
      exact ⟨events, .plusStood derived, recorded⟩
  | plusAdvanced _ advanced restRun first rest =>
    rintro ⟨plurality, root⟩ made
    cases made with
    | quantified operand =>
      obtain ⟨events, derived, recorded⟩ :=
        agrees_of_step (first (restRun.limitHit_none unnoted))
          operand
      obtain ⟨others, derivedRest, recordedRest⟩ :=
        rest unnoted (plurality, some (.quantified .star _)) (.quantified operand)
      refine ⟨events ++ others, .plusAdvanced derived advanced derivedRest, ?_⟩
      rw [Recorder.recordAll_append, ← recorded]
      exact recordedRest
  | plain _ ih =>
    intro id definition known made clean
    cases made with
    | plain noCases all chosen =>
      have first := agreesFirst_of_fallbackOf (compiledSources_map all) chosen (ih unnoted)
      refine agreesCall_of_first known ?_ clean first
      intro word case selected
      rw [Definition.selected?_of_noCases noCases] at selected
      cases selected
  | @unselected _ _ _ offset _ _ _ unselected _ ih =>
    intro id definition known made clean
    cases made with
    | cases all entries =>
      have first := ih unnoted _ _ (compiledSources_map all) rfl
      refine agreesCall_of_first known ?_ clean first
      intro word case selected
      have same := selected?_of_table text offset entries
      rw [unselected, selected] at same
      cases same
  | @caseMatched _ _ _ _ _ offset _ _ _ selected _ ih =>
    intro id definition known made clean
    cases made with
    | cases all entries =>
      have same := selected?_of_table text offset entries
      rw [selected] at same
      cases chosen : definition.selected? text offset with
      | none =>
        rw [chosen] at same
        cases same
      | some entry =>
        obtain ⟨word, case⟩ := entry
        rw [chosen] at same
        obtain ⟨rfl, compiled⟩ := Option.rel_some_some.mp same
        exact agreesCall_of_case known chosen clean (agrees_of_step (ih unnoted) compiled)
  | @caseFailed _ _ _ _ _ offset _ _ _ _ _ selected caseRun restRun caseIh rest =>
    intro id definition known made clean
    cases made with
    | cases all entries =>
      -- The selection and what the case recorded are taken back before the alternatives.
      have taken := caseRun.restored.extended.trans (Recorder.extends_selectCase _ _)
      have first := rest unnoted _ _ (compiledSources_map all) rfl
      refine agreesCall_of_first known ?_ ((Progress.rollback_recorder taken).trans clean) first
      intro word case chosen
      have same := selected?_of_table text offset entries
      rw [selected, chosen] at same
      obtain ⟨rfl, compiled⟩ := Option.rel_some_some.mp same
      exact agrees_of_step (caseIh (restRun.limitHit_none unnoted)) compiled
  | fallbackMissing =>
    rintro sources steps all none
    cases all with
    | nil =>
      intro source mem
      cases mem
    | cons made rest => cases rest <;> cases none
  | fallbackMatched _ ih =>
    rintro sources steps all chosen
    exact agreesFirst_of_fallbackOf all chosen (ih unnoted)
  | fallbackFailed _ ih =>
    rintro sources steps all chosen
    have first := agreesFirst_of_fallbackOf all chosen (ih unnoted)
    exact first
  | unknown missing =>
    rintro id numbered clean
    obtain ⟨definition, body, _, found, _⟩ := linked.body_of_idxOf? numbered
    cases missing.symm.trans found
  | @beyondLimit _ _ _ progress _ =>
    rw [Progress.hitLimit] at unnoted
    cases before : progress.limitHit <;> simp [before] at unnoted
  | called found _ ih =>
    rintro id numbered clean
    obtain ⟨definition, body, known, found', made⟩ := linked.body_of_idxOf? numbered
    cases found.symm.trans found'
    exact ih unnoted id definition known made clean

end TreeScheme
