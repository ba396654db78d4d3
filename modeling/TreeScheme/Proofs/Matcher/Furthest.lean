import TreeScheme.Proofs.Grammar.Totality
import TreeScheme.Proofs.Matcher.Boundaries

/-!
# How far a failure got

A match that fails says how far it got. `Matcher.trials` lists the leaves that a run tries, lexemes
and calls of definitions, in order and on every branch. A trial is lost if the failure that it led
to was got over: an optional or repeated operand failed, or an alternative, or the selected case of
a definition, and what it stands in matched nevertheless. The step around it goes on from a match
then, and of a match nothing says how far the failures in it got.

**What the offset of a failure is.** No run ends before a place that it tried and did not lose
(`Runs.tried`), and a failed run ends at such a place (`Runs.attained`), unless a choice has no
alternatives, which none has that was read from a text (`Grammar.stocked_of_matcherIn`). So a match
that fails reports the furthest of the trials that are not lost, and it is the furthest trial of all
exactly if no trial that is lost lies further on (`noMatch_reports_trials`).
-/

namespace TreeScheme

open Text (byteSize)

/-! ## Trials -/

/-- A leaf that is tried at a place, and whether the failure that it led to was got over. -/
structure Trial where
  place : Nat
  lost : Bool := false
deriving DecidableEq, Repr

/-- A match that comes of a failure gets over it. -/
def Outcome.overcomes : Outcome → Outcome → Bool
  | matched _, failed _ => true
  | _, _ => false

/-- How something ends that is tried at an offset, and the trials on the way, in order. -/
abbrev Trail := Outcome × List Trial

namespace Trail

/-- Something ends without further trials. -/
def ends (outcome : Outcome) : Trail :=
  (outcome, [])

/-- The trials on the way to something that `outcome` came of. -/
def settled (trail : Trail) (outcome : Outcome) : List Trial :=
  if outcome.overcomes trail.1 then trail.2.map ({ · with lost := true }) else trail.2

/-- What follows depends on how something ended, and may get over it. -/
def andThen (trail : Trail) (next : Outcome → Trail) : Trail :=
  ((next trail.1).1, trail.settled (next trail.1).1 ++ (next trail.1).2)

/-- Rounds of a repetition, as long as every round advances. -/
def rounds (round : Nat → Trail) : (rounds : Nat) → Nat → Trail
  | 0, offset => ends (.matched offset)
  | count + 1, offset => (round offset).andThen fun
    | .failed _ => ends (.matched offset)
    | .matched stop => if stop = offset then ends (.matched offset) else rounds round count stop

/-- A quantifier applied to an operand, in a text of `size` bytes. -/
def quantified (size : Nat) (round : Nat → Trail) (offset : Nat) : Quantifier → Trail
  | .optional => (round offset).andThen fun
    | .failed _ => ends (.matched offset)
    | .matched stop => ends (.matched stop)
  | .star => rounds round (size - offset + 1) offset
  | .plus => (round offset).andThen fun
    | .failed reached => ends (.failed reached)
    | .matched stop =>
      if stop = offset then ends (.matched offset) else rounds round (size - stop + 1) stop

end Trail

/-- The trials of a step, given those of calls. -/
def Step.trail (text : List Char) (call : Nat → Nat → Trail) : Step → Nat → Trail
  | empty, offset => .ends (.matched offset)
  | lexeme _ leaf _, offset =>
    match leaf.matchAt text offset with
    | none => (.failed offset, [⟨offset, false⟩])
    | some hit => (.matched hit.stop, [⟨offset, false⟩])
  | definition _ index _, offset =>
    ((call index offset).1, ⟨offset, false⟩ :: (call index offset).2)
  | sequence items, offset => trailItems items offset
  | choice alternatives, offset => trailAlternatives alternatives offset offset
  | quantified quantifier operand, offset =>
    Trail.quantified (byteSize text) (operand.trail text call) offset quantifier
where
  /-- The trials of steps one after another. -/
  trailItems : List Step → Nat → Trail
  | [], offset => .ends (.matched offset)
  | item :: items, offset => (item.trail text call offset).andThen fun
    | .matched stop => trailItems items stop
    | .failed reached => .ends (.failed reached)
  /-- The trials of steps up to the first that matches. -/
  trailAlternatives : List Step → (reached : Nat) → Nat → Trail
  | [], reached, _ => .ends (.failed reached)
  | alternative :: alternatives, reached, offset =>
    (alternative.trail text call offset).andThen fun
    | .matched stop => .ends (.matched stop)
    | .failed other => trailAlternatives alternatives (furthest reached other) offset

namespace Body

/-- The trials of a fallback, after a failure that got as far as `reached`. -/
def trailFallback (text : List Char) (call : Nat → Nat → Trail) (fallback : Option Step)
    (reached offset : Nat) : Trail :=
  match fallback with
  | none => .ends (.failed reached)
  | some step => (step.trail text call offset).andThen fun
    | .matched stop => .ends (.matched stop)
    | .failed other => .ends (.failed (furthest reached other))

/-- The trials of a body, given those of calls. -/
def trail (text : List Char) (call : Nat → Nat → Trail) : Body → Nat → Trail
  | plain step, offset => step.trail text call offset
  | cases table fallback, offset =>
    match selected? table text offset with
    | none => trailFallback text call fallback offset offset
    | some (id, step) => (step.trail text call (offset + byteSize id.toList)).andThen fun
      | .matched stop => .ends (.matched stop)
      | .failed reached => trailFallback text call fallback reached offset

end Body

/-- The trials of a call, with room for some open calls. -/
def trailCall (bodies : List Body) (text : List Char) : (room index offset : Nat) → Trail
  | room, index, offset =>
    match bodies[index]? with
    | none => .ends (.failed offset)
    | some body =>
      match room with
      | 0 => .ends (.failed offset)
      | room + 1 => body.trail text (trailCall bodies text room) offset

/-- The trials of a task. -/
def Task.trail (bodies : List Body) (text : List Char) (room : Nat) : Task → Nat → Trail
  | step single => single.trail text (trailCall bodies text room)
  | items parts => Step.trail.trailItems text (trailCall bodies text room) parts
  | alternatives choices reached =>
    Step.trail.trailAlternatives text (trailCall bodies text room) choices reached
  | rounds operand count => Trail.rounds (operand.trail text (trailCall bodies text room)) count
  | body whole => whole.trail text (trailCall bodies text room)
  | fallback last reached => Body.trailFallback text (trailCall bodies text room) last reached
  | call index => trailCall bodies text room index

/-- The trials of a match of a text, in order. -/
def Matcher.trials (matcher : Matcher) (text : List Char) : List Trial :=
  (matcher.step.trail text (trailCall matcher.bodies text matcher.limit) 0).2

/-! ## Nothing ends before what it tried -/

/-- Something ends with an outcome, and not before a place that was tried and not lost. -/
structure Reaches (trail : Trail) (outcome : Outcome) : Prop where
  ended : trail.1 = outcome
  within : ∀ trial ∈ trail.2, trial.lost = false → trial.place ≤ outcome.offset

namespace Reaches

variable {trail : Trail} {outcome other : Outcome} {next : Outcome → Trail}

/-- Something that tries nothing. -/
theorem ends : Reaches (.ends outcome) outcome :=
  ⟨rfl, fun _ mem => absurd mem List.not_mem_nil⟩

/-- A single trial at the place where it all starts. -/
theorem single {place : Nat} (le : place ≤ outcome.offset) :
    Reaches (outcome, [⟨place, false⟩]) outcome := by
  refine ⟨rfl, fun trial mem _ => ?_⟩
  cases List.mem_singleton.mp mem
  exact le

/-- Something that goes on after something else, and further unless it gets over it. -/
theorem andThen (first : Reaches trail other) (rest : Reaches (next other) outcome)
    (further : outcome.overcomes other = false → other.offset ≤ outcome.offset) :
    Reaches (trail.andThen next) outcome := by
  obtain ⟨rfl, within⟩ := first
  obtain ⟨rfl, later⟩ := rest
  refine ⟨rfl, fun trial mem kept => ?_⟩
  rcases List.mem_append.mp mem with earlier | here
  · rw [Trail.settled] at earlier
    split at earlier
    · obtain ⟨_, _, rfl⟩ := List.mem_map.mp earlier
      cases kept
    · rename_i stays
      exact Nat.le_trans (within trial earlier kept) (further (eq_false_of_ne_true stays))
  · exact later trial here kept

/-- Something that goes on without further trials. -/
theorem andEnds (first : Reaches trail other) (stops : next other = .ends outcome)
    (further : outcome.overcomes other = false → other.offset ≤ outcome.offset) :
    Reaches (trail.andThen next) outcome :=
  first.andThen (stops ▸ ends) further

/-- Something that ends as what it came from. -/
theorem andStays (first : Reaches trail outcome) (stops : next outcome = .ends outcome) :
    Reaches (trail.andThen next) outcome :=
  first.andEnds stops fun _ => Nat.le_refl _

end Reaches

theorem le_furthest_right (first second : Nat) : second ≤ furthest first second :=
  furthest_eq_max first second ▸ Nat.le_max_right first second

/-- How far the failures got that a task starts from. -/
def Task.soFar : Task → Nat
  | alternatives _ reached | fallback _ reached => reached
  | _ => 0

section Runs

variable {bodies : List Body} {text : List Char} {room : Nat} {task : Task} {offset : Nat}
  {progress later : Progress} {outcome : Outcome}

/-- A failure gets no less far than the failures before it. -/
theorem Runs.soFar_le {reached : Nat}
    (run : Runs bodies text room task offset progress outcome later)
    (failed : outcome = .failed reached) : task.soFar ≤ reached := by
  induction run with
  | alternativesDone | fallbackMissing =>
    cases failed
    exact Nat.le_refl _
  | alternativeMatched | fallbackMatched => cases failed
  | alternativeFailed _ _ _ rest => exact Nat.le_trans (le_furthest _ _) (rest failed)
  | fallbackFailed =>
    cases failed
    exact le_furthest _ _
  | _ => exact Nat.zero_le _

/-- What comes of a failure gets no less far, unless it gets over it. -/
theorem Runs.further {other : Nat} {between : Progress}
    (run : Runs bodies text room task offset between outcome later)
    (le : other ≤ task.soFar) (stays : outcome.overcomes (.failed other) = false) :
    (Outcome.failed other).offset ≤ outcome.offset := by
  cases outcome with
  | matched stop => cases stays
  | failed reached => exact Nat.le_trans le (run.soFar_le rfl)

/-- Every run ends as its trail says, and not before a place that it tried and did not lose. -/
theorem Runs.tried (run : Runs bodies text room task offset progress outcome later) :
    Reaches (task.trail bodies text room offset) outcome := by
  -- What goes on from an outcome ends no earlier, unless it is a match that came of a failure; and
  -- there the trials on the way are lost.
  induction run with
  | empty | itemsDone | alternativesDone | roundsDone | fallbackMissing => exact .ends
  | lexemeMissed missed =>
    simp only [Task.trail, Step.trail, missed]
    exact .single (Nat.le_refl _)
  | lexemeFound found =>
    simp only [Task.trail, Step.trail, found]
    exact .single (Lexeme.ahead_of_matchAt found).le
  | definitionFailed called ih | definitionMatched called ih =>
    refine ⟨ih.ended, fun trial mem kept => ?_⟩
    rcases List.mem_cons.mp mem with rfl | inside
    · exact called.forward trivial
    · exact ih.within trial inside kept
  | sequenceMatched _ ih | sequenceFailed _ ih => exact ih
  | itemFailed _ ih =>
    simp only [Task.trail, Step.trail.trailItems]
    exact ih.andStays rfl
  | itemMatched _ rest first second =>
    simp only [Task.trail, Step.trail.trailItems]
    exact first.andThen second fun _ => rest.forward trivial
  | choice _ ih => exact ih
  | alternativeMatched _ ih =>
    simp only [Task.trail, Step.trail.trailAlternatives]
    exact ih.andStays rfl
  | alternativeFailed _ rest first second =>
    simp only [Task.trail, Step.trail.trailAlternatives]
    exact first.andThen second (rest.further (le_furthest_right _ _))
  | optionalMatched _ ih =>
    simp only [Task.trail, Step.trail, Trail.quantified]
    exact ih.andStays rfl
  | optionalFailed _ ih =>
    simp only [Task.trail, Step.trail, Trail.quantified]
    exact ih.andEnds rfl fun stays => by cases stays
  | star _ ih => exact ih
  | roundFailed _ ih =>
    simp only [Task.trail, Trail.rounds]
    exact ih.andEnds rfl fun stays => by cases stays
  | roundStood _ ih =>
    simp only [Task.trail, Trail.rounds]
    exact ih.andStays (by simp)
  | roundAdvanced _ advanced rest first second =>
    simp only [Task.trail, Trail.rounds]
    refine first.andThen ?_ fun _ => rest.forward trivial
    simp only [advanced, if_false]
    exact second
  | plusFailed _ ih =>
    simp only [Task.trail, Step.trail, Trail.quantified]
    exact ih.andStays rfl
  | plusStood _ ih =>
    simp only [Task.trail, Step.trail, Trail.quantified]
    exact ih.andStays (by simp)
  | plusAdvanced _ advanced rest first second =>
    simp only [Task.trail, Step.trail, Trail.quantified]
    refine first.andThen ?_ fun _ => rest.forward trivial
    simp only [advanced, if_false]
    exact second
  | plain _ ih => exact ih
  | unselected selected _ ih =>
    simp only [Task.trail, Body.trail, selected]
    exact ih
  | caseMatched selected _ ih =>
    simp only [Task.trail, Body.trail, selected]
    exact ih.andStays rfl
  | caseFailed selected _ rest first second =>
    simp only [Task.trail, Body.trail, selected]
    exact first.andThen second (rest.further (Nat.le_refl _))
  | fallbackMatched _ ih =>
    simp only [Task.trail, Body.trailFallback]
    exact ih.andStays rfl
  | fallbackFailed _ ih =>
    simp only [Task.trail, Body.trailFallback]
    exact ih.andEnds rfl fun _ => le_furthest_right _ _
  | unknown missing =>
    rw [Task.trail, trailCall]
    simp only [missing]
    exact .ends
  | beyondLimit found =>
    rw [Task.trail, trailCall]
    simp only [found]
    exact .ends
  | called found _ ih =>
    rw [Task.trail, trailCall]
    simp only [found]
    exact ih

end Runs

/-! ## A failure ends where something was tried -/

/-- Whether every choice in a step has an alternative. -/
def Step.isStocked : Step → Bool
  | empty | lexeme _ _ _ | definition _ _ _ => true
  | sequence items => areStocked items
  | choice alternatives => !alternatives.isEmpty && areStocked alternatives
  | quantified _ operand => operand.isStocked
where
  /-- Whether that holds of several steps. -/
  areStocked : List Step → Bool
  | [] => true
  | step :: rest => step.isStocked && areStocked rest

/-- Whether every choice in a body has an alternative. -/
def Body.isStocked : Body → Bool
  | plain step => step.isStocked
  | cases table fallback => table.all (·.2.isStocked) && fallback.all (·.isStocked)

/-- Whether every choice that a matcher can come to has an alternative. -/
def Matcher.isStocked (matcher : Matcher) : Bool :=
  matcher.step.isStocked && matcher.bodies.all (·.isStocked)

/-- Whether every choice in a task has an alternative. -/
def Task.isStocked : Task → Bool
  | step single => single.isStocked
  | items parts => Step.isStocked.areStocked parts
  | alternatives choices _ => Step.isStocked.areStocked choices
  | rounds operand _ => operand.isStocked
  | body whole => whole.isStocked
  | fallback last _ => last.all (·.isStocked)
  | call _ => true

theorem Step.areStocked_iff {steps : List Step} :
    isStocked.areStocked steps = true ↔ ∀ step ∈ steps, step.isStocked = true := by
  induction steps with
  | nil => simp [isStocked.areStocked]
  | cons step rest ih => simp [isStocked.areStocked, ih]

/-- Something was tried at a place, and not lost. -/
def Trail.Tries (trail : Trail) (place : Nat) : Prop :=
  ∃ trial ∈ trail.2, trial.lost = false ∧ trial.place = place

namespace Trail.Tries

variable {trail : Trail} {next : Outcome → Trail} {place reached : Nat} {other : Outcome}

/-- A failure loses nothing that was tried before. -/
theorem before (tries : trail.Tries place)
    (failed : (trail.andThen next).1 = .failed reached) : (trail.andThen next).Tries place := by
  obtain ⟨trial, mem, kept, here⟩ := tries
  have settled : trail.settled (next trail.1).1 = trail.2 := by
    have failed : (next trail.1).1 = .failed reached := failed
    rw [failed]
    rfl
  exact ⟨trial, List.mem_append_left _ (settled ▸ mem), kept, here⟩

/-- Nor does anything lose what is tried later. -/
theorem behind (ended : trail.1 = other) (tries : (next other).Tries place) :
    (trail.andThen next).Tries place := by
  subst ended
  obtain ⟨trial, mem, kept, here⟩ := tries
  exact ⟨trial, List.mem_append_right _ mem, kept, here⟩

end Trail.Tries

/-- Where a task may fail, started at an offset, besides where it tried something. -/
def Task.Defaults : Task → (offset place : Nat) → Prop
  | alternatives choices reached, offset, place =>
    place = reached ∧ (choices = [] ∨ offset < reached)
  | fallback _ reached, _, place => place = reached
  | body _, offset, place | call _, offset, place => place = offset
  | step _, _, _ | items _, _, _ | rounds _ _, _, _ => False

section Runs

variable {bodies : List Body} {text : List Char} {room : Nat} {task : Task} {offset : Nat}
  {progress later : Progress} {outcome : Outcome}

/-- A failed run ends where something was tried and not lost, or where its task says. -/
theorem Runs.attained (run : Runs bodies text room task offset progress outcome later)
    (all : ∀ body ∈ bodies, body.isStocked = true) (stocked : task.isStocked = true)
    {reached : Nat} (failed : outcome = .failed reached) :
    (task.trail bodies text room offset).Tries reached ∨ task.Defaults offset reached := by
  -- Parts of a failed run that failed themselves tried something where they ended. They are followed
  -- by no match, so nothing of it is lost.
  have ended := run.tried.ended
  induction run generalizing reached with
  | empty | itemsDone | roundsDone | lexemeFound | definitionMatched | sequenceMatched
  | alternativeMatched | optionalMatched | optionalFailed | star | roundFailed | roundStood
  | roundAdvanced | plusStood | plusAdvanced | caseMatched | fallbackMatched => cases failed
  | alternativesDone =>
    cases failed
    exact .inr ⟨rfl, .inl rfl⟩
  | fallbackMissing =>
    cases failed
    exact .inr rfl
  | unknown | beyondLimit =>
    cases failed
    exact .inr rfl
  | lexemeMissed missed =>
    cases failed
    simp only [Task.trail, Step.trail, missed]
    exact .inl ⟨_, List.mem_singleton_self _, rfl, rfl⟩
  | definitionFailed called ih =>
    cases failed
    rcases ih rfl rfl called.tried.ended with ⟨trial, mem, kept, here⟩ | rfl
    · exact .inl ⟨trial, List.mem_cons_of_mem _ mem, kept, here⟩
    · exact .inl ⟨_, List.mem_cons_self, rfl, rfl⟩
  | sequenceFailed inside ih => exact ih stocked failed inside.tried.ended
  | itemFailed inside ih =>
    simp only [Task.trail, Step.trail.trailItems] at ended ⊢
    simp only [Task.isStocked, Step.isStocked.areStocked, Bool.and_eq_true] at stocked
    rcases ih stocked.1 failed inside.tried.ended with tries | none
    · exact .inl (tries.before (failed ▸ ended))
    · exact none.elim
  | itemMatched inside rest _ ih =>
    simp only [Task.trail, Step.trail.trailItems]
    simp only [Task.isStocked, Step.isStocked.areStocked, Bool.and_eq_true] at stocked
    rcases ih stocked.2 failed rest.tried.ended with tries | none
    · exact .inl (.behind inside.tried.ended tries)
    · exact none.elim
  | choice inside ih =>
    simp only [Task.isStocked, Step.isStocked, Bool.and_eq_true] at stocked
    rcases ih stocked.2 failed inside.tried.ended with tries | ⟨_, none | further⟩
    · exact .inl tries
    · simp [none] at stocked
    · exact absurd further (Nat.lt_irrefl _)
  | @alternativeFailed _ alternative alternatives before offset _ other _ _ _ inside rest first
      second =>
    simp only [Task.trail, Step.trail.trailAlternatives] at ended ⊢
    simp only [Task.isStocked, Step.isStocked.areStocked, Bool.and_eq_true] at stocked
    have forward : offset ≤ other := inside.forward trivial
    rcases first stocked.1 rfl inside.tried.ended with here | none
    · rcases second stocked.2 failed rest.tried.ended with tries | ⟨same, _⟩
      · exact .inl (.behind inside.tried.ended tries)
      · -- All later alternatives got less far than this one and those before it.
        rw [furthest_eq_max] at same
        rcases Nat.lt_or_ge other before with less | more
        · rw [Nat.max_eq_left (Nat.le_of_lt less)] at same
          subst same
          exact .inr ⟨rfl, .inr (Nat.lt_of_le_of_lt forward less)⟩
        · rw [Nat.max_eq_right more] at same
          subst same
          exact .inl (here.before (failed ▸ ended))
    · exact none.elim
  | plusFailed inside ih =>
    simp only [Task.trail, Step.trail, Trail.quantified] at ended ⊢
    rcases ih stocked failed inside.tried.ended with tries | none
    · exact .inl (tries.before (failed ▸ ended))
    · exact none.elim
  | plain inside ih =>
    rcases ih stocked failed inside.tried.ended with tries | none
    · exact .inl tries
    · exact none.elim
  | unselected selected inside ih =>
    simp only [Task.trail, Body.trail, selected]
    simp only [Task.isStocked, Body.isStocked, Bool.and_eq_true] at stocked
    exact ih stocked.2 failed inside.tried.ended
  | caseFailed selected inside rest first second =>
    simp only [Task.trail, Body.trail, selected] at ended ⊢
    simp only [Task.isStocked, Body.isStocked, Bool.and_eq_true, List.all_eq_true] at stocked
    obtain ⟨entry, listed, rfl⟩ :=
      Option.map_eq_some_iff.mp (Body.nameAt_of_selected selected).2
    have chosen := stocked.1 entry (List.mem_of_find?_eq_some listed)
    rcases second stocked.2 failed rest.tried.ended with tries | rfl
    · exact .inl (.behind inside.tried.ended tries)
    · rcases first chosen rfl inside.tried.ended with tries | none
      · exact .inl (tries.before (failed ▸ ended))
      · exact none.elim
  | fallbackFailed inside ih =>
    simp only [Task.trail, Body.trailFallback] at ended ⊢
    cases failed
    rename_i before _ _ other _
    rcases ih (by simpa [Task.isStocked] using stocked) rfl inside.tried.ended with here | none
    · rw [furthest]
      split
      · exact .inl (here.before ended)
      · exact .inr rfl
    · exact none.elim
  | called found inside ih =>
    rw [Task.trail, trailCall]
    simp only [found]
    exact ih (all _ (List.mem_of_getElem? found)) failed inside.tried.ended

end Runs

/-! ## Choices that were read -/

section Reading

variable {flavor : Flavor} {vocabulary : Vocabulary}

/-- The step of a pattern that can be read. -/
theorem Compiled.isStocked {resolve : String → Option Symbol} {plurality : Plurality}
    {pattern : Pattern} (formed : pattern.Formed flavor resolve) {step : Step}
    (compiled : Compiled vocabulary plurality (some pattern) step) : step.isStocked = true := by
  induction formed generalizing step with
  | leaf => cases compiled <;> rfl
  | sequence _ _ ih =>
    cases compiled with
    | sequence each =>
      refine Step.areStocked_iff.mpr fun step mem => ?_
      obtain ⟨item, here, made⟩ := exists_of_forall₂ each.flip mem
      exact ih item here made
  | choice _ several _ ih =>
    cases compiled with
    | @choice alternatives steps each =>
      have some : steps ≠ [] := by
        rintro rfl
        rw [each.length_eq] at several
        cases several
      have all : Step.isStocked.areStocked steps = true := by
        refine Step.areStocked_iff.mpr fun step mem => ?_
        obtain ⟨item, here, made⟩ := exists_of_forall₂ each.flip mem
        exact ih item here made
      simp [Step.isStocked, some, all]
  | quantified _ _ ih =>
    cases compiled with
    | quantified made =>
      rw [Step.isStocked]
      exact ih made

/-- The step of an expression that was read. -/
theorem isStocked_of_read {resolve : String → Option Symbol} {source : String}
    {expression : Expression} (read : Expression.read flavor resolve source = .ok expression)
    {step : Step} (compiled : vocabulary.compileExpression expression = .ok step) :
    step.isStocked = true := by
  obtain ⟨root, found, same⟩ := bind_eq_ok.mp read
  cases same
  have made := compiled_of_compileExpression compiled
  cases root with
  | none =>
    cases made
    rfl
  | some pattern => exact Compiled.isStocked (Pattern.formed_of_read found) made

/-- The body of a definition that was read. -/
theorem Draft.Reads.isStocked {draft : Draft} {resolve : String → Option Symbol}
    {definition : Definition} (reads : draft.Reads resolve definition) {body : Body}
    (compiled : vocabulary.compileBody definition = .ok body) : body.isStocked = true := by
  obtain ⟨steps, stepsMade, rest⟩ := bind_eq_ok.mp compiled
  obtain ⟨table, tableMade, same⟩ := bind_eq_ok.mp rest
  have each : ∀ step ∈ steps, step.isStocked = true := by
    intro step mem
    obtain ⟨expression, listed, made⟩ := exists_of_forall₂ (mapM_eq_ok.mp stepsMade).flip mem
    obtain ⟨source, _, read⟩ := exists_of_forall₂ reads.sequences.flip listed
    exact isStocked_of_read read made
  have selected : ∀ entry ∈ table, entry.2.isStocked = true := by
    intro entry mem
    obtain ⟨case, listed, made⟩ := exists_of_forall₂ (mapM_eq_ok.mp tableMade).flip mem
    obtain ⟨source, _, read⟩ := exists_of_forall₂ reads.cases.flip listed
    exact isStocked_of_read read.expression (Vocabulary.compileCase_eq_ok_iff.mp made).2
  have otherwise : (Vocabulary.fallbackOf steps).all (·.isStocked) = true := by
    match steps, each with
    | [], _ => rfl
    | [only], each => exact each only (List.mem_singleton_self _)
    | first :: second :: others, each =>
      exact Step.areStocked_iff.mpr each
  cases same
  split
  · cases found : Vocabulary.fallbackOf steps with
    | none => rfl
    | some step =>
      rw [found] at otherwise
      exact otherwise
  · simp only [Body.isStocked, Bool.and_eq_true, List.all_eq_true]
    exact ⟨selected, otherwise⟩

/-- Whatever a grammar makes a matcher of, no choice in it is without alternatives. -/
theorem Grammar.stocked_of_matcherIn {builder : Builder} {grammar : Grammar}
    (built : builder.build = .ok grammar) {text : String} {matcher : Matcher}
    (made : grammar.matcherIn flavor text = .ok matcher) : matcher.isStocked = true := by
  obtain ⟨expression, read, compiled⟩ := bind_eq_ok.mp made
  obtain ⟨step, stepMade, same⟩ := bind_eq_ok.mp compiled
  cases same
  have definitions := Builder.reads_of_build built
  obtain ⟨_, _, rest⟩ := bind_eq_ok.mp built
  obtain ⟨bodies, bodiesMade, same⟩ := bind_eq_ok.mp rest
  cases same
  simp only [Matcher.isStocked, Bool.and_eq_true, List.all_eq_true]
  refine ⟨isStocked_of_read read stepMade, fun body mem => ?_⟩
  obtain ⟨definition, listed, made⟩ := exists_of_forall₂ (mapM_eq_ok.mp bodiesMade).flip mem
  obtain ⟨draft, _, reads⟩ := exists_of_forall₂ definitions.flip listed
  exact reads.isStocked (within_eq_ok.mp made)

end Reading

/-! ## What a failed match reports -/

/-- A match that nothing matches is a run that fails. -/
theorem Matcher.run_of_noMatch {matcher : Matcher} {text : String} {offset : Nat}
    (refused : matcher.evaluate text = .error (.noMatch offset)) :
    (matcher.run text.toList).1 = .failed offset := by
  rw [evaluate] at refused
  generalize matcher.run text.toList = result at refused
  obtain ⟨outcome, progress⟩ := result
  simp only [verdict] at refused
  split at refused
  · cases refused
  · cases refused
    rfl
  · split at refused <;> cases refused

/-- **A failed match reports its trials.** Whatever is matched, and whatever text nothing matches:

* no leaf was tried behind the reported offset, unless what failed there was got over;
* so the offset is not less than the place of any trial exactly if it is not less than the places of
  the trials that are lost;
* some leaf was tried right at the offset, and not lost, if every choice has an alternative. All
  matchers that grammars make of texts are of this kind. -/
theorem noMatch_reports_trials {matcher : Matcher} {text : String} {offset : Nat}
    (refused : matcher.evaluate text = .error (.noMatch offset)) :
    (∀ trial ∈ matcher.trials text.toList, trial.lost = false → trial.place ≤ offset) ∧
    ((∀ trial ∈ matcher.trials text.toList, trial.place ≤ offset) ↔
      ∀ trial ∈ matcher.trials text.toList, trial.lost = true → trial.place ≤ offset) ∧
    (matcher.isStocked = true →
      ∃ trial ∈ matcher.trials text.toList, trial.lost = false ∧ trial.place = offset) := by
  have run := Step.runs matcher.bodies text.toList matcher.limit matcher.step 0 {}
  have failed := Matcher.run_of_noMatch refused
  rw [Matcher.run] at failed
  rw [failed] at run
  have kept := run.tried.within
  refine ⟨kept, ⟨fun all trial mem _ => all trial mem, fun lost trial mem => ?_⟩, fun stocked => ?_⟩
  · cases gone : trial.lost with
    | false => exact kept trial mem gone
    | true => exact lost trial mem gone
  · simp only [Matcher.isStocked, Bool.and_eq_true, List.all_eq_true] at stocked
    rcases run.attained stocked.2 stocked.1 rfl with tries | none
    · exact tries
    · exact none.elim

section Example

/-- Two lexemes. -/
private def letters : Builder where
  lexemes := ⟨[⟨["A"], ⟨"a", (Regex.char (.single 'a')).recognizer⟩⟩,
    ⟨["B"], ⟨"b", (Regex.char (.single 'b')).recognizer⟩⟩]⟩

/-- The matcher of a pattern over two lexemes. -/
private def lettersMatcher (source : String) (pattern : Pattern) : Matcher :=
  ((letters.build.toOption.getD ⟨{}, {}, [], []⟩).compile ⟨source, some pattern⟩).toOption.getD
    ⟨⟨source, none⟩, .empty, [], 0⟩

/-- Both lexemes, in this order. -/
private def bothLetters : Pattern :=
  .sequence [.leaf .lexeme "A", .leaf .lexeme "B"]

/-- Two alternatives, of which the first has more than one lexeme. -/
private def alternativesMatcher : Matcher :=
  lettersMatcher "A B | B" (.choice [bothLetters, .leaf .lexeme "B"])

/-- Of two alternatives that fail, the one that got further is reported. -/
theorem alternatives_report_trials :
    alternativesMatcher.evaluate "ac" = .error (.noMatch 1) ∧
    ∃ trial ∈ alternativesMatcher.trials "ac".toList, trial.lost = false ∧ trial.place = 1 :=
  have refused : alternativesMatcher.evaluate "ac" = .error (.noMatch 1) := rfl
  ⟨refused, (noMatch_reports_trials refused).2.2 rfl⟩

/-- An optional operand before a lexeme. -/
private def optionalMatcher : Matcher :=
  lettersMatcher "(A B)? B" (.sequence [.quantified .optional bothLetters, .leaf .lexeme "B"])

/-- An optional operand got further than what is reported: its second lexeme was tried behind the
reported offset. -/
theorem optional_loses_trial :
    optionalMatcher.evaluate "ac" = .error (.noMatch 0) ∧
    ∃ trial ∈ optionalMatcher.trials "ac".toList, 0 < trial.place := by
  have trials : optionalMatcher.trials "ac".toList = [⟨0, true⟩, ⟨1, true⟩, ⟨0, false⟩] := rfl
  refine ⟨rfl, ⟨1, true⟩, ?_, by decide⟩
  rw [trials]
  decide

end Example

end TreeScheme
