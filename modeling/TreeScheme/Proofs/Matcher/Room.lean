import TreeScheme.Proofs.Matcher.Limit

/-!
# More room for open calls

A run that met no limit does not depend on it: with more room for open calls it goes the same way
and ends the same, captures and all (`Step.run_of_le`).

The step is `Runs.with_room`, by induction over what a run can do: the rule for a call beyond the
limit is the only one that looks at the room, and it leaves a note. To bring this back to the
functions that run tasks, `Runs.perform_eq` adds the converse of what is known of them already: each
of these functions does exactly what the relation says.
-/

namespace TreeScheme

/-- The function that runs a task. -/
def Task.perform (bodies : List Body) (text : List Char) (room : Nat) : Task → Run
  | step single => single.run text (invoke bodies text room)
  | items parts => Step.run.runItems text (invoke bodies text room) parts
  | alternatives choices reached =>
    Step.run.runAlternatives text (invoke bodies text room) choices reached
  | rounds operand count => Step.runRounds (operand.run text (invoke bodies text room)) count
  | body whole => whole.run text (invoke bodies text room)
  | fallback last reached => Body.runFallback text (invoke bodies text room) last reached
  | call index => invoke bodies text room index

variable {bodies : List Body} {text : List Char} {room : Nat} {task : Task} {offset : Nat}
  {progress later : Progress} {outcome : Outcome}

/-- What a task can do is what its function does. -/
theorem Runs.perform_eq (run : Runs bodies text room task offset progress outcome later) :
    task.perform bodies text room offset progress = (outcome, later) := by
  induction run with
  | empty | itemsDone | alternativesDone | roundsDone | fallbackMissing => rfl
  | lexemeMissed missed => simp only [Task.perform, Step.run, Step.runLexeme, missed]
  | lexemeFound found => simp only [Task.perform, Step.run, Step.runLexeme, found]
  | definitionFailed _ ih | definitionMatched _ ih =>
    simp only [Task.perform] at ih
    simp only [Task.perform, Step.run, Step.runCall, ih]
  | sequenceMatched _ ih | sequenceFailed _ ih =>
    simp only [Task.perform] at ih
    simp only [Task.perform, Step.run, Step.runOrRollback, ih]
  | itemFailed _ ih =>
    simp only [Task.perform] at ih
    simp only [Task.perform, Step.run.runItems, ih]
  | itemMatched _ _ first rest =>
    simp only [Task.perform] at first rest
    simp only [Task.perform, Step.run.runItems, first, rest]
  | choice _ ih =>
    simp only [Task.perform] at ih
    simp only [Task.perform, Step.run, ih]
  | alternativeMatched _ ih =>
    simp only [Task.perform] at ih
    simp only [Task.perform, Step.run.runAlternatives, ih]
  | alternativeFailed _ _ first rest =>
    simp only [Task.perform] at first rest
    simp only [Task.perform, Step.run.runAlternatives, first, rest]
  | optionalMatched _ ih | optionalFailed _ ih =>
    simp only [Task.perform] at ih
    simp only [Task.perform, Step.run, Step.runQuantified, Step.runOptional, ih]
  | star _ ih =>
    simp only [Task.perform] at ih
    simp only [Task.perform, Step.run, Step.runQuantified, Step.runStar, ih]
  | roundFailed _ ih =>
    simp only [Task.perform] at ih
    simp only [Task.perform, Step.runRounds, ih]
  | roundStood _ ih =>
    simp only [Task.perform] at ih
    simp only [Task.perform, Step.runRounds, ih, if_true]
  | roundAdvanced _ advanced _ first rest =>
    simp only [Task.perform] at first rest
    simp only [Task.perform, Step.runRounds, first, advanced, if_false, rest]
  | plusFailed _ ih =>
    simp only [Task.perform] at ih
    simp only [Task.perform, Step.run, Step.runQuantified, Step.runPlus, ih]
  | plusStood _ ih =>
    simp only [Task.perform] at ih
    simp only [Task.perform, Step.run, Step.runQuantified, Step.runPlus, ih, if_true]
  | plusAdvanced _ advanced _ first rest =>
    simp only [Task.perform, Step.run, Step.runQuantified] at first rest
    simp only [Task.perform, Step.run, Step.runQuantified, Step.runPlus, first, advanced, if_false,
      rest]
  | plain _ ih =>
    simp only [Task.perform] at ih
    simp only [Task.perform, Body.run, ih]
  | unselected selected _ ih =>
    simp only [Task.perform] at ih
    simp only [Task.perform, Body.run, selected, ih]
  | caseMatched selected _ ih =>
    simp only [Task.perform] at ih
    simp only [Task.perform, Body.run, selected, ih]
  | caseFailed selected _ _ first rest =>
    simp only [Task.perform] at first rest
    simp only [Task.perform, Body.run, selected, first, rest]
  | fallbackMatched _ ih | fallbackFailed _ ih =>
    simp only [Task.perform] at ih
    simp only [Task.perform, Body.runFallback, ih]
  | unknown missing =>
    rw [Task.perform, invoke]
    simp only [missing]
  | beyondLimit found =>
    rw [Task.perform, invoke]
    simp only [found]
  | called found _ ih =>
    rw [Task.perform, invoke]
    simp only [found]
    exact ih

/-- A run that ends without a note goes the same way with any room that is not less. -/
theorem Runs.with_room (run : Runs bodies text room task offset progress outcome later)
    (unnoted : later.limitHit = none) {more : Nat} (le : room ≤ more) :
    Runs bodies text more task offset progress outcome later := by
  induction run generalizing more with
  | empty => exact .empty
  | lexemeMissed missed => exact .lexemeMissed missed
  | lexemeFound found => exact .lexemeFound found
  | definitionFailed _ ih => exact .definitionFailed (ih unnoted le)
  | definitionMatched _ ih =>
    rw [Progress.limitHit_record] at unnoted
    exact .definitionMatched (ih unnoted le)
  | sequenceMatched _ ih => exact .sequenceMatched (ih unnoted le)
  | sequenceFailed _ ih => exact .sequenceFailed (ih unnoted le)
  | itemsDone => exact .itemsDone
  | itemFailed _ ih => exact .itemFailed (ih unnoted le)
  | itemMatched _ after first rest =>
    exact .itemMatched (first (after.limitHit_none unnoted) le) (rest unnoted le)
  | choice _ ih => exact .choice (ih unnoted le)
  | alternativesDone => exact .alternativesDone
  | alternativeMatched _ ih => exact .alternativeMatched (ih unnoted le)
  | alternativeFailed _ after first rest =>
    exact .alternativeFailed (first (after.limitHit_none unnoted) le) (rest unnoted le)
  | optionalMatched _ ih => exact .optionalMatched (ih unnoted le)
  | optionalFailed _ ih => exact .optionalFailed (ih unnoted le)
  | star _ ih => exact .star (ih unnoted le)
  | roundsDone => exact .roundsDone
  | roundFailed _ ih => exact .roundFailed (ih unnoted le)
  | roundStood _ ih => exact .roundStood (ih unnoted le)
  | roundAdvanced _ advanced after first rest =>
    exact .roundAdvanced (first (after.limitHit_none unnoted) le) advanced (rest unnoted le)
  | plusFailed _ ih => exact .plusFailed (ih unnoted le)
  | plusStood _ ih => exact .plusStood (ih unnoted le)
  | plusAdvanced _ advanced after first rest =>
    exact .plusAdvanced (first (after.limitHit_none unnoted) le) advanced (rest unnoted le)
  | plain _ ih => exact .plain (ih unnoted le)
  | unselected selected _ ih => exact .unselected selected (ih unnoted le)
  | caseMatched selected _ ih => exact .caseMatched selected (ih unnoted le)
  | caseFailed selected _ after first rest =>
    exact .caseFailed selected (first (after.limitHit_none unnoted) le) (rest unnoted le)
  | fallbackMissing => exact .fallbackMissing
  | fallbackMatched _ ih => exact .fallbackMatched (ih unnoted le)
  | fallbackFailed _ ih => exact .fallbackFailed (ih unnoted le)
  | unknown missing => exact .unknown missing
  | beyondLimit _ =>
    -- A call that was cut short leaves a note, whether or not there was one before.
    rw [Progress.hitLimit] at unnoted
    simp at unnoted
  | called found _ ih =>
    cases more with
    | zero => cases le
    | succ more => exact .called found (ih unnoted (Nat.le_of_succ_le_succ le))

/-- **More room changes nothing.** A step that is run without a note is run the same with any room
that is not less. -/
theorem Step.run_of_le {step : Step} {more : Nat} (le : room ≤ more)
    (unnoted : (step.run text (invoke bodies text room) offset progress).2.limitHit = none) :
    step.run text (invoke bodies text more) offset progress =
      step.run text (invoke bodies text room) offset progress :=
  ((Step.runs bodies text room step offset progress).with_room unnoted le).perform_eq

end TreeScheme
