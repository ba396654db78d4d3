import TreeScheme.Proofs.Capture.Rollback
import TreeScheme.Proofs.Matcher.Runs

/-!
# Failed runs leave no trace

Only a sequence and the selection of a case take captures back. Every other construct relies on the
runs inside it: a choice tries its next alternative on what the failed one left behind, and so do an
optional part, a repetition and a fallback. That this is right is a property of all runs together,
and `Runs.restored` proves it by one rule induction.

The induction carries more than the statement asks for. A run that matches must be known to be
undone by rolling back to where it began, because the sequence around it may still fail; so every
run extends its recorder, and a failed run leaves it as it was. The items of a sequence are the
exception that makes the two halves different: they may fail with captures recorded, and it is the
sequence that rolls them back.
-/

namespace TreeScheme

/-- Whether a task cleans up when it fails. The items of a sequence leave that to the sequence. -/
def Task.CleansUp : Task → Prop
  | items _ => False
  | _ => True

/-- What every run does to its recorder. -/
structure Restored (task : Task) (progress : Progress) (outcome : Outcome) (later : Progress) :
    Prop where
  /-- What was recorded can be taken back. -/
  extended : later.recorder.Extends progress.recorder
  /-- A failure has taken it back. -/
  kept : task.CleansUp → ∀ reached, outcome = .failed reached →
    later.recorder = progress.recorder

namespace Restored

variable {task other : Task} {progress between later : Progress} {stop reached : Nat}
  {outcome : Outcome}

/-- A match has nothing to clean up. -/
theorem of_matched (extended : later.recorder.Extends progress.recorder) :
    Restored task progress (.matched stop) later :=
  ⟨extended, fun _ _ impossible => by cases impossible⟩

/-- Nothing recorded is nothing to take back, whatever the outcome. -/
theorem of_eq (same : later.recorder = progress.recorder) :
    Restored task progress outcome later :=
  ⟨same ▸ Recorder.Extends.refl _, fun _ _ _ => same⟩

/-- A run that goes on from where a failed one left off. -/
theorem of_unchanged (same : between.recorder = progress.recorder)
    (rest : Restored other between outcome later) (cleans : other.CleansUp) :
    Restored task progress outcome later :=
  ⟨same ▸ rest.extended, fun _ reached failed => (rest.kept cleans reached failed).trans same⟩

/-- A failure that cleaned up changed nothing. -/
theorem eq_of_failed (run : Restored task progress (.failed reached) later)
    (cleans : task.CleansUp) : later.recorder = progress.recorder :=
  run.kept cleans reached rfl

end Restored

/-- Recording a value, if there is one, can be undone. -/
theorem Progress.extends_record (progress : Progress) (name : String) (value : Option Value)
    (plural : Bool) : (progress.record name value plural).recorder.Extends progress.recorder := by
  cases value with
  | none => exact .refl _
  | some value => exact progress.recorder.extends_record name value plural

/-- Rolling back to an earlier progress gives its recorder back. -/
theorem Progress.rollback_recorder {progress later : Progress}
    (extended : later.recorder.Extends progress.recorder) :
    (later.rollback progress).recorder = progress.recorder :=
  Recorder.rollback_of_extends extended

/-- Every run extends its recorder, and every failed run that cleans up leaves it as it was. -/
theorem Runs.restored {bodies : List Body} {text : List Char} {room : Nat} {task : Task}
    {offset : Nat} {progress later : Progress} {outcome : Outcome}
    (run : Runs bodies text room task offset progress outcome later) :
    Restored task progress outcome later := by
  induction run with
  | empty => exact .of_eq rfl
  | lexemeMissed _ => exact .of_eq rfl
  | lexemeFound _ => exact .of_matched (Progress.extends_record _ _ _ _)
  | definitionFailed _ _ => exact .of_eq rfl
  | definitionMatched _ _ => exact .of_matched (Recorder.extends_record _ _ _ _)
  | sequenceMatched _ ih => exact .of_matched ih.extended
  | sequenceFailed _ ih => exact .of_eq (Progress.rollback_recorder ih.extended)
  | itemsDone => exact .of_eq rfl
  | itemFailed _ ih => exact ⟨ih.extended, False.elim⟩
  | itemMatched _ _ first rest => exact ⟨rest.extended.trans first.extended, False.elim⟩
  | choice _ ih => exact .of_unchanged rfl ih trivial
  | alternativesDone => exact .of_eq rfl
  | alternativeMatched _ ih => exact .of_matched ih.extended
  | alternativeFailed _ _ first rest =>
    exact .of_unchanged (first.eq_of_failed trivial) rest trivial
  | optionalMatched _ ih => exact .of_matched ih.extended
  | optionalFailed _ ih => exact .of_matched ih.extended
  | star _ ih => exact .of_matched ih.extended
  | roundsDone => exact .of_eq rfl
  | roundFailed _ ih => exact .of_matched ih.extended
  | roundStood _ ih => exact .of_matched ih.extended
  | roundAdvanced _ _ _ first rest => exact .of_matched (rest.extended.trans first.extended)
  | plusFailed _ ih => exact .of_eq (ih.eq_of_failed trivial)
  | plusStood _ ih => exact .of_matched ih.extended
  | plusAdvanced _ _ _ first rest => exact .of_matched (rest.extended.trans first.extended)
  | plain _ ih => exact .of_unchanged rfl ih trivial
  | unselected _ _ ih => exact .of_unchanged rfl ih trivial
  | caseMatched _ _ ih =>
    exact .of_matched (ih.extended.trans (Recorder.extends_selectCase _ _))
  | caseFailed _ _ _ first rest =>
    -- The selection itself is part of what is taken back.
    have taken := first.extended.trans (Recorder.extends_selectCase _ _)
    exact .of_unchanged (Progress.rollback_recorder taken) rest trivial
  | fallbackMissing => exact .of_eq rfl
  | fallbackMatched _ ih => exact .of_matched ih.extended
  | fallbackFailed _ ih => exact .of_eq (ih.eq_of_failed trivial)
  | unknown _ => exact .of_eq rfl
  | beyondLimit _ => exact .of_eq rfl
  | called _ _ ih => exact .of_unchanged rfl ih trivial

/-- **A failed run leaves no trace.** Whatever step or body is run, at whatever offset of whatever
text, with whatever room for calls into whatever bodies, and whatever was recorded before: if it
fails, the recorder is as it was, with its captures, its case and its journal.

Steps and bodies are all that patterns and definitions are made into, so this covers every pattern
and every definition of every grammar. -/
theorem failed_run_keeps_recorder (bodies : List Body) (text : List Char) (room offset : Nat)
    (progress later : Progress) (reached : Nat) :
    (∀ step : Step,
      step.run text (invoke bodies text room) offset progress = (.failed reached, later) →
      later.recorder = progress.recorder) ∧
    (∀ body : Body,
      body.run text (invoke bodies text room) offset progress = (.failed reached, later) →
      later.recorder = progress.recorder) := by
  constructor
  · intro step failed
    have run := Step.runs bodies text room step offset progress
    rw [failed] at run
    exact run.restored.eq_of_failed trivial
  · intro body failed
    have run := Body.runs bodies text room body offset progress
    rw [failed] at run
    exact run.restored.eq_of_failed trivial

section Example

/-- A lexeme for one dot. -/
private def dot : Lexeme :=
  ⟨"[.]", (Regex.char (.single '.')).recognizer⟩

/-- A sequence of three dots, each recorded in a list. -/
private def threeDots : Step :=
  .sequence [.lexeme "DOT" dot true, .lexeme "DOT" dot true, .lexeme "DOT" dot true]

/-- A dot was recorded earlier. -/
private def oneDot : Progress :=
  { recorder := ({} : Recorder).record "DOT" (.text ".") true }

/-- Two dots of three are taken back when the third is missing, both by the sequence on its own and
by the case `x` that it is the body of. -/
theorem missing_dot_keeps_recorder :
    (∃ later, threeDots.run "..!".toList (invoke [] "..!".toList 0) 0 oneDot = (.failed 2, later) ∧
      later.recorder = oneDot.recorder) ∧
    (∃ later, (Body.cases [(["x"], threeDots)] none).run "x..!".toList
        (invoke [] "x..!".toList 0) 0 oneDot = (.failed 3, later) ∧
      later.recorder = oneDot.recorder) := by
  constructor
  · refine ⟨_, rfl, ?_⟩
    exact (failed_run_keeps_recorder [] "..!".toList 0 0 oneDot _ 2).1 threeDots rfl
  · refine ⟨_, rfl, ?_⟩
    exact (failed_run_keeps_recorder [] "x..!".toList 0 0 oneDot _ 3).2
      (.cases [(["x"], threeDots)] none) rfl

end Example

end TreeScheme
