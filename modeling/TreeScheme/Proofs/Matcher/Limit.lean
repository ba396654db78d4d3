import TreeScheme.Proofs.Matcher.Runs

/-!
# The limit on open calls

A call beyond the limit fails like any other failure, but the run also notes where it happened, and
the note outlives everything: whatever is abandoned or taken back afterwards, the first note is the
one that the run ends with (`Runs.limitHit_kept`). So a run that ends without a note never had one,
and no call anywhere in it was cut short (`Runs.limitHit_none`).
-/

namespace TreeScheme

/-- Recording a value does not touch the note. -/
@[simp] theorem Progress.limitHit_record (progress : Progress) (name : String)
    (value : Option Value) (plural : Bool) :
    (progress.record name value plural).limitHit = progress.limitHit := by
  cases value <;> rfl

/-- A note that was made is kept to the end. -/
theorem Runs.limitHit_kept {bodies : List Body} {text : List Char} {room : Nat} {task : Task}
    {offset : Nat} {progress later : Progress} {outcome : Outcome}
    (run : Runs bodies text room task offset progress outcome later) {first : Nat}
    (noted : progress.limitHit = some first) : later.limitHit = some first := by
  induction run with
  | empty | lexemeMissed | itemsDone | alternativesDone | roundsDone | fallbackMissing | unknown =>
    exact noted
  | lexemeFound =>
    rw [Progress.limitHit_record]
    exact noted
  | definitionFailed _ ih => exact ih noted
  | definitionMatched _ ih =>
    rw [Progress.limitHit_record]
    exact ih noted
  | sequenceMatched _ ih | sequenceFailed _ ih | itemFailed _ ih | choice _ ih
  | alternativeMatched _ ih | optionalMatched _ ih | optionalFailed _ ih | star _ ih
  | roundFailed _ ih | roundStood _ ih | plusFailed _ ih | plusStood _ ih | plain _ ih
  | fallbackMatched _ ih | fallbackFailed _ ih => exact ih noted
  | unselected _ _ ih | caseMatched _ _ ih | called _ _ ih => exact ih noted
  | itemMatched _ _ before rest | alternativeFailed _ _ before rest => exact rest (before noted)
  | roundAdvanced _ _ _ before rest | plusAdvanced _ _ _ before rest => exact rest (before noted)
  | caseFailed _ _ _ before rest => exact rest (before noted)
  | beyondLimit =>
    rw [Progress.hitLimit, noted]
    rfl

/-- A run that ends without a note started without one. -/
theorem Runs.limitHit_none {bodies : List Body} {text : List Char} {room : Nat} {task : Task}
    {offset : Nat} {progress later : Progress} {outcome : Outcome}
    (run : Runs bodies text room task offset progress outcome later)
    (unnoted : later.limitHit = none) : progress.limitHit = none := by
  cases before : progress.limitHit with
  | none => rfl
  | some first =>
    rw [run.limitHit_kept before] at unnoted
    cases unnoted

end TreeScheme
