import TreeScheme.Proofs.Matcher.Judgement
import TreeScheme.Proofs.Matcher.Restoration

/-!
# One or more

One or more of a pattern is the pattern once and then any number of it. The two are run in different
ways: the first stops at once if its first round takes no text, and has nothing to take back; the
second is a sequence, which rolls back when it fails, and goes on to a repetition whatever its first
item took.

They come to the same (`Step.alike_unrolled`). Where the first round fails it leaves nothing to roll
back. Where it takes text, both go on with the same repetition. Where it takes none, the repetition
runs the same round again at the same place, and it ends the same and meets the same limit: how a run
ends does not depend on what was recorded before. Only what it records is then recorded twice.
-/

namespace TreeScheme

open Text (byteSize)

variable {bodies : List Body} {text : List Char} {room offset : Nat} {step : Step}
  {progress later : Progress}

/-! ## Running the same step again -/

/-- A step that is run again at the same place ends the same, whatever was recorded before, and
notes nothing that was not noted the first time. -/
theorem Step.run_again (bodies : List Body) (text : List Char) (room : Nat) (step : Step)
    (offset : Nat) (progress : Progress) {outcome : Outcome}
    (first : step.run text (invoke bodies text room) offset progress = (outcome, later)) :
    (step.run text (invoke bodies text room) offset later).1 = outcome ∧
      (step.run text (invoke bodies text room) offset later).2.limitHit = later.limitHit := by
  have once := (Step.runs bodies text room step offset progress).noted 0
  have twice := (Step.runs bodies text room step offset later).noted 0
  rw [first] at once
  refine ⟨twice.outcome.symm.trans once.outcome, ?_⟩
  rw [twice.note, once.note, Option.or_assoc, Option.or_self]

/-! ## Steps -/

/-- Two steps that run alike wherever they start, except that they may record differently where the
first match of some step takes no text. -/
structure AlikeUnlessEmpty (bodies : List Body) (first joined apart : Step) : Prop where
  /-- They end the same, or fail the same. -/
  outcome : ∀ text room offset progress,
    (joined.run text (invoke bodies text room) offset progress).1 =
      (apart.run text (invoke bodies text room) offset progress).1
  /-- They note the same call beyond the limit, if there is one. -/
  note : ∀ text room offset progress,
    (joined.run text (invoke bodies text room) offset progress).2.limitHit =
      (apart.run text (invoke bodies text room) offset progress).2.limitHit
  /-- They leave the same captures, unless the first match is empty. -/
  captures : ∀ text room offset progress,
    (first.run text (invoke bodies text room) offset progress).1 ≠ .matched offset →
    joined.run text (invoke bodies text room) offset progress =
      apart.run text (invoke bodies text room) offset progress

namespace Step

/-! What each side does is settled by its first round: it fails, it takes no text, or it advances. -/

section FirstRound

variable {call : Nat → Run} {reached stop : Nat}

theorem run_plus_of_failed
    (failed : step.run text call offset progress = (.failed reached, later)) :
    (quantified .plus step).run text call offset progress = (.failed reached, later) := by
  show runPlus (byteSize text) (step.run text call) offset progress = _
  simp only [runPlus, failed]

theorem run_plus_of_stood
    (stood : step.run text call offset progress = (.matched offset, later)) :
    (quantified .plus step).run text call offset progress = (.matched offset, later) := by
  show runPlus (byteSize text) (step.run text call) offset progress = _
  simp only [runPlus, stood, if_true]

theorem run_plus_of_advanced
    (matched : step.run text call offset progress = (.matched stop, later))
    (advanced : stop ≠ offset) :
    (quantified .plus step).run text call offset progress =
      (quantified .star step).run text call stop later := by
  show runPlus (byteSize text) (step.run text call) offset progress = _
  simp only [runPlus, matched, advanced, if_false]
  rfl

/-- A sequence whose first item matches goes on with the repetition, which never fails. -/
theorem run_unrolled_of_matched
    (matched : step.run text call offset progress = (.matched stop, later)) :
    (sequence [step, quantified .star step]).run text call offset progress =
      (quantified .star step).run text call stop later := by
  obtain ⟨last, ends⟩ :=
    runRounds_matched (step.run text call) (byteSize text - stop + 1) stop later
  have rest : (quantified .star step).run text call stop later =
      (.matched last, ((quantified .star step).run text call stop later).2) := Prod.ext ends rfl
  show runOrRollback (run.runItems text call [step, quantified .star step]) offset progress = _
  rw [rest]
  simp only [runOrRollback, run.runItems, matched]
  rw [rest]

/-- A sequence whose first item fails has nothing to take back. -/
theorem run_unrolled_of_failed
    (failed : step.run text (invoke bodies text room) offset progress = (.failed reached, later)) :
    (sequence [step, quantified .star step]).run text (invoke bodies text room) offset progress =
      (.failed reached, later) := by
  have single := Step.runs bodies text room step offset progress
  rw [failed] at single
  have same : later.rollback progress = later := by
    rw [Progress.rollback, ← single.restored.eq_of_failed trivial, Recorder.rollback_mark]
  show runOrRollback (run.runItems text (invoke bodies text room) [step, quantified .star step])
    offset progress = _
  simp only [runOrRollback, run.runItems, failed, same]

/-- A first round that took no text is run once more by the repetition, and ends it. -/
theorem run_unrolled_of_stood
    (stood : step.run text (invoke bodies text room) offset progress = (.matched offset, later)) :
    (sequence [step, quantified .star step]).run text (invoke bodies text room) offset progress =
      (.matched offset, (step.run text (invoke bodies text room) offset later).2) := by
  have again : step.run text (invoke bodies text room) offset later =
      (.matched offset, (step.run text (invoke bodies text room) offset later).2) :=
    Prod.ext (run_again bodies text room step offset progress stood).1 rfl
  rw [run_unrolled_of_matched stood]
  show runStar (byteSize text) (step.run text (invoke bodies text room)) offset later = _
  rw [runStar, runRounds, again]
  simp only [if_true]

end FirstRound

/-- **One or more is once and then any number.** -/
theorem alike_unrolled (bodies : List Body) (step : Step) :
    AlikeUnlessEmpty bodies step (quantified .plus step)
      (sequence [step, quantified .star step]) := by
  have each : ∀ text room offset progress,
      (quantified .plus step).run text (invoke bodies text room) offset progress =
          (sequence [step, quantified .star step]).run text (invoke bodies text room) offset
            progress ∨
        ∃ later, step.run text (invoke bodies text room) offset progress =
            (.matched offset, later) := by
    intro text room offset progress
    rcases ended : step.run text (invoke bodies text room) offset progress with
      ⟨stop | reached, later⟩
    · by_cases stood : stop = offset
      · exact .inr ⟨later, by rw [stood]⟩
      · exact .inl ((run_plus_of_advanced ended stood).trans (run_unrolled_of_matched ended).symm)
    · exact .inl ((run_plus_of_failed ended).trans (run_unrolled_of_failed ended).symm)
  refine ⟨fun text room offset progress => ?_, fun text room offset progress => ?_,
    fun text room offset progress nonempty => ?_⟩
  · rcases each text room offset progress with same | ⟨later, stood⟩
    · rw [same]
    · rw [run_plus_of_stood stood, run_unrolled_of_stood stood]
  · rcases each text room offset progress with same | ⟨later, stood⟩
    · rw [same]
    · rw [run_plus_of_stood stood, run_unrolled_of_stood stood]
      exact (run_again bodies text room step offset progress stood).2.symm
  · rcases each text room offset progress with same | ⟨later, stood⟩
    · exact same
    · exact absurd (by rw [stood]) nonempty

-- A call that takes no text is captured once by the one, and twice by the other.
example :
    ((quantified .plus (definition "N" 0 true)).run [] (invoke [.plain .empty] [] 1) 0
      {}).2.recorder.context.captures = [("N", .list [.context {}])] ∧
    ((sequence [definition "N" 0 true, quantified .star (definition "N" 0 true)]).run []
      (invoke [.plain .empty] [] 1) 0 {}).2.recorder.context.captures =
        [("N", .list [.context {}, .context {}])] :=
  ⟨rfl, rfl⟩

end Step

end TreeScheme
