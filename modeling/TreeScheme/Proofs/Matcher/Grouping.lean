import TreeScheme.Proofs.Matcher.Boundaries
import TreeScheme.Proofs.Matcher.Restoration

/-!
# Groups within groups

A sequence that is an item of a sequence may as well give its items to the outer one, and so may a
choice that is an alternative of a choice. `Step.splice` does this everywhere in a step, and a
spliced step runs as before, with the same captures, the same failures and the same note
(`Step.run_splice`).

**Sequences.** An inner sequence that fails takes back its own captures, and then the outer one those
of the items before. Spliced, all of them are taken back at once. What a failed list of items has
recorded therefore differs, but no sequence can tell (`SameForSequence`).

**Choices.** An inner choice starts to count how far its alternatives got where it stands, and the
outer one takes the further of this and what it had. Spliced, the inner alternatives go on from what
the outer ones had. That is the same, since `furthest` is associative and no count is before the
place where the choice stands.
-/

namespace TreeScheme

namespace Step

/-! ## Splicing -/

/-- What a step adds to a sequence: its items, if it is a sequence itself. -/
def asItems : Step → List Step
  | sequence items => items
  | step => [step]

/-- What a step adds to a choice: its alternatives, if it is a choice itself. -/
def asAlternatives : Step → List Step
  | choice alternatives => alternatives
  | step => [step]

/-- A step in which no sequence is an item of a sequence, and no choice an alternative of a
choice. -/
def splice : Step → Step
  | empty => empty
  | lexeme id leaf plural => lexeme id leaf plural
  | definition id index plural => definition id index plural
  | sequence items => sequence (spliceAll asItems items)
  | choice alternatives => choice (spliceAll asAlternatives alternatives)
  | quantified quantifier operand => quantified quantifier operand.splice
where
  /-- Several steps, each replaced by what it adds. -/
  spliceAll (adds : Step → List Step) : List Step → List Step
  | [] => []
  | step :: rest => adds step.splice ++ spliceAll adds rest

section Lists

variable {text : List Char} {call : Nat → Run}

/-! ## Items -/

/-- Items run one after another, also where their list is put together. -/
theorem runItems_append (first second : List Step) (offset : Nat) (progress : Progress) :
    run.runItems text call (first ++ second) offset progress =
      match run.runItems text call first offset progress with
      | (.matched stop, later) => run.runItems text call second stop later
      | (.failed reached, later) => (.failed reached, later) := by
  induction first generalizing offset progress with
  | nil => rfl
  | cons item items ih =>
    simp only [List.cons_append, run.runItems]
    rcases item.run text call offset progress with ⟨stop | reached, later⟩
    · exact ih stop later
    · rfl

end Lists

end Step

/-- Results of a list of items that are the same for the sequence around it, which takes back what
was recorded before a failure. -/
structure SameForSequence (first second : Outcome × Progress) : Prop where
  outcome : first.1 = second.1
  note : first.2.limitHit = second.2.limitHit
  matched : ∀ stop, second.1 = .matched stop → first = second

namespace SameForSequence

variable {first second : Outcome × Progress}

theorem refl (result : Outcome × Progress) : SameForSequence result result :=
  ⟨rfl, rfl, fun _ _ => rfl⟩

/-- A failure is told by how far it got and by its note. -/
theorem of_failed {reached : Nat} {later other : Progress}
    (note : later.limitHit = other.limitHit) :
    SameForSequence (.failed reached, later) (.failed reached, other) :=
  ⟨rfl, note, fun _ impossible => by cases impossible⟩

/-- A sequence makes the same of such results. -/
theorem runOrRollback_eq {one other : Run} {offset : Nat} {progress : Progress}
    (same : SameForSequence (one offset progress) (other offset progress))
    (extended : (one offset progress).2.recorder.Extends progress.recorder)
    (extendedOther : (other offset progress).2.recorder.Extends progress.recorder) :
    Step.runOrRollback one offset progress = Step.runOrRollback other offset progress := by
  obtain ⟨outcome, note, matched⟩ := same
  simp only [Step.runOrRollback]
  rcases ended : other offset progress with ⟨stop | reached, later⟩
  · rw [ended] at matched
    rw [matched stop rfl]
  · rcases endedOne : one offset progress with ⟨stop | reachedOne, laterOne⟩
    · rw [endedOne, ended] at outcome
      cases outcome
    · rw [endedOne, ended] at outcome note
      rw [endedOne] at extended
      rw [ended] at extendedOther
      cases outcome
      have recorders : (laterOne.rollback progress).recorder =
          (later.rollback progress).recorder :=
        (Progress.rollback_recorder extended).trans
          (Progress.rollback_recorder extendedOther).symm
      simp only [Progress.rollback] at recorders ⊢
      rw [recorders, note]

end SameForSequence

namespace Step

section Lists

variable {text : List Char} {call : Nat → Run}

/-- What a step adds to a sequence runs as the step does. -/
theorem runItems_asItems (step : Step) (offset : Nat) (progress : Progress) :
    SameForSequence (run.runItems text call step.asItems offset progress)
      (step.run text call offset progress) := by
  have alone : SameForSequence (run.runItems text call [step] offset progress)
      (step.run text call offset progress) := by
    simp only [run.runItems]
    rcases step.run text call offset progress with ⟨stop | reached, later⟩
    · exact .refl _
    · exact .refl _
  cases step with
  | sequence items =>
    show SameForSequence (run.runItems text call items offset progress)
      (runOrRollback (run.runItems text call items) offset progress)
    rw [runOrRollback]
    rcases run.runItems text call items offset progress with ⟨stop | reached, later⟩
    · exact .refl _
    · exact .of_failed rfl
  | empty => exact alone
  | lexeme id leaf plural => exact alone
  | definition id index plural => exact alone
  | choice alternatives => exact alone
  | quantified quantifier operand => exact alone

/-- Items that are replaced by what they add are the same for a sequence. -/
theorem runItems_spliceAll {items : List Step}
    (each : ∀ item ∈ items, item.splice.run text call = item.run text call) (offset : Nat)
    (progress : Progress) :
    SameForSequence (run.runItems text call (splice.spliceAll asItems items) offset progress)
      (run.runItems text call items offset progress) := by
  induction items generalizing offset progress with
  | nil => exact .refl _
  | cons item items ih =>
    obtain ⟨here, later⟩ := List.forall_mem_cons.mp each
    have added : SameForSequence
        (run.runItems text call item.splice.asItems offset progress)
        (item.splice.run text call offset progress) := runItems_asItems item.splice offset progress
    rw [here] at added
    simp only [splice.spliceAll, runItems_append, run.runItems]
    rcases ended : item.run text call offset progress with ⟨stop | reached, between⟩
    · rw [ended] at added
      rw [added.matched stop rfl]
      exact ih later stop between
    · rw [ended] at added
      rcases endedAdded : run.runItems text call item.splice.asItems offset progress with
        ⟨stop | other, betweenAdded⟩
      · rw [endedAdded] at added
        cases added.outcome
      · rw [endedAdded] at added
        cases added.outcome
        exact .of_failed added.note

/-! ## Alternatives -/

/-- Alternatives are tried one after another, also where their list is put together. -/
theorem runAlternatives_append (first second : List Step) (reached offset : Nat)
    (progress : Progress) :
    run.runAlternatives text call (first ++ second) reached offset progress =
      match run.runAlternatives text call first reached offset progress with
      | (.matched stop, later) => (.matched stop, later)
      | (.failed other, later) => run.runAlternatives text call second other offset later := by
  induction first generalizing reached progress with
  | nil => rfl
  | cons alternative alternatives ih =>
    simp only [List.cons_append, run.runAlternatives]
    rcases alternative.run text call offset progress with ⟨stop | other, later⟩
    · rfl
    · exact ih (furthest reached other) later

/-- How far others got before only shows in how far a failure got. -/
theorem runAlternatives_furthest (alternatives : List Step) (before reached offset : Nat)
    (progress : Progress) :
    run.runAlternatives text call alternatives (furthest before reached) offset progress =
      match run.runAlternatives text call alternatives reached offset progress with
      | (.matched stop, later) => (.matched stop, later)
      | (.failed other, later) => (.failed (furthest before other), later) := by
  induction alternatives generalizing reached progress with
  | nil => rfl
  | cons alternative alternatives ih =>
    simp only [run.runAlternatives]
    rcases alternative.run text call offset progress with ⟨stop | other, later⟩
    · rfl
    · simp only [furthest_assoc]
      exact ih (furthest reached other) later

/-- What a step adds to a choice runs as the step does. -/
theorem runAlternatives_asAlternatives (step : Step) {reached offset : Nat} (le : offset ≤ reached)
    (progress : Progress) :
    run.runAlternatives text call step.asAlternatives reached offset progress =
      run.runAlternatives text call [step] reached offset progress := by
  cases step with
  | choice alternatives =>
    rw [asAlternatives, run.runAlternatives, ← furthest_of_le le, runAlternatives_furthest, run,
      furthest_of_le le]
    rfl
  | empty => rfl
  | lexeme id leaf plural => rfl
  | definition id index plural => rfl
  | sequence items => rfl
  | quantified quantifier operand => rfl

/-- Alternatives that are replaced by what they add run as before. -/
theorem runAlternatives_spliceAll {alternatives : List Step} {offset : Nat}
    (each : ∀ alternative ∈ alternatives,
      alternative.splice.run text call = alternative.run text call)
    {reached : Nat} (le : offset ≤ reached) (progress : Progress) :
    run.runAlternatives text call (splice.spliceAll asAlternatives alternatives) reached offset
        progress =
      run.runAlternatives text call alternatives reached offset progress := by
  induction alternatives generalizing reached progress with
  | nil => rfl
  | cons alternative alternatives ih =>
    obtain ⟨here, later⟩ := List.forall_mem_cons.mp each
    rw [splice.spliceAll, runAlternatives_append, runAlternatives_asAlternatives _ le]
    simp only [run.runAlternatives, here]
    rcases alternative.run text call offset progress with ⟨stop | other, between⟩
    · rfl
    · exact ih later (Nat.le_trans le (le_furthest reached other)) between

end Lists

/-! ## All steps -/

/-- **A spliced step runs as before.** -/
theorem run_splice (bodies : List Body) (text : List Char) (room : Nat) (step : Step) :
    step.splice.run text (invoke bodies text room) = step.run text (invoke bodies text room) := by
  cases step with
  | empty => rfl
  | lexeme id leaf plural => rfl
  | definition id index plural => rfl
  | sequence items =>
    have extended (items : List Step) (offset : Nat) (progress : Progress) :
        (run.runItems text (invoke bodies text room) items offset
          progress).2.recorder.Extends progress.recorder :=
      (runItems_performs (invoke_runs bodies text room) items offset progress).restored.extended
    rw [splice, run, run]
    funext offset progress
    exact (runItems_spliceAll (fun item _ => run_splice bodies text room item) offset
      progress).runOrRollback_eq (extended _ offset progress) (extended _ offset progress)
  | choice alternatives =>
    rw [splice, run, run]
    funext offset progress
    exact runAlternatives_spliceAll (fun alternative _ => run_splice bodies text room alternative)
      (Nat.le_refl offset) progress
  | quantified quantifier operand =>
    rw [splice, run, run, run_splice bodies text room operand]

end Step

end TreeScheme
