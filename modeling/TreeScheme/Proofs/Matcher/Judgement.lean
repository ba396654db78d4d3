import TreeScheme.Proofs.Matcher.Attempts
import TreeScheme.Proofs.Matcher.Boundaries

/-!
# What a match says apart from its captures

A match accepts a text, or it says why not. `Matcher.judge` keeps that much and forgets what was
captured. It depends on how the run ended and on the note that it ended with, and on nothing else
(`Matcher.judge_eq`); both can be read off the log of the run, in which nothing is recorded
(`Matcher.judge_eq_judgement_log`).

So matchers that record differently can be compared by their logs. One log stands for another
(`Log.StandsFor`) if, whenever no attempt in the other one found the limit reached, none did in the
one, and both end the same. Logs that are put together from parts that stand for each other stand
for each other, whatever the construct. A step outside a call stands for the step inside
(`Step.standsFor_outside`), but not the other way round.
-/

namespace TreeScheme

open Text (byteSize)

/-! ## Judgements -/

/-- Whether a text is accepted, or else why not. -/
def Matcher.judge (matcher : Matcher) (text : String) : Except MatchError Unit :=
  (matcher.evaluate text).map fun _ => ()

/-- The judgement of a run over a text of `size` bytes, by how it ended and what it noted. -/
def judgement (limit size : Nat) (outcome : Outcome) (limitHit : Option Nat) :
    Except MatchError Unit :=
  match limitHit, outcome with
  | some offset, _ => .error (.recursionLimit limit offset)
  | none, .failed offset => .error (.noMatch offset)
  | none, .matched stop => if stop = size then .ok () else .error (.trailingInput stop)

/-- A match judges by how its run ended and what it noted. -/
theorem Matcher.judge_eq (matcher : Matcher) (text : String) :
    matcher.judge text = judgement matcher.limit (byteSize text.toList)
      (matcher.run text.toList).1 (matcher.run text.toList).2.limitHit := by
  rw [judge, evaluate]
  generalize matcher.run text.toList = result
  obtain ⟨outcome, progress⟩ := result
  simp only [verdict, judgement]
  cases progress.limitHit with
  | some offset => rfl
  | none =>
    cases outcome with
    | failed offset => rfl
    | matched stop => by_cases whole : stop = byteSize text.toList <;> simp [whole, Except.map]

/-- A match is not reported to have met its limit exactly if its run notes nothing. -/
theorem Matcher.limitHit_eq_none_iff (matcher : Matcher) (text : String) :
    (∀ bound offset, matcher.evaluate text ≠ .error (.recursionLimit bound offset)) ↔
      (matcher.run text.toList).2.limitHit = none := by
  simp only [ne_eq, evaluate_eq_recursionLimit_iff, not_and]
  constructor
  · intro unmet
    exact Option.eq_none_iff_forall_ne_some.mpr fun offset => unmet _ offset rfl
  · intro unnoted _ offset _ noted
    cases unnoted.symm.trans noted

/-! ## Logs -/

/-- The log of a match: how it ends, and the calls that it attempts. -/
def Matcher.log (matcher : Matcher) (text : List Char) : Log :=
  matcher.step.log text (logCall matcher.bodies text matcher.limit 0) 0

/-- The run of a match ends as its log says, and notes the first attempt beyond the limit. -/
theorem Matcher.run_noted (matcher : Matcher) (text : List Char) :
    Noted matcher.limit (matcher.log text) none (matcher.run text).1
      (matcher.run text).2.limitHit := by
  have noted := (Step.runs matcher.bodies text matcher.limit matcher.step 0 {}).noted 0
  rw [Nat.zero_add] at noted
  exact noted

/-- A match judges by its log. -/
theorem Matcher.judge_eq_judgement_log (matcher : Matcher) (text : String) :
    matcher.judge text = judgement matcher.limit (byteSize text.toList)
      (matcher.log text.toList).1 (firstBeyond matcher.limit (matcher.log text.toList).2) := by
  have noted := matcher.run_noted text.toList
  rw [judge_eq, noted.outcome, noted.note, Option.none_or]

/-- The second log stands for the first: if nothing in the first found the limit reached, then
nothing did in the second, and both end the same. -/
def Log.StandsFor (limit : Nat) (log other : Log) : Prop :=
  firstBeyond limit log.2 = none → firstBeyond limit other.2 = none ∧ other.1 = log.1

namespace Log.StandsFor

variable {limit : Nat} {log other first second : Log}

theorem refl (log : Log) : StandsFor limit log log :=
  fun unmet => ⟨unmet, rfl⟩

theorem trans {last : Log} (one : StandsFor limit log other) (two : StandsFor limit other last) :
    StandsFor limit log last := by
  intro unmet
  obtain ⟨unmetOther, sameOther⟩ := one unmet
  obtain ⟨unmetLast, sameLast⟩ := two unmetOther
  exact ⟨unmetLast, sameLast.trans sameOther⟩

/-- What goes on after logs that stand for each other. -/
theorem andThen (before : StandsFor limit first second) {next after : Outcome → Log}
    (rest : ∀ outcome, StandsFor limit (next outcome) (after outcome)) :
    StandsFor limit (first.andThen next) (second.andThen after) := by
  intro unmet
  simp only [Log.andThen, firstBeyond_append, Option.or_eq_none_iff] at unmet ⊢
  obtain ⟨unmetSecond, same⟩ := before unmet.1
  rw [same]
  obtain ⟨unmetAfter, ends⟩ := rest first.1 unmet.2
  exact ⟨⟨unmetSecond, unmetAfter⟩, ends⟩

/-- Rounds of a repetition. -/
theorem rounds {round again : Nat → Log}
    (each : ∀ offset, StandsFor limit (round offset) (again offset)) (count offset : Nat) :
    StandsFor limit (Log.rounds round count offset) (Log.rounds again count offset) := by
  induction count generalizing offset with
  | zero => exact .refl _
  | succ count ih =>
    refine (each offset).andThen fun outcome => ?_
    cases outcome with
    | failed reached => exact .refl _
    | matched stop =>
      by_cases stood : stop = offset
      · simp only [stood, if_true]
        exact .refl _
      · simp only [stood, if_false]
        exact ih stop

/-- A quantifier. -/
theorem quantified {round again : Nat → Log}
    (each : ∀ offset, StandsFor limit (round offset) (again offset)) (size offset : Nat)
    (quantifier : Quantifier) :
    StandsFor limit (Log.quantified size round offset quantifier)
      (Log.quantified size again offset quantifier) := by
  cases quantifier with
  | optional =>
    refine (each offset).andThen fun outcome => ?_
    exact .refl _
  | star => exact rounds each _ offset
  | plus =>
    refine (each offset).andThen fun outcome => ?_
    cases outcome with
    | failed reached => exact .refl _
    | matched stop =>
      by_cases stood : stop = offset
      · simp only [stood, if_true]
        exact .refl _
      · simp only [stood, if_false]
        exact rounds each _ stop

end Log.StandsFor

/-- A matcher whose log stands for that of another one judges as the other one does, unless the other
one meets its limit. -/
theorem Matcher.judge_eq_of_standsFor {matcher other : Matcher} (limits : other.limit = matcher.limit)
    {text : String} (stands : Log.StandsFor matcher.limit (matcher.log text.toList)
      (other.log text.toList))
    (unmet : ∀ bound offset, matcher.evaluate text ≠ .error (.recursionLimit bound offset)) :
    other.judge text = matcher.judge text := by
  have unnoted := (matcher.run_noted text.toList).note.symm.trans
    ((matcher.limitHit_eq_none_iff text).mp unmet)
  rw [Option.none_or] at unnoted
  obtain ⟨unmetOther, ends⟩ := stands unnoted
  rw [judge_eq_judgement_log, judge_eq_judgement_log, limits, unnoted, unmetOther, ends]

/-! ## Steps -/

/-- Steps of which the second stands for the first in every place of a text, whatever they
record. -/
def Step.StandsFor (limit : Nat) (text : List Char) (call : Nat → Nat → Log) (step other : Step) :
    Prop :=
  ∀ offset, Log.StandsFor limit (step.log text call offset) (other.log text call offset)

section Lists

variable {limit : Nat} {text : List Char} {call : Nat → Nat → Log} {steps others : List Step}

/-- Items that stand for each other. -/
theorem Step.logItems_standsFor (all : List.Forall₂ (Step.StandsFor limit text call) steps others)
    (offset : Nat) : Log.StandsFor limit (Step.log.logItems text call steps offset)
      (Step.log.logItems text call others offset) := by
  induction all generalizing offset with
  | nil => exact .refl _
  | cons here _ ih =>
    refine (here offset).andThen fun outcome => ?_
    cases outcome with
    | matched stop => exact ih stop
    | failed reached => exact .refl _

/-- Alternatives that stand for each other. -/
theorem Step.logAlternatives_standsFor
    (all : List.Forall₂ (Step.StandsFor limit text call) steps others) (reached offset : Nat) :
    Log.StandsFor limit (Step.log.logAlternatives text call steps reached offset)
      (Step.log.logAlternatives text call others reached offset) := by
  induction all generalizing reached with
  | nil => exact .refl _
  | cons here _ ih =>
    refine (here offset).andThen fun outcome => ?_
    cases outcome with
    | matched stop => exact .refl _
    | failed other => exact ih (furthest reached other)

end Lists

section Calls

variable {bodies : List Body} {text : List Char} {room opened : Nat}

/-- A step that is run outside a call stands for the step inside it: one call fewer is open, and
there is room for one more. -/
theorem Step.standsFor_outside (step : Step) (offset : Nat) :
    Log.StandsFor (opened + (room + 1))
      (step.log text (logCall bodies text room (opened + 1)) offset)
      (step.log text (logCall bodies text (room + 1) opened) offset) := by
  intro unmet
  have inside := Step.runs bodies text room step offset {}
  have noted := inside.noted (opened + 1)
  rw [Nat.succ_add_eq_add_succ] at noted
  have unnoted := noted.note.trans unmet
  have outside := (inside.with_room unnoted (Nat.le_succ room)).noted opened
  refine ⟨?_, outside.outcome.trans noted.outcome.symm⟩
  exact outside.note.symm.trans unnoted

/-- A choice of one step stands for the step, which gets no less far than where it starts. -/
theorem Step.standsFor_choice (limit : Nat) (step : Step) :
    Step.StandsFor limit text (logCall bodies text room opened) step (.choice [step]) := by
  intro offset unmet
  have run := Step.runs bodies text room step offset {}
  have forward : offset ≤ (step.log text (logCall bodies text room opened) offset).1.offset := by
    have ends : (step.log text (logCall bodies text room opened) offset).1 = _ :=
      (run.noted opened).outcome
    rw [ends]
    exact run.forward trivial
  simp only [Step.log, Step.log.logAlternatives, Log.andThen, firstBeyond_append]
  rcases ended : step.log text (logCall bodies text room opened) offset with
    ⟨stop | reached, attempts⟩
  · rw [ended] at unmet
    simpa [Log.ends, firstBeyond] using unmet
  · rw [ended] at unmet forward
    have same : furthest offset reached = reached :=
      (furthest_eq_max offset reached).trans (Nat.max_eq_right forward)
    simpa [Log.ends, firstBeyond, same] using unmet

end Calls

end TreeScheme
