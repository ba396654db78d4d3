import TreeScheme.Proofs.Matcher.Repetition

/-!
# The rounds of a repetition

A repetition is a chain of rounds, each of which matches and takes text, and then one more
application of the operand that does not advance. `RoundsTo` says where a chain of rounds leads, and
`Repeats` what a repetition comes to. The bound on the number of rounds never shows, because every
round takes at least a byte of the text (`exists_repeats`).

**What is kept.** If the last application fails, it leaves nothing, and the captures of a repetition
are those of its rounds. If it matches without taking text, whatever it recorded stays. So the
captures are those of the rounds exactly unless the last application both matches and records
(`Repeats.recorder_eq_iff`). A call of a definition records whenever it matches: a repeated call
leaves contexts that took text, and behind them an empty one exactly if the last call matches
(`Repeats.exists_contexts`).
-/

namespace TreeScheme

open Text (byteSize)

/-! ## Chains of rounds -/

/-- One round: the operand matches, and takes text. -/
def Advances (operand : Run) (before after : Nat × Progress) : Prop :=
  operand before.1 before.2 = (.matched after.1, after.2) ∧ after.1 ≠ before.1

/-- Any number of rounds, one after another. -/
abbrev RoundsTo (operand : Run) : Nat × Progress → Nat × Progress → Prop :=
  Relation.ReflTransGen (Advances operand)

/-- A run that never goes back, and never leaves a text of `size` bytes that it is in. -/
def KeepsWithin (size : Nat) (run : Run) : Prop :=
  ∀ offset progress stop later, run offset progress = (.matched stop, later) →
    offset ≤ stop ∧ stop ≤ max offset size

/-- What a repetition comes to from a start on: rounds up to `stop` and `last`, and then one
application of the operand, which is no round. -/
structure Repeats (operand : Run) (start : Nat × Progress) (result : Outcome × Progress)
    (stop : Nat) (last : Progress) : Prop where
  rounds : RoundsTo operand start (stop, last)
  closed : ∀ after, ¬Advances operand (stop, last) after
  result : result = (.matched stop, (operand stop last).2)

/-- An application of the operand matches without taking text, and yet records something. -/
def RecordsStanding (operand : Run) (offset : Nat) (progress : Progress) : Prop :=
  ∃ later, operand offset progress = (.matched offset, later) ∧
    later.recorder ≠ progress.recorder

/-- A round takes the text between two offsets. -/
theorem Advances.lt {size : Nat} {operand : Run} (keeps : KeepsWithin size operand)
    {before after : Nat × Progress} (advances : Advances operand before after) :
    before.1 < after.1 :=
  Nat.lt_of_le_of_ne (keeps _ _ _ _ advances.1).1 advances.2.symm

/-- Rounds do not go back. -/
theorem RoundsTo.le {size : Nat} {operand : Run} (keeps : KeepsWithin size operand)
    {before after : Nat × Progress} (rounds : RoundsTo operand before after) :
    before.1 ≤ after.1 := by
  induction rounds with
  | refl => exact Nat.le_refl _
  | tail _ last ih => exact Nat.le_trans ih (Nat.le_of_lt (last.lt keeps))

/-- Where rounds took no text, there were none. -/
theorem RoundsTo.eq_of_stood {size : Nat} {operand : Run} (keeps : KeepsWithin size operand)
    {before after : Nat × Progress} (rounds : RoundsTo operand before after)
    (stood : after.1 = before.1) : after = before := by
  rcases rounds.cases_head with same | ⟨middle, first, rest⟩
  · exact same.symm
  · have advanced := first.lt keeps
    have further := RoundsTo.le keeps rest
    omega

/-! ## Repetitions -/

/-- A counted repetition is a chain of rounds, if there are enough of them for the text. -/
theorem exists_repeats {size : Nat} {operand : Run} (keeps : KeepsWithin size operand)
    {count offset : Nat} (progress : Progress) (enough : max offset size < offset + count) :
    ∃ stop last, Repeats operand (offset, progress)
      (Step.runRounds operand count offset progress) stop last := by
  induction count generalizing offset progress with
  | zero => omega
  | succ count ih =>
    rcases ended : operand offset progress with ⟨stop | reached, later⟩
    · by_cases stood : stop = offset
      · subst stood
        refine ⟨stop, progress, .refl, fun after advances => ?_, ?_⟩
        · cases ended.symm.trans advances.1
          exact advances.2 rfl
        · simp only [Step.runRounds, ended, if_true]
      · -- The round took at least a byte, so one round less is enough for what is left.
        have bounds := keeps _ _ _ _ ended
        have left : max stop size < stop + count := by omega
        obtain ⟨last, final, rounds, closed, result⟩ := ih later left
        refine ⟨last, final, .head ⟨ended, stood⟩ rounds, closed, ?_⟩
        simp only [Step.runRounds, ended, stood, if_false]
        exact result
    · refine ⟨offset, progress, .refl, fun after advances => ?_, ?_⟩
      · cases ended.symm.trans advances.1
      · simp only [Step.runRounds, ended]

namespace Repeats

variable {operand : Run} {start : Nat × Progress} {result : Outcome × Progress} {stop : Nat}
  {last : Progress}

/-- The last application fails, or it matches without taking text. -/
theorem closing (repeats : Repeats operand start result stop last) :
    (∃ reached, (operand stop last).1 = .failed reached) ∨
      (operand stop last).1 = .matched stop := by
  rcases ended : operand stop last with ⟨next | reached, later⟩
  · by_cases stood : next = stop
    · exact .inr (congrArg Outcome.matched stood)
    · exact absurd ⟨ended, stood⟩ (repeats.closed (next, later))
  · exact .inl ⟨reached, rfl⟩

/-- **What is kept.** The captures of a repetition are exactly those of its rounds, unless the last
application matches without taking text and yet records something. -/
theorem recorder_eq_iff (repeats : Repeats operand start result stop last)
    (clean : ∀ reached, (operand stop last).1 = .failed reached →
      (operand stop last).2.recorder = last.recorder) :
    result.2.recorder = last.recorder ↔ ¬RecordsStanding operand stop last := by
  rw [repeats.result]
  constructor
  · rintro kept ⟨later, ended, records⟩
    rw [ended] at kept
    exact records kept
  · intro silent
    rcases repeats.closing with ⟨reached, failed⟩ | stood
    · exact clean reached failed
    · exact Classical.byContradiction fun records => silent ⟨_, Prod.ext stood rfl, records⟩

end Repeats

/-! ## Steps -/

section Steps

variable (bodies : List Body) (text : List Char) (room : Nat)

/-- A step as a run over a text, with room for some open calls. -/
abbrev Step.asRun (step : Step) : Run :=
  step.run text (invoke bodies text room)

/-- What a step does as a run is a run. -/
theorem Step.asRun_runs (step : Step) (offset : Nat) (progress : Progress) :
    Runs bodies text room (.step step) offset progress
      (step.asRun bodies text room offset progress).1
      (step.asRun bodies text room offset progress).2 :=
  Step.runs bodies text room step offset progress

/-- Steps never go back and never leave the text. -/
theorem Step.keepsWithin (step : Step) :
    KeepsWithin (byteSize text) (step.asRun bodies text room) := by
  intro offset progress stop later ended
  have run := step.asRun_runs bodies text room offset progress
  rw [ended] at run
  exact run.matched_bounds stop rfl

/-- A step that fails leaves nothing. -/
theorem Step.recorder_of_failed (step : Step) (offset : Nat) (progress : Progress) (reached : Nat)
    (failed : (step.asRun bodies text room offset progress).1 = .failed reached) :
    (step.asRun bodies text room offset progress).2.recorder = progress.recorder := by
  have run := step.asRun_runs bodies text room offset progress
  rw [failed] at run
  exact run.restored.eq_of_failed trivial

/-- Any number of a step is a chain of rounds. -/
theorem Step.exists_repeats_star (step : Step) (offset : Nat) (progress : Progress) :
    ∃ stop last, Repeats (step.asRun bodies text room) (offset, progress)
      ((quantified .star step).asRun bodies text room offset progress) stop last :=
  exists_repeats (step.keepsWithin bodies text room) progress (by omega)

/-- One or more of a step is a chain of rounds behind the first match, if that takes text. -/
theorem Step.exists_repeats_plus (step : Step) {offset middle : Nat} {progress between : Progress}
    (first : step.asRun bodies text room offset progress = (.matched middle, between))
    (advanced : middle ≠ offset) :
    ∃ stop last, Repeats (step.asRun bodies text room) (middle, between)
      ((quantified .plus step).asRun bodies text room offset progress) stop last := by
  have goesOn : (quantified .plus step).asRun bodies text room offset progress =
      (quantified .star step).asRun bodies text room middle between :=
    run_plus_of_advanced first advanced
  rw [goesOn]
  exact step.exists_repeats_star bodies text room middle between

end Steps

/-! ## Repeated calls -/

/-- The items of the list that a name holds. -/
def Recorder.items (recorder : Recorder) (name : String) : List Value :=
  match Captures.get? name recorder.context.captures with
  | some (.list items) => items
  | _ => []

/-- A value of a plural name is put behind its items. -/
theorem Recorder.items_record (recorder : Recorder) (name : String) (value : Value) :
    (recorder.record name value true).items name = recorder.items name ++ [value] := by
  simp only [record, if_true, items]
  cases Captures.get? name recorder.context.captures with
  | none => simp [change]
  | some former => cases former <;> simp [change]

section Calls

variable {bodies : List Body} {text : List Char} {room : Nat} {id : String} {index : Nat}

/-- A call that matches records a context as long as what it took. -/
theorem Step.items_of_call {offset stop : Nat} {progress later : Progress}
    (matched : (Step.definition id index true).asRun bodies text room offset progress =
      (.matched stop, later)) :
    ∃ context : Context, context.length = stop - offset ∧
      later.recorder.items id = progress.recorder.items id ++ [.context context] := by
  simp only [asRun, run, runCall] at matched
  split at matched
  · cases matched
  · rename_i inner _
    cases matched
    exact ⟨inner.recorder.finish (stop - offset), rfl, Recorder.items_record _ _ _⟩

/-- Rounds of calls leave contexts that took text. -/
theorem RoundsTo.exists_contexts {before after : Nat × Progress}
    (rounds : RoundsTo ((Step.definition id index true).asRun bodies text room) before after) :
    ∃ contexts : List Context, (∀ context ∈ contexts, 0 < context.length) ∧
      after.2.recorder.items id = before.2.recorder.items id ++ contexts.map .context := by
  induction rounds with
  | refl => exact ⟨[], by simp, by simp⟩
  | tail _ last ih =>
    obtain ⟨contexts, took, held⟩ := ih
    obtain ⟨context, length, added⟩ := Step.items_of_call last.1
    have advanced := last.lt (Step.keepsWithin bodies text room _)
    refine ⟨contexts ++ [context], ?_, by simp [added, held]⟩
    rw [List.forall_mem_append, List.forall_mem_singleton]
    exact ⟨took, by omega⟩

/-- **Repeated calls.** What a repetition of calls adds to a list are contexts that took text, and
an empty one behind them exactly if the last call matches. -/
theorem Repeats.exists_contexts {start : Nat × Progress} {result : Outcome × Progress} {stop : Nat}
    {last : Progress}
    (repeats : Repeats ((Step.definition id index true).asRun bodies text room) start result stop
      last) :
    ∃ contexts : List Context,
      result.2.recorder.items id = start.2.recorder.items id ++ contexts.map .context ∧
      ((∀ context ∈ contexts, 0 < context.length) ↔
        ((Step.definition id index true).asRun bodies text room stop last).1 ≠ .matched stop) := by
  obtain ⟨contexts, took, held⟩ := repeats.rounds.exists_contexts
  have kept := congrArg (fun result => result.2.recorder.items id) repeats.result
  rcases repeats.closing with ⟨reached, failed⟩ | stood
  · refine ⟨contexts, ?_, fun _ => by simp [failed], fun _ => took⟩
    rw [kept, Step.recorder_of_failed bodies text room _ stop last reached failed]
    exact held
  · obtain ⟨context, length, added⟩ := Step.items_of_call (Prod.ext stood rfl)
    refine ⟨contexts ++ [context], by simp [kept, added, held], fun all => ?_, fun failed => ?_⟩
    · have := all context (by simp)
      omega
    · exact absurd stood failed

end Calls

/-! ## What repetitions capture -/

/-- What a repetition leaves, from a start on: the captures of its rounds, and no others exactly if
the application behind them does not match there and record. Without rounds these are the captures
of the start. -/
def LeavesRounds (operand : Run) (start : Nat × Progress) (result : Outcome × Progress) : Prop :=
  ∃ stop last, Repeats operand start result stop last ∧
    (result.2.recorder = last.recorder ↔ ¬RecordsStanding operand stop last) ∧
    (stop = start.1 → last = start.2)

/-- Whatever repeats a step leaves its rounds. -/
theorem Repeats.leavesRounds {bodies : List Body} {text : List Char} {room : Nat} {step : Step}
    {start : Nat × Progress} {result : Outcome × Progress} {stop : Nat} {last : Progress}
    (repeats : Repeats (step.asRun bodies text room) start result stop last) :
    LeavesRounds (step.asRun bodies text room) start result := by
  refine ⟨stop, last, repeats, repeats.recorder_eq_iff ?_, fun stood => ?_⟩
  · exact step.recorder_of_failed bodies text room stop last
  · exact congrArg Prod.snd (RoundsTo.eq_of_stood (step.keepsWithin bodies text room)
      repeats.rounds stood)

/-- **Repetitions record their rounds.** Whatever step is repeated, wherever in whatever text, and
whatever was recorded before:

* any number of it leaves the captures of its rounds, each of which took text, and no others unless
  the application that ends the repetition matches without taking text and records something;
* so does one or more of it behind its first match; if that takes no text there is no other;
* a repeated call adds contexts to the list of its name, and all of them took text exactly if the
  call that ends the repetition fails. A name under a repetition is plural.

Patterns are made into steps, so this covers every pattern of every grammar. -/
theorem repetition_leaves_rounds (bodies : List Body) (text : List Char) (room : Nat) (step : Step)
    (offset : Nat) (progress : Progress) :
    LeavesRounds (step.asRun bodies text room) (offset, progress)
      ((Step.quantified .star step).asRun bodies text room offset progress) ∧
    (∀ middle between, step.asRun bodies text room offset progress = (.matched middle, between) →
      (middle = offset →
        (Step.quantified .plus step).asRun bodies text room offset progress =
          (.matched offset, between)) ∧
      (middle ≠ offset →
        LeavesRounds (step.asRun bodies text room) (middle, between)
          ((Step.quantified .plus step).asRun bodies text room offset progress))) ∧
    ∀ id index, step = .definition id index true → ∃ stop last, ∃ contexts : List Context,
      Repeats (step.asRun bodies text room) (offset, progress)
        ((Step.quantified .star step).asRun bodies text room offset progress) stop last ∧
      ((Step.quantified .star step).asRun bodies text room offset progress).2.recorder.items id =
        progress.recorder.items id ++ contexts.map .context ∧
      ((∀ context ∈ contexts, 0 < context.length) ↔
        (step.asRun bodies text room stop last).1 ≠ .matched stop) := by
  obtain ⟨stop, last, repeats⟩ := step.exists_repeats_star bodies text room offset progress
  refine ⟨repeats.leavesRounds, fun middle between first => ⟨?_, fun advanced => ?_⟩, ?_⟩
  · rintro rfl
    exact Step.run_plus_of_stood first
  · obtain ⟨_, _, further⟩ := step.exists_repeats_plus bodies text room first advanced
    exact further.leavesRounds
  · rintro id index rfl
    obtain ⟨contexts, held, took⟩ := repeats.exists_contexts
    exact ⟨stop, last, contexts, repeats, held, took⟩

section Example

/-- A definition that has nothing at all. -/
private def hollow : Builder where
  lexemes := ⟨[⟨["A"], ⟨"a", (Regex.char (.single 'a')).recognizer⟩⟩,
    ⟨["B"], ⟨"b", (Regex.char (.single 'b')).recognizer⟩⟩]⟩
  drafts := [{ name := "Nothing" }]

/-- Any number of calls that take no text, between two lexemes. -/
private def hollowCalls : Expression :=
  ⟨"A Nothing* B", some (.sequence [.leaf .lexeme "A",
    .quantified .star (.leaf .definition "Nothing"), .leaf .lexeme "B"])⟩

/-- Their matcher. -/
private def hollowMatcher : Matcher :=
  ((hollow.build.toOption.getD ⟨{}, {}, [], []⟩).compile hollowCalls).toOption.getD
    ⟨hollowCalls, .empty, [], 0⟩

/-- A call that takes no text ends its repetition, and yet its empty context is in the list that the
match captures. -/
theorem empty_call_captured : ∃ context items inner, hollowMatcher.evaluate "ab" = .ok context ∧
    context.list? "Nothing" = some items ∧ .context inner ∈ items ∧ inner.length = 0 :=
  ⟨⟨2, none, [("A", .text "a"), ("B", .text "b"), ("Nothing", .list [.context {}])]⟩,
    [.context {}], {}, rfl, rfl, List.mem_singleton_self _, rfl⟩

end Example

end TreeScheme
