import TreeScheme.Proofs.Grammar.Compilation
import TreeScheme.Proofs.Matcher.Room

/-!
# Attempted calls

The limit on open calls shows in a result only through a note that a run carries along. This module
says what the note means. `Matcher.attempts` lists the calls of definitions that a run attempts, in
order: every one, on every branch that is tried, whether or not the branch is abandoned later, each
with the number of calls that are open at that moment. Nothing is recorded or noted in such a list
or taken back from it.

The note is the first attempt in the list that found the limit reached (`Runs.noted`). So a
match is reported to have met its limit exactly if there is such an attempt, and at the place of the
first one; and a match that is not reported to have met it comes out the same under every limit that
is not less (`evaluate_under_limits`).
-/

namespace TreeScheme

open Text (byteSize)

/-! ## Lists of attempts -/

/-- An attempt to call a definition: how many calls are open, and where it happens. -/
structure Attempt where
  opened : Nat
  offset : Nat
deriving DecidableEq, Repr

/-- How something ends that is tried at an offset, and the attempts on the way, in order. -/
abbrev Log := Outcome × List Attempt

namespace Log

/-- What follows depends on how something ended. -/
def andThen (log : Log) (next : Outcome → Log) : Log :=
  ((next log.1).1, log.2 ++ (next log.1).2)

/-- Something ends without further attempts. -/
def ends (outcome : Outcome) : Log :=
  (outcome, [])

/-- Rounds of a repetition, as long as every round advances. -/
def rounds (round : Nat → Log) : (rounds : Nat) → Nat → Log
  | 0, offset => ends (.matched offset)
  | count + 1, offset => (round offset).andThen fun
    | .failed _ => ends (.matched offset)
    | .matched stop => if stop = offset then ends (.matched offset) else rounds round count stop

/-- A quantifier applied to an operand, in a text of `size` bytes. -/
def quantified (size : Nat) (round : Nat → Log) (offset : Nat) : Quantifier → Log
  | .optional => (round offset).andThen fun
    | .failed _ => ends (.matched offset)
    | .matched stop => ends (.matched stop)
  | .star => rounds round (size - offset + 1) offset
  | .plus => (round offset).andThen fun
    | .failed reached => ends (.failed reached)
    | .matched stop =>
      if stop = offset then ends (.matched offset) else rounds round (size - stop + 1) stop

end Log

/-- The attempts of a step, given those of calls. -/
def Step.log (text : List Char) (call : Nat → Nat → Log) : Step → Nat → Log
  | empty, offset => .ends (.matched offset)
  | lexeme _ leaf _, offset =>
    match leaf.matchAt text offset with
    | none => .ends (.failed offset)
    | some hit => .ends (.matched hit.stop)
  | definition _ index _, offset => call index offset
  | sequence items, offset => logItems items offset
  | choice alternatives, offset => logAlternatives alternatives offset offset
  | quantified quantifier operand, offset =>
    Log.quantified (byteSize text) (operand.log text call) offset quantifier
where
  /-- The attempts of steps one after another. -/
  logItems : List Step → Nat → Log
  | [], offset => .ends (.matched offset)
  | item :: items, offset => (item.log text call offset).andThen fun
    | .matched stop => logItems items stop
    | .failed reached => .ends (.failed reached)
  /-- The attempts of steps up to the first that matches. -/
  logAlternatives : List Step → (reached : Nat) → Nat → Log
  | [], reached, _ => .ends (.failed reached)
  | alternative :: alternatives, reached, offset =>
    (alternative.log text call offset).andThen fun
    | .matched stop => .ends (.matched stop)
    | .failed other => logAlternatives alternatives (furthest reached other) offset

namespace Body

/-- The attempts of a fallback, after a failure that got as far as `reached`. -/
def logFallback (text : List Char) (call : Nat → Nat → Log) (fallback : Option Step)
    (reached offset : Nat) : Log :=
  match fallback with
  | none => .ends (.failed reached)
  | some step => (step.log text call offset).andThen fun
    | .matched stop => .ends (.matched stop)
    | .failed other => .ends (.failed (furthest reached other))

/-- The attempts of a body, given those of calls. -/
def log (text : List Char) (call : Nat → Nat → Log) : Body → Nat → Log
  | plain step, offset => step.log text call offset
  | cases table fallback, offset =>
    match selected? table text offset with
    | none => logFallback text call fallback offset offset
    | some (id, step) => (step.log text call (offset + byteSize id.toList)).andThen fun
      | .matched stop => .ends (.matched stop)
      | .failed reached => logFallback text call fallback reached offset

end Body

/-- The attempts of a call, itself first: `opened` calls are open, and `room` more may be. -/
def logCall (bodies : List Body) (text : List Char) : (room opened index offset : Nat) → Log
  | room, opened, index, offset =>
    match bodies[index]? with
    | none => .ends (.failed offset)
    | some body =>
      Log.andThen (.failed offset, [⟨opened, offset⟩]) fun _ =>
        match room with
        | 0 => .ends (.failed offset)
        | room + 1 => body.log text (logCall bodies text room (opened + 1)) offset

/-- The attempts of a task. -/
def Task.log (bodies : List Body) (text : List Char) (room opened : Nat) : Task → Nat → Log
  | step single => single.log text (logCall bodies text room opened)
  | items parts => Step.log.logItems text (logCall bodies text room opened) parts
  | alternatives choices reached =>
    Step.log.logAlternatives text (logCall bodies text room opened) choices reached
  | rounds operand count => Log.rounds (operand.log text (logCall bodies text room opened)) count
  | body whole => whole.log text (logCall bodies text room opened)
  | fallback last reached => Body.logFallback text (logCall bodies text room opened) last reached
  | call index => logCall bodies text room opened index

/-- The attempts of a match of a text, in order. -/
def Matcher.attempts (matcher : Matcher) (text : List Char) : List Attempt :=
  (matcher.step.log text (logCall matcher.bodies text matcher.limit 0) 0).2

/-! ## The note is the first attempt beyond the limit -/

/-- Where the first attempt happens that finds `limit` calls open. -/
def firstBeyond (limit : Nat) (attempts : List Attempt) : Option Nat :=
  (attempts.find? (·.opened == limit)).map (·.offset)

theorem firstBeyond_append (limit : Nat) (first second : List Attempt) :
    firstBeyond limit (first ++ second) =
      (firstBeyond limit first).or (firstBeyond limit second) := by
  rw [firstBeyond, List.find?_append]
  cases found : first.find? (·.opened == limit) with
  | none => simp [firstBeyond, found]
  | some attempt => simp [firstBeyond, found]

/-- The first attempt beyond the limit is the one before which there is none. -/
theorem firstBeyond_eq_some_iff {limit : Nat} {attempts : List Attempt} {offset : Nat} :
    firstBeyond limit attempts = some offset ↔
      ∃ (before : List Attempt) (attempt : Attempt) (after : List Attempt),
      attempts = before ++ attempt :: after ∧ (∀ earlier ∈ before, earlier.opened ≠ limit) ∧
      attempt.opened = limit ∧ attempt.offset = offset := by
  rw [firstBeyond, Option.map_eq_some_iff]
  constructor
  · rintro ⟨attempt, found, rfl⟩
    obtain ⟨beyond, before, after, rfl, earlier⟩ := List.find?_eq_some_iff_append.mp found
    exact ⟨before, attempt, after, rfl, fun other mem => by simpa using earlier other mem,
      beq_iff_eq.mp beyond, rfl⟩
  · rintro ⟨before, attempt, after, rfl, earlier, beyond, rfl⟩
    refine ⟨attempt, List.find?_eq_some_iff_append.mpr ⟨beq_iff_eq.mpr beyond, before, after, rfl,
      fun other mem => ?_⟩, rfl⟩
    simpa using earlier other mem

/-- A run ends as its list of attempts says, and the note that it ends with is the one that it
started with or else the first attempt beyond the limit. -/
structure Noted (limit : Nat) (log : Log) (before : Option Nat) (outcome : Outcome)
    (after : Option Nat) : Prop where
  outcome : log.1 = outcome
  note : after = before.or (firstBeyond limit log.2)

namespace Noted

variable {limit : Nat} {log : Log} {before between after : Option Nat} {outcome other : Outcome}

/-- Something that attempts nothing. -/
theorem ends : Noted limit (.ends outcome) before outcome before :=
  ⟨rfl, by simp [Log.ends, firstBeyond]⟩

/-- Something that goes on after something else. -/
theorem andThen (first : Noted limit log before other between) {next : Outcome → Log}
    (rest : Noted limit (next other) between outcome after) :
    Noted limit (log.andThen next) before outcome after := by
  obtain ⟨rfl, note⟩ := first
  refine ⟨rest.outcome, ?_⟩
  rw [rest.note, note, Log.andThen, firstBeyond_append, Option.or_assoc]

/-- Something that goes on without further attempts. -/
theorem andEnds (first : Noted limit log before other after) {next : Outcome → Log}
    (stops : next other = .ends outcome) : Noted limit (log.andThen next) before outcome after := by
  refine first.andThen ?_
  rw [stops]
  exact .ends

end Noted

variable {bodies : List Body} {text : List Char} {room : Nat} {task : Task} {offset : Nat}
  {progress later : Progress} {outcome : Outcome}

/-- The note of a run is the first attempt beyond the limit. -/
theorem Runs.noted (run : Runs bodies text room task offset progress outcome later)
    (opened : Nat) :
    Noted (opened + room) (task.log bodies text room opened offset) progress.limitHit outcome
      later.limitHit := by
  induction run generalizing opened with
  | empty | itemsDone | alternativesDone | roundsDone | fallbackMissing => exact .ends
  | lexemeMissed missed =>
    simp only [Task.log, Step.log, missed]
    exact .ends
  | lexemeFound found =>
    simp only [Task.log, Step.log, found, Progress.limitHit_record]
    exact .ends
  | definitionFailed _ ih => exact ih opened
  | definitionMatched _ ih =>
    rw [Progress.limitHit_record]
    exact ih opened
  | sequenceMatched _ ih | sequenceFailed _ ih => exact ih opened
  | itemFailed _ ih =>
    simp only [Task.log, Step.log.logItems]
    exact (ih opened).andEnds (by rfl)
  | itemMatched _ _ first rest =>
    simp only [Task.log, Step.log.logItems]
    refine (first opened).andThen ?_
    exact rest opened
  | choice _ ih => exact ih opened
  | alternativeMatched _ ih =>
    simp only [Task.log, Step.log.logAlternatives]
    exact (ih opened).andEnds (by rfl)
  | alternativeFailed _ _ first rest =>
    simp only [Task.log, Step.log.logAlternatives]
    refine (first opened).andThen ?_
    exact rest opened
  | optionalMatched _ ih | optionalFailed _ ih =>
    simp only [Task.log, Step.log, Log.quantified]
    exact (ih opened).andEnds (by rfl)
  | star _ ih => exact ih opened
  | roundFailed _ ih =>
    simp only [Task.log, Log.rounds]
    exact (ih opened).andEnds (by rfl)
  | roundStood _ ih =>
    simp only [Task.log, Log.rounds]
    exact (ih opened).andEnds (by simp)
  | roundAdvanced _ advanced _ first rest =>
    simp only [Task.log, Log.rounds]
    refine (first opened).andThen ?_
    simp only [advanced, if_false]
    exact rest opened
  | plusFailed _ ih =>
    simp only [Task.log, Step.log, Log.quantified]
    exact (ih opened).andEnds (by rfl)
  | plusStood _ ih =>
    simp only [Task.log, Step.log, Log.quantified]
    exact (ih opened).andEnds (by simp)
  | plusAdvanced _ advanced _ first rest =>
    simp only [Task.log, Step.log, Log.quantified]
    refine (first opened).andThen ?_
    simp only [advanced, if_false]
    exact rest opened
  | plain _ ih => exact ih opened
  | unselected selected _ ih =>
    simp only [Task.log, Body.log, selected]
    exact ih opened
  | caseMatched selected _ ih =>
    simp only [Task.log, Body.log, selected]
    exact (ih opened).andEnds (by rfl)
  | caseFailed selected _ _ first rest =>
    simp only [Task.log, Body.log, selected]
    refine (first opened).andThen ?_
    exact rest opened
  | fallbackMatched _ ih | fallbackFailed _ ih =>
    simp only [Task.log, Body.logFallback]
    exact (ih opened).andEnds (by rfl)
  | unknown missing =>
    rw [Task.log, logCall]
    simp only [missing]
    exact .ends
  | beyondLimit found =>
    rw [Task.log, logCall]
    simp only [found]
    exact ⟨rfl, by simp [Log.andThen, Log.ends, firstBeyond, Progress.hitLimit]⟩
  | @called room index body offset progress outcome later found _ ih =>
    -- The call itself finds room; what its body attempts finds one call more open.
    have itself : Noted (opened + (room + 1)) (.failed offset, [⟨opened, offset⟩])
        progress.limitHit (.failed offset) progress.limitHit := ⟨rfl, by simp [firstBeyond]⟩
    have inside := ih (opened + 1)
    rw [Nat.succ_add_eq_add_succ] at inside
    rw [Task.log, logCall]
    simp only [found]
    exact itself.andThen inside

/-- What a match is reported to be follows from how its run ends and from the note. -/
theorem Matcher.evaluate_eq_recursionLimit_iff (matcher : Matcher) (text : String)
    (bound offset : Nat) :
    matcher.evaluate text = .error (.recursionLimit bound offset) ↔
      bound = matcher.limit ∧ (matcher.run text.toList).2.limitHit = some offset := by
  rw [evaluate]
  generalize matcher.run text.toList = result
  obtain ⟨outcome, progress⟩ := result
  simp only [verdict]
  split
  · rename_i first noted
    simp only [Except.error.injEq, MatchError.recursionLimit.injEq, noted, Option.some.injEq]
    exact and_congr_left' eq_comm
  · rename_i unnoted
    simp [unnoted]
  · rename_i unnoted
    split <;> simp [unnoted]

/-- A match meets its limit exactly if some attempt finds the limit reached, and the first such
attempt is the one that is reported. -/
theorem Matcher.evaluate_eq_recursionLimit_iff_attempts (matcher : Matcher) (text : String)
    (bound offset : Nat) :
    matcher.evaluate text = .error (.recursionLimit bound offset) ↔
      bound = matcher.limit ∧
        ∃ (before : List Attempt) (attempt : Attempt) (after : List Attempt),
        matcher.attempts text.toList = before ++ attempt :: after ∧
        (∀ earlier ∈ before, earlier.opened ≠ matcher.limit) ∧
        attempt.opened = matcher.limit ∧ attempt.offset = offset := by
  have run := Step.runs matcher.bodies text.toList matcher.limit matcher.step 0 {}
  have note := (run.noted 0).note
  rw [Nat.zero_add] at note
  rw [evaluate_eq_recursionLimit_iff, Matcher.run, note]
  exact and_congr_right' firstBeyond_eq_some_iff

/-! ## Other limits -/

/-- Only the limits of a grammar depend on the limits that it is built with. -/
theorem Builder.build_with_limits {builder : Builder} {grammar : Grammar}
    (built : builder.build = .ok grammar) (limits : Limits) :
    Builder.build { builder with limits } = .ok { grammar with limits } := by
  obtain ⟨definitions, read, rest⟩ := bind_eq_ok.mp built
  obtain ⟨bodies, compiled, same⟩ := bind_eq_ok.mp rest
  cases same
  exact bind_eq_ok.mpr ⟨definitions, read, bind_eq_ok.mpr ⟨bodies, compiled, rfl⟩⟩

/-- Only the limit of a matcher depends on the limits of its grammar. -/
theorem Grammar.compile_with_limits {grammar : Grammar} {expression : Expression}
    {matcher : Matcher} (compiled : grammar.compile expression = .ok matcher) (limits : Limits) :
    Grammar.compile { grammar with limits } expression =
      .ok { matcher with limit := limits.maxRecursionDepth } := by
  obtain ⟨step, made, same⟩ := bind_eq_ok.mp compiled
  cases same
  exact bind_eq_ok.mpr ⟨step, made, rfl⟩

/-- A match that does not meet its limit comes out the same under every limit that is not less. -/
theorem Matcher.evaluate_of_le {matcher : Matcher} {text : String}
    (unmet : ∀ bound offset, matcher.evaluate text ≠ .error (.recursionLimit bound offset))
    {more : Nat} (le : matcher.limit ≤ more) :
    Matcher.evaluate { matcher with limit := more } text = matcher.evaluate text := by
  have unnoted : (matcher.run text.toList).2.limitHit = none := by
    cases noted : (matcher.run text.toList).2.limitHit with
    | none => rfl
    | some offset =>
      exact absurd ((matcher.evaluate_eq_recursionLimit_iff text _ offset).mpr ⟨rfl, noted⟩)
        (unmet _ offset)
  have same : Matcher.run { matcher with limit := more } text.toList =
      matcher.run text.toList := Step.run_of_le le unnoted
  rw [evaluate, evaluate, same]
  generalize matcher.run text.toList = result at unnoted
  obtain ⟨outcome, progress⟩ := result
  replace unnoted : progress.limitHit = none := unnoted
  simp only [verdict, unnoted]
  cases outcome <;> rfl

/-- **The limit only ever cuts short.** Whatever was declared, whatever expression is matched, and
for a limit on open calls and any limit that is not less:

* what is declared and compiled under the one is under the other; a match that does not meet the
  lower limit comes out identical under the other, be it a context or an error;
* a match meets the limit exactly if some call of a definition, on whatever branch, is attempted
  while that many calls are open, and then the limit and the place of the first such attempt are
  reported. -/
theorem evaluate_under_limits {builder : Builder} {limit more : Nat} (le : limit ≤ more)
    {grammar : Grammar} (built : Builder.build { builder with limits := ⟨limit⟩ } = .ok grammar)
    {expression : Expression} {matcher : Matcher}
    (compiled : grammar.compile expression = .ok matcher) (text : String) :
    (∃ larger other, Builder.build { builder with limits := ⟨more⟩ } = .ok larger ∧
      larger.compile expression = .ok other ∧
      ((∀ bound offset, matcher.evaluate text ≠ .error (.recursionLimit bound offset)) →
        other.evaluate text = matcher.evaluate text)) ∧
    ∀ bound offset, matcher.evaluate text = .error (.recursionLimit bound offset) ↔
      bound = limit ∧ ∃ before attempt after,
        matcher.attempts text.toList = before ++ attempt :: after ∧
        (∀ earlier ∈ before, earlier.opened ≠ limit) ∧
        attempt.opened = limit ∧ attempt.offset = offset := by
  have bounded : matcher.limit = limit := by
    obtain ⟨definitions, _, rest⟩ := bind_eq_ok.mp built
    obtain ⟨bodies, _, same⟩ := bind_eq_ok.mp rest
    cases same
    obtain ⟨step, _, same⟩ := bind_eq_ok.mp compiled
    cases same
    rfl
  subst bounded
  refine ⟨⟨_, _, Builder.build_with_limits built ⟨more⟩, Grammar.compile_with_limits compiled _,
    fun unmet => Matcher.evaluate_of_le unmet le⟩, ?_⟩
  exact matcher.evaluate_eq_recursionLimit_iff_attempts text

section Example

/-- Dots, each call for one dot and perhaps the rest. -/
private def nested : Builder where
  lexemes := ⟨[⟨["DOT"], ⟨"[.]", (Regex.char (.single '.')).recognizer⟩⟩]⟩
  drafts := [{ name := "Dots", sequences := ["DOT Dots?"] }]

/-- A call. -/
private def nestedCall : Expression :=
  ⟨"Dots", some (.leaf .definition "Dots")⟩

/-- The grammar of nested dots under a limit. -/
private def nestedGrammar (limit : Nat) : Grammar :=
  (Builder.build { nested with limits := ⟨limit⟩ }).toOption.getD ⟨{}, {}, [], []⟩

/-- The matcher of a call under a limit. -/
private def nestedMatcher (limit : Nat) : Matcher :=
  ((nestedGrammar limit).compile nestedCall).toOption.getD ⟨nestedCall, .empty, [], 0⟩

/-- What is captured of two dots. -/
private def nestedCaptured : Context where
  length := 2
  captures := [("Dots", .context
    { length := 2
      captures := [("DOT", .text "."), ("Dots", .context
        { length := 1, captures := [("DOT", .text ".")] })] })]

/-- Two dots take three calls, the last of which finds no dot. With room for three calls the match
does not depend on the limit; with room for two, the third attempt is reported, although what it
would have found is optional. -/
theorem dots_under_limits :
    ((nestedMatcher 3).evaluate ".." = .ok nestedCaptured ∧
      (nestedMatcher 5).evaluate ".." = .ok nestedCaptured) ∧
    (nestedMatcher 2).evaluate ".." = .error (.recursionLimit 2 2) := by
  have built (limit : Nat) (small : limit = 2 ∨ limit = 3 ∨ limit = 5) :
      Builder.build { nested with limits := ⟨limit⟩ } = .ok (nestedGrammar limit) := by
    rcases small with rfl | rfl | rfl <;> rfl
  have compiled (limit : Nat) (small : limit = 2 ∨ limit = 3 ∨ limit = 5) :
      (nestedGrammar limit).compile nestedCall = .ok (nestedMatcher limit) := by
    rcases small with rfl | rfl | rfl <;> rfl
  have three : (nestedMatcher 3).evaluate ".." = .ok nestedCaptured := by decide +kernel
  refine ⟨⟨three, ?_⟩, ?_⟩
  · obtain ⟨⟨larger, other, builtLarger, compiledLarger, same⟩, _⟩ :=
      evaluate_under_limits (by decide : 3 ≤ 5) (built 3 (by decide)) (compiled 3 (by decide)) ".."
    cases (built 5 (by decide)).symm.trans builtLarger
    cases (compiled 5 (by decide)).symm.trans compiledLarger
    rw [same fun _ _ => by simp [three], three]
  · have third : (nestedMatcher 2).attempts "..".toList = [⟨0, 0⟩, ⟨1, 1⟩] ++ [⟨2, 2⟩] := by
      decide +kernel
    exact ((evaluate_under_limits (Nat.le_refl 2) (built 2 (by decide)) (compiled 2 (by decide))
      "..").2 2 2).mpr ⟨rfl, _, _, [], third, by decide, rfl, rfl⟩

end Example

end TreeScheme
