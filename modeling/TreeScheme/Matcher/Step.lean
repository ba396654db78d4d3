import TreeScheme.Capture.Recorder
import TreeScheme.Lexeme.Basic
import TreeScheme.Name
import TreeScheme.Pattern.Basic

/-!
# Steps

A step is a pattern whose names were looked up: lexemes are at hand and definitions are numbers into
a table of bodies. Running a step at a byte offset either ends at an offset or fails; a failure says
how far the step got. Either way the run hands on its progress: the captures recorded so far, and
where a definition was first called beyond the limit on open calls, if one was.

**Choice is committed.** Alternatives are tried in order and the first that matches is kept, even if
what follows fails. A repetition takes as many rounds as advance. Nothing is tried again later, so a
failed sequence only has to take back what its items recorded.

**Calls.** A call of a definition records into a context of its own, which the caller keeps under
the definition's name. `invoke` runs bodies with a bound on how many more calls may open inside; a
call beyond the bound fails where it stands and is noted.
-/

namespace TreeScheme

open Text (byteSize)

/-- A pattern whose names were looked up. -/
inductive Step where
  /-- Matches without taking anything. -/
  | empty
  | lexeme (id : String) (leaf : Lexeme) (plural : Bool)
  | definition (id : String) (index : Nat) (plural : Bool)
  | sequence (items : List Step)
  | choice (alternatives : List Step)
  | quantified (quantifier : Quantifier) (operand : Step)

/-- How a run ends. -/
inductive Outcome where
  /-- It took the text up to `stop`. -/
  | matched (stop : Nat)
  /-- It failed, having got as far as `furthest`. -/
  | failed (furthest : Nat)
deriving DecidableEq, Repr

/-- What a run hands on. -/
structure Progress where
  recorder : Recorder := {}
  /-- Where a definition was first called beyond the limit. -/
  limitHit : Option Nat := none

namespace Progress

/-- Records a value, if there is one. -/
def record (progress : Progress) (name : String) (value : Option Value) (plural : Bool) :
    Progress :=
  match value with
  | some value => { progress with recorder := progress.recorder.record name value plural }
  | none => progress

/-- Takes back what was recorded since `earlier`. -/
def rollback (progress earlier : Progress) : Progress :=
  { progress with recorder := progress.recorder.rollback earlier.recorder.mark }

/-- Notes a call beyond the limit; only the first one counts. -/
def hitLimit (progress : Progress) (offset : Nat) : Progress :=
  { progress with limitHit := progress.limitHit.or (some offset) }

end Progress

/-- A run at an offset. -/
abbrev Run := Nat → Progress → Outcome × Progress

/-- The further of two offsets. -/
def furthest (first second : Nat) : Nat :=
  if first < second then second else first

namespace Step

/-- Matches a lexeme. -/
def runLexeme (text : List Char) (id : String) (lexeme : Lexeme) (plural : Bool) : Run :=
  fun offset progress =>
    match lexeme.matchAt text offset with
    | none => (.failed offset, progress)
    | some hit => (.matched hit.stop, progress.record id hit.value plural)

/-- Calls a definition, which records into a context of its own. -/
def runCall (call : Run) (id : String) (plural : Bool) : Run := fun offset progress =>
  match call offset { limitHit := progress.limitHit } with
  | (.failed reached, inner) => (.failed reached, { progress with limitHit := inner.limitHit })
  | (.matched stop, inner) =>
    let context := inner.recorder.finish (stop - offset)
    (.matched stop,
      { progress with limitHit := inner.limitHit }.record id (some (.context context)) plural)

/-- Lets a run fail only without a trace among the captures. -/
def runOrRollback (run : Run) : Run := fun offset progress =>
  match run offset progress with
  | (.matched stop, later) => (.matched stop, later)
  | (.failed reached, later) => (.failed reached, later.rollback progress)

/-- A failure becomes a match of nothing. -/
def runOptional (run : Run) : Run := fun offset progress =>
  match run offset progress with
  | (.matched stop, later) => (.matched stop, later)
  | (.failed _, later) => (.matched offset, later)

/-- Runs as long as every round advances; every round but the last takes at least one byte, so
`rounds` are enough if the text has fewer bytes left. -/
def runRounds (run : Run) : (rounds : Nat) → Run
  | 0, offset, progress => (.matched offset, progress)
  | rounds + 1, offset, progress =>
    match run offset progress with
    | (.failed _, later) => (.matched offset, later)
    | (.matched stop, later) =>
      if stop = offset then (.matched offset, later) else runRounds run rounds stop later

/-- Runs as long as every round advances, within a text of `size` bytes. -/
def runStar (size : Nat) (run : Run) : Run := fun offset progress =>
  runRounds run (size - offset + 1) offset progress

/-- Runs once, and then as long as every round advances. -/
def runPlus (size : Nat) (run : Run) : Run := fun offset progress =>
  match run offset progress with
  | (.failed reached, later) => (.failed reached, later)
  | (.matched stop, later) =>
    if stop = offset then (.matched offset, later) else runStar size run stop later

/-- Applies a quantifier. -/
def runQuantified (size : Nat) (quantifier : Quantifier) (run : Run) : Run :=
  match quantifier with
  | .optional => runOptional run
  | .star => runStar size run
  | .plus => runPlus size run

/-- Runs a step over a text, given how definitions are called. -/
def run (text : List Char) (call : Nat → Run) : Step → Run
  | empty => fun offset progress => (.matched offset, progress)
  | lexeme id leaf plural => runLexeme text id leaf plural
  | definition id index plural => runCall (call index) id plural
  | sequence items => runOrRollback (runItems items)
  | choice alternatives => fun offset progress =>
    runAlternatives alternatives offset offset progress
  | quantified quantifier operand =>
    runQuantified (byteSize text) quantifier (operand.run text call)
where
  /-- Runs steps one after another. -/
  runItems : List Step → Run
  | [] => fun offset progress => (.matched offset, progress)
  | item :: items => fun offset progress =>
    match item.run text call offset progress with
    | (.matched stop, later) => runItems items stop later
    | (.failed reached, later) => (.failed reached, later)
  /-- Runs the first step that matches; `reached` is how far the ones before it got. -/
  runAlternatives : List Step → (reached : Nat) → Run
  | [], reached => fun _ progress => (.failed reached, progress)
  | alternative :: alternatives, reached => fun offset progress =>
    match alternative.run text call offset progress with
    | (.matched stop, later) => (.matched stop, later)
    | (.failed other, later) => runAlternatives alternatives (furthest reached other) offset later

end Step

/-- The body of a definition. -/
inductive Body where
  /-- A definition without cases. -/
  | plain (step : Step)
  /-- A definition with cases: the word at the offset selects a case, and the fallback is tried if
  no case is selected or the selected one fails. -/
  | cases (table : List (List String × Step)) (fallback : Option Step)

namespace Body

/-- The step of the case with an id. -/
def case? (table : List (List String × Step)) (id : String) : Option Step :=
  (table.find? (·.1.contains id)).map (·.2)

/-- The case that the word at an offset selects, if it is one. -/
def selected? (table : List (List String × Step)) (text : List Char) (offset : Nat) :
    Option (String × Step) :=
  match nameAt text offset with
  | none => none
  | some word =>
    let id := String.ofList word
    (case? table id).map (id, ·)

/-- Tries the fallback, after a failure that got as far as `reached`. -/
def runFallback (text : List Char) (call : Nat → Run) (fallback : Option Step) (reached : Nat) :
    Run := fun offset progress =>
  match fallback with
  | none => (.failed reached, progress)
  | some step =>
    match step.run text call offset progress with
    | (.matched stop, later) => (.matched stop, later)
    | (.failed other, later) => (.failed (furthest reached other), later)

/-- Runs a body over a text, given how definitions are called. -/
def run (text : List Char) (call : Nat → Run) : Body → Run
  | plain step => step.run text call
  | cases table fallback => fun offset progress =>
    match selected? table text offset with
    | none => runFallback text call fallback offset offset progress
    | some (id, step) =>
      let chosen := { progress with recorder := progress.recorder.selectCase id }
      match step.run text call (offset + byteSize id.toList) chosen with
      | (.matched stop, later) => (.matched stop, later)
      | (.failed reached, later) =>
        runFallback text call fallback reached offset (later.rollback progress)

end Body

/-- Calls the definition with a number, with room for `room` open calls, this one included. -/
def invoke (bodies : List Body) (text : List Char) : (room : Nat) → (index : Nat) → Run
  | room, index => fun offset progress =>
    match bodies[index]? with
    | none => (.failed offset, progress)
    | some body =>
      match room with
      | 0 => (.failed offset, progress.hitLimit offset)
      | room + 1 => body.run text (invoke bodies text room) offset progress

end TreeScheme
