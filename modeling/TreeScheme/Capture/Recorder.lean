import TreeScheme.Capture.Basic

/-!
# Recording captures that may be taken back

A match records captures as it goes and has to take them back when the branch that recorded them
fails. A recorder is a context under construction with a journal of its changes, the newest first.
A mark is the length of the journal; rolling back to a mark undoes every change made since, newest
first, and drops it from the journal.
-/

namespace TreeScheme

/-- How one change is undone. -/
inductive Undo where
  /-- Gives a name its former value back, or takes it out if it had none. -/
  | slot (name : String) (former : Option Value)
  /-- Cuts the list under a name back to its former length. -/
  | truncate (name : String) (length : Nat)
  /-- Puts the former case back. -/
  | caseId (former : Option String)

/-- Undoes one change. -/
def Undo.apply (context : Context) : Undo → Context
  | slot name (some value) => { context with captures := Captures.set name value context.captures }
  | slot name none => { context with captures := Captures.erase name context.captures }
  | truncate name length =>
    match Captures.get? name context.captures with
    | some (.list items) =>
      { context with
        captures := Captures.set name (.list (items.take length)) context.captures }
    | _ => context
  | caseId former => { context with caseId := former }

/-- A context under construction. -/
structure Recorder where
  context : Context := {}
  /-- The changes so far, the newest first. -/
  journal : List Undo := []

namespace Recorder

/-- The point to which the recorder can be rolled back from now on. -/
def mark (recorder : Recorder) : Nat :=
  recorder.journal.length

/-- Undoes every change since a mark. -/
def rollback (recorder : Recorder) (mark : Nat) : Recorder :=
  let since := recorder.journal.length - mark
  { context := (recorder.journal.take since).foldl Undo.apply recorder.context
    journal := recorder.journal.drop since }

/-- Makes a change that can be undone. -/
def change (recorder : Recorder) (captures : Captures Value) (undo : Undo) : Recorder :=
  { context := { recorder.context with captures }, journal := undo :: recorder.journal }

/-- Records a value under a name. A plural name collects its values in a list, and any other value
under it gives way to that list; a singular name keeps the latest value. -/
def record (recorder : Recorder) (name : String) (value : Value) (plural : Bool) : Recorder :=
  let captures := recorder.context.captures
  let former := Captures.get? name captures
  if plural then
    match former with
    | some (.list items) =>
      recorder.change (Captures.set name (.list (items ++ [value])) captures)
        (.truncate name items.length)
    | _ => recorder.change (Captures.set name (.list [value]) captures) (.slot name former)
  else
    recorder.change (Captures.set name value captures) (.slot name former)

/-- Notes which case was chosen. -/
def selectCase (recorder : Recorder) (id : String) : Recorder :=
  { context := { recorder.context with caseId := some id }
    journal := .caseId recorder.context.caseId :: recorder.journal }

/-- The finished context, `length` bytes long. -/
def finish (recorder : Recorder) (length : Nat) : Context :=
  { recorder.context with length }

/-- Rolling back to the present changes nothing. -/
@[simp] theorem rollback_mark (recorder : Recorder) :
    recorder.rollback recorder.mark = recorder := by
  simp [rollback, mark]

end Recorder

end TreeScheme
