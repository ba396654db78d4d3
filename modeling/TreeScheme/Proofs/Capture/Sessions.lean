import TreeScheme.Proofs.Capture.Rollback

/-!
# Recording sessions

Whoever records may take a mark at any time and roll back to any mark that was taken, again and
again: from a branch inside another branch, or to a mark that lies behind what was already taken
back. A `Session` is a recorder with the marks that were taken, and an `Action` is anything that can
be done in it.

One invariant carries every session (`Session.Within`): the recorder extends the one that the
session began with, and no mark lies before its mark. Operations extend the recorder
(`Recorder.extends_perform`), and rolling back to a mark that is not before the first one takes back
a part of the stretch and leaves the rest (`Recorder.Extends.rollback`). So whatever is done in a
session, rolling back to the mark at which it began gives the recorder of that time
(`rollback_undoes_session`).
-/

namespace TreeScheme

/-! ## Operations -/

/-- A change that is made to a recorder. -/
inductive Operation where
  | record (name : String) (value : Value) (plural : Bool)
  | selectCase (id : String)

namespace Recorder

/-- Makes a change. -/
def perform (recorder : Recorder) : Operation → Recorder
  | .record name value plural => recorder.record name value plural
  | .selectCase id => recorder.selectCase id

/-- Makes changes one after another. -/
def performAll (recorder : Recorder) (operations : List Operation) : Recorder :=
  operations.foldl perform recorder

@[simp] theorem performAll_nil (recorder : Recorder) : recorder.performAll [] = recorder := rfl

@[simp] theorem performAll_append (recorder : Recorder) (first second : List Operation) :
    recorder.performAll (first ++ second) = (recorder.performAll first).performAll second :=
  List.foldl_append

/-- Every change can be undone. -/
theorem extends_perform (recorder : Recorder) (operation : Operation) :
    (recorder.perform operation).Extends recorder := by
  cases operation with
  | record name value plural => exact recorder.extends_record name value plural
  | selectCase id => exact recorder.extends_selectCase id

/-- Rolling back to a mark within a stretch of recording takes back the newer part of it. -/
theorem Extends.rollback {later earlier : Recorder} (extended : later.Extends earlier) {mark : Nat}
    (notBefore : earlier.mark ≤ mark) : (later.rollback mark).Extends earlier := by
  obtain ⟨undos, journal, context⟩ := extended
  have few : later.journal.length - mark ≤ undos.length := by
    rw [journal, List.length_append]
    rw [Recorder.mark] at notBefore
    omega
  simp only [Recorder.rollback]
  generalize later.journal.length - mark = since at few
  rw [journal, List.take_append_of_le_length few, List.drop_append_of_le_length few]
  refine ⟨undos.drop since, rfl, ?_⟩
  rw [← List.foldl_append, List.take_append_drop, context]

end Recorder

/-! ## Sessions -/

/-- What can be done while recording. -/
inductive Action where
  | operation (operation : Operation)
  /-- Takes a mark. -/
  | mark
  /-- Rolls back to the mark that was taken as number `index`. -/
  | rollback (index : Nat)

/-- A recorder with the marks that were taken. -/
structure Session where
  recorder : Recorder
  /-- The marks in the order in which they were taken. -/
  marks : List Nat

namespace Session

/-- A session begins with a mark. -/
def start (recorder : Recorder) : Session :=
  ⟨recorder, [recorder.mark]⟩

/-- Does one action. There is no rolling back to a mark that was not taken. -/
def act (session : Session) : Action → Session
  | .operation operation => { session with recorder := session.recorder.perform operation }
  | .mark => { session with marks := session.marks ++ [session.recorder.mark] }
  | .rollback index =>
    match session.marks[index]? with
    | some mark => { session with recorder := session.recorder.rollback mark }
    | none => session

/-- Does actions one after another. -/
def run (session : Session) (actions : List Action) : Session :=
  actions.foldl act session

/-- The session has not gone behind a recorder. -/
structure Within (first : Recorder) (session : Session) : Prop where
  extended : session.recorder.Extends first
  marks : ∀ mark ∈ session.marks, first.mark ≤ mark

namespace Within

variable {first : Recorder} {session : Session}

theorem start (recorder : Recorder) : Within recorder (Session.start recorder) :=
  ⟨.refl recorder, by simp [Session.start]⟩

/-- **One action.** -/
theorem act (within : Within first session) (action : Action) :
    Within first (session.act action) := by
  cases action with
  | operation operation =>
    exact ⟨(session.recorder.extends_perform operation).trans within.extended, within.marks⟩
  | mark =>
    refine ⟨within.extended, List.forall_mem_append.mpr ⟨within.marks, ?_⟩⟩
    -- The journal of a recorder that extends another one is no shorter.
    obtain ⟨undos, journal, _⟩ := within.extended
    simp [Recorder.mark, journal]
  | rollback index =>
    rw [Session.act]
    split
    · rename_i mark taken
      exact ⟨within.extended.rollback (within.marks mark (List.mem_of_getElem? taken)),
        within.marks⟩
    · exact within

/-- **All actions.** -/
theorem run (within : Within first session) (actions : List Action) :
    Within first (session.run actions) := by
  induction actions generalizing session with
  | nil => exact within
  | cons action actions ih => exact ih (within.act action)

end Within

end Session

/-- **Rolling back is exact.** Whatever was recorded before, and whatever is done in a session that
begins there, with values that are lists themselves, with names that are plural at one time and not
at another, and with marks that are rolled back to in any order: rolling back to the mark at which
the session began gives the recorder that it began with, its captures, its case and its journal. -/
theorem rollback_undoes_session (recorder : Recorder) (actions : List Action) :
    ((Session.start recorder).run actions).recorder.rollback recorder.mark = recorder :=
  Recorder.rollback_of_extends ((Session.Within.start recorder).run actions).extended

-- A value that is a list is appended to, and the rollback to the mark in between does not hide the
-- former value from the rollback to the first one.
example :
    let before : Recorder := ({} : Recorder).record "A" (.list [.text "a"]) false
    let session := (Session.start before).run [.operation (.record "A" (.text "b") true), .mark,
      .operation (.selectCase "x"), .operation (.record "A" (.text "c") false), .rollback 1]
    session.recorder.context.captures = [("A", .list [.text "a", .text "b"])] ∧
      session.recorder.rollback before.mark = before :=
  ⟨rfl, rfl⟩

end TreeScheme
