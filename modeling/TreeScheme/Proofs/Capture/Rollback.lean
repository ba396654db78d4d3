import TreeScheme.Capture.Recorder
import TreeScheme.Proofs.Capture.Laws

/-!
# Recorders that can be rolled back

An undo entry is only good against the very captures it was made for: a slot that is put back, or a
list that is cut, assumes that everything newer was taken back already. `Recorder.Extends` says this
once for a whole stretch of recording: the journal of the later recorder is some new entries on top
of the earlier journal, and undoing the new ones, the newest first, gives the earlier context.

Every change to a recorder is such a stretch (`extends_record`, `extends_selectCase`), stretches
join (`Extends.trans`), and rolling back to the mark at which a stretch began gives exactly the
recorder it began with (`rollback_of_extends`): captures, case and journal. Nothing is asked of the
earlier recorder; in particular a plural name may hold a value that is no list.
-/

namespace TreeScheme.Recorder

/-- The later recorder came from the earlier one by changes that its journal can undo. -/
def Extends (later earlier : Recorder) : Prop :=
  ∃ undos, later.journal = undos ++ earlier.journal ∧
    undos.foldl Undo.apply later.context = earlier.context

namespace Extends

/-- Nothing happened yet. -/
theorem refl (recorder : Recorder) : recorder.Extends recorder :=
  ⟨[], rfl, rfl⟩

/-- Two stretches of recording are one. -/
theorem trans {last later earlier : Recorder} (second : last.Extends later)
    (first : later.Extends earlier) : last.Extends earlier := by
  obtain ⟨newer, newerJournal, newerContext⟩ := second
  obtain ⟨older, olderJournal, olderContext⟩ := first
  refine ⟨newer ++ older, ?_, ?_⟩
  · rw [newerJournal, olderJournal, List.append_assoc]
  · rw [List.foldl_append, newerContext, olderContext]

end Extends

/-- A single change extends a recorder if its undo entry leads back. -/
theorem extends_of_apply {later earlier : Recorder} {undo : Undo}
    (journal : later.journal = undo :: earlier.journal)
    (undone : undo.apply later.context = earlier.context) : later.Extends earlier :=
  ⟨[undo], journal, undone⟩

/-- A slot that was overwritten is put back as it was, whether or not it held a value. -/
theorem apply_slot (context : Context) (name : String) (value : Value) :
    (Undo.slot name (Captures.get? name context.captures)).apply
      { context with captures := Captures.set name value context.captures } = context := by
  cases former : Captures.get? name context.captures with
  | none => simp only [Undo.apply, Captures.erase_set former]
  | some old => simp only [Undo.apply, Captures.set_set former]

/-- A list that one value was appended to is cut back to what it was. -/
theorem apply_truncate {context : Context} {name : String} {items : List Value}
    (found : Captures.get? name context.captures = some (.list items)) (value : Value) :
    (Undo.truncate name items.length).apply
      { context with
        captures := Captures.set name (.list (items ++ [value])) context.captures } = context := by
  have cut : (items ++ [value]).take items.length = items := by simp
  simp only [Undo.apply, Captures.get?_set, cut, Captures.set_set found]

/-- Recording a value can be undone. -/
theorem extends_record (recorder : Recorder) (name : String) (value : Value) (plural : Bool) :
    (recorder.record name value plural).Extends recorder := by
  have slot (value : Value) :
      (recorder.change (Captures.set name value recorder.context.captures)
        (.slot name (Captures.get? name recorder.context.captures))).Extends recorder :=
    extends_of_apply rfl (apply_slot recorder.context name value)
  cases plural with
  | false => exact slot value
  | true =>
    simp only [record, if_true]
    split
    · rename_i items found
      exact extends_of_apply rfl (apply_truncate found value)
    · exact slot (.list [value])

/-- Choosing a case can be undone. -/
theorem extends_selectCase (recorder : Recorder) (id : String) :
    (recorder.selectCase id).Extends recorder :=
  extends_of_apply rfl rfl

/-- Rolling back to where a stretch of recording began gives the recorder it began with. -/
theorem rollback_of_extends {later earlier : Recorder} (extended : later.Extends earlier) :
    later.rollback earlier.mark = earlier := by
  obtain ⟨undos, journal, context⟩ := extended
  have since : later.journal.length - earlier.mark = undos.length := by
    simp only [mark, journal, List.length_append]
    omega
  simp only [rollback, since]
  rw [journal, List.take_left, List.drop_left, context]

end TreeScheme.Recorder
