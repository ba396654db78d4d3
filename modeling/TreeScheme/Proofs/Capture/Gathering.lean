import TreeScheme.Capture.Recorder
import TreeScheme.Pattern.Plurality
import TreeScheme.Proofs.Capture.Laws

/-!
# Captures as gathered values

A match meets the leaves of its pattern one after another, and each leaf that matches gives a value
under its name. This module says what the captures of a body have to do with the values it gave,
without speaking of a recorder: `Gathers` asks that a plural name holds the list of all its values
in order, that any other name holds its one value, and that a name without values holds nothing.
Together with the order of names that leaves one list of captures only (`Gathers.unique`).

The recorder writes values one by one. A value of a name that is not plural overwrites what was
there, so recording gathers only if such a name is given a value at most once. That is a hypothesis
here (`gathers_recordAll`); it is a fact about patterns and is proved of them elsewhere.
-/

namespace TreeScheme

/-- A value that a leaf gave, under the name of the leaf. -/
abbrev Event := String × Value

/-- The values given under a name, in order. -/
def valuesOf (id : String) (events : List Event) : List Value :=
  (events.filter (·.1 == id)).map Prod.snd

@[simp] theorem valuesOf_nil (id : String) : valuesOf id [] = [] := rfl

@[simp] theorem valuesOf_append (id : String) (first second : List Event) :
    valuesOf id (first ++ second) = valuesOf id first ++ valuesOf id second := by
  simp [valuesOf]

@[simp] theorem valuesOf_singleton_self (id : String) (value : Value) :
    valuesOf id [(id, value)] = [value] := by
  simp [valuesOf]

theorem valuesOf_singleton_of_ne {id other : String} (differs : id ≠ other) (value : Value) :
    valuesOf other [(id, value)] = [] := by
  simp [valuesOf, differs]

/-- Only a name that an event bears has values. -/
theorem valuesOf_eq_nil_iff {id : String} {events : List Event} :
    valuesOf id events = [] ↔ id ∉ events.map Prod.fst := by
  simp only [valuesOf, List.map_eq_nil_iff, List.filter_eq_nil_iff, beq_iff_eq, List.mem_map,
    not_exists, not_and]

/-- The values of a name come from events of that name. -/
theorem mem_valuesOf {id : String} {value : Value} {events : List Event} :
    value ∈ valuesOf id events ↔ (id, value) ∈ events := by
  simp [valuesOf]

/-! ## Gathering -/

/-- The captures hold exactly the values of some events. -/
structure Gathers (plurality : Plurality) (events : List Event) (captures : Captures Value) :
    Prop where
  /-- Every name occurs once, and names are in order. -/
  ordered : Captures.Ordered captures
  /-- A plural name holds the list of all its values, in the order of the events. -/
  plural : ∀ id, plurality.isList id = true →
    captures.get? id = if (valuesOf id events).isEmpty then none else
      some (.list (valuesOf id events))
  /-- Any other name has one value and holds it, or has none and holds nothing. -/
  single : ∀ id, plurality.isList id = false → valuesOf id events = (captures.get? id).toList

namespace Gathers

variable {plurality : Plurality} {events : List Event} {captures : Captures Value}

/-- Nothing gathers no events. -/
theorem nil : Gathers plurality [] [] :=
  ⟨by simp [Captures.Ordered], by simp [Captures.get?], by simp [Captures.get?]⟩

/-- There is one way to gather some events. -/
theorem unique {other : Captures Value} (first : Gathers plurality events captures)
    (second : Gathers plurality events other) : captures = other := by
  apply Captures.eq_of_get?_eq first.ordered second.ordered
  intro id
  cases h : plurality.isList id with
  | true => rw [first.plural id h, second.plural id h]
  | false =>
    have same := (first.single id h).symm.trans (second.single id h)
    cases hf : captures.get? id with
    | none => cases hs : other.get? id <;> simp_all
    | some value => cases hs : other.get? id <;> simp_all

/-- A name that holds something is borne by an event. -/
theorem mem_events_of_mem (gathers : Gathers plurality events captures) {entry : String × Value}
    (mem : entry ∈ captures) : entry.1 ∈ events.map Prod.fst := by
  have found := Captures.get?_of_mem gathers.ordered mem
  apply Classical.byContradiction
  intro absent
  have none := valuesOf_eq_nil_iff.mpr absent
  cases h : plurality.isList entry.1 with
  | true =>
    rw [gathers.plural entry.1 h, none] at found
    cases found
  | false =>
    have held := gathers.single entry.1 h
    rw [none, found] at held
    cases held

/-- Writing one more value keeps the captures gathered, unless it overwrites one. -/
theorem set (gathers : Gathers plurality events captures) {id : String} (value : Value)
    (once : plurality.isList id = false → valuesOf id events = []) :
    Gathers plurality (events ++ [(id, value)])
      (captures.set id (if plurality.isList id then .list (valuesOf id events ++ [value])
        else value)) := by
  refine ⟨Captures.ordered_set gathers.ordered id _, ?_, ?_⟩
  · intro key isList
    by_cases same : key = id
    · subst same
      simp [isList]
    · rw [Captures.get?_set_of_ne same, gathers.plural key isList, valuesOf_append,
        valuesOf_singleton_of_ne (Ne.symm same), List.append_nil]
  · intro key notList
    by_cases same : key = id
    · subst same
      simp [notList, once notList]
    · rw [Captures.get?_set_of_ne same, valuesOf_append,
        valuesOf_singleton_of_ne (Ne.symm same), List.append_nil]
      exact gathers.single key notList

end Gathers

/-! ## Recording -/

namespace Recorder

/-- Records events one after another. -/
def recordAll (plurality : Plurality) (recorder : Recorder) (events : List Event) : Recorder :=
  events.foldl (fun recorder event =>
    recorder.record event.1 event.2 (plurality.isList event.1)) recorder

@[simp] theorem recordAll_nil (plurality : Plurality) (recorder : Recorder) :
    recorder.recordAll plurality [] = recorder := rfl

@[simp] theorem recordAll_append (plurality : Plurality) (recorder : Recorder)
    (first second : List Event) :
    recorder.recordAll plurality (first ++ second) =
      (recorder.recordAll plurality first).recordAll plurality second :=
  List.foldl_append

/-- Recording a value changes captures only. -/
@[simp] theorem caseId_record (recorder : Recorder) (name : String) (value : Value)
    (plural : Bool) : (recorder.record name value plural).context.caseId =
      recorder.context.caseId := by
  simp only [record]
  split
  · split <;> rfl
  · rfl

/-- Recording events changes captures only. -/
@[simp] theorem caseId_recordAll (plurality : Plurality) (recorder : Recorder)
    (events : List Event) :
    (recorder.recordAll plurality events).context.caseId = recorder.context.caseId := by
  induction events generalizing recorder with
  | nil => rfl
  | cons event events ih =>
    rw [recordAll, List.foldl_cons]
    exact (ih _).trans (caseId_record _ _ _ _)

/-- Recording keeps captures gathered, unless it overwrites a value. -/
theorem gathers_record {plurality : Plurality} {recorder : Recorder} {events : List Event}
    (gathers : Gathers plurality events recorder.context.captures) (id : String) (value : Value)
    (once : plurality.isList id = false → valuesOf id events = []) :
    Gathers plurality (events ++ [(id, value)])
      (recorder.record id value (plurality.isList id)).context.captures := by
  have written := gathers.set value once
  cases isList : plurality.isList id with
  | false =>
    rw [isList] at written
    exact written
  | true =>
    have held := gathers.plural id isList
    rw [isList, if_pos rfl] at written
    simp only [record, if_true]
    -- What a plural name holds is a list of all its values, or nothing yet.
    cases before : valuesOf id events with
    | nil =>
      rw [before] at held written
      simp only [List.isEmpty_nil, if_true] at held
      rw [held]
      exact written
    | cons first others =>
      rw [before] at held written
      simp only [List.isEmpty_cons, Bool.false_eq_true, if_false] at held
      rw [held]
      exact written

/-- Recording events gathers them, if no name that is not plural is given a second value. -/
theorem gathers_recordAll {plurality : Plurality} {recorder : Recorder} {before : List Event}
    (gathers : Gathers plurality before recorder.context.captures) (events : List Event)
    (once : ∀ id, plurality.isList id = false → (valuesOf id (before ++ events)).length ≤ 1) :
    Gathers plurality (before ++ events)
      (recorder.recordAll plurality events).context.captures := by
  induction events generalizing recorder before with
  | nil => simpa using gathers
  | cons event events ih =>
    obtain ⟨id, value⟩ := event
    have first := gathers_record gathers id value (by
      intro notList
      have bound := once id notList
      rw [show before ++ (id, value) :: events = before ++ ([(id, value)] ++ events) from rfl,
        valuesOf_append, valuesOf_append, valuesOf_singleton_self] at bound
      simp only [List.length_append, List.length_singleton] at bound
      exact List.eq_nil_of_length_eq_zero (by omega))
    have rest := ih first (by
      intro key notList
      rw [List.append_assoc]
      exact once key notList)
    rw [List.append_assoc] at rest
    exact rest

end Recorder

end TreeScheme
