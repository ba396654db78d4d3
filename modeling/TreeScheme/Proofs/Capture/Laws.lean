import TreeScheme.Capture.Basic

/-!
# Captures as a finite map

`Captures.set` is written as a case split: replace a value in place, or file a new name before the
first greater one. This module hides the split. What a list of captures says is what `get?` answers,
and the laws below give that answer after `set` for the name that was set and for every other one.

**Order.** Captures that are built by `set` stay in strictly increasing order of names. Two ordered
lists with the same answers are the same list (`eq_of_get?_eq`), so to describe the captures of a
match it is enough to describe the answers.

**Undoing.** `erase_set` and `set_set` take back a change of a single name. They hold of every list
whatsoever, ordered or not, which is what lets a journal be replayed against any former state.
-/

namespace TreeScheme.Captures

variable {α : Type}

/-- The names are in strictly increasing order. -/
def Ordered (captures : Captures α) : Prop :=
  (captures.map Prod.fst).Pairwise (· < ·)

/-- Names in order are different names. -/
theorem nodup_of_ordered {captures : Captures α} (ordered : Ordered captures) :
    (captures.map Prod.fst).Nodup := by
  refine List.Pairwise.imp ?_ ordered
  rintro name _ less rfl
  exact String.lt_irrefl name less

/-! ## Setting one name -/

/-- A name that has a value is set by replacing the value. -/
theorem set_of_get?_some {name : String} {captures : Captures α} {old : α}
    (found : captures.get? name = some old) (value : α) :
    captures.set name value = captures.replace name value := by
  simp only [set, found]

/-- A name without a value is set by filing it. -/
theorem set_of_get?_none {name : String} {captures : Captures α}
    (fresh : captures.get? name = none) (value : α) :
    captures.set name value = captures.file name value := by
  simp only [set, fresh]

/-- A name that was set has the value it was given. -/
@[simp] theorem get?_set (name : String) (value : α) (captures : Captures α) :
    (captures.set name value).get? name = some value := by
  cases former : captures.get? name with
  | none => rw [set_of_get?_none former, get?_file former]
  | some old => rw [set_of_get?_some former, get?_replace former]

/-- Filing a name says nothing about another one. -/
theorem get?_file_of_ne {name other : String} (differs : other ≠ name) (value : α)
    (captures : Captures α) : (captures.file name value).get? other = captures.get? other := by
  induction captures with
  | nil => simp [file, get?, differs.symm]
  | cons entry rest ih =>
    obtain ⟨key, old⟩ := entry
    unfold file
    split
    · simp only [get?, if_neg differs.symm]
    · simp only [get?, ih]

/-- Replacing the value of a name says nothing about another one. -/
theorem get?_replace_of_ne {name other : String} (differs : other ≠ name) (value : α)
    (captures : Captures α) :
    (captures.replace name value).get? other = captures.get? other := by
  induction captures with
  | nil => rfl
  | cons entry rest ih =>
    obtain ⟨key, old⟩ := entry
    unfold replace
    split
    · rename_i same
      simp only [get?, same, if_neg differs.symm]
    · simp only [get?, ih]

/-- Setting a name says nothing about another one. -/
theorem get?_set_of_ne {name other : String} (differs : other ≠ name) (value : α)
    (captures : Captures α) : (captures.set name value).get? other = captures.get? other := by
  cases former : captures.get? name with
  | none => rw [set_of_get?_none former, get?_file_of_ne differs]
  | some old => rw [set_of_get?_some former, get?_replace_of_ne differs]

/-- Erasing a name that had no value before it was set gives the former captures. -/
theorem erase_set {name : String} {captures : Captures α} (fresh : captures.get? name = none)
    (value : α) : (captures.set name value).erase name = captures := by
  rw [set_of_get?_none fresh, erase_file fresh]

/-- Setting a name back to the value it had gives the former captures. -/
theorem set_set {name : String} {captures : Captures α} {old : α}
    (found : captures.get? name = some old) (value : α) :
    (captures.set name value).set name old = captures := by
  rw [set_of_get?_some (get?_set name value captures), set_of_get?_some found,
    replace_replace found]

/-! ## Order -/

/-- A name that is found is one of the names. -/
theorem mem_of_get?_eq_some {name : String} {value : α} {captures : Captures α}
    (found : captures.get? name = some value) : (name, value) ∈ captures := by
  induction captures with
  | nil => simp [get?] at found
  | cons entry rest ih =>
    obtain ⟨key, old⟩ := entry
    by_cases h : key = name
    · simp only [get?, h, if_true, Option.some.injEq] at found
      simp [h, found]
    · simp only [get?, h, if_false] at found
      exact List.mem_cons_of_mem _ (ih found)

/-- A name without a value is none of the names. -/
theorem not_mem_of_get?_eq_none {name : String} {captures : Captures α}
    (fresh : captures.get? name = none) : name ∉ captures.map Prod.fst := by
  induction captures with
  | nil => simp
  | cons entry rest ih =>
    obtain ⟨key, old⟩ := entry
    by_cases h : key = name
    · simp [get?, h] at fresh
    · simp only [get?, h, if_false] at fresh
      simp only [List.map_cons, List.mem_cons, not_or]
      exact ⟨fun same => h same.symm, ih fresh⟩

/-- In ordered captures every entry is found: no entry hides behind another of the same name. -/
theorem get?_of_mem {name : String} {value : α} {captures : Captures α}
    (ordered : Ordered captures) (mem : (name, value) ∈ captures) :
    captures.get? name = some value := by
  induction captures with
  | nil => simp at mem
  | cons entry rest ih =>
    obtain ⟨key, old⟩ := entry
    simp only [Ordered, List.map_cons, List.pairwise_cons] at ordered
    rcases List.mem_cons.mp mem with same | later
    · cases same
      simp [get?]
    · have before : key < name := ordered.1 name (List.mem_map_of_mem (f := Prod.fst) later)
      have differs : key ≠ name := fun same => String.lt_irrefl name (same ▸ before)
      simp only [get?, if_neg differs]
      exact ih ordered.2 later

/-- Replacing a value keeps the names as they are. -/
theorem map_fst_replace (name : String) (value : α) (captures : Captures α) :
    (captures.replace name value).map Prod.fst = captures.map Prod.fst := by
  induction captures with
  | nil => rfl
  | cons entry rest ih =>
    obtain ⟨key, old⟩ := entry
    unfold replace
    split
    · rfl
    · simp only [List.map_cons, ih]

/-- Filing adds exactly one name. -/
theorem mem_map_fst_file {name key : String} (value : α) (captures : Captures α) :
    key ∈ (captures.file name value).map Prod.fst ↔
      key = name ∨ key ∈ captures.map Prod.fst := by
  induction captures with
  | nil => simp [file]
  | cons entry rest ih =>
    obtain ⟨first, old⟩ := entry
    unfold file
    split
    · simp
    · simp only [List.map_cons, List.mem_cons, ih]
      exact or_left_comm

/-- Filing a new name keeps the order: it goes behind every smaller name and before the first
greater one. -/
theorem ordered_file {name : String} {captures : Captures α} (ordered : Ordered captures)
    (fresh : captures.get? name = none) (value : α) : Ordered (captures.file name value) := by
  induction captures with
  | nil => simp [Ordered, file]
  | cons entry rest ih =>
    obtain ⟨key, old⟩ := entry
    have absent := not_mem_of_get?_eq_none fresh
    simp only [List.map_cons, List.mem_cons, not_or] at absent
    simp only [Ordered, List.map_cons, List.pairwise_cons] at ordered
    unfold file
    split
    · rename_i before
      simp only [Ordered, List.map_cons, List.pairwise_cons, List.mem_cons]
      refine ⟨?_, ordered⟩
      rintro other (rfl | later)
      · exact before
      · exact String.lt_trans before (ordered.1 other later)
    · rename_i notBefore
      have behind : key < name := by
        apply String.not_le.mp
        intro reverse
        exact absent.1 (String.le_antisymm reverse (String.not_lt.mp notBefore))
      have later : get? name rest = none := by
        simpa only [get?, if_neg (Ne.symm absent.1)] using fresh
      simp only [Ordered, List.map_cons, List.pairwise_cons]
      refine ⟨?_, ih ordered.2 later⟩
      intro other mem
      rcases (mem_map_fst_file value rest).mp mem with rfl | old
      · exact behind
      · exact ordered.1 other old

/-- Setting a name keeps the order. -/
theorem ordered_set {captures : Captures α} (ordered : Ordered captures) (name : String)
    (value : α) : Ordered (captures.set name value) := by
  cases former : captures.get? name with
  | none =>
    rw [set_of_get?_none former]
    exact ordered_file ordered former value
  | some old =>
    rw [set_of_get?_some former, Ordered, map_fst_replace]
    exact ordered

/-- Ordered captures are determined by their answers. -/
theorem eq_of_get?_eq {first second : Captures α} (orderedFirst : Ordered first)
    (orderedSecond : Ordered second) (same : ∀ name, first.get? name = second.get? name) :
    first = second := by
  have subset {a b : Captures α} (ordered : Ordered a) (agree : ∀ name, a.get? name = b.get? name) :
      ∀ entry ∈ a, entry ∈ b := by
    intro entry mem
    exact mem_of_get?_eq_some ((agree entry.1).symm.trans (get?_of_mem ordered mem))
  have strict {a : Captures α} (ordered : Ordered a) : a.Pairwise (fun x y => x.1 < y.1) :=
    List.pairwise_map.mp ordered
  have distinct {a : Captures α} (ordered : Ordered a) : a.Nodup := by
    apply (strict ordered).imp
    rintro x y less rfl
    exact String.lt_irrefl _ less
  -- Both lists hold the same entries once, so they are permutations of each other; and a strict
  -- order leaves a permutation no choice.
  have perm : first.Perm second :=
    (List.perm_ext_iff_of_nodup (distinct orderedFirst) (distinct orderedSecond)).mpr fun entry =>
      ⟨subset orderedFirst same entry, subset orderedSecond (fun name => (same name).symm) entry⟩
  exact perm.eq_of_pairwise
    (fun x y _ _ xy yx => absurd (String.lt_trans xy yx) (String.lt_irrefl _))
    (strict orderedFirst) (strict orderedSecond)

end TreeScheme.Captures
