import TreeScheme.Pattern.Plurality

/-!
# What the table of plural names says

The table is filled leaf by leaf, and the first leaf of a name is treated unlike the others, so the
order in which leaves are entered seems to matter. It does not: `Plurality.Describes` states what a
table says of the leaves entered so far by membership and by counting alone, and every entry keeps
it (`Describes.enter`). Hence a name captures a list exactly if one of its leaves stands under a
repetition or it has at least two leaves (`isList_ofPattern_iff`).
-/

namespace TreeScheme.Plurality

/-! ## Entering one leaf -/

/-- After an entry its name is known, and plural if it was known before or stands under a
repetition. -/
theorem lookup_enter_self (id : String) (repeated : Bool) (table : Plurality) :
    (table.enter id repeated).lookup id = some ((table.lookup id).isSome || repeated) := by
  induction table with
  | nil => simp [enter]
  | cons entry rest ih =>
    obtain ⟨key, plural⟩ := entry
    by_cases h : key = id
    · simp [enter, h]
    · have other : (id == key) = false := beq_false_of_ne (Ne.symm h)
      simp only [enter, if_neg h, List.lookup_cons, other, ih]

/-- An entry says nothing about another name. -/
theorem lookup_enter_of_ne {id other : String} (differs : other ≠ id) (repeated : Bool)
    (table : Plurality) : (table.enter id repeated).lookup other = table.lookup other := by
  have unequal : (other == id) = false := beq_false_of_ne differs
  induction table with
  | nil => simp [enter, List.lookup_cons, unequal]
  | cons entry rest ih =>
    obtain ⟨key, plural⟩ := entry
    by_cases h : key = id
    · subst h
      simp only [enter, if_true, List.lookup_cons, unequal]
    · simp only [enter, if_neg h, List.lookup_cons, ih]

/-! ## All leaves -/

/-- What a table says of the leaves that were entered into it. -/
structure Describes (table : Plurality) (leaves : List (String × Bool)) : Prop where
  /-- It knows the names of the leaves and no others. -/
  known : ∀ id, (table.lookup id).isSome = true ↔ id ∈ leaves.map Prod.fst
  /-- A name is plural if it was met under a repetition, or more than once. -/
  plural : ∀ id, table.isList id = true ↔
    (id, true) ∈ leaves ∨ 2 ≤ (leaves.map Prod.fst).count id

/-- The empty table describes no leaves. -/
theorem describes_nil : Describes [] [] :=
  ⟨by simp, by simp [isList]⟩

/-- Entering a leaf keeps the description true. -/
theorem Describes.enter {table : Plurality} {leaves : List (String × Bool)}
    (describes : table.Describes leaves) (id : String) (repeated : Bool) :
    (table.enter id repeated).Describes (leaves ++ [(id, repeated)]) := by
  constructor
  · intro key
    by_cases h : key = id
    · subst h
      simp [lookup_enter_self]
    · simp [lookup_enter_of_ne h, describes.known key, h]
  · intro key
    by_cases h : key = id
    · subst h
      have known := describes.known key
      cases met : (table.lookup key).isSome with
      | false =>
        -- The first leaf of its name: only its own place counts.
        have absent : key ∉ leaves.map Prod.fst := fun mem => by
          rw [met] at known
          exact absurd (known.mpr mem) (by simp)
        have unmet : ∀ place, (key, place) ∉ leaves := fun place mem =>
          absent (List.mem_map_of_mem (f := Prod.fst) mem)
        simp only [isList, lookup_enter_self, met, Bool.false_or, Option.getD_some,
          List.mem_append, unmet true, false_or, List.mem_singleton, Prod.mk.injEq, true_and,
          List.map_append, List.count_append, List.count_eq_zero_of_not_mem absent,
          List.map_cons, List.map_nil, List.count_singleton_self]
        constructor
        · intro place
          exact Or.inl place.symm
        · rintro (place | impossible)
          · exact place.symm
          · omega
      | true =>
        -- A further leaf: the name has at least two now.
        have positive : 0 < (leaves.map Prod.fst).count key :=
          List.count_pos_iff.mpr (known.mp met)
        simp only [isList, lookup_enter_self, met, Bool.true_or, Option.getD_some, true_iff,
          List.map_append, List.count_append, List.map_cons, List.map_nil,
          List.count_singleton_self]
        exact Or.inr (by omega)
    · have unchanged : (table.enter id repeated).isList key = table.isList key := by
        simp only [isList, lookup_enter_of_ne h]
      have unequal : (id == key) = false := beq_false_of_ne (Ne.symm h)
      rw [unchanged, describes.plural key]
      simp [h, List.count_cons, unequal]

/-- Entering leaves one after another keeps the description true. -/
theorem Describes.foldl_enter {table : Plurality} {before : List (String × Bool)}
    (describes : table.Describes before) (leaves : List (String × Bool)) :
    (leaves.foldl (fun table leaf => table.enter leaf.1 leaf.2) table).Describes
      (before ++ leaves) := by
  induction leaves generalizing table before with
  | nil => simpa using describes
  | cons leaf leaves ih =>
    have entered := ih (describes.enter leaf.1 leaf.2)
    rwa [List.append_assoc] at entered

/-- The table of a pattern describes its leaves. -/
theorem describes_ofPattern (pattern : Pattern) :
    (ofPattern pattern).Describes (pattern.leaves false) := by
  have described := describes_nil.foldl_enter (pattern.leaves false)
  rwa [List.nil_append] at described

/-- A name captures a list exactly if one of its leaves stands under a repetition or it has at least
two leaves. -/
theorem isList_ofPattern_iff (pattern : Pattern) (id : String) :
    (ofPattern pattern).isList id = true ↔
      (id, true) ∈ pattern.leaves false ∨ 2 ≤ ((pattern.leaves false).map Prod.fst).count id :=
  (describes_ofPattern pattern).plural id

end TreeScheme.Plurality
