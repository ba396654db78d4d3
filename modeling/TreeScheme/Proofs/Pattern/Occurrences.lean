import Mathlib.Data.Finset.Card
import TreeScheme.Proofs.Pattern.Plurality

/-!
# The leaves of a pattern, in any order

The table of plural names is filled on a walk over the leaves from left to right, and each leaf
brings along whether a repetition was passed on the way down to it. Here the leaves are told apart
by where they stand: by the path of indices that leads to them. Which names a pattern has, and which
of them capture lists, is then a matter of its tree alone (`Plurality.Exact`): a name is plural if a
star or a plus stands above one of its leaves, or if two leaves at different places bear it.

**The invariant.** While the leaves are visited, the table says the same of those that were visited
so far (`Plurality.Tells`), whichever they are: each visit enters one leaf, and what the table says
of the leaves entered into it is a matter of membership and counting (`Describes.enter`). So the
order of the visits does not matter, and the walk from left to right is one order among others
(`Plurality.exact_in_any_order`).
-/

namespace TreeScheme

namespace Pattern

/-! ## Where leaves stand -/

/-- The patterns directly below one. -/
def children : Pattern → List Pattern
  | leaf _ _ => []
  | sequence items => items
  | choice alternatives => alternatives
  | quantified _ operand => [operand]

/-- The pattern reached from this one by taking, again and again, the child with the next index. -/
def descend? (pattern : Pattern) : List Nat → Option Pattern
  | [] => some pattern
  | index :: path => pattern.children[index]?.bind fun child => child.descend? path

/-- The leaf at a path has a name. -/
def Bears (pattern : Pattern) (id : String) (path : List Nat) : Prop :=
  ∃ symbol, pattern.descend? path = some (.leaf symbol id)

/-- A star or a plus stands above the end of a path. -/
def UnderRepetition (pattern : Pattern) (path : List Nat) : Prop :=
  ∃ above index below quantifier operand, path = above ++ index :: below ∧
    pattern.descend? above = some (.quantified quantifier operand) ∧
    (quantifier = .star ∨ quantifier = .plus)

/-- An order in which all leaves are visited, each of them once. -/
structure Orders (pattern : Pattern) (order : List (List Nat)) : Prop where
  distinct : order.Nodup
  leaves : ∀ path, path ∈ order ↔ ∃ id, pattern.Bears id path

/-- Whether everything below a pattern stands under a repetition because of it. -/
def repeats : Pattern → Bool
  | quantified quantifier _ => quantifier.repeats
  | _ => false

/-- What the leaf at a path enters into a table; `repeated` says whether the pattern itself stands
under a repetition. -/
def mark? (repeated : Bool) (pattern : Pattern) : List Nat → Option (String × Bool)
  | [] =>
    match pattern with
    | leaf _ id => some (id, repeated)
    | _ => none
  | index :: path =>
    pattern.children[index]?.bind fun child => child.mark? (repeated || pattern.repeats) path

variable {pattern : Pattern} {id : String} {index : Nat} {path : List Nat}

theorem bears_nil : pattern.Bears id [] ↔ ∃ symbol, pattern = .leaf symbol id := by
  simp [Bears, descend?]

theorem bears_cons : pattern.Bears id (index :: path) ↔
    ∃ child, pattern.children[index]? = some child ∧ child.Bears id path := by
  simp only [Bears, descend?, Option.bind_eq_some_iff]
  constructor
  · intro ⟨symbol, child, here, found⟩
    exact ⟨child, here, symbol, found⟩
  · intro ⟨child, here, symbol, found⟩
    exact ⟨symbol, child, here, found⟩

/-- Nothing stands above the top of a pattern. -/
theorem not_underRepetition_nil : ¬pattern.UnderRepetition [] := by
  rintro ⟨above, index, below, _, _, split, _⟩
  cases above <;> cases split

theorem repeats_iff : pattern.repeats = true ↔
    ∃ quantifier operand, pattern = .quantified quantifier operand ∧
      (quantifier = .star ∨ quantifier = .plus) := by
  cases pattern with
  | quantified quantifier operand => cases quantifier <;> simp [repeats, Quantifier.repeats]
  | _ => simp [repeats]

/-- A repetition above a place is the pattern itself, or stands in the child on the way. -/
theorem underRepetition_cons {child : Pattern} (here : pattern.children[index]? = some child) :
    pattern.UnderRepetition (index :: path) ↔
      pattern.repeats = true ∨ child.UnderRepetition path := by
  constructor
  · rintro ⟨above, next, below, quantifier, operand, split, found, repeated⟩
    cases above with
    | nil =>
      cases found
      exact .inl (repeats_iff.mpr ⟨_, _, rfl, repeated⟩)
    | cons first above =>
      cases split
      rw [descend?, here] at found
      exact .inr ⟨above, next, below, quantifier, operand, rfl, found, repeated⟩
  · rintro (top | ⟨above, next, below, quantifier, operand, rfl, found, repeated⟩)
    · obtain ⟨quantifier, operand, rfl, repeated⟩ := repeats_iff.mp top
      exact ⟨[], index, path, quantifier, operand, rfl, rfl, repeated⟩
    · refine ⟨index :: above, next, below, quantifier, operand, rfl, ?_, repeated⟩
      rw [descend?, here]
      exact found

/-- The entry of a leaf has its name, and says whether a repetition stands above it. -/
theorem mark?_eq_some_iff {repeated plural : Bool} :
    pattern.mark? repeated path = some (id, plural) ↔ pattern.Bears id path ∧
      (plural = true ↔ repeated = true ∨ pattern.UnderRepetition path) := by
  induction path generalizing pattern repeated with
  | nil =>
    rw [bears_nil]
    cases pattern with
    | leaf symbol name =>
      simp only [mark?, Option.some.injEq, Prod.mk.injEq, leaf.injEq, exists_and_right,
        exists_eq', true_and, not_underRepetition_nil, or_false]
      exact and_congr_right fun _ => by rw [← Bool.eq_iff_iff, eq_comm]
    | _ => simp [mark?]
  | cons index path ih =>
    rw [bears_cons, mark?, Option.bind_eq_some_iff]
    constructor
    · rintro ⟨child, here, entered⟩
      obtain ⟨bears, marked⟩ := ih.mp entered
      refine ⟨⟨child, here, bears⟩, ?_⟩
      rw [marked, underRepetition_cons here, Bool.or_eq_true, or_assoc]
    · rintro ⟨⟨child, here, bears⟩, marked⟩
      refine ⟨child, here, ih.mpr ⟨bears, ?_⟩⟩
      rw [marked, underRepetition_cons here, Bool.or_eq_true, or_assoc]

/-- There is an entry for every leaf. -/
theorem map_mark?_eq_some_iff :
    (pattern.mark? false path).map Prod.fst = some id ↔ pattern.Bears id path := by
  classical
  constructor
  · intro named
    obtain ⟨⟨name, plural⟩, entered, rfl⟩ := Option.map_eq_some_iff.mp named
    exact (mark?_eq_some_iff.mp entered).1
  · intro bears
    have entered : pattern.mark? false path = some (id, decide (pattern.UnderRepetition path)) :=
      mark?_eq_some_iff.mpr ⟨bears, by simp⟩
    rw [entered]
    rfl

/-! ## From left to right -/

/-- The paths to the leaves of a pattern, from left to right. -/
def paths : Pattern → List (List Nat)
  | leaf _ _ => [[]]
  | sequence items => pathsFrom 0 items
  | choice alternatives => pathsFrom 0 alternatives
  | quantified _ operand => operand.paths.map (0 :: ·)
where
  /-- The paths to the leaves of several patterns, the first of which has the index `first`. -/
  pathsFrom (first : Nat) : List Pattern → List (List Nat)
  | [] => []
  | pattern :: rest => pattern.paths.map (first :: ·) ++ pathsFrom (first + 1) rest

/-- A path starts with the index of one of the patterns, and leads on to a leaf of it. -/
theorem mem_pathsFrom {first : Nat} {patterns : List Pattern} :
    path ∈ paths.pathsFrom first patterns ↔ ∃ index child below, patterns[index]? = some child ∧
      path = (first + index) :: below ∧ below ∈ child.paths := by
  induction patterns generalizing first with
  | nil => simp [paths.pathsFrom]
  | cons pattern rest ih =>
    rw [paths.pathsFrom, List.mem_append, List.mem_map, ih]
    constructor
    · rintro (⟨below, mem, rfl⟩ | ⟨index, child, below, here, rfl, mem⟩)
      · exact ⟨0, pattern, below, rfl, rfl, mem⟩
      · exact ⟨index + 1, child, below, here, by rw [Nat.add_right_comm, Nat.add_assoc], mem⟩
    · rintro ⟨_ | index, child, below, here, rfl, mem⟩
      · cases here
        exact .inl ⟨below, mem, rfl⟩
      · exact .inr ⟨index, child, below, here, by rw [Nat.add_right_comm, Nat.add_assoc], mem⟩

/-- The paths of a pattern are those that lead on from its children, if it is no leaf. -/
theorem paths_eq (inner : ∀ symbol id, pattern ≠ .leaf symbol id) :
    pattern.paths = paths.pathsFrom 0 pattern.children := by
  cases pattern with
  | leaf symbol id => exact absurd rfl (inner symbol id)
  | sequence items => rfl
  | choice alternatives => rfl
  | quantified quantifier operand => exact (List.append_nil _).symm

/-- The paths lead to the leaves. -/
theorem mem_paths : path ∈ pattern.paths ↔ ∃ id, pattern.Bears id path := by
  induction path generalizing pattern with
  | nil =>
    simp only [bears_nil]
    by_cases atTop : ∃ symbol id, pattern = .leaf symbol id
    · obtain ⟨symbol, id, rfl⟩ := atTop
      simp [paths]
    · rw [paths_eq fun symbol id same => atTop ⟨symbol, id, same⟩, mem_pathsFrom]
      constructor
      · rintro ⟨_, _, _, _, split, _⟩
        cases split
      · rintro ⟨id, symbol, same⟩
        exact absurd ⟨symbol, id, same⟩ atTop
  | cons first path ih =>
    simp only [bears_cons]
    by_cases atTop : ∃ symbol id, pattern = .leaf symbol id
    · obtain ⟨symbol, id, rfl⟩ := atTop
      simp [paths, children]
    · rw [paths_eq fun symbol id same => atTop ⟨symbol, id, same⟩, mem_pathsFrom]
      constructor
      · rintro ⟨index, child, below, here, split, mem⟩
        rw [Nat.zero_add] at split
        cases split
        obtain ⟨id, bears⟩ := ih.mp mem
        exact ⟨id, child, here, bears⟩
      · rintro ⟨id, child, here, bears⟩
        exact ⟨first, child, path, here, by rw [Nat.zero_add], ih.mpr ⟨id, bears⟩⟩

mutual

/-- No leaf is reached twice. -/
theorem nodup_paths : ∀ pattern : Pattern, pattern.paths.Nodup
  | leaf _ _ => List.nodup_singleton []
  | sequence items => nodup_pathsFrom 0 items
  | choice alternatives => nodup_pathsFrom 0 alternatives
  | quantified _ operand => (nodup_paths operand).map (List.cons_injective)

theorem nodup_pathsFrom (first : Nat) : ∀ patterns : List Pattern,
    (paths.pathsFrom first patterns).Nodup
  | [] => List.nodup_nil
  | pattern :: rest => by
    rw [paths.pathsFrom, List.nodup_append]
    refine ⟨(nodup_paths pattern).map List.cons_injective, nodup_pathsFrom (first + 1) rest, ?_⟩
    intro path mem other later same
    obtain ⟨below, _, rfl⟩ := List.mem_map.mp mem
    obtain ⟨index, _, _, _, split, _⟩ := mem_pathsFrom.mp later
    rw [← same] at split
    have index := (List.cons.inj split).1
    omega

end

mutual

/-- Going along the paths gives the leaves from left to right, as they are entered. -/
theorem leaves_eq (repeated : Bool) : ∀ pattern : Pattern,
    pattern.leaves repeated = pattern.paths.filterMap (pattern.mark? repeated)
  | leaf _ _ => rfl
  | sequence items => by
    have below : leaves.leavesAll (repeated || false) items = _ :=
      leavesAll_eq repeated (.sequence items) [] items rfl
    rwa [Bool.or_false] at below
  | choice alternatives => by
    have below : leaves.leavesAll (repeated || false) alternatives = _ :=
      leavesAll_eq repeated (.choice alternatives) [] alternatives rfl
    rwa [Bool.or_false] at below
  | quantified quantifier operand => by
    rw [leaves, paths, List.filterMap_map, leaves_eq (repeated || quantifier.repeats) operand]
    rfl

/-- The same for children of a pattern, behind those that are passed already. -/
theorem leavesAll_eq (repeated : Bool) (parent : Pattern) (front : List Pattern) :
    ∀ items : List Pattern, parent.children = front ++ items →
      leaves.leavesAll (repeated || parent.repeats) items =
        (paths.pathsFrom front.length items).filterMap (parent.mark? repeated)
  | [], _ => rfl
  | item :: rest, split => by
    have here : parent.children[front.length]? = some item := by simp [split]
    have entries : parent.mark? repeated ∘ (front.length :: ·) =
        item.mark? (repeated || parent.repeats) := by
      funext path
      show (parent.children[front.length]?.bind _) = _
      rw [here, Option.bind_some]
    have later := leavesAll_eq repeated parent (front ++ [item]) rest (by simp [split])
    rw [List.length_append, List.length_singleton] at later
    rw [leaves.leavesAll, paths.pathsFrom, List.filterMap_append, List.filterMap_map, entries,
      leaves_eq (repeated || parent.repeats) item, later]

end

/-- From left to right, every leaf is visited once. -/
theorem orders_iff_perm {order : List (List Nat)} :
    pattern.Orders order ↔ order.Perm pattern.paths := by
  constructor
  · intro orders
    refine (List.perm_ext_iff_of_nodup orders.distinct pattern.nodup_paths).mpr fun path => ?_
    rw [orders.leaves, mem_paths]
  · intro perm
    exact ⟨perm.nodup_iff.mpr pattern.nodup_paths, fun path => perm.mem_iff.trans mem_paths⟩

end Pattern

namespace Plurality

variable {pattern : Pattern}

/-! ## What a table says of places -/

/-- Enters the leaf at a path. -/
def visit (pattern : Pattern) (table : Plurality) (path : List Nat) : Plurality :=
  match pattern.mark? false path with
  | some leaf => table.enter leaf.1 leaf.2
  | none => table

/-- The table of a pattern whose leaves are visited in some order. -/
def inOrder (pattern : Pattern) (order : List (List Nat)) : Plurality :=
  order.foldl (visit pattern) []

/-- What a table says of the leaves that were visited. -/
structure Tells (table : Plurality) (pattern : Pattern) (visited : List (List Nat)) : Prop where
  once : table.ids.Nodup
  known : ∀ id, id ∈ table.ids ↔ ∃ path ∈ visited, pattern.Bears id path
  plural : ∀ id, table.isList id = true ↔
    (∃ path ∈ visited, pattern.Bears id path ∧ pattern.UnderRepetition path) ∨
      ∃ first ∈ visited, ∃ second ∈ visited,
        first ≠ second ∧ pattern.Bears id first ∧ pattern.Bears id second

/-- A table knows the names of a pattern, each once, and those that may be met more than once. -/
structure Exact (table : Plurality) (pattern : Pattern) : Prop where
  once : table.ids.Nodup
  /-- The names that it knows are those of the leaves. -/
  known : ∀ id, id ∈ table.ids ↔ ∃ path, pattern.Bears id path
  /-- A name is plural if one of its leaves stands under a repetition, or if it has two leaves. -/
  plural : ∀ id, table.isList id = true ↔
    (∃ path, pattern.Bears id path ∧ pattern.UnderRepetition path) ∨
      ∃ first second, first ≠ second ∧ pattern.Bears id first ∧ pattern.Bears id second

/-! ## Visits -/

/-- A table knows a name if it finds it. -/
theorem isSome_lookup_iff {table : Plurality} {id : String} :
    (table.lookup id).isSome = true ↔ id ∈ table.ids := by
  rw [List.lookup_isSome_iff, ids, List.mem_map]
  exact exists_congr fun entry => and_congr_right fun _ => beq_iff_eq.trans eq_comm

/-- An entry adds its name unless the table knows it. -/
theorem ids_enter (table : Plurality) (id : String) (repeated : Bool) :
    (table.enter id repeated).ids = if id ∈ table.ids then table.ids else table.ids ++ [id] := by
  induction table with
  | nil => rfl
  | cons entry rest ih =>
    obtain ⟨key, plural⟩ := entry
    by_cases same : key = id
    · subst same
      simp [enter, ids]
    · have apart : id ≠ key := Ne.symm same
      simp only [ids] at ih ⊢
      by_cases known : id ∈ rest.map Prod.fst <;> simp [enter, same, ih, known, apart]

/-- An entry does not repeat a name. -/
theorem nodup_ids_enter {table : Plurality} (once : table.ids.Nodup) (id : String)
    (repeated : Bool) : (table.enter id repeated).ids.Nodup := by
  rw [ids_enter]
  split
  · exact once
  · rename_i new
    refine List.nodup_append.mpr ⟨once, List.nodup_singleton id, ?_⟩
    intro key known other mem same
    rw [List.mem_singleton.mp mem] at same
    exact new (same ▸ known)

/-- Whatever is visited, names are entered once. -/
theorem nodup_ids_foldl_visit {table : Plurality} (once : table.ids.Nodup)
    (order : List (List Nat)) : (order.foldl (visit pattern) table).ids.Nodup := by
  induction order generalizing table with
  | nil => exact once
  | cons path order ih =>
    apply ih
    unfold visit
    split
    · exact nodup_ids_enter once _ _
    · exact once

/-- Visiting leaves is entering what stands at their places. -/
theorem inOrder_eq (pattern : Pattern) (order : List (List Nat)) :
    inOrder pattern order = (order.filterMap (pattern.mark? false)).foldl
      (fun table leaf => enter leaf.1 leaf.2 table) [] := by
  rw [List.foldl_filterMap, inOrder]
  congr 1
  funext table path
  unfold visit
  cases pattern.mark? false path <;> rfl

/-- A list without doubles counts two members with a property if two different ones have it. -/
theorem two_le_countP_iff {order : List (List Nat)} (distinct : order.Nodup)
    (p : List Nat → Bool) : 2 ≤ order.countP p ↔ ∃ first ∈ order, ∃ second ∈ order,
      first ≠ second ∧ p first = true ∧ p second = true := by
  have card : (order.filter p).toFinset.card = order.countP p := by
    rw [List.toFinset_card_of_nodup (distinct.filter p), List.countP_eq_length_filter]
  rw [← card, Nat.succ_le_iff, Finset.one_lt_card]
  simp only [List.mem_toFinset, List.mem_filter]
  constructor
  · intro ⟨first, ⟨mem, has⟩, second, ⟨also, hasToo⟩, apart⟩
    exact ⟨first, mem, second, also, apart, has, hasToo⟩
  · intro ⟨first, mem, second, also, apart, has, hasToo⟩
    exact ⟨first, ⟨mem, has⟩, second, ⟨also, hasToo⟩, apart⟩

/-- **Any visits.** After some leaves were visited, each of them once, the table says which names
they have, and which of these stand under a repetition or were met twice. -/
theorem tells_inOrder {visited : List (List Nat)} (distinct : visited.Nodup) :
    (inOrder pattern visited).Tells pattern visited := by
  -- Each visited leaf has been entered as its place tells.
  have described : (inOrder pattern visited).Describes
      (visited.filterMap (pattern.mark? false)) := by
    have entered := describes_nil.foldl_enter (visited.filterMap (pattern.mark? false))
    rwa [List.nil_append, ← inOrder_eq] at entered
  have names : (visited.filterMap (pattern.mark? false)).map Prod.fst =
      visited.filterMap fun path => (pattern.mark? false path).map Prod.fst :=
    List.map_filterMap
  constructor
  · exact nodup_ids_foldl_visit (show (ids []).Nodup from List.nodup_nil) visited
  · intro id
    rw [← isSome_lookup_iff, described.known, names, List.mem_filterMap]
    simp only [Pattern.map_mark?_eq_some_iff]
  · intro id
    rw [described.plural, names, List.count_filterMap, two_le_countP_iff distinct,
      List.mem_filterMap]
    simp only [beq_iff_eq, Pattern.map_mark?_eq_some_iff, Pattern.mark?_eq_some_iff, true_iff,
      Bool.false_eq_true, false_or]

/-- When all leaves were visited, the table is exact. -/
theorem Tells.exact {table : Plurality} {order : List (List Nat)}
    (tells : table.Tells pattern order) (orders : pattern.Orders order) :
    table.Exact pattern := by
  have visited {id path} (bears : pattern.Bears id path) : path ∈ order :=
    (orders.leaves path).mpr ⟨id, bears⟩
  refine ⟨tells.once, fun id => ?_, fun id => ?_⟩
  · rw [tells.known]
    exact exists_congr fun path => and_iff_right_of_imp visited
  · rw [tells.plural]
    apply or_congr
    · exact exists_congr fun path => and_iff_right_of_imp fun leaf => visited leaf.1
    · constructor
      · rintro ⟨first, _, second, _, both⟩
        exact ⟨first, second, both⟩
      · rintro ⟨first, second, both⟩
        exact ⟨first, visited both.2.1, second, visited both.2.2, both⟩

/-- The table of a pattern is filled on a walk from left to right. -/
theorem ofPattern_eq_inOrder (pattern : Pattern) :
    ofPattern pattern = inOrder pattern pattern.paths := by
  rw [ofPattern, Pattern.leaves_eq, inOrder_eq]

/-- **The plural names of a pattern.** The table of every pattern is exact: it knows the names of
the leaves, and a name is plural exactly if a star or a plus stands above one of its leaves, or if
it has at least two leaves. It is filled by visiting the leaves in some order, and the table is
exact in whatever order they are visited. -/
theorem exact_in_any_order (pattern : Pattern) :
    (ofPattern pattern).Exact pattern ∧
      (∃ order, pattern.Orders order ∧ ofPattern pattern = inOrder pattern order) ∧
      ∀ order, pattern.Orders order → (inOrder pattern order).Exact pattern := by
  have exact {order} (orders : pattern.Orders order) : (inOrder pattern order).Exact pattern :=
    (tells_inOrder orders.distinct).exact orders
  have leftToRight : pattern.Orders pattern.paths := Pattern.orders_iff_perm.mpr (.refl _)
  refine ⟨?_, ⟨_, leftToRight, ofPattern_eq_inOrder pattern⟩, fun _ => exact⟩
  rw [ofPattern_eq_inOrder]
  exact exact leftToRight

section Example

/-- The tree of `A (B | C)* A? D`. -/
private def twoAs : Pattern :=
  .sequence [.leaf .lexeme "A",
    .quantified .star (.choice [.leaf .lexeme "B", .leaf .definition "C"]),
    .quantified .optional (.leaf .lexeme "A"), .leaf .lexeme "D"]

/-- Its leaves from right to left. -/
private def backwards : List (List Nat) :=
  [[3], [2, 0], [1, 0, 1], [1, 0, 0], [0]]

/-- From right to left, the names come in another order, and the same ones are plural. -/
theorem backwards_exact : twoAs.Orders backwards ∧ (inOrder twoAs backwards).Exact twoAs ∧
    inOrder twoAs backwards = [("D", false), ("A", true), ("C", true), ("B", true)] ∧
    ofPattern twoAs = [("A", true), ("B", true), ("C", true), ("D", false)] := by
  have orders : twoAs.Orders backwards := Pattern.orders_iff_perm.mpr (by decide)
  exact ⟨orders, (exact_in_any_order twoAs).2.2 backwards orders, by decide, by decide⟩

end Example

end Plurality

end TreeScheme
