import TreeScheme.Outline

/-!
# Reading and placing

Reading an outline builds the tree while the lines are read: nodes stay open, and each is handed to
the node it stands in when it is closed. This module takes the two matters apart. `entries` reads
the lines and refuses the first one that is indented wrongly. `place` then hangs the entries under
each other from the last one up: an entry takes every node of greater depth that directly follows
it. `read_eq` says that reading comes to the one after the other.

**The invariant.** Let some nodes be open, and let the lines to come be placed already. Then each
placed node goes to the innermost open node that is above it (`graft`). A line closes the open nodes
that it does not stand in, and is opened itself. Neither changes what the grafted tree is
(`graft_closeTo`, `graft_place`), so no node is lost, doubled or moved on the way.
-/

namespace TreeScheme

/-- The node with more children, behind those it has. -/
def Node.adopt (node : Node) (more : List Node) : Node :=
  { node with children := node.children ++ more }

theorem Node.adopt_cons (node child : Node) (more : List Node) :
    node.adopt (child :: more) = (node.push child).adopt more := by
  rw [adopt, adopt, push, List.append_assoc, List.singleton_append]

theorem Node.adopt_nil (node : Node) : node.adopt [] = node := by
  obtain ⟨_, _, _, _⟩ := node
  rw [adopt, List.append_nil]

namespace Outline

open Text (isBlank pieces)

/-! ## Entries and forests -/

/-- Reads lines from `row` on, the first of which may be `allowed` tabs deep. -/
def entries (row allowed : Nat) : List (List Char) → Except OutlineError (List Entry)
  | [] => .ok []
  | line :: lines =>
    let depth := (line.takeWhile (· == '\t')).length
    let body := line.dropWhile (· == '\t')
    match body with
    | [] => entries (row + 1) allowed lines
    | c :: _ =>
      if body.all isBlank then entries (row + 1) allowed lines
      else if isBlank c then .error (.spaceIndentation row)
      else if allowed < depth then .error (.tooDeep row depth allowed)
      else do
        let rest ← entries (row + 1) (depth + 1) lines
        return Entry.read depth row body :: rest

/-- Puts an entry before nodes that are already placed, each with its depth. The nodes that directly
follow it at a greater depth become its children. -/
def place (entry : Entry) (placed : List (Nat × Node)) : List (Nat × Node) :=
  let inside := placed.takeWhile (entry.depth < ·.1)
  let after := placed.dropWhile (entry.depth < ·.1)
  let node : Node :=
    { tag := entry.tag
      argument := entry.argument.map .raw
      children := inside.map (·.2)
      row := entry.row }
  (entry.depth, node) :: after

/-- The nodes of the top level of some entries. -/
def forest (entries : List Entry) : List Node :=
  (entries.foldr place []).map (·.2)

/-! ## Grafting -/

/-- The tree of open nodes with placed nodes behind them: each placed node becomes a child of the
innermost open node that is above it. The first open node is given on its own. -/
def graft (node : Node) : List Node → List (Nat × Node) → Node
  | [], placed => node.adopt (placed.map (·.2))
  | parent :: outer, placed =>
    let inside := placed.takeWhile (outer.length < ·.1)
    let after := placed.dropWhile (outer.length < ·.1)
    graft (parent.push (node.adopt (inside.map (·.2)))) outer after

/-- With nothing behind them, open nodes are closed. -/
theorem graft_nil (node : Node) (outer : List Node) :
    graft node outer [] = (closeTo 0 node outer).1 := by
  induction outer generalizing node with
  | nil => exact node.adopt_nil
  | cons parent outer ih =>
    rw [closeTo, if_pos (Nat.succ_pos _), ← ih]
    simp only [graft, List.takeWhile_nil, List.dropWhile_nil, List.map_nil, Node.adopt_nil]

/-- Open nodes that are not above the next placed node may be closed. -/
theorem graft_closeTo (depth : Nat) (child node : Node) (outer : List Node)
    (placed : List (Nat × Node)) :
    graft node outer ((depth, child) :: placed) =
      graft (closeTo depth node outer).1 (closeTo depth node outer).2
        ((depth, child) :: placed) := by
  induction outer generalizing node with
  | nil => rfl
  | cons parent outer ih =>
    rw [closeTo]
    split
    · rename_i below
      have outside : ¬decide (outer.length < depth) = true := by
        simpa using Nat.le_of_lt_succ below
      rw [← ih, graft, List.takeWhile_cons_of_neg (by exact outside),
        List.dropWhile_cons_of_neg (by exact outside), List.map_nil, Node.adopt_nil]
    · rfl

/-- Closing leaves as many nodes open as it is told. -/
theorem length_closeTo {depth : Nat} (node : Node) {outer : List Node}
    (le : depth ≤ outer.length) : (closeTo depth node outer).2.length = depth := by
  induction outer generalizing node with
  | nil => exact (Nat.le_zero.mp le).symm
  | cons parent outer ih =>
    rw [closeTo]
    split
    · rename_i below
      exact ih _ (Nat.le_of_lt_succ below)
    · rename_i above
      exact Nat.le_antisymm (Nat.le_of_not_lt above) le

/-- A placed node directly below the first open node is its next child. -/
theorem graft_cons (child node : Node) (outer : List Node) (placed : List (Nat × Node)) :
    graft node outer ((outer.length, child) :: placed) = graft (node.push child) outer placed := by
  cases outer with
  | nil => exact node.adopt_cons child _
  | cons parent outer =>
    rw [graft, graft, List.takeWhile_cons_of_pos (by simp), List.dropWhile_cons_of_pos (by simp),
      List.map_cons, Node.adopt_cons]

/-- **One line.** An entry is opened in the node that it stands in, and the open nodes that it does
not stand in are closed before. -/
theorem graft_place (entry : Entry) (node : Node) {outer : List Node}
    (le : entry.depth ≤ outer.length) (placed : List (Nat × Node)) :
    graft node outer (place entry placed) =
      graft entry.node
        ((closeTo entry.depth node outer).1 :: (closeTo entry.depth node outer).2) placed := by
  have level := length_closeTo node le
  rw [place, graft_closeTo]
  generalize closeTo entry.depth node outer = left at level ⊢
  obtain ⟨parent, outer⟩ := left
  rw [← level, graft_cons, graft]
  rfl

/-! ## Reading -/

/-- **All lines.** Reading lines into open nodes comes to reading their entries, placing these, and
grafting what is placed. -/
theorem readLines_eq (row : Nat) (node : Node) (outer : List Node) (lines : List (List Char)) :
    readLines row node outer lines = (do
      let found ← entries row outer.length lines
      return graft node outer (found.foldr place [])) := by
  induction lines generalizing row node outer with
  | nil => exact congrArg Except.ok (graft_nil node outer).symm
  | cons line lines ih =>
    rw [readLines, entries]
    cases body : line.dropWhile (· == '\t') with
    | nil => exact ih (row + 1) node outer
    | cons c rest =>
      simp only
      by_cases void : (c :: rest).all isBlank
      · rw [if_pos void, if_pos void]
        exact ih (row + 1) node outer
      · rw [if_neg void, if_neg void]
        by_cases blank : isBlank c
        · rw [if_pos blank, if_pos blank]
          rfl
        · rw [if_neg blank, if_neg blank]
          by_cases deep : outer.length < (line.takeWhile (· == '\t')).length
          · rw [if_pos deep, if_pos deep]
            rfl
          · rw [if_neg deep, if_neg deep]
            have le := Nat.le_of_not_lt deep
            generalize (line.takeWhile (· == '\t')).length = depth at le
            simp only [ih, List.length_cons, length_closeTo node le]
            cases entries (row + 1) (depth + 1) lines with
            | error _ => rfl
            | ok found =>
              have opened := graft_place (Entry.read depth row (c :: rest)) node le
              exact congrArg Except.ok (opened (found.foldr place [])).symm

/-- **Reading.** The tree of an outline is the forest of its entries. -/
theorem read_eq (text : String) :
    read text = (do
      let found ← entries 1 0 (pieces '\n' text.toList)
      return Node.root (forest found)) :=
  readLines_eq 1 (Node.root []) [] (pieces '\n' text.toList)

end Outline

end TreeScheme
