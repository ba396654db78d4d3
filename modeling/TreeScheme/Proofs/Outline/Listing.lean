import TreeScheme.Proofs.Outline.Placing
import TreeScheme.Proofs.Result
import TreeScheme.Proofs.Text.Trimming

/-!
# Trees as outlines

A tree is written as an outline by listing its nodes from top to bottom, one line to a node, with a
tab for every level. `Outline.listing` is that list of entries and `Entry.line` is the line of one.
This module is about the two ways between trees and outlines:

* every tree that is read from an outline is tidy: its tags are words, and its arguments are trimmed
  texts of one line (`tidy_of_read`);
* every tidy tree is read back from the outline that it is written as (`read_of_listing`).

Blanks at the ends of lines do not change what is read (`entries_padded`).

**Rows.** What is read back has rows of its own, because blank lines are not written. So trees are
compared without their rows. Hanging entries under each other does not look at rows, which is what
`withoutRows_forest` says; it is the only place where rows have to be followed.
-/

namespace TreeScheme

open Text (Starts Ends Trimmed isBlank pieces trim trimEnd trimStart)

/-! ## Rows -/

namespace Node

mutual

/-- A tree without the rows of its nodes. -/
def withoutRows : Node → Node
  | ⟨tag, argument, children, _⟩ => ⟨tag, argument, withoutRowsAll children, 0⟩

/-- Trees without the rows of their nodes. -/
def withoutRowsAll : List Node → List Node
  | [] => []
  | node :: nodes => node.withoutRows :: withoutRowsAll nodes

end

theorem withoutRowsAll_eq_map (nodes : List Node) :
    withoutRowsAll nodes = nodes.map withoutRows := by
  induction nodes with
  | nil => rfl
  | cons node nodes ih => rw [withoutRowsAll, ih, List.map_cons]

end Node

namespace Outline

/-- An entry without its row. -/
def Entry.withoutRow (entry : Entry) : Entry :=
  { entry with row := 0 }

/-- Hanging an entry over nodes does not look at rows. -/
theorem withoutRows_place (entry : Entry) (placed : List (Nat × Node)) :
    (place entry placed).map (Prod.map id Node.withoutRows) =
      place entry.withoutRow (placed.map (Prod.map id Node.withoutRows)) := by
  simp only [place, List.map_cons, Prod.map_apply, id_eq, Node.withoutRows,
    Node.withoutRowsAll_eq_map, List.takeWhile_map, List.dropWhile_map, List.map_map,
    Entry.withoutRow]
  rfl

/-- The forest of some entries, without rows, is that of the entries without rows. -/
theorem withoutRows_forest (entries : List Entry) :
    (forest entries).map Node.withoutRows = forest (entries.map Entry.withoutRow) := by
  have placed : (entries.foldr place []).map (Prod.map id Node.withoutRows) =
      (entries.map Entry.withoutRow).foldr place [] := by
    induction entries with
    | nil => rfl
    | cons entry entries ih =>
      rw [List.foldr_cons, withoutRows_place, ih, List.map_cons, List.foldr_cons]
  rw [forest, forest, ← placed, List.map_map, List.map_map]
  rfl

/-! ## Listing -/

mutual

/-- The entries of a tree whose top is at some depth. -/
def listing (depth : Nat) : Node → List Entry
  | ⟨tag, argument, children, row⟩ =>
    ⟨depth, row, tag, Node.rawArgument? ⟨tag, argument, children, row⟩⟩ ::
      listingAll (depth + 1) children

/-- The entries of trees whose tops are at some depth. -/
def listingAll (depth : Nat) : List Node → List Entry
  | [] => []
  | node :: nodes => listing depth node ++ listingAll depth nodes

end

/-- The line of an entry. -/
def Entry.line (entry : Entry) : String :=
  let head := "".pushn '\t' entry.depth ++ entry.tag
  match entry.argument with
  | some text => head ++ " " ++ text
  | none => head

/-- The text of some entries. -/
def textOf (entries : List Entry) : String :=
  String.join (entries.map fun entry => entry.line ++ "\n")

/-! ## Tidy trees -/

/-- A text is a word: it has characters, and none of them is a blank. -/
def IsWord (text : String) : Prop :=
  text.toList ≠ [] ∧ ∀ c ∈ text.toList, isBlank c = false

/-- A text is a trimmed line. -/
def IsLine (text : String) : Prop :=
  Trimmed text.toList ∧ '\n' ∉ text.toList

/-- An entry is tidy: its tag is a word, and its argument is a trimmed line. -/
structure Entry.Tidy (entry : Entry) : Prop where
  tag : IsWord entry.tag
  argument : ∀ text, entry.argument = some text → IsLine text

end Outline

/-- A tree is tidy: tags are words, and arguments are trimmed lines. -/
inductive Node.Tidy : Node → Prop where
  | plain {tag children row} :
    Outline.IsWord tag →
    (∀ child ∈ children, Tidy child) →
    Tidy ⟨tag, none, children, row⟩
  | argument {tag text children row} :
    Outline.IsWord tag →
    Outline.IsLine text →
    (∀ child ∈ children, Tidy child) →
    Tidy ⟨tag, some (.raw text), children, row⟩

namespace Outline

mutual

/-- The entries of a tidy tree are tidy. -/
theorem tidy_of_mem_listing (depth : Nat) : ∀ {node : Node}, node.Tidy →
    ∀ entry ∈ listing depth node, entry.Tidy
  | ⟨tag, argument, children, row⟩, tidy => by
    intro entry mem
    rw [listing] at mem
    have inside : ∀ child ∈ children, child.Tidy := by
      cases tidy <;> assumption
    rcases List.mem_cons.mp mem with rfl | mem
    · cases tidy with
      | plain word _ => exact ⟨word, fun _ none => by cases none⟩
      | argument word line _ =>
        refine ⟨word, fun text same => ?_⟩
        cases same
        exact line
    · exact tidy_of_mem_listingAll (depth + 1) inside entry mem

theorem tidy_of_mem_listingAll (depth : Nat) : ∀ {nodes : List Node}, (∀ node ∈ nodes, node.Tidy) →
    ∀ entry ∈ listingAll depth nodes, entry.Tidy
  | [], _ => fun _ mem => absurd mem List.not_mem_nil
  | node :: nodes, tidy => by
    intro entry mem
    rw [listingAll] at mem
    rcases List.mem_append.mp mem with here | later
    · exact tidy_of_mem_listing depth (tidy node List.mem_cons_self) entry here
    · exact tidy_of_mem_listingAll depth
        (fun other mem => tidy other (List.mem_cons_of_mem _ mem)) entry later

end

/-! ## Depths -/

/-- Every entry is at most one level deeper than the one before it, and the first one is at most
`allowed` levels deep. -/
def Chained (allowed : Nat) : List Entry → Prop
  | [] => True
  | entry :: entries => entry.depth ≤ allowed ∧ Chained (entry.depth + 1) entries

/-- Only the first entry depends on what is allowed. -/
theorem Chained.mono {allowed more : Nat} {entries : List Entry} (chained : Chained allowed entries)
    (le : allowed ≤ more) : Chained more entries := by
  cases entries with
  | nil => trivial
  | cons entry entries => exact ⟨Nat.le_trans chained.1 le, chained.2⟩

mutual

/-- A tree may be listed before whatever may follow its top. -/
theorem chained_listing {depth allowed : Nat} {more : List Entry} : ∀ {node : Node},
    depth ≤ allowed → Chained (depth + 1) more → Chained allowed (listing depth node ++ more)
  | ⟨tag, argument, children, row⟩, le, chained => by
    rw [listing]
    exact ⟨le, chained_listingAll (Nat.le_refl _) chained⟩

theorem chained_listingAll {depth allowed : Nat} {more : List Entry} : ∀ {nodes : List Node},
    depth ≤ allowed → Chained depth more → Chained allowed (listingAll depth nodes ++ more)
  | [], le, chained => chained.mono le
  | node :: nodes, le, chained => by
    rw [listingAll, List.append_assoc]
    exact chained_listing le (chained_listingAll (Nat.le_succ _) chained)

end

/-- Nothing at the front of placed nodes is deeper than `depth`. -/
def Shallow (depth : Nat) (placed : List (Nat × Node)) : Prop :=
  ∀ top ∈ placed.head?, top.1 ≤ depth

/-- An entry takes exactly its own children. -/
theorem place_children {entry : Entry} {children : List Node} {placed : List (Nat × Node)}
    (shallow : Shallow entry.depth placed) :
    place entry (children.map (entry.depth + 1, ·) ++ placed) =
      (entry.depth, ⟨entry.tag, entry.argument.map .raw, children, entry.row⟩) :: placed := by
  have stops : placed.takeWhile (entry.depth < ·.1) = [] ∧
      placed.dropWhile (entry.depth < ·.1) = placed := by
    cases placed with
    | nil => exact ⟨rfl, rfl⟩
    | cons top placed =>
      have : ¬entry.depth < top.1 := Nat.not_lt.mpr (shallow top rfl)
      simp [this]
  have deeper : ∀ child ∈ children.map (entry.depth + 1, ·), decide (entry.depth < child.1) := by
    intro child mem
    obtain ⟨node, _, rfl⟩ := List.mem_map.mp mem
    simp
  rw [place, List.takeWhile_append_of_pos deeper, List.dropWhile_append_of_pos deeper, stops.1,
    stops.2, List.append_nil, List.map_map]
  simp [Function.comp_def]

mutual

/-- Hanging the entries of a tidy tree under each other gives the tree. -/
theorem foldr_listing {depth : Nat} {placed : List (Nat × Node)} : ∀ {node : Node}, node.Tidy →
    Shallow depth placed → (listing depth node).foldr place placed = (depth, node) :: placed
  | ⟨tag, argument, children, row⟩, tidy, shallow => by
    have inside : ∀ child ∈ children, child.Tidy := by
      cases tidy <;> assumption
    have raw : (Node.rawArgument? ⟨tag, argument, children, row⟩).map .raw = argument := by
      cases tidy <;> rfl
    have deeper : Shallow (depth + 1) placed := fun top mem => Nat.le_succ_of_le (shallow top mem)
    rw [listing, List.foldr_cons, foldr_listingAll inside deeper, place_children shallow, raw]

theorem foldr_listingAll {depth : Nat} {placed : List (Nat × Node)} : ∀ {nodes : List Node},
    (∀ node ∈ nodes, node.Tidy) → Shallow depth placed →
    (listingAll depth nodes).foldr place placed = nodes.map (depth, ·) ++ placed
  | [], _, _ => rfl
  | node :: nodes, tidy, shallow => by
    have rest := foldr_listingAll (fun other mem => tidy other (List.mem_cons_of_mem _ mem)) shallow
    have tops : Shallow depth (nodes.map (depth, ·) ++ placed) := by
      cases nodes with
      | nil => exact shallow
      | cons next nodes =>
        intro top mem
        cases mem
        exact Nat.le_refl _
    rw [listingAll, List.foldr_append, rest, foldr_listing (tidy node List.mem_cons_self) tops]
    rfl

end

/-- The forest of a listing is what was listed. -/
theorem forest_listingAll {nodes : List Node} (tidy : ∀ node ∈ nodes, node.Tidy) :
    forest (listingAll 0 nodes) = nodes := by
  have shallow : Shallow 0 [] := fun _ mem => by cases mem
  rw [forest, foldr_listingAll tidy shallow, List.append_nil, List.map_map]
  exact List.map_id nodes

/-! ## Lines -/

namespace Entry

/-- The line of an entry behind its tabs. -/
def body (entry : Entry) : List Char :=
  entry.tag.toList ++ match entry.argument with
    | some text => ' ' :: text.toList
    | none => []

theorem toList_pushn (c : Char) (n : Nat) : ("".pushn c n).toList = List.replicate n c := by
  induction n with
  | zero => rfl
  | succ n ih =>
    rw [String.pushn_eq_repeat_push] at ih ⊢
    rw [Nat.repeat, String.toList_push, ih, List.replicate_succ']

/-- A line is tabs and what is behind them. -/
theorem toList_line (entry : Entry) :
    entry.line.toList = List.replicate entry.depth '\t' ++ entry.body := by
  obtain ⟨depth, row, tag, argument⟩ := entry
  cases argument with
  | none => simp [line, body, toList_pushn]
  | some text => simp [line, body, toList_pushn]

variable {entry : Entry}

/-- Behind its tabs a line starts with its tag. -/
theorem Tidy.starts (tidy : entry.Tidy) : Starts entry.body :=
  (Text.trimmed_of_all tidy.tag.1 tidy.tag.2).starts.append _

/-- A line ends with its argument, or with its tag if it has none. -/
theorem Tidy.ends (tidy : entry.Tidy) : Ends entry.body := by
  obtain ⟨depth, row, tag, argument⟩ := entry
  cases argument with
  | none =>
    rw [body, List.append_nil]
    exact (Text.trimmed_of_all tidy.tag.1 tidy.tag.2).ends
  | some text => exact ((tidy.argument text rfl).1.ends.append [' ']).append _

/-- The line of a tidy entry is one line. -/
theorem Tidy.newline_not_mem (tidy : entry.Tidy) : '\n' ∉ entry.line.toList := by
  have tag : '\n' ∉ entry.tag.toList := fun mem => by
    cases tidy.tag.2 '\n' mem
  rw [toList_line, List.mem_append, not_or, body, List.mem_append, not_or]
  refine ⟨fun mem => ?_, tag, ?_⟩
  · cases List.eq_of_mem_replicate mem
  · have line := tidy.argument
    cases argument : entry.argument with
    | none => exact List.not_mem_nil
    | some text =>
      rw [List.mem_cons, not_or]
      exact ⟨by decide, (line text argument).2⟩

/-- What is behind the tabs of a tidy entry is read as the entry. -/
theorem Tidy.read_body (tidy : entry.Tidy) (depth row : Nat) :
    read depth row entry.body = { entry with depth, row } := by
  have solid : ∀ c ∈ entry.tag.toList, (!isBlank c) = true := by
    intro c mem
    rw [tidy.tag.2 c mem]
    rfl
  rw [read, Text.trimEnd_of_ends tidy.ends, body, List.takeWhile_append_of_pos solid,
    List.dropWhile_append_of_pos solid]
  have line := tidy.argument
  cases argument : entry.argument with
  | none => simp [Text.trimStart]
  | some text =>
    have trimmed := (line text argument).1
    have blank : isBlank ' ' = true := by decide
    have left : trimStart (' ' :: text.toList) = text.toList := by
      rw [trimStart, List.dropWhile_cons_of_pos blank]
      exact Text.trimStart_of_starts trimmed.starts
    simp [blank, left, trimmed.starts.ne_nil]

end Entry

/-- The line of a tidy entry that is not too deep is read as the entry. -/
theorem entries_line {entry : Entry} (tidy : entry.Tidy) {row allowed : Nat}
    (le : entry.depth ≤ allowed) (lines : List (List Char)) :
    entries row allowed (entry.line.toList :: lines) = (do
      let rest ← entries (row + 1) (entry.depth + 1) lines
      return { entry with row } :: rest) := by
  obtain ⟨c, rest, starts, solid⟩ := tidy.starts
  have noTab : (c == '\t') = false := by
    cases same : c == '\t' with
    | false => rfl
    | true =>
      rw [beq_iff_eq.mp same] at solid
      cases solid
  have tabs : ∀ t ∈ List.replicate entry.depth '\t', (t == '\t') = true := by
    intro t mem
    rw [List.eq_of_mem_replicate mem]
    rfl
  have body : (entry.line.toList).dropWhile (· == '\t') = c :: rest := by
    rw [Entry.toList_line, List.dropWhile_append_of_pos tabs, starts,
      List.dropWhile_cons_of_neg (by simp [noTab])]
  have depth : ((entry.line.toList).takeWhile (· == '\t')).length = entry.depth := by
    rw [Entry.toList_line, List.takeWhile_append_of_pos tabs, starts,
      List.takeWhile_cons_of_neg (by simp [noTab]), List.append_nil, List.length_replicate]
  rw [entries]
  simp only [body, depth]
  rw [← starts, tidy.read_body]
  simp [starts, solid, Nat.not_lt.mpr le]

/-- Tidy entries that follow each other are read from their lines. -/
theorem entries_lines (row : Nat) {listed : List Entry} {allowed : Nat}
    (chained : Chained allowed listed) (tidy : ∀ entry ∈ listed, entry.Tidy) :
    ∃ found, entries row allowed (listed.map (·.line.toList) ++ [[]]) = .ok found ∧
      found.map Entry.withoutRow = listed.map Entry.withoutRow := by
  induction listed generalizing allowed row with
  | nil => exact ⟨[], rfl, rfl⟩
  | cons entry listed ih =>
    obtain ⟨found, read, same⟩ := ih (row + 1) chained.2
      fun other mem => tidy other (List.mem_cons_of_mem _ mem)
    refine ⟨{ entry with row } :: found, ?_, ?_⟩
    · rw [List.map_cons, List.cons_append, entries_line (tidy entry List.mem_cons_self) chained.1,
        read]
      rfl
    · rw [List.map_cons, List.map_cons, same]
      rfl

/-- **Tidy trees are read back.** The outline of tidy trees is read as these trees, up to rows. -/
theorem read_of_listing {nodes : List Node} (tidy : ∀ node ∈ nodes, node.Tidy) :
    ∃ tree, read (textOf (listingAll 0 nodes)) = .ok tree ∧
      tree.children.map Node.withoutRows = nodes.map Node.withoutRows := by
  have tidyEntries := tidy_of_mem_listingAll 0 tidy
  have chained : Chained 0 (listingAll 0 nodes ++ []) :=
    chained_listingAll (Nat.le_refl 0) trivial
  rw [List.append_nil] at chained
  obtain ⟨found, entered, same⟩ := entries_lines 1 chained tidyEntries
  have cut : pieces '\n' (textOf (listingAll 0 nodes)).toList =
      (listingAll 0 nodes).map (·.line.toList) ++ [[]] := by
    have lines : (textOf (listingAll 0 nodes)).toList =
        ((listingAll 0 nodes).map (·.line.toList)).flatMap (· ++ ['\n']) := by
      simp [textOf, String.toList_join, List.flatMap_map]
    rw [lines]
    refine Text.pieces_flatMap fun line mem => ?_
    obtain ⟨entry, listed, rfl⟩ := List.mem_map.mp mem
    exact (tidyEntries entry listed).newline_not_mem
  refine ⟨Node.root (forest found), ?_, ?_⟩
  · rw [read_eq, cut, entered]
    rfl
  · rw [Node.root, withoutRows_forest, same, ← withoutRows_forest, forest_listingAll tidy]

/-! ## What is read is tidy -/

/-- What stands behind the tabs of a line that is not blank is read as a tidy entry. -/
theorem Entry.tidy_read {body : List Char} (starts : Starts body) (line : '\n' ∉ body)
    (depth row : Nat) : (Entry.read depth row body).Tidy := by
  obtain ⟨blanks, _, whole⟩ := Text.exists_trimEnd_append body
  -- The tag is not cut away: the line starts with it.
  have kept := starts.trimEnd
  have ends : Ends (trimEnd body) := Text.ends_trimEnd kept.ne_nil
  have line : '\n' ∉ trimEnd body := fun mem => line (whole ▸ List.mem_append_left _ mem)
  constructor
  · obtain ⟨c, more, kept, solid⟩ := kept
    constructor
    · simp [Entry.read, kept, solid]
    · intro d mem
      rw [Entry.read, String.toList_ofList] at mem
      simpa using List.mem_takeWhile_imp mem
  · intro text same
    simp only [Entry.read] at same
    split at same
    · cases same
    · rename_i some
      cases same
      rw [IsLine, String.toList_ofList]
      have nonempty := fun none => some (List.isEmpty_iff.mpr none)
      obtain ⟨between, inside⟩ :=
        Text.exists_append_trimStart ((trimEnd body).dropWhile (!isBlank ·))
      have split : trimEnd body = (trimEnd body).takeWhile (!isBlank ·) ++ between ++
          trimStart ((trimEnd body).dropWhile (!isBlank ·)) := by
        rw [List.append_assoc, ← inside, List.takeWhile_append_dropWhile]
      refine ⟨⟨Text.starts_trimStart nonempty, ?_⟩, fun mem => line ?_⟩
      · rw [split] at ends
        exact ends.of_append nonempty
      · rw [split]
        exact List.mem_append_right _ mem

/-- The entries of lines are tidy. -/
theorem tidy_of_entries {lines : List (List Char)} {row allowed : Nat} {found : List Entry}
    (read : entries row allowed lines = .ok found) (single : ∀ line ∈ lines, '\n' ∉ line) :
    ∀ entry ∈ found, entry.Tidy := by
  induction lines generalizing row allowed found with
  | nil =>
    cases read
    exact fun _ mem => absurd mem List.not_mem_nil
  | cons line lines ih =>
    have later : ∀ other ∈ lines, '\n' ∉ other := fun other mem =>
      single other (List.mem_cons_of_mem _ mem)
    rw [entries] at read
    split at read
    · exact ih read later
    · rename_i c rest body
      split at read
      · exact ih read later
      · split at read
        · cases read
        · split at read
          · cases read
          · rename_i solid _
            obtain ⟨others, found, same⟩ := bind_eq_ok.mp read
            cases same
            intro entry mem
            rcases List.mem_cons.mp mem with rfl | mem
            · refine Entry.tidy_read ⟨c, rest, body, by simpa using solid⟩ ?_ _ _
              exact fun mem => single line List.mem_cons_self
                ((List.dropWhile_sublist _).subset mem)
            · exact ih found later entry mem

/-- Hanging a tidy entry over tidy trees gives tidy trees. -/
theorem tidy_place {entry : Entry} (tidy : entry.Tidy) {placed : List (Nat × Node)}
    (all : ∀ top ∈ placed, top.2.Tidy) : ∀ top ∈ place entry placed, top.2.Tidy := by
  intro top mem
  rcases List.mem_cons.mp mem with rfl | mem
  · have inside : ∀ child ∈ (placed.takeWhile (entry.depth < ·.1)).map (·.2), child.Tidy := by
      intro child mem
      obtain ⟨top, taken, rfl⟩ := List.mem_map.mp mem
      exact all top ((List.takeWhile_sublist _).subset taken)
    cases argument : entry.argument with
    | none => exact .plain tidy.tag inside
    | some text => exact .argument tidy.tag (tidy.argument text argument) inside
  · exact all top ((List.dropWhile_sublist _).subset mem)

/-- The forest of tidy entries is tidy. -/
theorem tidy_forest {found : List Entry} (tidy : ∀ entry ∈ found, entry.Tidy) :
    ∀ node ∈ forest found, node.Tidy := by
  have placed : ∀ top ∈ found.foldr place [], top.2.Tidy := by
    induction found with
    | nil => exact fun _ mem => absurd mem List.not_mem_nil
    | cons entry found ih =>
      exact tidy_place (tidy entry List.mem_cons_self)
        (ih fun other mem => tidy other (List.mem_cons_of_mem _ mem))
  intro node mem
  obtain ⟨top, here, rfl⟩ := List.mem_map.mp mem
  exact placed top here

/-- **What is read is tidy.** Every tree that is read from an outline is tidy. -/
theorem tidy_of_read {text : String} {tree : Node} (outlined : read text = .ok tree) :
    ∀ node ∈ tree.children, node.Tidy := by
  rw [read_eq] at outlined
  obtain ⟨found, entered, same⟩ := bind_eq_ok.mp outlined
  cases same
  exact tidy_forest (tidy_of_entries entered fun line mem => Text.not_mem_of_mem_pieces mem)

/-! ## Blanks at the end of lines -/

/-- Blanks at the end of a line do not matter. -/
theorem entries_append (row allowed : Nat) (line : List Char) {blanks : List Char}
    (blank : ∀ c ∈ blanks, isBlank c = true) (lines : List (List Char)) :
    entries row allowed ((line ++ blanks) :: lines) = entries row allowed (line :: lines) := by
  have all : blanks.all isBlank = true := List.all_eq_true.mpr blank
  have tabs : ∀ c ∈ line.takeWhile (· == '\t'), (c == '\t') = true :=
    fun c mem => List.mem_takeWhile_imp (p := (· == '\t')) mem
  have split : line ++ blanks =
      line.takeWhile (· == '\t') ++ (line.dropWhile (· == '\t') ++ blanks) := by
    rw [← List.append_assoc, List.takeWhile_append_dropWhile]
  rw [entries, entries, split]
  cases body : line.dropWhile (· == '\t') with
  | nil =>
    -- The line is tabs only, and stays blank.
    have skipped : ((blanks.dropWhile (· == '\t')).all isBlank) = true :=
      List.all_eq_true.mpr fun c mem => blank c ((List.dropWhile_sublist _).subset mem)
    rw [List.nil_append, List.dropWhile_append_of_pos tabs]
    split
    · rfl
    · rename_i c rest behind
      rw [behind] at skipped
      rw [behind, if_pos skipped]
  | cons c cs =>
    have noTab : ¬(c == '\t') = true := by
      have head := List.head?_dropWhile_not (· == '\t') line
      rw [body] at head
      simpa using head
    have behind : (c :: (cs ++ blanks)).dropWhile (· == '\t') = c :: (cs ++ blanks) :=
      List.dropWhile_cons_of_neg noTab
    have before : (c :: (cs ++ blanks)).takeWhile (· == '\t') = [] :=
      List.takeWhile_cons_of_neg noTab
    rw [List.dropWhile_append_of_pos tabs, List.takeWhile_append_of_pos tabs, List.cons_append,
      behind, before, List.append_nil]
    simp only [Entry.read, ← List.cons_append, Text.trimEnd_append blank, List.all_append, all,
      Bool.and_true]

/-- Blanks at the ends of lines do not matter. -/
theorem entries_padded (row allowed : Nat) {lines cores : List (List Char)}
    (padded : List.Forall₂ (fun line core => ∃ blanks, (∀ c ∈ blanks, isBlank c = true) ∧
      line = core ++ blanks) lines cores) :
    entries row allowed lines = entries row allowed cores := by
  induction padded generalizing row allowed with
  | nil => rfl
  | @cons line core lines cores here _ ih =>
    obtain ⟨blanks, blank, rfl⟩ := here
    rw [entries_append row allowed core blank, entries, entries]
    simp only [ih]

end Outline

end TreeScheme
