import TreeScheme.Proofs.Outline.Listing

/-!
# What an outline says, line by line

Reading an outline comes to reading its entries and placing them under each other (`read_eq`). This
module says what comes of it in terms of the lines alone. A line that is not blank has a number of
tabs, a first word and a remainder (`Line.entry`), and it fits behind the lines before it or is
refused (`Line.Fits`, `Line.Refused`).

`read_exact` proves that reading is exact: a text is read exactly if every line fits, the nodes of
the tree in document order are the lines in order, and otherwise the error is that of the first line
that does not fit.

**Carriage returns.** Lines are cut at line feeds. A carriage return before a line feed is a blank
at the end of a line, and says nothing.
-/

namespace TreeScheme.Outline

open Text (Starts isBlank pieces trim)

/-! ## Lines -/

/-- A line of a text, and its number. -/
structure Line where
  row : Nat
  text : List Char

namespace Line

/-- How many tabs a line starts with. -/
def tabs (line : Line) : Nat :=
  (line.text.takeWhile (· == '\t')).length

/-- What stands behind these tabs. -/
def body (line : Line) : List Char :=
  line.text.dropWhile (· == '\t')

/-- Whether there is nothing on a line. -/
def isVoid (line : Line) : Bool :=
  line.text.all isBlank

/-- The first word of a line. -/
def word (line : Line) : String :=
  .ofList (line.body.takeWhile (!isBlank ·))

/-- What stands behind the first word, without blanks at either end, unless it is empty. -/
def remainder (line : Line) : Option String :=
  let rest := trim (line.body.dropWhile (!isBlank ·))
  if rest.isEmpty then none else some (.ofList rest)

/-- What a line says. -/
def entry (line : Line) : Entry :=
  ⟨line.tabs, line.row, line.word, line.remainder⟩

/-- A line may stand where up to `allowed` tabs are allowed: there are no more, and no other blank
stands before its first word. -/
def Fits (line : Line) (allowed : Nat) : Prop :=
  Starts line.body ∧ line.tabs ≤ allowed

/-- A line is refused where up to `allowed` tabs are allowed. Blanks before the first word count
before a missing level. -/
inductive Refused (line : Line) (allowed : Nat) : OutlineError → Prop where
  | spaces : ¬Starts line.body → Refused line allowed (.spaceIndentation line.row)
  | deep : Starts line.body → allowed < line.tabs →
    Refused line allowed (.tooDeep line.row line.tabs allowed)

end Line

/-- The lines among some texts that are not blank, numbered from `row` on. -/
def linesFrom (row : Nat) (texts : List (List Char)) : List Line :=
  ((texts.zipIdx row).map fun (text, row) => ⟨row, text⟩).filter (!·.isVoid)

/-- The lines of a text that are not blank, numbered from 1 on. -/
def lines (text : String) : List Line :=
  linesFrom 1 (pieces '\n' text.toList)

/-- How many tabs are allowed behind some lines: one more than the last of them has. At the start,
`first` are allowed. -/
def allowedAfter (first : Nat) (before : List Line) : Nat :=
  (before.getLast?.map (·.tabs + 1)).getD first

/-- Every line fits behind the lines before it. -/
def Nested (first : Nat) (lines : List Line) : Prop :=
  ∀ before line after, lines = before ++ line :: after → line.Fits (allowedAfter first before)

theorem allowedAfter_cons (first : Nat) (line : Line) (before : List Line) :
    allowedAfter first (line :: before) = allowedAfter (line.tabs + 1) before := by
  rw [allowedAfter, allowedAfter, List.getLast?_cons]
  cases before.getLast? <;> rfl

/-- Nesting goes from line to line. -/
theorem nested_cons {first : Nat} {line : Line} {lines : List Line} :
    Nested first (line :: lines) ↔ line.Fits first ∧ Nested (line.tabs + 1) lines := by
  constructor
  · intro nested
    refine ⟨nested [] line lines rfl, fun before other after split => ?_⟩
    rw [← allowedAfter_cons first]
    exact nested (line :: before) other after (congrArg (line :: ·) split)
  · rintro ⟨fits, nested⟩ before other after split
    cases before with
    | nil =>
      cases split
      exact fits
    | cons here before =>
      cases split
      rw [allowedAfter_cons]
      exact nested before other after rfl

theorem nested_nil (first : Nat) : Nested first [] := by
  intro before line after split
  simp at split

/-! ## One line -/

/-- A line is read as what it says. -/
theorem Line.read_body (line : Line) :
    Entry.read line.tabs line.row line.body = line.entry := by
  simp only [Entry.read, Text.takeWhile_trimEnd, Text.trimStart_dropWhile_trimEnd]
  rfl

/-- The tabs at the start of a line do not make it less blank. -/
theorem Line.isVoid_eq_all_body (line : Line) : line.isVoid = line.body.all isBlank := by
  have tabs : (line.text.takeWhile (· == '\t')).all isBlank = true := by
    refine List.all_eq_true.mpr fun c mem => ?_
    rw [beq_iff_eq.mp (List.mem_takeWhile_imp (p := (· == '\t')) mem)]
    decide
  conv_lhs => rw [isVoid, ← List.takeWhile_append_dropWhile (p := (· == '\t')) (l := line.text)]
  rw [List.all_append, tabs, Bool.true_and, body]

/-- A line that fits is not refused. -/
theorem Line.Fits.not_refused {line : Line} {allowed : Nat} (fits : line.Fits allowed)
    (error : OutlineError) : ¬line.Refused allowed error := by
  rintro (indented | ⟨_, deep⟩)
  · exact indented fits.1
  · exact Nat.not_lt.mpr fits.2 deep

section Step

variable {row allowed : Nat} {text : List Char}

/-- A blank line stands for nothing. -/
theorem entries_of_void (void : Line.isVoid ⟨row, text⟩ = true) (texts : List (List Char)) :
    entries row allowed (text :: texts) = entries (row + 1) allowed texts := by
  rw [Line.isVoid_eq_all_body, Line.body] at void
  rw [entries]
  split
  · rfl
  · rename_i c rest body
    rw [body] at void
    rw [body, if_pos void]

/-- A line that fits is read, and decides how many tabs are allowed next. -/
theorem entries_of_fits (fits : Line.Fits ⟨row, text⟩ allowed) (texts : List (List Char)) :
    entries row allowed (text :: texts) =
      (entries (row + 1) (Line.tabs ⟨row, text⟩ + 1) texts).map (Line.entry ⟨row, text⟩ :: ·) := by
  obtain ⟨⟨c, rest, body, solid⟩, le⟩ := fits
  have shallow : ¬allowed < (text.takeWhile (· == '\t')).length := Nat.not_lt.mpr le
  rw [← Line.read_body, body, entries]
  rw [Line.body] at body
  simp only [body, List.all_cons, solid, Bool.false_and, Bool.false_eq_true, if_false, shallow]
  rw [Line.tabs]
  cases entries (row + 1) ((text.takeWhile (· == '\t')).length + 1) texts <;> rfl

/-- A line that is not blank and is refused ends the reading. -/
theorem entries_of_refused (solid : Line.isVoid ⟨row, text⟩ = false) {error : OutlineError}
    (refused : Line.Refused ⟨row, text⟩ allowed error) (texts : List (List Char)) :
    entries row allowed (text :: texts) = .error error := by
  rw [Line.isVoid_eq_all_body] at solid
  rw [entries]
  cases body : Line.body ⟨row, text⟩ with
  | nil => simp [body] at solid
  | cons c rest =>
    have left : text.dropWhile (· == '\t') = c :: rest := body
    rw [body] at solid
    simp only [left, solid, Bool.false_eq_true, if_false]
    cases refused with
    | spaces indented =>
      have blank : isBlank c = true := by
        by_contra solid
        exact indented ⟨c, rest, body, Bool.eq_false_iff.mpr solid⟩
      rw [if_pos blank]
    | deep starts deep =>
      obtain ⟨d, more, same, solid⟩ := starts
      cases body.symm.trans same
      have deep : allowed < (text.takeWhile (· == '\t')).length := deep
      rw [if_neg (by simp [solid]), if_pos deep]
      rfl

end Step

/-- A line that does not fit is refused. -/
theorem Line.fits_or_refused (line : Line) (allowed : Nat) :
    line.Fits allowed ∨ ∃ error, line.Refused allowed error := by
  by_cases starts : Starts line.body
  · by_cases le : line.tabs ≤ allowed
    · exact .inl ⟨starts, le⟩
    · exact .inr ⟨_, .deep starts (Nat.lt_of_not_le le)⟩
  · exact .inr ⟨_, .spaces starts⟩

/-! ## All lines -/

/-- What comes of reading lines: what they say, if every line fits, and otherwise the error of the
first line that does not. -/
inductive Verdict (first : Nat) (lines : List Line) : Except OutlineError (List Entry) → Prop where
  | nested : Nested first lines → Verdict first lines (.ok (lines.map Line.entry))
  | refused {error : OutlineError} (before : List Line) (line : Line) (after : List Line) :
    lines = before ++ line :: after →
    Nested first before →
    line.Refused (allowedAfter first before) error →
    Verdict first lines (.error error)

/-- A line that fits stands before what comes of the lines behind it. -/
theorem Verdict.cons {allowed : Nat} {line : Line} {lines : List Line}
    {result : Except OutlineError (List Entry)} (fits : line.Fits allowed)
    (later : Verdict (line.tabs + 1) lines result) :
    Verdict allowed (line :: lines) (result.map (line.entry :: ·)) := by
  cases later with
  | nested nested => exact .nested (nested_cons.mpr ⟨fits, nested⟩)
  | refused before other after split nested refused =>
    refine .refused (line :: before) other after ?_ ?_ ?_
    · rw [split, List.cons_append]
    · exact nested_cons.mpr ⟨fits, nested⟩
    · rwa [allowedAfter_cons]

theorem linesFrom_cons (row : Nat) (text : List Char) (texts : List (List Char)) :
    linesFrom row (text :: texts) =
      if Line.isVoid ⟨row, text⟩ then linesFrom (row + 1) texts
      else ⟨row, text⟩ :: linesFrom (row + 1) texts := by
  rw [linesFrom, List.zipIdx_cons, List.map_cons, List.filter_cons]
  cases Line.isVoid ⟨row, text⟩ <;> rfl

/-- Reading lines goes as the lines that are not blank say. -/
theorem entries_verdict (row allowed : Nat) (texts : List (List Char)) :
    Verdict allowed (linesFrom row texts) (entries row allowed texts) := by
  induction texts generalizing row allowed with
  | nil => exact .nested (nested_nil allowed)
  | cons text texts ih =>
    rw [linesFrom_cons]
    cases void : Line.isVoid ⟨row, text⟩ with
    | true =>
      rw [entries_of_void void]
      exact ih (row + 1) allowed
    | false =>
      rcases Line.fits_or_refused ⟨row, text⟩ allowed with fits | ⟨error, refused⟩
      · rw [entries_of_fits fits]
        exact (ih (row + 1) _).cons fits
      · rw [entries_of_refused void refused]
        exact .refused [] _ _ rfl (nested_nil allowed) refused

/-! ## The tree -/

theorem listingAll_eq_flatMap (depth : Nat) (nodes : List Node) :
    listingAll depth nodes = nodes.flatMap (listing depth) := by
  induction nodes with
  | nil => rfl
  | cons node nodes ih => rw [listingAll, ih, List.flatMap_cons]

/-- The entries of placed nodes. -/
def listed (placed : List (Nat × Node)) : List Entry :=
  placed.flatMap fun top => listing top.1 top.2

/-- Placed nodes never get deeper from left to right, and the first is at most `allowed` levels
deep. -/
def Descending (allowed : Nat) : List (Nat × Node) → Prop
  | [] => True
  | top :: placed => top.1 ≤ allowed ∧ Descending top.1 placed

theorem Descending.mono {allowed more : Nat} {placed : List (Nat × Node)}
    (descending : Descending allowed placed) (le : allowed ≤ more) : Descending more placed := by
  cases placed with
  | nil => trivial
  | cons top placed => exact ⟨Nat.le_trans descending.1 le, descending.2⟩

theorem Descending.le {allowed : Nat} {placed : List (Nat × Node)}
    (descending : Descending allowed placed) : ∀ top ∈ placed, top.1 ≤ allowed := by
  induction placed generalizing allowed with
  | nil => exact fun _ mem => absurd mem List.not_mem_nil
  | cons top placed ih =>
    intro other mem
    rcases List.mem_cons.mp mem with rfl | mem
    · exact descending.1
    · exact Nat.le_trans (ih descending.2 other mem) descending.1

/-- Of nodes that are at most one level below `depth`, those in front that are below it are exactly
one level below it, and those behind them are not below it. -/
theorem Descending.split {depth : Nat} {placed : List (Nat × Node)}
    (descending : Descending (depth + 1) placed) :
    (∀ top ∈ placed.takeWhile (depth < ·.1), top.1 = depth + 1) ∧
      Descending depth (placed.dropWhile (depth < ·.1)) := by
  induction placed with
  | nil => exact ⟨fun _ mem => absurd mem List.not_mem_nil, trivial⟩
  | cons top placed ih =>
    obtain ⟨le, later⟩ := descending
    by_cases below : depth < top.1
    · have level : top.1 = depth + 1 := Nat.le_antisymm le below
      rw [level] at later
      rw [List.takeWhile_cons_of_pos (by simpa using below),
        List.dropWhile_cons_of_pos (by simpa using below)]
      exact ⟨List.forall_mem_cons.mpr ⟨level, (ih later).1⟩, (ih later).2⟩
    · rw [List.takeWhile_cons_of_neg (by simpa using below),
        List.dropWhile_cons_of_neg (by simpa using below)]
      exact ⟨fun _ mem => absurd mem List.not_mem_nil, Nat.le_of_not_lt below, later⟩

/-- Nodes that are all on one level are listed on it. -/
theorem listingAll_of_level {depth : Nat} {placed : List (Nat × Node)}
    (level : ∀ top ∈ placed, top.1 = depth) :
    listingAll depth (placed.map (·.2)) = listed placed := by
  rw [listingAll_eq_flatMap, List.flatMap_map, listed]
  refine List.flatMap_congr fun top mem => ?_
  rw [level top mem]

/-- **One step.** An entry that is placed before nodes comes before their entries, and no node is
deeper than it. -/
theorem place_descending {entry : Entry} {placed : List (Nat × Node)}
    (descending : Descending (entry.depth + 1) placed) :
    Descending entry.depth (place entry placed) ∧
      listed (place entry placed) = entry :: listed placed := by
  obtain ⟨children, after⟩ := descending.split
  refine ⟨⟨Nat.le_refl _, after⟩, ?_⟩
  have raw : ∀ children, Node.rawArgument?
      ⟨entry.tag, entry.argument.map .raw, children, entry.row⟩ = entry.argument := by
    intro children
    cases entry.argument <;> rfl
  rw [place, listed, List.flatMap_cons, listing, raw, listingAll_of_level children,
    List.cons_append, listed, ← List.flatMap_append, List.takeWhile_append_dropWhile, listed]

/-- **All steps.** Entries that follow each other are listed as they were placed. -/
theorem foldr_place_descending {allowed : Nat} {found : List Entry}
    (chained : Chained allowed found) :
    Descending allowed (found.foldr place []) ∧ listed (found.foldr place []) = found := by
  induction found generalizing allowed with
  | nil => exact ⟨trivial, rfl⟩
  | cons entry found ih =>
    obtain ⟨descending, same⟩ := ih chained.2
    obtain ⟨placed, first⟩ := place_descending descending
    exact ⟨placed.mono chained.1, by rw [List.foldr_cons, first, same]⟩

/-- The forest of entries that follow each other is listed as these entries. -/
theorem listingAll_forest {found : List Entry} (chained : Chained 0 found) :
    listingAll 0 (forest found) = found := by
  obtain ⟨descending, same⟩ := foldr_place_descending chained
  have level : ∀ top ∈ found.foldr place [], top.1 = 0 := fun top mem =>
    Nat.le_zero.mp (descending.le top mem)
  rw [forest, listingAll_of_level level, same]

/-- Lines that fit behind each other follow each other as entries. -/
theorem Nested.chained {first : Nat} {lines : List Line} (nested : Nested first lines) :
    Chained first (lines.map Line.entry) := by
  induction lines generalizing first with
  | nil => trivial
  | cons line lines ih =>
    obtain ⟨fits, later⟩ := nested_cons.mp nested
    exact ⟨fits.2, ih later⟩

/-- **Reading is exact.** Whatever the text:

* it is read exactly if every line that is not blank has no other blank behind its tabs, and at most
  one tab more than the line before it;
* the nodes of the tree in document order, each with its depth, row, tag and argument, are then the
  lines that are not blank, each with its number of tabs, its number, its first word and what
  follows the word;
* otherwise the error is that of the first line that does not fit. -/
theorem read_exact (text : String) :
    ((∃ tree, read text = .ok tree) ↔ Nested 0 (lines text)) ∧
      (∀ tree, read text = .ok tree → tree = Node.root tree.children ∧
        listingAll 0 tree.children = (lines text).map Line.entry) ∧
      ∀ error, read text = .error error → ∃ before line after,
        lines text = before ++ line :: after ∧ Nested 0 before ∧
        line.Refused (allowedAfter 0 before) error := by
  have verdict := entries_verdict 1 0 (pieces '\n' text.toList)
  rw [← lines] at verdict
  rw [read_eq]
  generalize entries 1 0 (pieces '\n' text.toList) = result at verdict ⊢
  cases verdict with
  | nested nested =>
    refine ⟨⟨fun _ => nested, fun _ => ⟨_, rfl⟩⟩, fun tree same => ?_, fun error same => ?_⟩
    · cases same
      exact ⟨rfl, listingAll_forest nested.chained⟩
    · cases same
  | @refused error before line after split nested refused =>
    refine ⟨⟨fun accepted => ?_, fun all => ?_⟩, fun tree same => ?_, fun other same => ?_⟩
    · obtain ⟨_, same⟩ := accepted
      cases same
    · exact absurd refused ((all before line after split).not_refused error)
    · cases same
    · cases same
      exact ⟨before, line, after, split, nested, refused⟩

/-- A line with both faults is refused for its blanks. -/
example : read "list\n\t\t item" = .error (.spaceIndentation 2) := by
  rfl

end TreeScheme.Outline
