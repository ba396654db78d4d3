import Mathlib.Data.List.TakeWhile
import TreeScheme.Text.Blank
import TreeScheme.Text.Pieces

/-!
# Trimmed texts and joined lines

What readers of lines and lists hand on is trimmed: it is empty, or it neither starts nor ends with
a blank. Trimming such a text again changes nothing, and blanks around it are what trimming takes
away. Blanks at the end of a text matter neither to its first word nor to what follows the word. The
other half is about cutting: a text joined from parts without the mark is cut into these parts
again.
-/

namespace TreeScheme.Text

/-- A text starts with a character that is no blank. -/
def Starts (cs : List Char) : Prop :=
  ∃ c rest, cs = c :: rest ∧ isBlank c = false

/-- A text ends with a character that is no blank. -/
def Ends (cs : List Char) : Prop :=
  ∃ front c, cs = front ++ [c] ∧ isBlank c = false

/-- A text neither starts nor ends with a blank, and is not empty. -/
structure Trimmed (cs : List Char) : Prop where
  starts : Starts cs
  ends : Ends cs

theorem Starts.ne_nil {cs : List Char} (starts : Starts cs) : cs ≠ [] := by
  obtain ⟨c, rest, rfl, _⟩ := starts
  exact List.cons_ne_nil _ _

theorem Starts.append {cs : List Char} (starts : Starts cs) (more : List Char) :
    Starts (cs ++ more) := by
  obtain ⟨c, rest, rfl, solid⟩ := starts
  exact ⟨c, rest ++ more, rfl, solid⟩

theorem Ends.append {cs : List Char} (ends : Ends cs) (before : List Char) :
    Ends (before ++ cs) := by
  obtain ⟨front, c, rfl, solid⟩ := ends
  exact ⟨before ++ front, c, (List.append_assoc _ _ _).symm, solid⟩

/-- What is left at the end of a text ends like the text. -/
theorem Ends.of_append {front cs : List Char} (ends : Ends (front ++ cs)) (some : cs ≠ []) :
    Ends cs := by
  obtain ⟨before, c, same, solid⟩ := ends
  have split := List.dropLast_concat_getLast some
  rw [← split, ← List.append_assoc] at same
  obtain ⟨_, last⟩ := List.append_inj' same rfl
  rw [last] at split
  exact ⟨cs.dropLast, c, split.symm, solid⟩

/-- A word without blanks is trimmed. -/
theorem trimmed_of_all {cs : List Char} (some : cs ≠ []) (solid : ∀ c ∈ cs, isBlank c = false) :
    Trimmed cs := by
  constructor
  · cases cs with
    | nil => exact absurd rfl some
    | cons c rest => exact ⟨c, rest, rfl, solid c List.mem_cons_self⟩
  · exact ⟨cs.dropLast, cs.getLast some, (List.dropLast_concat_getLast some).symm,
      solid _ (List.getLast_mem some)⟩

/-! ## Trimming -/

theorem trimStart_of_starts {cs : List Char} (starts : Starts cs) : trimStart cs = cs := by
  obtain ⟨c, rest, rfl, solid⟩ := starts
  exact List.dropWhile_cons_of_neg (by simp [solid])

theorem trimEnd_of_ends {cs : List Char} (ends : Ends cs) : trimEnd cs = cs := by
  obtain ⟨front, c, rfl, solid⟩ := ends
  simp [trimEnd, solid]

/-- Trimming takes blanks away from the start. -/
theorem trimStart_append {blanks : List Char} (blank : ∀ c ∈ blanks, isBlank c = true)
    (cs : List Char) : trimStart (blanks ++ cs) = trimStart cs :=
  List.dropWhile_append_of_pos blank

/-- Trimming takes blanks away from the end. -/
theorem trimEnd_append {blanks : List Char} (blank : ∀ c ∈ blanks, isBlank c = true)
    (cs : List Char) : trimEnd (cs ++ blanks) = trimEnd cs := by
  rw [trimEnd, List.reverse_append, List.dropWhile_append_of_pos (by simpa using blank), trimEnd]

/-- Trimming takes away blanks at both ends, and nothing else. -/
theorem trim_padded {before core after : List Char} (blankBefore : ∀ c ∈ before, isBlank c = true)
    (trimmed : Trimmed core) (blankAfter : ∀ c ∈ after, isBlank c = true) :
    trim (before ++ core ++ after) = core := by
  rw [trim, List.append_assoc, trimStart_append blankBefore,
    trimStart_of_starts (trimmed.starts.append after), trimEnd_append blankAfter,
    trimEnd_of_ends trimmed.ends]

/-- Trimming changes nothing in a trimmed text. -/
theorem trim_of_trimmed {cs : List Char} (trimmed : Trimmed cs) : trim cs = cs := by
  rw [trim, trimStart_of_starts trimmed.starts, trimEnd_of_ends trimmed.ends]

/-- What trimming at the start leaves, if anything, starts with no blank. -/
theorem starts_trimStart {cs : List Char} (some : trimStart cs ≠ []) : Starts (trimStart cs) := by
  cases left : trimStart cs with
  | nil => exact absurd left some
  | cons c rest =>
    refine ⟨c, rest, rfl, ?_⟩
    have head := List.head?_dropWhile_not isBlank cs
    rw [show cs.dropWhile isBlank = c :: rest from left] at head
    exact head

/-- What trimming at the end leaves, if anything, ends with no blank. -/
theorem ends_trimEnd {cs : List Char} (some : trimEnd cs ≠ []) : Ends (trimEnd cs) := by
  have reversed : trimStart cs.reverse ≠ [] := by
    intro none
    exact some (congrArg List.reverse none)
  obtain ⟨c, rest, same, solid⟩ := starts_trimStart reversed
  refine ⟨rest.reverse, c, ?_, solid⟩
  rw [trimEnd, show cs.reverse.dropWhile isBlank = c :: rest from same, List.reverse_cons]

/-- Trimming at the end leaves nothing of a text of blanks only. -/
theorem trimEnd_eq_nil {cs : List Char} : trimEnd cs = [] ↔ ∀ c ∈ cs, isBlank c = true := by
  rw [trimEnd, List.reverse_eq_nil_iff, List.dropWhile_eq_nil_iff]
  simp only [List.mem_reverse]

/-- What trimming at the end takes away is blanks. -/
theorem exists_trimEnd_append (cs : List Char) :
    ∃ blanks, (∀ c ∈ blanks, isBlank c = true) ∧ cs = trimEnd cs ++ blanks := by
  refine ⟨(cs.reverse.takeWhile isBlank).reverse, fun c mem => ?_, ?_⟩
  · exact List.mem_takeWhile_imp (List.mem_reverse.mp mem)
  · rw [trimEnd, ← List.reverse_append, List.takeWhile_append_dropWhile, List.reverse_reverse]

/-- Trimming at the start leaves the end of a text. -/
theorem exists_append_trimStart (cs : List Char) : ∃ blanks, cs = blanks ++ trimStart cs :=
  ⟨cs.takeWhile isBlank, List.takeWhile_append_dropWhile.symm⟩

/-- Trimming at the end keeps the start of a text. -/
theorem Starts.trimEnd {cs : List Char} (starts : Starts cs) : Starts (trimEnd cs) := by
  obtain ⟨c, rest, rfl, solid⟩ := starts
  obtain ⟨blanks, _, split⟩ := exists_trimEnd_append (c :: rest)
  cases left : Text.trimEnd (c :: rest) with
  | nil =>
    have blank := trimEnd_eq_nil.mp left c List.mem_cons_self
    rw [solid] at blank
    cases blank
  | cons d more =>
    rw [left, List.cons_append, List.cons.injEq] at split
    exact ⟨d, more, rfl, split.1 ▸ solid⟩

/-- What trimming leaves, if anything, is trimmed. -/
theorem trimmed_trim {cs : List Char} (some : trim cs ≠ []) : Trimmed (trim cs) := by
  have starts : Starts (trimStart cs) := by
    refine starts_trimStart fun none => some ?_
    rw [trim, none]
    rfl
  exact ⟨starts.trimEnd, ends_trimEnd some⟩

/-- What stands at the end of a text without trailing blanks ends with no blank. -/
theorem ends_of_trimEnd_eq_append {cs front rest : List Char} (split : trimEnd cs = front ++ rest)
    (some : rest ≠ []) : Ends rest := by
  have left : trimEnd cs ≠ [] := fun none => some (List.append_eq_nil_iff.mp (split ▸ none)).2
  exact (split ▸ ends_trimEnd left).of_append some

/-- It does not matter at which end blanks are taken away first. -/
theorem trimStart_trimEnd (cs : List Char) : trimStart (trimEnd cs) = trim cs := by
  obtain ⟨blanks, blank, split⟩ := exists_trimEnd_append cs
  have none : blanks.dropWhile isBlank = [] := List.dropWhile_eq_nil_iff.mpr blank
  have start : trimStart cs = trimStart (trimEnd cs ++ blanks) := congrArg trimStart split
  rw [trim, start, trimStart, trimStart, List.dropWhile_append, none]
  split
  · rename_i empty
    exact List.isEmpty_iff.mp empty
  · rename_i some
    obtain ⟨before, inside⟩ := exists_append_trimStart (trimEnd cs)
    have kept := ends_of_trimEnd_eq_append inside fun none => some (List.isEmpty_iff.mpr none)
    rw [trimEnd_append blank]
    exact (trimEnd_of_ends kept).symm

/-! ## The first word -/

/-- Blanks behind a text do not belong to its first word. -/
theorem takeWhile_append_blanks {blanks : List Char} (blank : ∀ c ∈ blanks, isBlank c = true)
    (cs : List Char) : (cs ++ blanks).takeWhile (!isBlank ·) = cs.takeWhile (!isBlank ·) := by
  have none : blanks.takeWhile (!isBlank ·) = [] := by
    cases blanks with
    | nil => rfl
    | cons c blanks => simp [blank c List.mem_cons_self]
  rw [List.takeWhile_append, none, List.append_nil]
  split
  · rename_i whole
    exact ((List.takeWhile_sublist _).eq_of_length whole).symm
  · rfl

/-- Blanks behind a text stay behind what follows its first word. -/
theorem dropWhile_append_blanks {blanks : List Char} (blank : ∀ c ∈ blanks, isBlank c = true)
    (cs : List Char) :
    (cs ++ blanks).dropWhile (!isBlank ·) = cs.dropWhile (!isBlank ·) ++ blanks := by
  have all : blanks.dropWhile (!isBlank ·) = blanks := by
    cases blanks with
    | nil => rfl
    | cons c blanks => simp [blank c List.mem_cons_self]
  rw [List.dropWhile_append, all]
  split
  · rename_i none
    rw [List.isEmpty_iff.mp none, List.nil_append]
  · rfl

/-- A text has the same first word without the blanks at its end. -/
theorem takeWhile_trimEnd (cs : List Char) :
    (trimEnd cs).takeWhile (!isBlank ·) = cs.takeWhile (!isBlank ·) := by
  obtain ⟨blanks, blank, split⟩ := exists_trimEnd_append cs
  calc (trimEnd cs).takeWhile (!isBlank ·)
      = (trimEnd cs ++ blanks).takeWhile (!isBlank ·) := (takeWhile_append_blanks blank _).symm
    _ = cs.takeWhile (!isBlank ·) := by rw [← split]

/-- What follows the first word of a text is trimmed the same without the blanks at the end of the
text. -/
theorem trimStart_dropWhile_trimEnd (cs : List Char) :
    trimStart ((trimEnd cs).dropWhile (!isBlank ·)) = trim (cs.dropWhile (!isBlank ·)) := by
  obtain ⟨blanks, blank, split⟩ := exists_trimEnd_append cs
  have behind : cs.dropWhile (!isBlank ·) = (trimEnd cs).dropWhile (!isBlank ·) ++ blanks := by
    rw [← dropWhile_append_blanks blank, ← split]
  have kept : trimEnd ((trimEnd cs).dropWhile (!isBlank ·)) =
      (trimEnd cs).dropWhile (!isBlank ·) := by
    by_cases none : (trimEnd cs).dropWhile (!isBlank ·) = []
    · rw [none]
      rfl
    · exact trimEnd_of_ends
        (ends_of_trimEnd_eq_append List.takeWhile_append_dropWhile.symm none)
  rw [← trimStart_trimEnd, behind, trimEnd_append blank, kept]

/-! ## Cutting joined texts -/

/-- A text without the mark is one piece. -/
theorem pieces_of_not_mem {mark : Char} {cs : List Char} (absent : mark ∉ cs) :
    pieces mark cs = [cs] := by
  induction cs with
  | nil => rfl
  | cons c cs ih =>
    rw [List.mem_cons, not_or] at absent
    rw [pieces, if_neg (Ne.symm absent.1), ih absent.2]

/-- The first mark ends the first piece. -/
theorem pieces_append {mark : Char} {cs : List Char} (absent : mark ∉ cs) (rest : List Char) :
    pieces mark (cs ++ mark :: rest) = cs :: pieces mark rest := by
  induction cs with
  | nil => simp [pieces]
  | cons c cs ih =>
    rw [List.mem_cons, not_or] at absent
    rw [List.cons_append, pieces, if_neg (Ne.symm absent.1), ih absent.2]

/-- Lines that each end with the mark are cut into these lines and an empty one. -/
theorem pieces_flatMap {mark : Char} {lines : List (List Char)}
    (absent : ∀ line ∈ lines, mark ∉ line) :
    pieces mark (lines.flatMap (· ++ [mark])) = lines ++ [[]] := by
  induction lines with
  | nil => rfl
  | cons line lines ih =>
    rw [List.flatMap_cons, List.append_assoc, List.singleton_append,
      pieces_append (absent line List.mem_cons_self),
      ih fun other mem => absent other (List.mem_cons_of_mem _ mem), List.cons_append]

/-- No piece has the mark. -/
theorem not_mem_of_mem_pieces {mark : Char} {cs piece : List Char}
    (mem : piece ∈ pieces mark cs) : mark ∉ piece := by
  induction cs generalizing piece with
  | nil =>
    rw [List.mem_singleton.mp mem]
    exact List.not_mem_nil
  | cons c cs ih =>
    rw [pieces] at mem
    split at mem
    · rcases List.mem_cons.mp mem with rfl | mem
      · exact List.not_mem_nil
      · exact ih mem
    · rename_i differs
      split at mem
      · rename_i none
        exact absurd none (pieces_ne_nil mark cs)
      · rename_i first others cut
        rcases List.mem_cons.mp mem with rfl | mem
        · rw [List.mem_cons, not_or]
          exact ⟨Ne.symm differs, ih (cut ▸ List.mem_cons_self)⟩
        · exact ih (cut ▸ List.mem_cons_of_mem _ mem)

end TreeScheme.Text
