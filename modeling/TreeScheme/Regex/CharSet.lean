import TreeScheme.Text.Blank
import TreeScheme.Text.CaseForms
import TreeScheme.Text.Category

/-!
# Sets of characters

A set of characters is kept as the way it was written: ranges, the named classes, and the operations
of set algebra over them. `CharSet.mem` decides membership, so two spellings of one set are told
apart only by their text. Closing a set under case adds every character that differs from a member
only in case.
-/

namespace TreeScheme.Regex

open Text (Category caseForms category isBlank isDecimalDigit isWordChar)

/-- How two sets are combined. -/
inductive SetOp where
  | union
  | inter
  | diff
  | symmDiff
deriving DecidableEq, Repr

/-- Whether a combination holds a character that the two sets hold or not. -/
def SetOp.holds : SetOp → Bool → Bool → Bool
  | union, a, b => a || b
  | inter, a, b => a && b
  | diff, a, b => a && !b
  | symmDiff, a, b => a != b

/-- A set of characters. -/
inductive CharSet where
  | empty
  /-- All characters from `lo` to `hi`. -/
  | range (lo hi : Char)
  /-- Decimal digits of every script. -/
  | digit
  /-- Blanks of every script. -/
  | blank
  /-- Word characters of every script. -/
  | word
  /-- Characters of some general categories. -/
  | categories (accepted : List Category)
  | combine (op : SetOp) (a b : CharSet)
  | compl (a : CharSet)
  /-- The set `a` with all case forms of its members. -/
  | caseClosed (a : CharSet)
  /-- The set `a` with the other case of its members among the ASCII letters. -/
  | asciiCaseClosed (a : CharSet)
deriving Repr

namespace CharSet

/-- Whether a character belongs to a set. -/
def mem : CharSet → Char → Bool
  | empty, _ => false
  | range lo hi, c => lo ≤ c && c ≤ hi
  | digit, c => isDecimalDigit c
  | blank, c => isBlank c
  | word, c => isWordChar c
  | categories accepted, c => accepted.contains (category c)
  | combine op a b, c => op.holds (a.mem c) (b.mem c)
  | compl a, c => !a.mem c
  | caseClosed a, c => (caseForms c).any a.mem
  | asciiCaseClosed a, c => a.mem c || a.mem c.toLower || a.mem c.toUpper

/-- All characters. -/
def all : CharSet := compl empty

/-- A single character. -/
def single (c : Char) : CharSet := range c c

/-- The union of two sets. -/
def union (a b : CharSet) : CharSet := combine .union a b

/-- The union of some ranges. -/
def ranges : List (Char × Char) → CharSet
  | [] => empty
  | (lo, hi) :: rest => union (range lo hi) (ranges rest)

/-- The complement of a set if `negated`, and otherwise the set. -/
def negatedIf (negated : Bool) (a : CharSet) : CharSet :=
  if negated then compl a else a

/-- Whether a set that names ASCII characters only, through ranges and set algebra, has members
beyond ASCII. Such a set treats all characters beyond ASCII alike, so it is enough to ask for the
first. -/
def exceedsAscii (a : CharSet) : Bool :=
  a.mem '\x80'

/-- The ASCII digits. -/
def asciiDigit : CharSet := range '0' '9'

/-- The ASCII blanks. -/
def asciiBlank : CharSet := ranges [('\t', '\r'), (' ', ' ')]

/-- The ASCII word characters. -/
def asciiWord : CharSet := ranges [('0', '9'), ('A', 'Z'), ('_', '_'), ('a', 'z')]

/-- The ASCII classes that a bracket may name, as in `[[:alpha:]]`. -/
def named? : String → Option CharSet
  | "alnum" => some (ranges [('0', '9'), ('A', 'Z'), ('a', 'z')])
  | "alpha" => some (ranges [('A', 'Z'), ('a', 'z')])
  | "ascii" => some (range '\x00' '\x7f')
  | "blank" => some (ranges [('\t', '\t'), (' ', ' ')])
  | "cntrl" => some (ranges [('\x00', '\x1f'), ('\x7f', '\x7f')])
  | "digit" => some asciiDigit
  | "graph" => some (range '!' '~')
  | "lower" => some (range 'a' 'z')
  | "print" => some (range ' ' '~')
  | "punct" => some (ranges [('!', '/'), (':', '@'), ('[', '\x60'), ('\x7b', '~')])
  | "space" => some asciiBlank
  | "upper" => some (range 'A' 'Z')
  | "word" => some asciiWord
  | "xdigit" => some (ranges [('0', '9'), ('A', 'F'), ('a', 'f')])
  | _ => none

@[simp] theorem mem_all (c : Char) : all.mem c = true := rfl

@[simp] theorem mem_single (c d : Char) : (single c).mem d = decide (d = c) := by
  simp only [single, mem, ← Bool.decide_and]
  congr 1
  exact propext ⟨fun h => Char.le_antisymm h.2 h.1, fun h => h ▸ ⟨Char.le_refl _, Char.le_refl _⟩⟩

@[simp] theorem mem_union (a b : CharSet) (c : Char) :
    (union a b).mem c = (a.mem c || b.mem c) := rfl

@[simp] theorem mem_negatedIf (negated : Bool) (a : CharSet) (c : Char) :
    (negatedIf negated a).mem c = (negated != a.mem c) := by
  cases negated <;> simp [negatedIf, mem]

end CharSet

end TreeScheme.Regex
