import TreeScheme.Text.Category.Table

/-!
# The category of a character

`category c` reads the run of the table that holds `c`. The classes that the rest of the library
asks for are unions of categories with a few characters of their own: decimal digits, word
characters, and the characters that leave no mark of their own on a line.
-/

namespace TreeScheme.Text

/-- The category of the run that holds `n`, where `found` is the category of the runs passed so
far. The runs stand in increasing order, so the search ends at the first one beyond `n`. -/
def Category.search (n : Nat) (found : Category) : List (Nat × Category) → Category
  | [] => found
  | (first, next) :: later => if n < first then found else search n next later

/-- The general category of a character. -/
def category (c : Char) : Category :=
  Category.search c.toNat .cn Category.runs

/-- Whether a code point lies in one of some ranges, ends included. -/
def inRanges (ranges : List (Nat × Nat)) (n : Nat) : Bool :=
  ranges.any fun (lo, hi) => lo ≤ n && n ≤ hi

/-- Decimal digits of every script. -/
def isDecimalDigit (c : Char) : Bool :=
  category c = .nd

/-- Letters, numbers that are letters, and the enclosed letters that the standard calls alphabetic
although they are symbols. Alphabetic marks are not listed here: every caller takes all marks. -/
def isLetterLike (c : Char) : Bool :=
  match category c with
  | .ll | .lm | .lo | .lt | .lu | .nl => true
  | .so => inRanges [(0x24B6, 0x24E9), (0x1F130, 0x1F149), (0x1F150, 0x1F169),
      (0x1F170, 0x1F189)] c.toNat
  | _ => false

/-- Word characters: letters, marks, decimal digits, connectors such as `_`, and the two joiners. -/
def isWordChar (c : Char) : Bool :=
  isLetterLike c ||
    match category c with
    | .mc | .me | .mn | .nd | .pc => true
    | _ => c.toNat = 0x200C || c.toNat = 0x200D

/-- Marks, and a few other characters, that attach to the character before them. -/
def isAttached (c : Char) : Bool :=
  match category c with
  | .me | .mn => true
  | _ => inRanges attachedOthers c.toNat
where
  /-- The characters that attach although they are neither nonspacing nor enclosing marks. -/
  attachedOthers : List (Nat × Nat) := [
    (0x9BE, 0x9BE), (0x9D7, 0x9D7), (0xB3E, 0xB3E), (0xB57, 0xB57), (0xBBE, 0xBBE),
    (0xBD7, 0xBD7), (0xCC0, 0xCC0), (0xCC2, 0xCC2), (0xCC7, 0xCC8), (0xCCA, 0xCCB),
    (0xCD5, 0xCD6), (0xD3E, 0xD3E), (0xD57, 0xD57), (0xDCF, 0xDCF), (0xDDF, 0xDDF),
    (0x1715, 0x1715), (0x1734, 0x1734), (0x1B35, 0x1B35), (0x1B3B, 0x1B3B), (0x1B3D, 0x1B3D),
    (0x1B43, 0x1B44), (0x1BAA, 0x1BAA), (0x1BF2, 0x1BF3), (0x200C, 0x200C), (0x302E, 0x302F),
    (0xA953, 0xA953), (0xA9C0, 0xA9C0), (0xFF9E, 0xFF9F), (0x111C0, 0x111C0),
    (0x11235, 0x11235), (0x1133E, 0x1133E), (0x1134D, 0x1134D), (0x11357, 0x11357),
    (0x114B0, 0x114B0), (0x114BD, 0x114BD), (0x115AF, 0x115AF), (0x116B6, 0x116B6),
    (0x11930, 0x11930), (0x1193D, 0x1193D), (0x11F41, 0x11F41), (0x16FF0, 0x16FF1),
    (0x1D165, 0x1D166), (0x1D16D, 0x1D172), (0xE0020, 0xE007F)]

/-- Controls, formats, unassigned and private code points, and every separator but the space. -/
def isHidden (c : Char) : Bool :=
  match category c with
  | .cc | .cf | .cn | .co | .cs | .zl | .zp => true
  | .zs => c ≠ ' '
  | _ => false

end TreeScheme.Text
