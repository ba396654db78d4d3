/-!
# Byte offsets

Positions in a text are counted in UTF-8 bytes, so an offset may fall inside a character. `seek`
walks to an offset and answers only if it is a boundary between characters; the cursor it returns
knows the character before it, which word boundaries and line starts look at. `slice` is the text
between two boundaries.
-/

namespace TreeScheme.Text

/-- The number of bytes of a text. -/
def byteSize : List Char → Nat
  | [] => 0
  | c :: cs => c.utf8Size + byteSize cs

@[simp] theorem byteSize_nil : byteSize [] = 0 := rfl

@[simp] theorem byteSize_cons (c : Char) (cs : List Char) :
    byteSize (c :: cs) = c.utf8Size + byteSize cs := rfl

@[simp] theorem byteSize_append (s t : List Char) :
    byteSize (s ++ t) = byteSize s + byteSize t := by
  induction s with
  | nil => simp
  | cons c s ih => simp [ih, Nat.add_assoc]

/-- The bytes of a string are those of its characters. -/
theorem byteSize_toList (s : String) : byteSize s.toList = s.utf8ByteSize := by
  have ofList (cs : List Char) : byteSize cs = (String.ofList cs).utf8ByteSize := by
    induction cs with
    | nil => simp
    | cons c cs ih =>
      have split : String.ofList (c :: cs) = String.singleton c ++ String.ofList cs := by
        rw [String.singleton_eq_ofList, ← String.ofList_append]
        rfl
      rw [byteSize_cons, ih, split, String.utf8ByteSize_append, String.utf8ByteSize_singleton]
  rw [ofList, String.ofList_toList]

/-- A place between two characters of a text: the character before it, unless it is the start,
and everything after it. -/
structure Cursor where
  before : Option Char
  rest : List Char
deriving DecidableEq, Repr

/-- The cursor at the start of a text. -/
def Cursor.start (cs : List Char) : Cursor :=
  ⟨none, cs⟩

/-- Walks `n` bytes on from a cursor that stands before `cs`. -/
def Cursor.walk (before : Option Char) : List Char → Nat → Option Cursor
  | cs, 0 => some ⟨before, cs⟩
  | [], _ + 1 => none
  | c :: cs, n + 1 =>
    if c.utf8Size ≤ n + 1 then walk (some c) cs (n + 1 - c.utf8Size) else none

/-- The cursor at a byte offset of a text, if the offset is a boundary between characters. -/
def seek (cs : List Char) (offset : Nat) : Option Cursor :=
  Cursor.walk none cs offset

/-- Offset zero is the start of every text. -/
@[simp] theorem seek_zero (cs : List Char) : seek cs 0 = some (.start cs) := by
  cases cs <;> rfl

/-- Walking over a whole text stops right behind it, whatever follows. -/
theorem Cursor.walk_append (before : Option Char) (s t : List Char) :
    walk before (s ++ t) (byteSize s) = some ⟨(s.getLast?).or before, t⟩ := by
  induction s generalizing before with
  | nil => cases t <;> rfl
  | cons c s ih =>
    have positive : 0 < c.utf8Size := c.utf8Size_pos
    obtain ⟨n, hn⟩ : ∃ n, c.utf8Size + byteSize s = n + 1 :=
      ⟨c.utf8Size + byteSize s - 1, by omega⟩
    have step : walk before (c :: (s ++ t)) (n + 1) = walk (some c) (s ++ t) (byteSize s) := by
      have fits : c.utf8Size ≤ n + 1 := by omega
      have left : n + 1 - c.utf8Size = byteSize s := by omega
      rw [walk, if_pos fits, left]
    simp only [List.cons_append, byteSize_cons, hn, step, ih]
    cases s with
    | nil => simp
    | cons d s => simp [List.getLast?_cons]

/-- A text is a boundary of every text that it begins. -/
theorem seek_append (s t : List Char) :
    seek (s ++ t) (byteSize s) = some ⟨s.getLast?, t⟩ := by
  simp [seek, Cursor.walk_append]

end TreeScheme.Text
