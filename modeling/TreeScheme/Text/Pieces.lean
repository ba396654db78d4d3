/-!
# Pieces of a text

Lines and alias lists are texts cut at every occurrence of a mark. The pieces are those of the text
and nothing else: joined by the mark they are the text again.
-/

namespace TreeScheme.Text

/-- The pieces of a text between the occurrences of a mark. There is always one piece more than
there are marks, so the empty text has one empty piece. -/
def pieces (mark : Char) : List Char → List (List Char)
  | [] => [[]]
  | c :: cs =>
    if c = mark then
      [] :: pieces mark cs
    else
      match pieces mark cs with
      | [] => [[c]]
      | first :: others => (c :: first) :: others

/-- Every text has a first piece. -/
theorem pieces_ne_nil (mark : Char) (cs : List Char) : pieces mark cs ≠ [] := by
  cases cs with
  | nil => simp [pieces]
  | cons c cs =>
    unfold pieces
    split
    · simp
    · split <;> simp

/-- Joining the pieces with the mark gives the text back. -/
theorem intercalate_pieces (mark : Char) (cs : List Char) :
    [mark].intercalate (pieces mark cs) = cs := by
  induction cs with
  | nil => rfl
  | cons c cs ih =>
    have nonempty := pieces_ne_nil mark cs
    unfold pieces
    cases h : pieces mark cs with
    | nil => exact absurd h nonempty
    | cons first others =>
      rw [h] at ih
      by_cases hc : c = mark
      · simp only [hc, if_true]
        rw [List.intercalate_cons_cons, ih]
        rfl
      · simp only [hc, if_false]
        cases others with
        | nil => simpa [List.intercalate] using ih
        | cons second more =>
          rw [List.intercalate_cons_cons] at ih ⊢
          simp [← ih]

end TreeScheme.Text
