import TreeScheme.Proofs.Matcher.Runs

/-!
# Where runs stop

A run moves over the text from left to right: a match never stops before the offset it started at,
and it never stops behind the end of the text unless it already started there. Offsets only grow
where text is taken, by a lexeme or by the word that selects a case, and both take what stands at
the offset.

This is what makes the bound on the rounds of a repetition harmless. A round that goes on has
advanced by at least a byte, so a repetition that may run once more than there are bytes left never
stops because its rounds are used up (`Runs.matched_bounds`, and its use in the account of
captures).
-/

namespace TreeScheme

open Text (Cursor byteSize seek)

/-! ## Places in a text -/

/-- A part at the start of a text has no more bytes than the text. -/
theorem Text.byteSize_le_of_starts {s t : List Char} (starts : s <+: t) :
    byteSize s ≤ byteSize t := by
  obtain ⟨rest, rfl⟩ := starts
  rw [byteSize_append]
  exact Nat.le_add_right _ _

/-- Walking over a text splits it: what was walked over has as many bytes as were walked. -/
theorem Text.Cursor.eq_append_of_walk {before : Option Char} {cs : List Char} {n : Nat}
    {cursor : Cursor} (walked : Cursor.walk before cs n = some cursor) :
    ∃ passed, cs = passed ++ cursor.rest ∧ byteSize passed = n := by
  fun_induction Cursor.walk before cs n with
  | case1 before cs =>
    cases walked
    exact ⟨[], rfl, rfl⟩
  | case2 => cases walked
  | case3 before c cs n fits ih =>
    obtain ⟨passed, rfl, size⟩ := ih walked
    refine ⟨c :: passed, rfl, ?_⟩
    rw [byteSize_cons, size]
    omega
  | case4 => cases walked

/-- A place in a text splits the text at the offset. -/
theorem Text.eq_append_of_seek {text : List Char} {offset : Nat} {cursor : Cursor}
    (found : seek text offset = some cursor) :
    ∃ passed, text = passed ++ cursor.rest ∧ byteSize passed = offset :=
  Cursor.eq_append_of_walk found

/-- What stands at an offset ends within the text. -/
theorem Text.add_byteSize_le_of_seek {text taken : List Char} {offset : Nat} {cursor : Cursor}
    (found : seek text offset = some cursor) (starts : taken <+: cursor.rest) :
    offset + byteSize taken ≤ byteSize text := by
  obtain ⟨passed, rfl, size⟩ := eq_append_of_seek found
  rw [byteSize_append, size]
  exact Nat.add_le_add_left (byteSize_le_of_starts starts) _

/-! ## What takes text -/

/-- A lexeme that is found takes the text between two offsets: some characters at the offset, and at
least one. -/
theorem Lexeme.taken_of_matchAt {lexeme : Lexeme} {text : List Char} {offset : Nat}
    {hit : Lexeme.Hit} (found : lexeme.matchAt text offset = some hit) :
    ∃ cursor taken groups, seek text offset = some cursor ∧ taken <+: cursor.rest ∧ taken ≠ [] ∧
      hit.stop = offset + byteSize taken ∧ hit.value = lexeme.valueOf taken groups := by
  simp only [matchAt] at found
  split at found
  · cases found
  · rename_i cursor place
    split at found
    · cases found
    · rename_i groups matched
      split at found
      · cases found
      · rename_i taken
        cases found
        refine ⟨cursor, _, groups, place, List.take_prefix _ _, ?_, rfl, rfl⟩
        intro empty
        simp [empty] at taken

/-- A lexeme that is found takes at least a byte, and stops within the text. -/
theorem Lexeme.bounds_of_matchAt {lexeme : Lexeme} {text : List Char} {offset : Nat}
    {hit : Lexeme.Hit} (found : lexeme.matchAt text offset = some hit) :
    offset < hit.stop ∧ hit.stop ≤ byteSize text := by
  obtain ⟨cursor, taken, groups, place, starts, nonempty, stop, _⟩ := taken_of_matchAt found
  rw [stop]
  refine ⟨?_, Text.add_byteSize_le_of_seek place starts⟩
  cases taken with
  | nil => exact absurd rfl nonempty
  | cons c cs =>
    have positive : 0 < c.utf8Size := c.utf8Size_pos
    rw [Text.byteSize_cons]
    omega

/-- The word at an offset stands at a place of the text. -/
theorem seek_of_nameAt {text word : List Char} {offset : Nat}
    (found : nameAt text offset = some word) :
    ∃ cursor, seek text offset = some cursor ∧ word <+: cursor.rest := by
  simp only [nameAt] at found
  split at found
  · cases found
  · rename_i cursor place
    split at found
    · cases found
    · rename_i c cs taken
      cases found
      refine ⟨cursor, place, ?_⟩
      rw [← taken]
      exact List.takeWhile_prefix _

/-- The word at an offset ends within the text. -/
theorem add_byteSize_le_of_nameAt {text word : List Char} {offset : Nat}
    (found : nameAt text offset = some word) : offset + byteSize word ≤ byteSize text := by
  obtain ⟨cursor, place, starts⟩ := seek_of_nameAt found
  exact Text.add_byteSize_le_of_seek place starts

/-- A case is selected by the word at the offset. -/
theorem Body.nameAt_of_selected {table : List (List String × Step)} {text : List Char}
    {offset : Nat} {id : String} {step : Step}
    (selected : selected? table text offset = some (id, step)) :
    nameAt text offset = some id.toList ∧ case? table id = some step := by
  simp only [selected?] at selected
  split at selected
  · cases selected
  · rename_i word found
    obtain ⟨chosen, known, same⟩ := Option.map_eq_some_iff.mp selected
    cases same
    exact ⟨by rw [String.toList_ofList]; exact found, known⟩

/-! ## Runs -/

/-- A match stops at or behind the offset it started at, and within the text unless it started
behind it. -/
theorem Runs.matched_bounds {bodies : List Body} {text : List Char} {room : Nat} {task : Task}
    {offset : Nat} {progress later : Progress} {outcome : Outcome}
    (run : Runs bodies text room task offset progress outcome later) :
    ∀ stop, outcome = .matched stop → offset ≤ stop ∧ stop ≤ max offset (byteSize text) := by
  induction run with
  | lexemeFound found =>
    rintro stop ⟨⟩
    have bounds := Lexeme.bounds_of_matchAt found
    omega
  | definitionMatched _ ih => exact ih
  | sequenceMatched _ ih => exact ih
  | itemMatched _ _ first rest =>
    intro stop matched
    have := first _ rfl
    have := rest stop matched
    omega
  | choice _ ih => exact ih
  | alternativeMatched _ ih => exact ih
  | alternativeFailed _ _ _ rest => exact rest
  | optionalMatched _ ih => exact ih
  | star _ ih => exact ih
  | roundAdvanced _ _ _ first rest =>
    intro stop matched
    have := first _ rfl
    have := rest stop matched
    omega
  | plusAdvanced _ _ _ first rest =>
    intro stop matched
    have := first _ rfl
    have := rest stop matched
    omega
  | plain _ ih => exact ih
  | unselected _ _ ih => exact ih
  | caseMatched selected _ ih =>
    intro stop matched
    have := add_byteSize_le_of_nameAt (Body.nameAt_of_selected selected).1
    have := ih stop matched
    omega
  | caseFailed _ _ _ _ rest => exact rest
  | fallbackMatched _ ih => exact ih
  | called _ _ ih => exact ih
  -- What is left took no text: it stops where it started, or failed.
  | empty | itemsDone | optionalFailed | roundsDone | roundFailed | roundStood | plusStood =>
    rintro stop ⟨⟩
    omega
  | lexemeMissed | definitionFailed | sequenceFailed | itemFailed | alternativesDone | plusFailed
  | fallbackMissing | fallbackFailed | unknown | beyondLimit =>
    rintro stop ⟨⟩

end TreeScheme
