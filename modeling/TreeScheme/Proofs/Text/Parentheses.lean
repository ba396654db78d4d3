import Mathlib.Data.List.Induction
import Mathlib.Data.List.Infix

/-!
# Parentheses

A text is balanced if it closes all parentheses that it opens, and no part of it from the start
closes more than that part opens. An opening parenthesis has a partner in what stands behind it if a
closing one stands there behind something balanced.

Both are said by counting, so they can be checked on a text that nothing else is known of. The two
main statements tie them together: in a balanced text every opening parenthesis has a partner
(`Balanced.closes`), and behind one that has none, all is balanced as far as it goes
(`Balanced.not_closes`).
-/

namespace TreeScheme.Text

/-- A text closes the parentheses that it opens, in order. -/
structure Balanced (text : List Char) : Prop where
  fronts : ∀ front, front <+: text → front.count ')' ≤ front.count '('
  whole : text.count ')' = text.count '('

theorem balanced_iff {text : List Char} : Balanced text ↔
    (∀ front ∈ text.inits, front.count ')' ≤ front.count '(') ∧
      text.count ')' = text.count '(' := by
  simp only [List.mem_inits]
  exact ⟨fun balanced => ⟨balanced.fronts, balanced.whole⟩, fun ⟨fronts, whole⟩ => ⟨fronts, whole⟩⟩

instance : DecidablePred Balanced :=
  fun _ => decidable_of_iff _ balanced_iff.symm

/-- A text closes the parenthesis that was opened right before it. -/
def Closes (behind : List Char) : Prop :=
  ∃ inside after, behind = inside ++ ')' :: after ∧ Balanced inside

/-- A text has no parentheses. -/
def Bare (text : List Char) : Prop :=
  '(' ∉ text ∧ ')' ∉ text

theorem Bare.append {text more : List Char} (bare : Bare text) (again : Bare more) :
    Bare (text ++ more) := by
  constructor
  · rw [List.mem_append]
    exact not_or.mpr ⟨bare.1, again.1⟩
  · rw [List.mem_append]
    exact not_or.mpr ⟨bare.2, again.2⟩

theorem Bare.balanced {text : List Char} (bare : Bare text) : Balanced text := by
  constructor
  · intro front starts
    have none : ')' ∉ front := fun mem => bare.2 (starts.subset mem)
    rw [List.count_eq_zero.mpr none]
    exact Nat.zero_le _
  · rw [List.count_eq_zero.mpr bare.1, List.count_eq_zero.mpr bare.2]

namespace Balanced

variable {text more inside before behind : List Char}

theorem nil : Balanced [] :=
  Bare.balanced ⟨List.not_mem_nil, List.not_mem_nil⟩

theorem append (balanced : Balanced text) (again : Balanced more) : Balanced (text ++ more) := by
  constructor
  · rintro front ⟨rest, same⟩
    rcases List.append_eq_append_iff.mp same with ⟨left, rfl, _⟩ | ⟨right, rfl, rfl⟩
    · exact balanced.fronts front (List.prefix_append _ _)
    · have here := again.fronts right (List.prefix_append _ _)
      have there := balanced.whole
      rw [List.count_append, List.count_append]
      omega
  · rw [List.count_append, List.count_append, balanced.whole, again.whole]

/-- Parentheses around a balanced text. -/
theorem enclose (balanced : Balanced inside) : Balanced ('(' :: inside ++ [')']) := by
  constructor
  · intro front starts
    rcases List.prefix_concat_iff.mp starts with rfl | starts
    · simp [balanced.whole]
    · cases front with
      | nil => exact Nat.le_refl _
      | cons c front =>
        obtain ⟨rfl, inner⟩ := List.cons_prefix_cons.mp starts
        have here := balanced.fronts front inner
        simp only [List.count_cons, Char.reduceBEq, Bool.false_eq_true, if_false, BEq.rfl, if_true]
        omega
  · simp [balanced.whole]

/-- What has no parentheses can be left out at the end. -/
theorem of_append (balanced : Balanced (text ++ more)) (bare : Bare more) : Balanced text := by
  constructor
  · exact fun front starts => balanced.fronts front (starts.trans (List.prefix_append _ _))
  · have whole := balanced.whole
    rw [List.count_append, List.count_append, List.count_eq_zero.mpr bare.1,
      List.count_eq_zero.mpr bare.2] at whole
    exact whole

/-- A balanced text closes nothing that was opened before it. -/
theorem not_closes (balanced : Balanced text) : ¬Closes text := by
  rintro ⟨inside, after, rfl, inner⟩
  have starts : inside ++ [')'] <+: inside ++ ')' :: after := ⟨after, by simp⟩
  have short := balanced.fronts _ starts
  have whole := inner.whole
  simp only [List.count_append, List.count_singleton, Char.reduceBEq, Bool.false_eq_true, if_false,
    BEq.rfl, if_true] at short
  omega

end Balanced

/-- A text that closes more than it opens, up to some place, closes a parenthesis before it. -/
theorem closes_of_excess {front behind : List Char} (starts : front <+: behind)
    (excess : front.count '(' < front.count ')') : Closes behind := by
  -- The partner is the first parenthesis that is closed in excess.
  induction behind using List.reverseRecOn generalizing front with
  | nil =>
    rw [List.prefix_nil.mp starts] at excess
    exact absurd excess (Nat.lt_irrefl _)
  | append_singleton behind c ih =>
    by_cases earlier : ∃ front, front <+: behind ∧ front.count '(' < front.count ')'
    · obtain ⟨front, starts, excess⟩ := earlier
      obtain ⟨inside, after, rfl, balanced⟩ := ih starts excess
      exact ⟨inside, after ++ [c], by simp, balanced⟩
    · have fronts : ∀ front, front <+: behind → front.count ')' ≤ front.count '(' :=
        fun front starts => Nat.le_of_not_lt fun excess => earlier ⟨front, starts, excess⟩
      rcases List.prefix_concat_iff.mp starts with rfl | starts
      · have before := fronts behind (List.prefix_refl _)
        simp only [List.count_append, List.count_singleton, beq_iff_eq] at excess
        have closing : c = ')' := by
          by_contra other
          rw [if_neg other] at excess
          omega
        subst closing
        simp only [Char.reduceEq, if_false, if_true] at excess
        exact ⟨behind, [], rfl, fronts, by omega⟩
      · exact absurd excess (Nat.not_lt_of_le (fronts _ starts))

/-- In a balanced text every opening parenthesis has a partner. -/
theorem Balanced.closes {before behind : List Char}
    (balanced : Balanced (before ++ '(' :: behind)) : Closes behind := by
  refine closes_of_excess (List.prefix_refl behind) ?_
  have fronts := balanced.fronts before (List.prefix_append _ _)
  have whole := balanced.whole
  simp only [List.count_append, List.count_cons, Char.reduceBEq, Bool.false_eq_true, if_false,
    BEq.rfl, if_true] at whole
  omega

end TreeScheme.Text
