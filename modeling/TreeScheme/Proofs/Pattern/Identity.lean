import TreeScheme.Proofs.Pattern.Canonical
import TreeScheme.Proofs.Pattern.Unambiguity

/-!
# Canonical text identifies a pattern

Two patterns that were read over the same names and have the same canonical text are the same
(`Pattern.Formed.eq_of_text`). This holds also where quantifiers are stacked, so that the canonical
text cannot be read back: it still belongs to one pattern only.

The tokens of a pattern inside another one are recognized from their end: a word is a leaf, a
quantifier marks what stands before it, and a closing parenthesis ends the alternatives behind the
matching one (`Pattern.Recognized`). Between the parentheses stand alternatives with bars between
them, each of them operands one after another. `Pattern.rows` takes a pattern apart in this way, and
a pattern that was read is known from its rows.
-/

namespace TreeScheme

namespace Pattern

variable {flavor : Flavor} {resolve : String → Option Symbol}

/-! ## Rows of operands -/

/-- The operands of each alternative of a pattern. -/
def rows : Pattern → List (List Pattern)
  | leaf symbol id => [[leaf symbol id]]
  | sequence items => [items]
  | choice alternatives => alternatives.map fun alternative => [alternative]
  | quantified quantifier operand => [[quantified quantifier operand]]

/-- The tokens of operands one after another. -/
def operandKinds (operands : List Pattern) : List TokenKind :=
  operands.flatMap (kinds true)

/-- The tokens of a pattern are those of its rows, with bars between them. -/
theorem kinds_eq_rows (pattern : Pattern) :
    pattern.kinds false = [TokenKind.bar].intercalate (pattern.rows.map operandKinds) := by
  cases pattern with
  | leaf symbol id => simp [kinds, rows, operandKinds]
  | sequence items =>
    rw [kinds, encloseKinds, kindsAll_eq_map]
    cases items <;> simp [rows, operandKinds, intercalate_cons, List.flatMap_map]
  | choice alternatives =>
    simp [kinds, encloseKinds, kindsAll_eq_map, rows, operandKinds, Function.comp_def]
  | quantified quantifier operand => simp [kinds, rows, operandKinds]

/-- Lists of more than one member do not collapse. -/
theorem collapse_of_several {wrap : List Pattern → Pattern} {items : List Pattern}
    (several : 1 < items.length) : collapse wrap items = wrap items := by
  match items with
  | first :: second :: rest => rfl

/-- A pattern that was read is known from its rows. -/
theorem Formed.collapse_rows {pattern : Pattern} (formed : Formed flavor resolve pattern) :
    collapse .choice (pattern.rows.map (collapse .sequence)) = pattern := by
  cases formed with
  | leaf _ _ | quantified _ _ => rfl
  | sequence several _ => exact collapse_of_several several
  | choice _ several _ =>
    have single : (collapse Pattern.sequence ∘ fun alternative => [alternative]) = id := rfl
    rw [rows, List.map_map, single, List.map_id, collapse_of_several several]

/-- The rows of a pattern that was read: at least one, and each of them operands that were read. -/
theorem Formed.rows_formed {pattern : Pattern} (formed : Formed flavor resolve pattern) :
    pattern.rows ≠ [] ∧
      ∀ row ∈ pattern.rows, row ≠ [] ∧ ∀ operand ∈ row, Formed flavor resolve operand := by
  have whole := formed
  cases formed with
  | leaf _ _ | quantified _ _ => simpa [rows] using whole
  | sequence several all =>
    have some := List.ne_nil_of_length_pos (Nat.lt_of_succ_lt several)
    simpa [rows, some] using all
  | choice _ several all =>
    have some := List.ne_nil_of_length_pos (Nat.lt_of_succ_lt several)
    simpa [rows, some] using all

/-! ## Reading tokens from the right -/

/-- The last token of a pattern inside another one. -/
def lastKind : Pattern → TokenKind
  | leaf _ id => .word id.toList
  | sequence _ | choice _ => .closeGroup
  | quantified quantifier _ => .quantifier quantifier

/-- The tokens before the last one. -/
def initKinds : Pattern → List TokenKind
  | leaf _ _ => []
  | sequence items => .openGroup :: (sequence items).kinds false
  | choice alternatives => .openGroup :: (choice alternatives).kinds false
  | quantified _ operand => operand.kinds true

theorem kinds_true (operand : Pattern) :
    operand.kinds true = operand.initKinds ++ [operand.lastKind] := by
  cases operand <;> rfl

/-- Tokens that end alike end with the same token. -/
theorem last_of_same {operand other : Pattern} {front others : List TokenKind}
    (same : front ++ operand.kinds true = others ++ other.kinds true) :
    front ++ operand.initKinds = others ++ other.initKinds ∧
      operand.lastKind = other.lastKind := by
  rw [kinds_true, kinds_true, ← List.append_assoc, ← List.append_assoc] at same
  obtain ⟨before, last⟩ := List.append_inj' same rfl
  exact ⟨before, List.singleton_inj.mp last⟩

/-- No sequence starts right behind an operand. -/
theorem not_behind (operand : Pattern) (front : List TokenKind) :
    ¬Phrase.sequence.Behind (front ++ operand.kinds true) := by
  intro behind
  have final : (front ++ operand.kinds true).getLast? = some operand.lastKind := by
    rw [kinds_true, ← List.append_assoc, List.getLast?_concat]
  have ends := behind _ final
  cases operand <;> simp [lastKind] at ends

/-- An operand is recognized from where its tokens end, among all patterns that were read. -/
def Recognized (flavor : Flavor) (resolve : String → Option Symbol) (operand : Pattern) : Prop :=
  ∀ {other : Pattern} {front others : List TokenKind}, Formed flavor resolve other →
    front ++ operand.kinds true = others ++ other.kinds true → front = others ∧ operand = other

/-- Operands one after another are recognized, if it is known where the first of them starts. -/
theorem eq_of_operandKinds {items more : List Pattern}
    (recognized : ∀ item ∈ items, Recognized flavor resolve item)
    (formed : ∀ item ∈ more, Formed flavor resolve item) {front others : List TokenKind}
    (behind : Phrase.sequence.Behind front) (behindOthers : Phrase.sequence.Behind others)
    (same : front ++ operandKinds items = others ++ operandKinds more) :
    front = others ∧ items = more := by
  have split : ∀ (front : List TokenKind) (items : List Pattern) (item : Pattern),
      front ++ operandKinds (items ++ [item]) =
        front ++ operandKinds items ++ item.kinds true := by
    intro front items item
    simp [operandKinds]
  have empty : operandKinds [] = [] := rfl
  induction items using List.reverseRecOn generalizing more with
  | nil =>
    cases more using List.reverseRecOn with
    | nil => simpa [empty] using same
    | append_singleton more last =>
      rw [split, empty, List.append_nil] at same
      exact absurd (same ▸ behind) (not_behind last _)
  | append_singleton items item ih =>
    cases more using List.reverseRecOn with
    | nil =>
      rw [split, empty, List.append_nil] at same
      exact absurd (same ▸ behindOthers) (not_behind item _)
    | append_singleton more last =>
      rw [split, split] at same
      obtain ⟨before, rfl⟩ := recognized item (by simp) (formed last (by simp)) same
      obtain ⟨fronts, rfl⟩ := ih (fun item mem => recognized item (by simp [mem]))
        (fun item mem => formed item (by simp [mem])) before
      exact ⟨fronts, rfl⟩

/-- Rows with bars between them are recognized, if it is known where the first of them starts. -/
theorem eq_of_rowKinds {first again : List Pattern} {rows more : List (List Pattern)}
    (recognized : ∀ row ∈ first :: rows, ∀ item ∈ row, Recognized flavor resolve item)
    (formed : ∀ row ∈ again :: more, ∀ item ∈ row, Formed flavor resolve item)
    {front others : List TokenKind} (behind : Phrase.alternation.Behind front)
    (behindOthers : Phrase.alternation.Behind others)
    (same : front ++ [TokenKind.bar].intercalate ((first :: rows).map operandKinds) =
      others ++ [TokenKind.bar].intercalate ((again :: more).map operandKinds)) :
    front = others ∧ first :: rows = again :: more := by
  have split : ∀ (front : List TokenKind) (first : List Pattern) (rows : List (List Pattern))
      (row : List Pattern),
      front ++ [TokenKind.bar].intercalate ((first :: (rows ++ [row])).map operandKinds) =
        front ++ [TokenKind.bar].intercalate ((first :: rows).map operandKinds) ++ [.bar] ++
          operandKinds row := by
    intro front first rows row
    simp [intercalate_cons]
  have single : ∀ (front : List TokenKind) (row : List Pattern),
      front ++ [TokenKind.bar].intercalate ([row].map operandKinds) =
        front ++ operandKinds row := by
    intro front row
    simp [intercalate_cons]
  induction rows using List.reverseRecOn generalizing more with
  | nil =>
    cases more using List.reverseRecOn with
    | nil =>
      rw [single, single] at same
      obtain ⟨fronts, rfl⟩ := eq_of_operandKinds (recognized first (by simp))
        (formed again (by simp)) behind.sequence behindOthers.sequence same
      exact ⟨fronts, rfl⟩
    | append_singleton more last =>
      rw [split, single] at same
      obtain ⟨fronts, _⟩ := eq_of_operandKinds (recognized first (by simp))
        (formed last (by simp)) behind.sequence (.bar _) same
      exact absurd (fronts ▸ behind) (Phrase.Behind.not_bar _)
  | append_singleton rows row ih =>
    cases more using List.reverseRecOn with
    | nil =>
      rw [split, single] at same
      obtain ⟨fronts, _⟩ := eq_of_operandKinds (recognized row (by simp))
        (formed again (by simp)) (.bar _) behindOthers.sequence same
      exact absurd (fronts ▸ behindOthers) (Phrase.Behind.not_bar _)
    | append_singleton more last =>
      rw [split, split] at same
      obtain ⟨before, rfl⟩ := eq_of_operandKinds (recognized row (by simp))
        (formed last (by simp)) (.bar _) (.bar _) same
      rw [← List.cons_append] at recognized formed ⊢
      obtain ⟨fronts, others⟩ := ih (fun row mem => recognized row (List.mem_append_left _ mem))
        (fun row mem => formed row (List.mem_append_left _ mem)) (List.append_inj' before rfl).1
      exact ⟨fronts, by rw [others, List.cons_append]⟩

/-- A whole pattern is recognized, if it is known where it starts. -/
theorem Formed.eq_of_kinds_append {pattern other : Pattern}
    (formed : Formed flavor resolve pattern) (again : Formed flavor resolve other)
    (recognized : ∀ row ∈ pattern.rows, ∀ item ∈ row, Recognized flavor resolve item)
    {front others : List TokenKind} (behind : Phrase.alternation.Behind front)
    (behindOthers : Phrase.alternation.Behind others)
    (same : front ++ pattern.kinds false = others ++ other.kinds false) :
    front = others ∧ pattern = other := by
  obtain ⟨some, _⟩ := formed.rows_formed
  obtain ⟨someAgain, all⟩ := again.rows_formed
  rw [kinds_eq_rows, kinds_eq_rows] at same
  rw [← formed.collapse_rows, ← again.collapse_rows]
  generalize pattern.rows = rows at *
  generalize other.rows = more at *
  obtain ⟨first, rows, rfl⟩ := List.exists_cons_of_ne_nil some
  obtain ⟨second, more, rfl⟩ := List.exists_cons_of_ne_nil someAgain
  obtain ⟨fronts, rows⟩ := eq_of_rowKinds recognized (fun row mem => (all row mem).2) behind
    behindOthers same
  exact ⟨fronts, by rw [rows]⟩

/-- Two patterns in parentheses are recognized from what is between them. -/
theorem Formed.eq_of_enclosed {pattern other : Pattern}
    (formed : Formed flavor resolve pattern) (again : Formed flavor resolve other)
    (recognized : ∀ row ∈ pattern.rows, ∀ item ∈ row, Recognized flavor resolve item)
    {front others : List TokenKind} (same : front ++ .openGroup :: pattern.kinds false =
      others ++ .openGroup :: other.kinds false) : front = others ∧ pattern = other := by
  rw [List.append_cons, List.append_cons others] at same
  obtain ⟨fronts, rfl⟩ :=
    formed.eq_of_kinds_append again recognized (.openGroup _) (.openGroup _) same
  exact ⟨(List.append_inj' fronts rfl).1, rfl⟩

/-- Every pattern that was read is recognized. -/
theorem Formed.recognized {pattern : Pattern} (formed : Formed flavor resolve pattern) :
    Recognized flavor resolve pattern := by
  have whole := formed
  induction formed with
  | @leaf symbol id _ known =>
    intro other front others again same
    obtain ⟨before, last⟩ := last_of_same same
    cases again with
    | @leaf symbolAgain idAgain _ knownAgain =>
      simp only [lastKind, TokenKind.word.injEq, String.toList_inj] at last
      subst last
      rw [known] at knownAgain
      cases knownAgain
      exact ⟨by simpa [initKinds] using before, rfl⟩
    | sequence _ _ | choice _ _ _ | quantified _ _ => cases last
  | @sequence items _ all ih =>
    intro other front others again same
    obtain ⟨before, last⟩ := last_of_same same
    have members : ∀ row ∈ (Pattern.sequence items).rows, ∀ item ∈ row,
        Recognized flavor resolve item := by
      intro row mem item inside
      rw [List.mem_singleton.mp mem] at inside
      exact ih item inside (all item inside)
    have wholeAgain := again
    cases again with
    | leaf _ _ | quantified _ _ => cases last
    | sequence _ _ | choice _ _ _ => exact whole.eq_of_enclosed wholeAgain members before
  | @choice alternatives _ _ all ih =>
    intro other front others again same
    obtain ⟨before, last⟩ := last_of_same same
    have members : ∀ row ∈ (Pattern.choice alternatives).rows, ∀ item ∈ row,
        Recognized flavor resolve item := by
      intro row mem item inside
      obtain ⟨alternative, listed, rfl⟩ := List.mem_map.mp mem
      rw [List.mem_singleton.mp inside]
      exact ih alternative listed (all alternative listed)
    have wholeAgain := again
    cases again with
    | leaf _ _ | quantified _ _ => cases last
    | sequence _ _ | choice _ _ _ => exact whole.eq_of_enclosed wholeAgain members before
  | quantified _ inner ih =>
    intro other front others again same
    obtain ⟨before, last⟩ := last_of_same same
    cases again with
    | leaf _ _ | sequence _ _ | choice _ _ _ => cases last
    | quantified _ innerAgain =>
      cases last
      obtain ⟨fronts, rfl⟩ := ih inner innerAgain before
      exact ⟨fronts, rfl⟩

/-! ## Texts -/

/-- Patterns that were read are known from their tokens. -/
theorem Formed.eq_of_kinds {pattern other : Pattern} (formed : Formed flavor resolve pattern)
    (again : Formed flavor resolve other) (same : pattern.kinds false = other.kinds false) :
    pattern = other := by
  have start : Phrase.alternation.Behind [] := nofun
  have members : ∀ row ∈ pattern.rows, ∀ item ∈ row, Recognized flavor resolve item :=
    fun row mem item inside => ((formed.rows_formed.2 row mem).2 item inside).recognized
  have same : [] ++ pattern.kinds false = [] ++ other.kinds false := same
  exact (formed.eq_of_kinds_append again members start start same).2

/-- Patterns that were read are known from their canonical text. -/
theorem Formed.eq_of_chars {pattern other : Pattern} (formed : Formed flavor resolve pattern)
    (again : Formed flavor resolve other) (same : pattern.chars false = other.chars false) :
    pattern = other := by
  have spelled := (formed.writes false).spelled
  rw [same] at spelled
  exact formed.eq_of_kinds again (spelled.unique (again.writes false).spelled)

/-- Every pattern that was read has a canonical text that is not empty. -/
theorem Formed.chars_ne_nil {pattern : Pattern} (formed : Formed flavor resolve pattern) :
    pattern.chars false ≠ [] := by
  intro none
  have spelled := (formed.writes false).spelled
  rw [none] at spelled
  have noKinds : pattern.kinds false = [] := spelled.unique .done
  obtain ⟨some, all⟩ := formed.rows_formed
  obtain ⟨row, listed⟩ := List.exists_mem_of_ne_nil _ some
  obtain ⟨operand, inside⟩ := List.exists_mem_of_ne_nil _ (all row listed).1
  obtain ⟨before, after, parts⟩ :=
    exists_of_mem_intercalate [TokenKind.bar] (List.mem_map.mpr ⟨_, listed, rfl⟩)
  rw [← kinds_eq_rows, noKinds] at parts
  have noTokens : operandKinds row = [] := by
    simp only [List.nil_eq, List.append_eq_nil_iff] at parts
    exact parts.1.2
  have noToken := List.flatMap_eq_nil_iff.mp noTokens operand inside
  rw [kinds_true] at noToken
  exact absurd noToken (List.append_ne_nil_of_right_ne_nil _ (List.cons_ne_nil _ _))

end Pattern

/-- The characters of the canonical text of an expression that has a pattern. -/
theorem Expression.toList_canonical (source : String) (pattern : Pattern) :
    (Expression.canonical ⟨source, some pattern⟩).toList = pattern.chars false :=
  String.toList_ofList

/-- **Canonical text identifies what was read.** Two expressions over the same names with the same
canonical text have the same pattern, or both have none. -/
theorem Expression.root_eq_of_canonical {flavor : Flavor} {resolve : String → Option Symbol}
    {source other : String} {first second : Expression}
    (read : Expression.read flavor resolve source = .ok first)
    (readOther : Expression.read flavor resolve other = .ok second)
    (same : first.canonical = second.canonical) : first.root = second.root := by
  obtain ⟨root, found, made⟩ := bind_eq_ok.mp read
  obtain ⟨rootOther, foundOther, madeOther⟩ := bind_eq_ok.mp readOther
  cases made
  cases madeOther
  have chars := congrArg String.toList same
  cases root with
  | none =>
    cases rootOther with
    | none => rfl
    | some pattern =>
      rw [toList_canonical] at chars
      exact absurd chars.symm (Pattern.formed_of_read foundOther).chars_ne_nil
  | some pattern =>
    cases rootOther with
    | none =>
      rw [toList_canonical] at chars
      exact absurd chars (Pattern.formed_of_read found).chars_ne_nil
    | some patternOther =>
      rw [toList_canonical, toList_canonical] at chars
      rw [(Pattern.formed_of_read found).eq_of_chars (Pattern.formed_of_read foundOther) chars]

end TreeScheme
