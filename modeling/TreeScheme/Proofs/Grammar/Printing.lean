import TreeScheme.Proofs.Grammar.Flavors
import TreeScheme.Proofs.Pattern.Identity

/-!
# Printed patterns

What `Pattern.text` prints need not come from a text: patterns can be put together in other ways. It
can be read back if the pattern is proper, that is, if its names stand for what its leaves say and
nothing in it would collapse, and if no quantifier stands right around another one. A proper pattern
with stacked quantifiers is printed as a text that is refused (`Grammar.read_text_of_proper`).

Although it cannot always be read back, canonical text belongs to one pattern only: expressions that
a grammar reads, in whatever flavors, have the same pattern exactly if they have the same canonical
text (`Grammar.canonical_identifies`).
-/

namespace TreeScheme

open Header (NameWord)

namespace Pattern

/-- Whether the names of a pattern are words that stand for what its leaves say, and its sequences
and choices have more than one member. -/
def isProper (resolve : String → Option Symbol) : Pattern → Bool
  | leaf symbol id => id.toList != [] && id.toList.all isNameChar && resolve id == some symbol
  | sequence items => decide (1 < items.length) && isProperAll items
  | choice alternatives => decide (1 < alternatives.length) && isProperAll alternatives
  | quantified _ operand => operand.isProper resolve
where
  /-- Whether several patterns are proper. -/
  isProperAll : List Pattern → Bool
  | [] => true
  | pattern :: rest => pattern.isProper resolve && isProperAll rest

variable {resolve : String → Option Symbol}

mutual

/-- Every proper pattern could have been read in the full flavor. -/
theorem formed_of_isProper (pattern : Pattern) (proper : pattern.isProper resolve = true) :
    Formed .full resolve pattern := by
  cases pattern with
  | leaf symbol id =>
    simp only [isProper, Bool.and_eq_true, bne_iff_ne, List.all_eq_true, beq_iff_eq] at proper
    obtain ⟨⟨some, all⟩, known⟩ := proper
    exact .leaf ⟨some, all⟩ known
  | sequence items =>
    simp only [isProper, Bool.and_eq_true, decide_eq_true_eq] at proper
    exact .sequence proper.1 (formed_of_isProperAll items proper.2)
  | choice alternatives =>
    simp only [isProper, Bool.and_eq_true, decide_eq_true_eq] at proper
    exact .choice rfl proper.1 (formed_of_isProperAll alternatives proper.2)
  | quantified quantifier operand =>
    have sign : TokenKind.ofSign? .full quantifier.sign = some (.quantifier quantifier) := by
      cases quantifier <;> rfl
    exact .quantified sign (formed_of_isProper operand proper)

/-- All proper patterns could have been read in the full flavor. -/
theorem formed_of_isProperAll (patterns : List Pattern)
    (proper : isProper.isProperAll resolve patterns = true) :
    ∀ pattern ∈ patterns, Formed .full resolve pattern := by
  cases patterns with
  | nil => exact fun _ mem => absurd mem List.not_mem_nil
  | cons pattern rest =>
    rw [isProper.isProperAll, Bool.and_eq_true] at proper
    exact List.forall_mem_cons.mpr
      ⟨formed_of_isProper pattern proper.1, formed_of_isProperAll rest proper.2⟩

end

end Pattern

namespace Grammar

/-- **Printing and reading are inverse.** Of every pattern whose names are words that stand for what
its leaves say, and whose sequences and choices have more than one member, the text is read as
exactly this pattern if no quantifier stands right around another one, and is refused otherwise. -/
theorem read_text_of_proper (grammar : Grammar) (pattern : Pattern)
    (proper : pattern.isProper grammar.vocabulary.resolve = true) :
    (pattern.stacked = false →
      grammar.read .full pattern.text = .ok ⟨pattern.text, some pattern⟩) ∧
    (pattern.stacked = true → ∃ error, grammar.read .full pattern.text = .error error) := by
  obtain ⟨flat, stacked⟩ := (Pattern.formed_of_isProper pattern proper).read_chars
  have chars : pattern.text.toList = pattern.chars false := String.toList_ofList
  constructor
  · intro none
    rw [read, Expression.read, chars, flat none]
    rfl
  · intro some
    obtain ⟨error, refused⟩ := stacked some
    refine ⟨error, ?_⟩
    rw [read, Expression.read, chars, refused]
    rfl

/-- What is read in some flavor is read as the same in the full one. -/
theorem read_full_of_read {grammar : Grammar} {flavor : Flavor} {text : String}
    {expression : Expression} (done : grammar.read flavor text = .ok expression) :
    grammar.read .full text = .ok expression := by
  cases flavor with
  | simple => exact (read_simple_eq_ok_iff.mp done).1
  | full => exact done

/-- **Canonical text identifies an expression** among all that a grammar reads, in either flavor:
the patterns are the same exactly if the canonical texts are, and then so are the plural names. Only
the empty expression has an empty canonical text. -/
theorem canonical_identifies {grammar : Grammar} {flavor other : Flavor} {text again : String}
    {first second : Expression} (done : grammar.read flavor text = .ok first)
    (doneAgain : grammar.read other again = .ok second) :
    (first.canonical = second.canonical ↔ first.root = second.root) ∧
    (first.canonical = second.canonical → first.plurality = second.plurality) ∧
    (first.canonical = "" ↔ first.isEmpty = true) := by
  have full := read_full_of_read done
  have roots : first.canonical = second.canonical → first.root = second.root :=
    Expression.root_eq_of_canonical full (read_full_of_read doneAgain)
  have empty : grammar.read .full "" = .ok ⟨"", none⟩ := rfl
  refine ⟨⟨roots, fun same => ?_⟩, fun same => ?_, fun none => ?_, fun none => ?_⟩
  · rw [Expression.canonical, Expression.canonical, same]
  · rw [Expression.plurality, Expression.plurality, roots same]
  · -- The empty text is read as the empty expression, whose canonical text is empty too.
    rw [Expression.isEmpty, Expression.root_eq_of_canonical full empty none]
    rfl
  · rw [Expression.canonical, Option.isNone_iff_eq_none.mp none]

section Example

/-- A grammar of one lexeme and one definition. -/
private def paired : Grammar :=
  ⟨{}, ⟨[⟨["A"], ⟨"a", (Regex.char (.single 'a')).recognizer⟩⟩]⟩,
    [⟨0, "tail", [], []⟩], [.plain .empty]⟩

private def headLeaf : Pattern :=
  .leaf .lexeme "A"

private def tailLeaf : Pattern :=
  .leaf .definition "tail"

/-- Parentheses keep parts together when a pattern is read back, but not stacked quantifiers. -/
theorem paired_texts_read :
    let repeated := Pattern.quantified .star (.sequence [headLeaf, .quantified .optional tailLeaf])
    let flat := Pattern.choice [repeated, .quantified .plus (.choice [tailLeaf, headLeaf])]
    let stacked := Pattern.sequence [headLeaf, .quantified .optional (.quantified .plus tailLeaf)]
    (flat.isProper paired.vocabulary.resolve = true ∧ flat.text = "(A tail?)* | (tail | A)+" ∧
      paired.read .full flat.text = .ok ⟨flat.text, some flat⟩) ∧
    (stacked.isProper paired.vocabulary.resolve = true ∧ stacked.text = "A tail+?" ∧
      ∃ error, paired.read .full stacked.text = .error error) := by
  intro repeated flat stacked
  have proper : flat.isProper paired.vocabulary.resolve = true := rfl
  have properStacked : stacked.isProper paired.vocabulary.resolve = true := rfl
  exact ⟨⟨proper, rfl, (paired.read_text_of_proper flat proper).1 rfl⟩,
    properStacked, rfl, (paired.read_text_of_proper stacked properStacked).2 rfl⟩

/-- Two spellings of stacked quantifiers in two flavors have one canonical text, which neither of
them is read back from, and one pattern. -/
theorem regrouped_identified :
    let root := Pattern.quantified .optional (.quantified .optional headLeaf)
    let first : Expression := ⟨"(A?)?", some root⟩
    let second : Expression := ⟨"((A) ?)?", some root⟩
    paired.read .simple "(A?)?" = .ok first ∧ paired.read .full "((A) ?)?" = .ok second ∧
      (first.canonical = second.canonical ↔ first.root = second.root) ∧
      (first.canonical = second.canonical → first.plurality = second.plurality) ∧
      (first.canonical = "" ↔ first.isEmpty = true) := by
  intro root first second
  have done : paired.read .simple "(A?)?" = .ok first := rfl
  have doneAgain : paired.read .full "((A) ?)?" = .ok second := rfl
  exact ⟨done, doneAgain, canonical_identifies done doneAgain⟩

end Example

end Grammar

end TreeScheme
