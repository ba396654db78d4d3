import TreeScheme.Proofs.Grammar.Compilation
import TreeScheme.Proofs.Matcher.Repetition
import TreeScheme.Proofs.Pattern.Canonical
import TreeScheme.Proofs.Pattern.Plurality

/-!
# One or more of a pattern

`Pattern.unrolled` is a pattern once and then any number of it. It compiles exactly if one or more of
the pattern does, all names capture lists in both, and the steps run alike (`Step.alike_unrolled`).
So a text is judged the same whichever of the two is written, also where it is written as text
(`one_or_more_unrolled`).
-/

namespace TreeScheme

open Header (startsName)
open Text (byteSize)

/-- A pattern once, and then any number of it. -/
def Pattern.unrolled (pattern : Pattern) : Pattern :=
  .sequence [pattern, .quantified .star pattern]

/-! ## Lists -/

namespace Pattern

/-- Every name of a repeated pattern stands under a repetition. -/
theorem mem_leaves_true_iff {pattern : Pattern} {id : String} :
    (id, true) ∈ pattern.leaves true ↔ id ∈ (pattern.leaves false).map Prod.fst := by
  rw [map_fst_leaves false true]
  constructor
  · exact fun mem => List.mem_map.mpr ⟨_, mem, rfl⟩
  · intro mem
    obtain ⟨⟨name, repeated⟩, listed, rfl⟩ := List.mem_map.mp mem
    cases snd_of_mem_leaves_true pattern _ listed
    exact listed

/-- All names of one or more of a pattern capture lists. -/
theorem isList_plus_iff {pattern : Pattern} {id : String} :
    (Plurality.ofPattern (.quantified .plus pattern)).isList id = true ↔
      id ∈ (pattern.leaves false).map Prod.fst := by
  rw [Plurality.isList_ofPattern_iff]
  show (id, true) ∈ pattern.leaves true ∨ 2 ≤ ((pattern.leaves true).map Prod.fst).count id ↔ _
  rw [mem_leaves_true_iff, map_fst_leaves true false, or_iff_left_iff_imp]
  exact fun twice => List.count_pos_iff.mp (Nat.lt_of_lt_of_le Nat.zero_lt_two twice)

/-- All names of a pattern once and then any number of it capture lists. -/
theorem isList_unrolled_iff {pattern : Pattern} {id : String} :
    (Plurality.ofPattern pattern.unrolled).isList id = true ↔
      id ∈ (pattern.leaves false).map Prod.fst := by
  have leaves : pattern.unrolled.leaves false = pattern.leaves false ++ pattern.leaves true := by
    show pattern.leaves false ++ (pattern.leaves true ++ []) = _
    rw [List.append_nil]
  rw [Plurality.isList_ofPattern_iff, leaves, List.mem_append, List.map_append, List.count_append,
    mem_leaves_true_iff, map_fst_leaves true false]
  constructor
  · rintro ((once | again) | twice)
    · exact List.mem_map.mpr ⟨_, once, rfl⟩
    · exact again
    · exact List.count_pos_iff.mp (by omega)
  · exact fun mem => .inl (.inr mem)

end Pattern

/-! ## Steps -/

namespace Vocabulary

variable {vocabulary : Vocabulary} {plurality again : Plurality}

mutual

/-- A pattern compiles to the same step where the same names capture lists. -/
theorem compile_of_isList (same : ∀ id, again.isList id = plurality.isList id) :
    ∀ pattern : Pattern, vocabulary.compile again pattern = vocabulary.compile plurality pattern
  | .leaf .lexeme id => by rw [compile, compile, same]
  | .leaf .definition id => by rw [compile, compile, same]
  | .sequence items => by rw [compile, compile, compileAll_of_isList same items]
  | .choice alternatives => by rw [compile, compile, compileAll_of_isList same alternatives]
  | .quantified quantifier operand => by rw [compile, compile, compile_of_isList same operand]

theorem compileAll_of_isList (same : ∀ id, again.isList id = plurality.isList id) :
    ∀ patterns : List Pattern, compile.compileAll vocabulary again patterns =
      compile.compileAll vocabulary plurality patterns
  | [] => rfl
  | pattern :: rest => by
    rw [compile.compileAll, compile.compileAll, compile_of_isList same pattern,
      compileAll_of_isList same rest]

end

theorem compile_plus (vocabulary : Vocabulary) (plurality : Plurality) (pattern : Pattern) :
    vocabulary.compile plurality (.quantified .plus pattern) =
      (vocabulary.compile plurality pattern).map (.quantified .plus) := by
  rw [compile]
  cases vocabulary.compile plurality pattern <;> rfl

theorem compile_unrolled (vocabulary : Vocabulary) (plurality : Plurality) (pattern : Pattern) :
    vocabulary.compile plurality pattern.unrolled =
      (vocabulary.compile plurality pattern).map fun step =>
        .sequence [step, .quantified .star step] := by
  simp only [Pattern.unrolled, compile, compile.compileAll]
  cases vocabulary.compile plurality pattern <;> rfl

/-- Both compile, to steps that run alike, or neither does. -/
theorem parallel_unrolled (vocabulary : Vocabulary) (bodies : List Body) (plurality : Plurality)
    (pattern : Pattern) :
    Parallel (fun joined apart => ∃ first, vocabulary.compile plurality pattern = .ok first ∧
        AlikeUnlessEmpty bodies first joined apart)
      (vocabulary.compile plurality (.quantified .plus pattern))
      (vocabulary.compile plurality pattern.unrolled) := by
  rw [compile_plus, compile_unrolled]
  cases vocabulary.compile plurality pattern with
  | error e => trivial
  | ok step => exact ⟨step, rfl, Step.alike_unrolled bodies step⟩

end Vocabulary

/-! ## Texts -/

/-- A text can stand before any text that does not go on with its last word. -/
theorem Spelled.writes {flavor : Flavor} {text : List Char} {kinds : List TokenKind}
    (spelled : Spelled flavor text kinds) : Writes flavor text kinds := by
  intro behind rest apart after
  induction spelled with
  | done => exact after
  | blank isBlank _ ih => exact .blank isBlank ih
  | @word word cs kinds isWord ends _ ih =>
    have apartBehind : startsName isNameChar (cs ++ behind) = false := by
      cases cs with
      | nil => exact apart
      | cons c cs => exact ends
    rw [List.append_assoc]
    exact .word isWord apartBehind ih
  | sign isSign _ ih => exact .sign isSign ih

namespace Pattern

variable {flavor : Flavor} {resolve : String → Option Symbol} {inner : List Char}
  {pattern : Pattern}

/-- A text that is read as a pattern is a group of that pattern between parentheses. -/
theorem exists_group (read : read flavor resolve inner = .ok (some pattern)) :
    ∃ kinds, Writes flavor (enclose true inner) kinds ∧
      Derives flavor resolve .group kinds [pattern] := by
  obtain ⟨kinds, alternatives, spelled, derived, rfl⟩ := read_eq_some_iff.mp read
  exact ⟨encloseKinds true kinds, spelled.writes.enclose true, .parens derived⟩

/-- A group with a plus sign is one or more of its pattern. -/
theorem read_plus (read : read .full resolve inner = .ok (some pattern)) :
    Pattern.read .full resolve (enclose true inner ++ ['+']) =
      .ok (some (.quantified .plus pattern)) := by
  obtain ⟨kinds, writes, derived⟩ := exists_group read
  have sign : TokenKind.ofSign? .full '+' = some (.quantifier .plus) := rfl
  exact read_eq_some_iff.mpr ⟨_, _, (writes.append_sign sign).spelled,
    .alternative (.item (.quantified .plus derived)), rfl⟩

/-- A group and then the group with a star is its pattern once, and then any number of it. -/
theorem read_unrolled (read : read .full resolve inner = .ok (some pattern)) :
    Pattern.read .full resolve (enclose true inner ++ ' ' :: (enclose true inner ++ ['*'])) =
      .ok (some pattern.unrolled) := by
  obtain ⟨kinds, writes, derived⟩ := exists_group read
  have sign : TokenKind.ofSign? .full '*' = some (.quantifier .star) := rfl
  have blank : Text.isBlank ' ' = true := rfl
  have spelled := writes _ _ rfl (.blank blank (writes.append_sign sign).spelled)
  exact read_eq_some_iff.mpr ⟨_, _, spelled, .alternative (.nextItem (.item (.bare derived))
    (.quantified .star derived)), rfl⟩

end Pattern

/-! ## Grammars -/

namespace Grammar

/-- **A pattern once and then any number of it is judged as one or more of it.** -/
theorem map_judge_unrolled (grammar : Grammar) (pattern : Pattern) (source other : String) :
    (grammar.compile ⟨source, some (.quantified .plus pattern)⟩).map Matcher.judge =
      (grammar.compile ⟨other, some pattern.unrolled⟩).map Matcher.judge := by
  have lists : ∀ id, (Plurality.ofPattern pattern.unrolled).isList id =
      (Plurality.ofPattern (.quantified .plus pattern)).isList id := fun id =>
    Bool.eq_iff_iff.mpr (Pattern.isList_unrolled_iff.trans Pattern.isList_plus_iff.symm)
  simp only [compile, Vocabulary.compileExpression, Expression.plurality,
    Vocabulary.compile_of_isList lists, Vocabulary.compile_plus, Vocabulary.compile_unrolled]
  cases grammar.vocabulary.compile (.ofPattern (.quantified .plus pattern)) pattern with
  | error e => rfl
  | ok step =>
    refine congrArg Except.ok (funext fun text => ?_)
    have alike := Step.alike_unrolled grammar.bodies step
    rw [Matcher.judge_eq, Matcher.judge_eq]
    exact congrArg₂ (judgement _ _)
      (alike.outcome text.toList grammar.limits.maxRecursionDepth 0 {})
      (alike.note text.toList grammar.limits.maxRecursionDepth 0 {})

end Grammar

/-- **One or more is once and then any number.** In every grammar, for every pattern:

* wherever the two are compiled for, and whichever names capture lists there, both compile or
  neither does; the steps end the same and note the same call beyond the limit in every place of
  every text, with any room for calls and whatever was recorded before, and what they record is the
  same unless the first match of the pattern takes no text;
* where they are expressions of their own, all names of the pattern capture lists in both;
* as expressions they accept the same texts, and refuse the others with the same errors;
* so they do where they are written as text, with parentheses around what the pattern is read
  from. -/
theorem one_or_more_unrolled (grammar : Grammar) (pattern : Pattern) :
    (∀ plurality, Parallel (fun joined apart => ∃ first,
        grammar.vocabulary.compile plurality pattern = .ok first ∧
        AlikeUnlessEmpty grammar.bodies first joined apart)
      (grammar.vocabulary.compile plurality (.quantified .plus pattern))
      (grammar.vocabulary.compile plurality (.sequence [pattern, .quantified .star pattern]))) ∧
    (∀ id ∈ (pattern.leaves false).map Prod.fst,
      (Plurality.ofPattern (.quantified .plus pattern)).isList id = true ∧
      (Plurality.ofPattern (.sequence [pattern, .quantified .star pattern])).isList id = true) ∧
    (∀ source other,
      (grammar.compile ⟨source, some (.quantified .plus pattern)⟩).map Matcher.judge =
        (grammar.compile ⟨other, some (.sequence [pattern, .quantified .star pattern])⟩).map
          Matcher.judge) ∧
    ∀ inner, grammar.read .full inner = .ok ⟨inner, some pattern⟩ →
      (grammar.matcher ("(" ++ inner ++ ")+")).map Matcher.judge =
        (grammar.matcher ("(" ++ inner ++ ") (" ++ inner ++ ")*")).map Matcher.judge := by
  refine ⟨fun plurality => grammar.vocabulary.parallel_unrolled grammar.bodies plurality pattern,
    fun id mem => ⟨Pattern.isList_plus_iff.mpr mem, Pattern.isList_unrolled_iff.mpr mem⟩,
    fun source other => grammar.map_judge_unrolled pattern source other, fun inner known => ?_⟩
  obtain ⟨root, read, same⟩ := bind_eq_ok.mp known
  cases same
  have joined : grammar.read .full ("(" ++ inner ++ ")+") =
      .ok ⟨"(" ++ inner ++ ")+", some (.quantified .plus pattern)⟩ := by
    refine bind_eq_ok.mpr ⟨_, ?_, rfl⟩
    have text : ("(" ++ inner ++ ")+").toList = Pattern.enclose true inner.toList ++ ['+'] := by
      simp [Pattern.enclose]
    rw [text]
    exact Pattern.read_plus read
  have apart : grammar.read .full ("(" ++ inner ++ ") (" ++ inner ++ ")*") =
      .ok ⟨"(" ++ inner ++ ") (" ++ inner ++ ")*", some pattern.unrolled⟩ := by
    refine bind_eq_ok.mpr ⟨_, ?_, rfl⟩
    have text : ("(" ++ inner ++ ") (" ++ inner ++ ")*").toList =
        Pattern.enclose true inner.toList ++ ' ' :: (Pattern.enclose true inner.toList ++ ['*']) := by
      simp [Pattern.enclose]
    rw [text]
    exact Pattern.read_unrolled read
  rw [Grammar.matcher, Grammar.matcher, Grammar.matcherIn, Grammar.matcherIn, joined, apart]
  exact grammar.map_judge_unrolled pattern _ _

section Example

/-- A grammar of dots. -/
private def plainDots : Grammar where
  limits := {}
  lexemes := ⟨[⟨["DOT"], ⟨"[.]", (Regex.char (.single '.')).recognizer⟩⟩]⟩
  definitions := []
  bodies := []

/-- What an expression says of a text. -/
private def dotsJudge (expression text : String) : Except GrammarError (Except MatchError Unit) :=
  ((plainDots.matcher expression).map Matcher.judge).map fun judge => judge text

/-- Rounds in which the dot is missing end the repetition in both ways. -/
theorem optional_dots_unrolled :
    dotsJudge "(DOT?) (DOT?)*" ".." = .ok (.ok ()) ∧
    dotsJudge "(DOT?) (DOT?)*" ".x" = .ok (.error (.trailingInput 1)) := by
  have read : plainDots.read .full "DOT?" =
      .ok ⟨"DOT?", some (.quantified .optional (.leaf .lexeme "DOT"))⟩ := rfl
  have joined : "(" ++ "DOT?" ++ ")+" = "(DOT?)+" := rfl
  have apart : "(" ++ "DOT?" ++ ") (" ++ "DOT?" ++ ")*" = "(DOT?) (DOT?)*" := rfl
  have same := (one_or_more_unrolled plainDots _).2.2.2 "DOT?" read
  rw [joined, apart] at same
  have dots : dotsJudge "(DOT?)+" ".." = .ok (.ok ()) := rfl
  have other : dotsJudge "(DOT?)+" ".x" = .ok (.error (.trailingInput 1)) := rfl
  rw [dotsJudge, same] at dots other
  exact ⟨dots, other⟩

end Example

end TreeScheme
