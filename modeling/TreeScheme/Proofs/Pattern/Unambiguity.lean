import TreeScheme.Proofs.Pattern.Phrases
import TreeScheme.Expression

/-!
# The grammar of pattern expressions is unambiguous

`Derives` says which tokens are a phrase, but it is a proposition: it does not say in how many ways
they are. `Derivation` is the tree of such a derivation, over words only, so it knows neither what
names stand for nor how the tokens were written. Its tokens (`Derivation.kinds`) and the patterns it
comes to (`Derivation.members?`) are read off the tree.

Two derivations with the same tokens are the same (`Derivation.unique`). The proof reads tokens from
the right: a group ends with a word or with a closing parenthesis, and it is known from there where
it starts. Sequences and alternations are known once it is known that nothing that belongs to them
stands before them; this is what `Phrase.Behind` says.

With the spelling of tokens this gives the grammar of expressions as a whole
(`Expression.read_eq_ok_iff_derivation`).
-/

namespace TreeScheme

open Text (isBlank)

namespace Pattern

/-- The tree of a derivation of a phrase. -/
inductive Derivation : Phrase → Type
  | name (word : List Char) : Derivation .group
  | parens (inside : Derivation .alternation) : Derivation .group
  | bare (group : Derivation .group) : Derivation .operand
  | quantified (group : Derivation .group) (quantifier : Quantifier) : Derivation .operand
  | item (only : Derivation .operand) : Derivation .sequence
  | nextItem (front : Derivation .sequence) (last : Derivation .operand) : Derivation .sequence
  | alternative (only : Derivation .sequence) : Derivation .alternation
  | nextAlternative (front : Derivation .alternation) (last : Derivation .sequence) :
    Derivation .alternation

namespace Derivation

/-- The kinds of the tokens of a derivation. -/
def kinds {phrase : Phrase} : Derivation phrase → List TokenKind
  | name word => [.word word]
  | parens inside => .openGroup :: inside.kinds ++ [.closeGroup]
  | bare group => group.kinds
  | quantified group quantifier => group.kinds ++ [.quantifier quantifier]
  | item only => only.kinds
  | nextItem front last => front.kinds ++ last.kinds
  | alternative only => only.kinds
  | nextAlternative front last => front.kinds ++ .bar :: last.kinds

/-- The members of the phrase that a derivation is of, if all its words stand for something. -/
def members? {phrase : Phrase} (flavor : Flavor) (resolve : String → Option Symbol) :
    Derivation phrase → Option (List Pattern)
  | name word =>
    (resolveIn flavor resolve (.ofList word)).map fun symbol => [.leaf symbol (.ofList word)]
  | parens inside =>
    (inside.members? flavor resolve).map fun alternatives => [collapse choice alternatives]
  | bare group => group.members? flavor resolve
  | quantified group quantifier =>
    (group.members? flavor resolve).map (List.map (Pattern.quantified quantifier))
  | item only => only.members? flavor resolve
  | nextItem front last => do
    return (← front.members? flavor resolve) ++ (← last.members? flavor resolve)
  | alternative only =>
    (only.members? flavor resolve).map fun items => [collapse sequence items]
  | nextAlternative front last => do
    let alternatives ← front.members? flavor resolve
    let items ← last.members? flavor resolve
    return alternatives ++ [collapse sequence items]

/-- The pattern that a derivation of an alternation comes to. -/
def pattern? (flavor : Flavor) (resolve : String → Option Symbol)
    (derivation : Derivation .alternation) : Option Pattern :=
  (derivation.members? flavor resolve).map (collapse choice)

variable {flavor : Flavor} {resolve : String → Option Symbol} {phrase : Phrase}

/-! ## Trees of derivations -/

/-- A group or an operand is one pattern. -/
theorem members?_length {derivation : Derivation phrase} {members : List Pattern}
    (found : derivation.members? flavor resolve = some members)
    (single : phrase = .group ∨ phrase = .operand) : ∃ pattern, members = [pattern] := by
  induction derivation generalizing members with
  | name word =>
    obtain ⟨symbol, _, rfl⟩ := Option.map_eq_some_iff.mp found
    exact ⟨_, rfl⟩
  | parens inside _ =>
    obtain ⟨alternatives, _, rfl⟩ := Option.map_eq_some_iff.mp found
    exact ⟨_, rfl⟩
  | bare group ih => exact ih found (.inl rfl)
  | quantified group quantifier ih =>
    obtain ⟨inner, here, rfl⟩ := Option.map_eq_some_iff.mp found
    obtain ⟨pattern, rfl⟩ := ih here (.inl rfl)
    exact ⟨_, rfl⟩
  | _ => rcases single with h | h <;> cases h

/-- A tree with patterns is a derivation of them. -/
theorem derives {derivation : Derivation phrase} {members : List Pattern}
    (found : derivation.members? flavor resolve = some members) :
    Derives flavor resolve phrase derivation.kinds members := by
  induction derivation generalizing members with
  | name word =>
    obtain ⟨symbol, known, rfl⟩ := Option.map_eq_some_iff.mp found
    exact .name known
  | parens inside ih =>
    obtain ⟨alternatives, here, rfl⟩ := Option.map_eq_some_iff.mp found
    exact .parens (ih here)
  | bare group ih =>
    obtain ⟨pattern, rfl⟩ := members?_length found (.inr rfl)
    exact .bare (ih found)
  | quantified group quantifier ih =>
    obtain ⟨inner, here, rfl⟩ := Option.map_eq_some_iff.mp found
    obtain ⟨pattern, rfl⟩ := members?_length here (.inl rfl)
    exact .quantified quantifier (ih here)
  | item only ih =>
    obtain ⟨pattern, rfl⟩ := only.members?_length found (.inr rfl)
    exact .item (ih found)
  | nextItem front last ihFront ihLast =>
    obtain ⟨items, before, found⟩ := Option.bind_eq_some_iff.mp found
    obtain ⟨behind, here, same⟩ := Option.bind_eq_some_iff.mp found
    obtain ⟨pattern, rfl⟩ := members?_length here (.inr rfl)
    cases same
    exact .nextItem (ihFront before) (ihLast here)
  | alternative only ih =>
    obtain ⟨items, here, rfl⟩ := Option.map_eq_some_iff.mp found
    exact .alternative (ih here)
  | nextAlternative front last ihFront ihLast =>
    obtain ⟨alternatives, before, found⟩ := Option.bind_eq_some_iff.mp found
    obtain ⟨items, here, same⟩ := Option.bind_eq_some_iff.mp found
    cases same
    exact .nextAlternative (ihFront before) (ihLast here)

/-- Every derivation has a tree. -/
theorem exists_of_derives {kinds : List TokenKind} {members : List Pattern}
    (derived : Derives flavor resolve phrase kinds members) :
    ∃ derivation : Derivation phrase, derivation.kinds = kinds ∧
      derivation.members? flavor resolve = some members := by
  induction derived with
  | @name word symbol known => exact ⟨.name word, rfl, by rw [members?, known]; rfl⟩
  | parens _ ih =>
    obtain ⟨inside, rfl, found⟩ := ih
    exact ⟨.parens inside, rfl, by rw [members?, found]; rfl⟩
  | bare _ ih =>
    obtain ⟨group, rfl, found⟩ := ih
    exact ⟨.bare group, rfl, found⟩
  | quantified quantifier _ ih =>
    obtain ⟨group, rfl, found⟩ := ih
    exact ⟨.quantified group quantifier, rfl, by rw [members?, found]; rfl⟩
  | item _ ih =>
    obtain ⟨only, rfl, found⟩ := ih
    exact ⟨.item only, rfl, found⟩
  | nextItem _ _ ihFront ihLast =>
    obtain ⟨front, rfl, before⟩ := ihFront
    obtain ⟨last, rfl, here⟩ := ihLast
    exact ⟨.nextItem front last, rfl, by rw [members?, before, here]; rfl⟩
  | alternative _ ih =>
    obtain ⟨only, rfl, found⟩ := ih
    exact ⟨.alternative only, rfl, by rw [members?, found]; rfl⟩
  | nextAlternative _ _ ihFront ihLast =>
    obtain ⟨front, rfl, before⟩ := ihFront
    obtain ⟨last, rfl, here⟩ := ihLast
    exact ⟨.nextAlternative front last, rfl, by rw [members?, before, here]; rfl⟩

end Derivation

/-! ## Where phrases start -/

/-- Whether a phrase whose tokens stand behind some others starts there: a sequence does not if an
item ends there, nor does an alternation if a bar does. -/
def Phrase.Behind (front : List TokenKind) : Phrase → Prop
  | .group | .operand => True
  | .sequence => ∀ kind ∈ front.getLast?, kind = .openGroup ∨ kind = .bar
  | .alternation => ∀ kind ∈ front.getLast?, kind = .openGroup

namespace Phrase.Behind

variable {front : List TokenKind}

/-- Where an alternation starts, so does a sequence. -/
theorem sequence (behind : Phrase.alternation.Behind front) : Phrase.sequence.Behind front :=
  fun kind mem => .inl (behind kind mem)

theorem bar (front : List TokenKind) : Phrase.sequence.Behind (front ++ [.bar]) := by
  intro kind mem
  rw [List.getLast?_concat, Option.mem_some_iff] at mem
  exact .inr mem.symm

theorem openGroup (front : List TokenKind) : Phrase.alternation.Behind (front ++ [.openGroup]) := by
  intro kind mem
  rw [List.getLast?_concat, Option.mem_some_iff] at mem
  exact mem.symm

/-- No alternation starts behind a bar. -/
theorem not_bar (front : List TokenKind) : ¬Phrase.alternation.Behind (front ++ [.bar]) := by
  intro behind
  cases behind .bar (by rw [List.getLast?_concat]; rfl)

end Phrase.Behind

namespace Derivation

variable {phrase : Phrase}

/-- Every phrase ends with a word, a closing parenthesis or a quantifier; no group ends with a
quantifier. -/
theorem exists_last (derivation : Derivation phrase) : ∃ front last,
    derivation.kinds = front ++ [last] ∧ last ≠ .openGroup ∧ last ≠ .bar ∧
      (phrase = .group → ∀ quantifier, last ≠ .quantifier quantifier) := by
  induction derivation with
  | name word => exact ⟨[], .word word, rfl, nofun, nofun, fun _ => nofun⟩
  | parens inside _ => exact ⟨_, .closeGroup, rfl, nofun, nofun, fun _ => nofun⟩
  | bare group ih =>
    obtain ⟨front, last, same, noParen, noBar, _⟩ := ih
    exact ⟨front, last, same, noParen, noBar, nofun⟩
  | quantified group quantifier _ =>
    exact ⟨group.kinds, .quantifier quantifier, rfl, nofun, nofun, nofun⟩
  | item only ih =>
    obtain ⟨front, last, same, noParen, noBar, _⟩ := ih
    exact ⟨front, last, same, noParen, noBar, nofun⟩
  | nextItem before only _ ih =>
    obtain ⟨front, last, same, noParen, noBar, _⟩ := ih
    exact ⟨before.kinds ++ front, last, by rw [kinds, same, List.append_assoc], noParen, noBar,
      nofun⟩
  | alternative only ih =>
    obtain ⟨front, last, same, noParen, noBar, _⟩ := ih
    exact ⟨front, last, same, noParen, noBar, nofun⟩
  | nextAlternative before only _ ih =>
    obtain ⟨front, last, same, noParen, noBar, _⟩ := ih
    exact ⟨before.kinds ++ .bar :: front, last, by rw [kinds, same]; simp, noParen, noBar, nofun⟩

/-- No sequence starts right behind a phrase. -/
theorem not_behind (derivation : Derivation phrase) (front : List TokenKind) :
    ¬Phrase.sequence.Behind (front ++ derivation.kinds) := by
  intro behind
  obtain ⟨before, last, same, noParen, noBar, _⟩ := derivation.exists_last
  have ends : (front ++ derivation.kinds).getLast? = some last := by
    rw [same, ← List.append_assoc, List.getLast?_concat]
  rcases behind last ends with h | h
  · exact noParen h
  · exact noBar h

/-- No group ends where a quantifier does. -/
theorem kinds_ne_quantifier (group : Derivation .group) (front others : List TokenKind)
    (quantifier : Quantifier) :
    front ++ group.kinds ≠ others ++ [.quantifier quantifier] := by
  intro same
  obtain ⟨before, last, ends, _, _, other⟩ := group.exists_last
  rw [ends, ← List.append_assoc] at same
  exact other rfl quantifier (List.append_inj_right' same rfl |> List.singleton_inj.mp)

/-- Two derivations of a phrase that end at the same place are the same. -/
theorem unique_append {first second : Derivation phrase} {front others : List TokenKind}
    (behind : phrase.Behind front) (behindOthers : phrase.Behind others)
    (same : front ++ first.kinds = others ++ second.kinds) : front = others ∧ first = second := by
  induction first generalizing front others with
  | name word =>
    cases second with
    | name other =>
      obtain ⟨fronts, last⟩ := List.append_inj' same rfl
      cases last
      exact ⟨fronts, rfl⟩
    | parens inside =>
      rw [kinds, kinds, ← List.append_assoc] at same
      cases (List.append_inj' same rfl).2
  | parens inside ih =>
    cases second with
    | name other =>
      rw [kinds, kinds, ← List.append_assoc] at same
      cases (List.append_inj' same rfl).2
    | parens other =>
      rw [kinds, kinds, ← List.append_assoc, ← List.append_assoc] at same
      have opened :
          front ++ [.openGroup] ++ inside.kinds = others ++ [.openGroup] ++ other.kinds := by
        simpa using (List.append_inj' same rfl).1
      obtain ⟨fronts, rfl⟩ := ih (.openGroup front) (.openGroup others) opened
      exact ⟨(List.append_inj' fronts rfl).1, rfl⟩
  | bare group ih =>
    cases second with
    | bare other =>
      obtain ⟨fronts, rfl⟩ := ih trivial trivial same
      exact ⟨fronts, rfl⟩
    | quantified other quantifier =>
      rw [kinds, kinds, ← List.append_assoc] at same
      exact absurd same (group.kinds_ne_quantifier _ _ _)
  | quantified group quantifier ih =>
    cases second with
    | bare other =>
      rw [kinds, kinds, ← List.append_assoc] at same
      exact absurd same.symm (other.kinds_ne_quantifier _ _ _)
    | quantified other quantifier =>
      rw [kinds, kinds, ← List.append_assoc, ← List.append_assoc] at same
      obtain ⟨groups, last⟩ := List.append_inj' same rfl
      cases last
      obtain ⟨fronts, rfl⟩ := ih trivial trivial groups
      exact ⟨fronts, rfl⟩
  | item only ih =>
    cases second with
    | item other =>
      obtain ⟨fronts, rfl⟩ := ih trivial trivial same
      exact ⟨fronts, rfl⟩
    | nextItem before other =>
      rw [kinds, kinds, ← List.append_assoc] at same
      obtain ⟨fronts, _⟩ := @ih other front _ trivial trivial same
      exact absurd (fronts ▸ behind) (before.not_behind others)
  | nextItem before last ihBefore ihLast =>
    cases second with
    | item other =>
      rw [kinds, kinds, ← List.append_assoc] at same
      obtain ⟨fronts, _⟩ := @ihLast other _ others trivial trivial same
      exact absurd (fronts ▸ behindOthers) (before.not_behind front)
    | nextItem beforeOther other =>
      rw [kinds, kinds, ← List.append_assoc, ← List.append_assoc] at same
      obtain ⟨items, rfl⟩ := ihLast trivial trivial same
      obtain ⟨fronts, rfl⟩ := ihBefore behind behindOthers items
      exact ⟨fronts, rfl⟩
  | alternative only ih =>
    cases second with
    | alternative other =>
      obtain ⟨fronts, rfl⟩ := ih behind.sequence behindOthers.sequence same
      exact ⟨fronts, rfl⟩
    | nextAlternative before other =>
      have barred : front ++ only.kinds = others ++ before.kinds ++ [.bar] ++ other.kinds := by
        simpa [kinds] using same
      obtain ⟨fronts, _⟩ := ih behind.sequence (.bar _) barred
      exact absurd (fronts ▸ behind) (Phrase.Behind.not_bar _)
  | nextAlternative before last ihBefore ihLast =>
    cases second with
    | alternative other =>
      have barred : front ++ before.kinds ++ [.bar] ++ last.kinds = others ++ other.kinds := by
        simpa [kinds] using same
      obtain ⟨fronts, _⟩ := ihLast (.bar _) behindOthers.sequence barred
      exact absurd (fronts ▸ behindOthers) (Phrase.Behind.not_bar _)
    | nextAlternative beforeOther other =>
      have barred : front ++ before.kinds ++ [.bar] ++ last.kinds =
          others ++ beforeOther.kinds ++ [.bar] ++ other.kinds := by
        simpa [kinds] using same
      obtain ⟨alternatives, rfl⟩ := ihLast (.bar _) (.bar _) barred
      obtain ⟨fronts, rfl⟩ :=
        ihBefore behind behindOthers (List.append_inj' alternatives rfl).1
      exact ⟨fronts, rfl⟩

/-- **The grammar is unambiguous.** An alternation has one derivation at most. -/
theorem unique {first second : Derivation .alternation} (same : first.kinds = second.kinds) :
    first = second := by
  have start : Phrase.alternation.Behind [] := nofun
  have same : [] ++ first.kinds = [] ++ second.kinds := same
  exact (unique_append start start same).2

end Derivation

/-- A text is read as a pattern exactly if it spells a derivation that comes to this pattern. -/
theorem read_eq_some_iff_derivation {flavor : Flavor} {resolve : String → Option Symbol}
    {text : List Char} {pattern : Pattern} :
    read flavor resolve text = .ok (some pattern) ↔
      ∃ derivation : Derivation .alternation, Spelled flavor text derivation.kinds ∧
        derivation.pattern? flavor resolve = some pattern := by
  rw [read_eq_some_iff]
  constructor
  · rintro ⟨kinds, alternatives, spelled, derived, rfl⟩
    obtain ⟨derivation, rfl, found⟩ := Derivation.exists_of_derives derived
    exact ⟨derivation, spelled, by rw [Derivation.pattern?, found]; rfl⟩
  · rintro ⟨derivation, spelled, found⟩
    obtain ⟨alternatives, members, rfl⟩ := Option.map_eq_some_iff.mp found
    exact ⟨_, alternatives, spelled, Derivation.derives members, rfl⟩

end Pattern

/-! ## Characters of expressions -/

/-- A character that can stand in an expression: a blank, or a character of a token. -/
def Token.Allows (flavor : Flavor) (c : Char) : Prop :=
  isBlank c = true ∨ isNameChar c = true ∨ (TokenKind.ofSign? flavor c).isSome = true

/-- A text spells tokens exactly if all its characters can stand in an expression. -/
theorem exists_spelled_iff {flavor : Flavor} {text : List Char} :
    (∃ kinds, Spelled flavor text kinds) ↔ ∀ c ∈ text, Token.Allows flavor c := by
  constructor
  · rintro ⟨kinds, spelled⟩
    induction spelled with
    | done => exact fun _ mem => absurd mem List.not_mem_nil
    | blank blank _ ih => exact List.forall_mem_cons.mpr ⟨.inl blank, ih⟩
    | word isWord _ _ ih =>
      exact List.forall_mem_append.mpr ⟨fun c mem => .inr (.inl (isWord.2 c mem)), ih⟩
    | sign sign _ ih =>
      exact List.forall_mem_cons.mpr ⟨.inr (.inr (Option.isSome_of_eq_some sign)), ih⟩
  · intro allowed
    suffices scans : ∀ offset, ∃ tokens, Token.scan flavor offset text = .ok tokens by
      obtain ⟨tokens, scanned⟩ := scans 0
      exact ⟨_, (Token.scan_iff 0).mp ⟨tokens, scanned, rfl⟩⟩
    induction text with
    | nil => exact fun _ => ⟨[], rfl⟩
    | cons c text ih =>
      obtain ⟨here, later⟩ := List.forall_mem_cons.mp allowed
      intro offset
      obtain ⟨tokens, scanned⟩ := ih later (offset + c.utf8Size)
      rw [Token.scan, scanned]
      split
      · exact ⟨_, rfl⟩
      · rename_i solid
        split
        · exact ⟨_, rfl⟩
        · rename_i noName
          obtain ⟨kind, sign⟩ := Option.isSome_iff_exists.mp
            ((here.resolve_left solid).resolve_left noName)
          rw [sign]
          exact ⟨_, rfl⟩

/-! ## Expressions -/

/-- A text expresses a pattern, or none: it spells no tokens, or a derivation that comes to the
pattern. -/
inductive Expresses (flavor : Flavor) (resolve : String → Option Symbol) (text : List Char) :
    Option Pattern → Prop where
  | nothing :
    Spelled flavor text [] →
    Expresses flavor resolve text none
  | pattern {pattern} (derivation : Pattern.Derivation .alternation) :
    Spelled flavor text derivation.kinds →
    derivation.pattern? flavor resolve = some pattern →
    Expresses flavor resolve text (some pattern)

/-- **The grammar of expressions.** A text is read exactly as what it expresses; it spells tokens,
and only one list of them, exactly if all its characters can stand in an expression; and these
tokens have one derivation at most. -/
theorem Expression.read_eq_ok_iff_derivation (flavor : Flavor) (resolve : String → Option Symbol)
    (source : String) :
    (∀ expression, Expression.read flavor resolve source = .ok expression ↔
      expression.source = source ∧ Expresses flavor resolve source.toList expression.root) ∧
    ((∃! kinds, Spelled flavor source.toList kinds) ↔
      ∀ c ∈ source.toList, Token.Allows flavor c) ∧
    ∀ first second : Pattern.Derivation .alternation, Spelled flavor source.toList first.kinds →
      Spelled flavor source.toList second.kinds → first = second := by
  refine ⟨fun expression => ?_, ?_, fun first second spelled again => ?_⟩
  · obtain ⟨written, root⟩ := expression
    have expresses : Pattern.read flavor resolve source.toList = .ok root ↔
        Expresses flavor resolve source.toList root := by
      cases root with
      | none =>
        rw [Pattern.read_eq_none_iff]
        exact ⟨.nothing, fun | .nothing spelled => spelled⟩
      | some pattern =>
        rw [Pattern.read_eq_some_iff_derivation]
        exact ⟨fun ⟨derivation, spelled, found⟩ => .pattern derivation spelled found,
          fun | .pattern derivation spelled found => ⟨derivation, spelled, found⟩⟩
    rw [← expresses]
    constructor
    · intro done
      obtain ⟨_, read, same⟩ := bind_eq_ok.mp done
      cases same
      exact ⟨rfl, read⟩
    · rintro ⟨rfl, read⟩
      exact bind_eq_ok.mpr ⟨root, read, rfl⟩
  · rw [← exists_spelled_iff]
    exact ⟨ExistsUnique.exists, fun ⟨kinds, spelled⟩ =>
      ⟨kinds, spelled, fun _ again => again.unique spelled⟩⟩
  · exact Pattern.Derivation.unique (spelled.unique again)

end TreeScheme
