import Mathlib.Data.List.Chain
import TreeScheme.Grammar.Basic
import TreeScheme.Proofs.Pattern.Phrases

/-!
# Reading the canonical text

The canonical text of a pattern spells the tokens `Pattern.kinds`, with parentheses around the
sequences and choices inside. Every pattern that was read is `Formed`: its names are words that
stand for something, its sequences and choices have more than one member, and its signs belong to
the flavor. Such a pattern is derived from its own tokens, with one exception: the grammar allows
one quantifier behind a group, while the printer puts no parentheses around a quantified pattern.
So a quantifier right around another one (`Pattern.stacked`), which a source writes as `(A?)?`,
prints two quantifiers in a row, and no derivation has such tokens.

The canonical text is therefore read as the same pattern exactly where no quantifiers are stacked
(`Grammar.read_canonical`).
-/

namespace TreeScheme

open Header (NameWord startsName)
open Text (isBlank)

/-! ## The tokens of a pattern -/

namespace Pattern

/-- Tokens between parentheses, if `nested`. -/
def encloseKinds (nested : Bool) (kinds : List TokenKind) : List TokenKind :=
  if nested then .openGroup :: kinds ++ [.closeGroup] else kinds

/-- The kinds of the tokens of a pattern's text, inside another one if `nested`. -/
def kinds (nested : Bool) : Pattern → List TokenKind
  | leaf _ id => [.word id.toList]
  | sequence items => encloseKinds nested ([].intercalate (kindsAll items))
  | choice alternatives => encloseKinds nested ([TokenKind.bar].intercalate (kindsAll alternatives))
  | quantified quantifier operand => operand.kinds true ++ [.quantifier quantifier]
where
  /-- The kinds of the tokens of each of several patterns inside another one. -/
  kindsAll : List Pattern → List (List TokenKind)
  | [] => []
  | pattern :: rest => pattern.kinds true :: kindsAll rest

/-- Whether a pattern is marked with a quantifier. -/
def isQuantified : Pattern → Bool
  | quantified _ _ => true
  | _ => false

/-- Whether a pattern has a quantifier right around another one. -/
def stacked : Pattern → Bool
  | leaf _ _ => false
  | sequence items => stackedAny items
  | choice alternatives => stackedAny alternatives
  | quantified _ operand => operand.isQuantified || operand.stacked
where
  /-- Whether one of several patterns has stacked quantifiers. -/
  stackedAny : List Pattern → Bool
  | [] => false
  | pattern :: rest => pattern.stacked || stackedAny rest

theorem charsAll_eq_map (patterns : List Pattern) :
    chars.charsAll patterns = patterns.map (chars true) := by
  induction patterns with
  | nil => rfl
  | cons pattern rest ih => rw [chars.charsAll, ih, List.map_cons]

theorem kindsAll_eq_map (patterns : List Pattern) :
    kinds.kindsAll patterns = patterns.map (kinds true) := by
  induction patterns with
  | nil => rfl
  | cons pattern rest ih => rw [kinds.kindsAll, ih, List.map_cons]

theorem stackedAny_eq_false {patterns : List Pattern} :
    stacked.stackedAny patterns = false ↔ ∀ pattern ∈ patterns, pattern.stacked = false := by
  induction patterns with
  | nil => simp [stacked.stackedAny]
  | cons pattern rest ih => simp [stacked.stackedAny, ih]

end Pattern

/-- Every member but the first stands behind a separator. -/
theorem intercalate_cons {α : Type} (separator first : List α) (rest : List (List α)) :
    separator.intercalate (first :: rest) = first ++ rest.flatMap (separator ++ ·) := by
  induction rest generalizing first with
  | nil => simp
  | cons next rest ih => rw [List.intercalate_cons_cons, ih, List.flatMap_cons, List.append_assoc,
      List.append_assoc]

/-! ## Spelling tokens one after another -/

/-- A text writes tokens: it spells them before everything that starts with no name character. -/
def Writes (flavor : Flavor) (text : List Char) (kinds : List TokenKind) : Prop :=
  ∀ behind rest, startsName isNameChar behind = false → Spelled flavor behind rest →
    Spelled flavor (text ++ behind) (kinds ++ rest)

namespace Writes

variable {flavor : Flavor} {text : List Char} {kinds : List TokenKind}

theorem word (isWord : NameWord isNameChar text) : Writes flavor text [.word text] :=
  fun _ _ apart spelled => .word isWord apart spelled

theorem spelled (writes : Writes flavor text kinds) : Spelled flavor text kinds := by
  have whole := writes [] [] rfl .done
  rw [List.append_nil, List.append_nil] at whole
  exact whole

/-- A sign ends a word before it. -/
theorem append_sign (writes : Writes flavor text kinds) {c : Char} {kind : TokenKind}
    (sign : TokenKind.ofSign? flavor c = some kind) :
    Writes flavor (text ++ [c]) (kinds ++ [kind]) := by
  intro behind rest _ spelled
  rw [List.append_assoc, List.append_assoc]
  exact writes _ _ (TokenKind.solid_of_ofSign? sign).2 (.sign sign spelled)

/-- Parentheses around a text. -/
theorem enclose (writes : Writes flavor text kinds) (nested : Bool) :
    Writes flavor (Pattern.enclose nested text) (Pattern.encloseKinds nested kinds) := by
  cases nested with
  | false => exact writes
  | true =>
    have closed : Writes flavor (text ++ [')']) (kinds ++ [.closeGroup]) := writes.append_sign rfl
    intro behind rest apart spelled
    exact .sign rfl (closed behind rest apart spelled)

/-- Texts with separators between them, if a separator ends a word before it. -/
theorem join {separator : List Char} {between : List TokenKind}
    (apart : ∀ behind, startsName isNameChar (separator ++ behind) = false)
    (spells : ∀ behind rest, Spelled flavor behind rest →
      Spelled flavor (separator ++ behind) (between ++ rest))
    {texts : List (List Char)} {kinds : List (List TokenKind)}
    (all : List.Forall₂ (Writes flavor) texts kinds) (some : texts ≠ []) :
    Writes flavor (separator.intercalate texts) (between.intercalate kinds) := by
  cases all with
  | nil => exact absurd rfl some
  | @cons first firstKinds texts kinds writes others =>
    intro behind rest noName spelled
    have tail : startsName isNameChar (texts.flatMap (separator ++ ·) ++ behind) = false ∧
        Spelled flavor (texts.flatMap (separator ++ ·) ++ behind)
          (kinds.flatMap (between ++ ·) ++ rest) := by
      clear some
      induction others with
      | nil => exact ⟨noName, spelled⟩
      | cons writes _ ih =>
        simp only [List.flatMap_cons, List.append_assoc]
        exact ⟨apart _, spells _ _ (writes _ _ ih.1 ih.2)⟩
    rw [intercalate_cons, intercalate_cons, List.append_assoc, List.append_assoc]
    exact writes _ _ tail.1 tail.2

end Writes

/-! ## Patterns that were read -/

/-- A pattern that can be read in a flavor, given what names stand for. -/
inductive Pattern.Formed (flavor : Flavor) (resolve : String → Option Symbol) : Pattern → Prop where
  | leaf {symbol id} :
    NameWord isNameChar id.toList →
    resolveIn flavor resolve id = some symbol →
    Formed flavor resolve (.leaf symbol id)
  | sequence {items} :
    1 < items.length →
    (∀ item ∈ items, Formed flavor resolve item) →
    Formed flavor resolve (.sequence items)
  | choice {alternatives} :
    TokenKind.ofSign? flavor '|' = some .bar →
    1 < alternatives.length →
    (∀ alternative ∈ alternatives, Formed flavor resolve alternative) →
    Formed flavor resolve (.choice alternatives)
  | quantified {quantifier operand} :
    TokenKind.ofSign? flavor quantifier.sign = some (.quantifier quantifier) →
    Formed flavor resolve operand →
    Formed flavor resolve (.quantified quantifier operand)

/-- A token that a text in a flavor can have. -/
def TokenKind.Legal (flavor : Flavor) (kind : TokenKind) : Prop :=
  (∃ word, kind = .word word ∧ NameWord isNameChar word) ∨ ∃ c, ofSign? flavor c = some kind

/-- Only such tokens are spelled. -/
theorem Spelled.legal {flavor : Flavor} {text : List Char} {kinds : List TokenKind}
    (spelled : Spelled flavor text kinds) : ∀ kind ∈ kinds, kind.Legal flavor := by
  induction spelled with
  | done => exact fun _ mem => absurd mem List.not_mem_nil
  | blank _ _ ih => exact ih
  | @word word cs kinds isWord _ _ ih =>
    intro kind mem
    rcases List.mem_cons.mp mem with rfl | mem
    · exact .inl ⟨word, rfl, isWord⟩
    · exact ih kind mem
  | @sign c cs kind kinds sign _ ih =>
    intro kind mem
    rcases List.mem_cons.mp mem with rfl | mem
    · exact .inr ⟨c, sign⟩
    · exact ih kind mem

namespace TokenKind.Legal

variable {flavor : Flavor}

theorem nameWord {word : List Char} (legal : Legal flavor (.word word)) :
    NameWord isNameChar word := by
  rcases legal with ⟨other, same, isWord⟩ | ⟨c, sign⟩
  · cases same
    exact isWord
  · exact absurd rfl ((of_ofSign? sign).1 word)

theorem ofSign? {kind : TokenKind} (legal : Legal flavor kind) {c : Char}
    (chars : kind.chars = [c]) (noName : isNameChar c = false) :
    TokenKind.ofSign? flavor c = some kind := by
  rcases legal with ⟨word, rfl, _, all⟩ | ⟨d, sign⟩
  · cases (show word = [c] from chars)
    rw [all c List.mem_cons_self] at noName
    cases noName
  · have same := (of_ofSign? sign).2
    rw [chars] at same
    cases same
    exact sign

end TokenKind.Legal

namespace Pattern

variable {flavor : Flavor} {resolve : String → Option Symbol}

/-- A sequence of formed items is formed, also if it collapses. -/
theorem Formed.collapseSequence {items : List Pattern} (some : items ≠ [])
    (all : ∀ item ∈ items, Formed flavor resolve item) :
    Formed flavor resolve (collapse .sequence items) := by
  match items with
  | [] => exact absurd rfl some
  | [only] => exact all only List.mem_cons_self
  | first :: second :: rest => exact .sequence (by simp) all

/-- Tokens of an alternation with more than one alternative have a bar. -/
theorem Derives.bar_mem {kinds : List TokenKind} {alternatives : List Pattern}
    (derived : Derives flavor resolve .alternation kinds alternatives)
    (several : 1 < alternatives.length) : .bar ∈ kinds := by
  cases derived with
  | alternative _ => exact absurd several (by simp)
  | nextAlternative _ _ => simp

/-- All members of a derived phrase are formed, if its tokens belong to the flavor. -/
theorem Derives.formed {phrase : Phrase} {kinds : List TokenKind} {members : List Pattern}
    (derived : Derives flavor resolve phrase kinds members)
    (legal : ∀ kind ∈ kinds, kind.Legal flavor) :
    ∀ member ∈ members, Formed flavor resolve member := by
  induction derived with
  | @name word symbol found =>
    have isWord := (legal _ List.mem_cons_self).nameWord
    rw [← String.toList_ofList (l := word)] at isWord
    simpa using Formed.leaf isWord found
  | @parens kinds alternatives derived ih =>
    have inner : ∀ kind ∈ kinds, kind.Legal flavor := fun kind mem => legal kind (by simp [mem])
    have all := ih inner
    rw [List.forall_mem_singleton]
    match alternatives with
    | [] => exact absurd rfl derived.members_ne_nil
    | [only] => exact all only List.mem_cons_self
    | first :: second :: rest =>
      have bar : TokenKind.bar.Legal flavor := inner _ (derived.bar_mem (by simp))
      exact .choice (bar.ofSign? rfl (by decide)) (by simp) all
  | bare _ ih => exact ih legal
  | @quantified kinds pattern quantifier _ ih =>
    have operand := ih (fun kind mem => legal kind (by simp [mem])) pattern List.mem_cons_self
    have sign : (TokenKind.quantifier quantifier).Legal flavor := legal _ (by simp)
    rw [List.forall_mem_singleton]
    exact .quantified (sign.ofSign? rfl (by cases quantifier <;> decide)) operand
  | item _ ih => exact ih legal
  | nextItem _ _ ihItems ihLast =>
    rw [List.forall_mem_append]
    exact ⟨ihItems fun kind mem => legal kind (by simp [mem]),
      ihLast fun kind mem => legal kind (by simp [mem])⟩
  | alternative derived ih =>
    rw [List.forall_mem_singleton]
    exact .collapseSequence derived.members_ne_nil (ih legal)
  | nextAlternative _ derived ihFront ihLast =>
    rw [List.forall_mem_append, List.forall_mem_singleton]
    exact ⟨ihFront fun kind mem => legal kind (by simp [mem]),
      .collapseSequence derived.members_ne_nil (ihLast fun kind mem => legal kind (by simp [mem]))⟩

/-- A pattern that is read from a text is formed. -/
theorem formed_of_read {text : List Char} {pattern : Pattern}
    (done : read flavor resolve text = .ok (some pattern)) : Formed flavor resolve pattern := by
  obtain ⟨kinds, alternatives, spelled, derived, rfl⟩ := read_eq_some_iff.mp done
  have group := (Derives.parens derived).formed (fun kind mem => ?_)
  · exact group _ List.mem_cons_self
  · rw [List.mem_append, List.mem_cons, List.mem_singleton] at mem
    rcases mem with (rfl | mem) | rfl
    · exact .inr ⟨'(', rfl⟩
    · exact spelled.legal kind mem
    · exact .inr ⟨')', rfl⟩

/-! ## The canonical text -/

/-- The canonical text spells the tokens of the pattern. -/
theorem Formed.writes {pattern : Pattern} (formed : Formed flavor resolve pattern) (nested : Bool) :
    Writes flavor (pattern.chars nested) (pattern.kinds nested) := by
  have members : ∀ patterns : List Pattern,
      (∀ pattern ∈ patterns, Writes flavor (pattern.chars true) (pattern.kinds true)) →
      List.Forall₂ (Writes flavor) (patterns.map (chars true)) (patterns.map (kinds true)) := by
    intro patterns all
    rw [List.forall₂_map_left_iff, List.forall₂_map_right_iff, List.forall₂_same]
    exact all
  induction formed generalizing nested with
  | leaf isWord _ => exact .word isWord
  | sequence several _ ih =>
    rw [chars, kinds, charsAll_eq_map, kindsAll_eq_map]
    refine Writes.enclose (.join (fun _ => rfl) (fun _ _ => .blank rfl) ?_ ?_) nested
    · exact members _ fun item mem => ih item mem true
    · rw [ne_eq, List.map_eq_nil_iff, ← List.length_eq_zero_iff]
      omega
  | choice bar several _ ih =>
    rw [chars, kinds, charsAll_eq_map, kindsAll_eq_map]
    refine Writes.enclose (.join (fun _ => rfl) (fun _ _ spelled => ?_) ?_ ?_) nested
    · exact .blank rfl (.sign bar (.blank rfl spelled))
    · exact members _ fun alternative mem => ih alternative mem true
    · rw [ne_eq, List.map_eq_nil_iff, ← List.length_eq_zero_iff]
      omega
  | quantified sign _ ih => exact (ih true).append_sign sign

/-! ## Derivations of the canonical text -/

/-- Operands behind a sequence continue it. -/
theorem Derives.append_items {front : List TokenKind} {items rest : List Pattern}
    (begun : Derives flavor resolve .sequence front items)
    (operands : ∀ item ∈ rest, Derives flavor resolve .operand (item.kinds true) [item]) :
    Derives flavor resolve .sequence (front ++ (rest.map (kinds true)).flatMap ([] ++ ·))
      (items ++ rest) := by
  induction rest generalizing front items with
  | nil => simpa using begun
  | cons item rest ih =>
    have next := Derives.nextItem begun (operands item List.mem_cons_self)
    have whole := ih next fun other mem => operands other (List.mem_cons_of_mem _ mem)
    simpa using whole

/-- Operands behind an alternation, each behind a bar, continue it. -/
theorem Derives.append_alternatives {front : List TokenKind} {alternatives rest : List Pattern}
    (begun : Derives flavor resolve .alternation front alternatives)
    (operands : ∀ item ∈ rest, Derives flavor resolve .operand (item.kinds true) [item]) :
    Derives flavor resolve .alternation
      (front ++ (rest.map (kinds true)).flatMap ([TokenKind.bar] ++ ·)) (alternatives ++ rest) := by
  induction rest generalizing front alternatives with
  | nil => simpa using begun
  | cons item rest ih =>
    have next := Derives.nextAlternative begun (.item (operands item List.mem_cons_self))
    have whole := ih next fun other mem => operands other (List.mem_cons_of_mem _ mem)
    simpa [collapse] using whole

/-- How a pattern is derived from its own tokens. -/
structure Derived (flavor : Flavor) (resolve : String → Option Symbol) (pattern : Pattern) :
    Prop where
  operand : Derives flavor resolve .operand (pattern.kinds true) [pattern]
  group : pattern.isQuantified = false →
    Derives flavor resolve .group (pattern.kinds true) [pattern]
  whole : ∃ alternatives, Derives flavor resolve .alternation (pattern.kinds false) alternatives ∧
    pattern = collapse choice alternatives

/-- A pattern that stands in parentheses inside another one is derived if its alternation is. -/
theorem Derived.ofAlternation {pattern : Pattern} (alternatives : List Pattern)
    (parens : pattern.kinds true = .openGroup :: pattern.kinds false ++ [.closeGroup])
    (derived : Derives flavor resolve .alternation (pattern.kinds false) alternatives)
    (whole : pattern = collapse choice alternatives) : Derived flavor resolve pattern := by
  have group : Derives flavor resolve .group (pattern.kinds true) [pattern] := by
    have inside := Derives.parens derived
    rw [← whole, ← parens] at inside
    exact inside
  exact ⟨.bare group, fun _ => group, alternatives, derived, whole⟩

/-- A formed pattern without stacked quantifiers is derived from its own tokens. -/
theorem Formed.derived {pattern : Pattern} (formed : Formed flavor resolve pattern)
    (flat : pattern.stacked = false) : Derived flavor resolve pattern := by
  induction formed with
  | @leaf symbol id isWord found =>
    rw [← String.ofList_toList (s := id)] at found
    have group := Derives.name found
    rw [String.ofList_toList] at group
    exact ⟨.bare group, fun _ => group, [.leaf symbol id],
      .alternative (.item (.bare group)), rfl⟩
  | @sequence items several _ ih =>
    rw [stacked, stackedAny_eq_false] at flat
    have operands := fun item mem => (ih item mem (flat item mem)).operand
    match items with
    | first :: second :: rest =>
      refine .ofAlternation [.sequence (first :: second :: rest)] rfl ?_ rfl
      have begun := Derives.item (operands first List.mem_cons_self)
      have items := begun.append_items fun item mem => operands item (List.mem_cons_of_mem _ mem)
      rw [← intercalate_cons, ← List.map_cons, ← kindsAll_eq_map] at items
      exact .alternative items
  | @choice alternatives bar several _ ih =>
    rw [stacked, stackedAny_eq_false] at flat
    have operands := fun item mem => (ih item mem (flat item mem)).operand
    match alternatives with
    | first :: second :: rest =>
      refine .ofAlternation (first :: second :: rest) rfl ?_ rfl
      have begun := Derives.alternative (.item (operands first List.mem_cons_self))
      have whole := begun.append_alternatives fun item mem =>
        operands item (List.mem_cons_of_mem _ mem)
      rw [← intercalate_cons, ← List.map_cons, ← kindsAll_eq_map] at whole
      exact whole
  | @quantified quantifier operand sign _ ih =>
    rw [stacked, Bool.or_eq_false_iff] at flat
    -- The operand is not quantified itself, so it is a group.
    have inner := (ih flat.2).group flat.1
    exact ⟨.quantified quantifier inner, nofun, [.quantified quantifier operand],
      .alternative (.item (.quantified quantifier inner)), rfl⟩

/-! ## Stacked quantifiers -/

end Pattern

/-- Whether a token is a quantifier. -/
def TokenKind.isQuantifier : TokenKind → Bool
  | quantifier _ => true
  | _ => false

/-- At most one of two tokens is a quantifier. -/
def TokenKind.Single (first second : TokenKind) : Prop :=
  first.isQuantifier = false ∨ second.isQuantifier = false

/-- Tokens without a quantifier at the start, and without two quantifiers in a row. -/
structure Spaced (kinds : List TokenKind) : Prop where
  chain : kinds.IsChain TokenKind.Single
  start : ∃ first rest, kinds = first :: rest ∧ first.isQuantifier = false

namespace Spaced

theorem singleton {kind : TokenKind} (other : kind.isQuantifier = false) : Spaced [kind] :=
  ⟨.singleton kind, kind, [], rfl, other⟩

theorem append {front back : List TokenKind} (first : Spaced front) (second : Spaced back) :
    Spaced (front ++ back) := by
  obtain ⟨chain, kind, rest, rfl, other⟩ := first
  obtain ⟨chainBack, next, others, rfl, nextOther⟩ := second
  refine ⟨List.isChain_append.mpr ⟨chain, chainBack, fun _ _ found same => ?_⟩, kind,
    rest ++ next :: others, rfl, other⟩
  cases same
  exact .inr nextOther

end Spaced

namespace Pattern

/-- No group ends with a quantifier. -/
theorem Derives.group_end {kinds : List TokenKind} {members : List Pattern}
    (derived : Derives flavor resolve .group kinds members) :
    ∃ front last, kinds = front ++ [last] ∧ last.isQuantifier = false := by
  cases derived with
  | @name word _ _ => exact ⟨[], .word word, rfl, rfl⟩
  | parens _ => exact ⟨_, .closeGroup, rfl, rfl⟩

/-- No derivation has two quantifiers in a row. -/
theorem Derives.spaced {phrase : Phrase} {kinds : List TokenKind} {members : List Pattern}
    (derived : Derives flavor resolve phrase kinds members) : Spaced kinds := by
  induction derived with
  | name _ => exact .singleton rfl
  | parens _ ih => exact ((Spaced.singleton rfl).append ih).append (.singleton rfl)
  | bare _ ih => exact ih
  | @quantified kinds pattern quantifier group ih =>
    obtain ⟨front, last, rfl, other⟩ := group.group_end
    obtain ⟨chain, first, rest, same, start⟩ := ih
    refine ⟨List.isChain_append.mpr ⟨chain, .singleton _, fun kind mem _ _ => ?_⟩, first,
      rest ++ [.quantifier quantifier], by rw [same]; rfl, start⟩
    rw [List.getLast?_concat, Option.mem_some_iff] at mem
    subst mem
    exact .inl other
  | item _ ih => exact ih
  | nextItem _ _ ihItems ihLast => exact ihItems.append ihLast
  | alternative _ ih => exact ih
  | nextAlternative _ _ ihFront ihLast =>
    exact ihFront.append ((Spaced.singleton rfl).append ihLast)

/-- Each of several parts is found in where they are joined. -/
theorem exists_of_mem_intercalate {α : Type} (separator : List α) {part : List α}
    {parts : List (List α)} (mem : part ∈ parts) :
    ∃ before after, separator.intercalate parts = before ++ part ++ after := by
  cases parts with
  | nil => cases mem
  | cons first rest =>
    rw [intercalate_cons]
    rcases List.mem_cons.mp mem with rfl | mem
    · exact ⟨[], _, rfl⟩
    · obtain ⟨front, back, rfl⟩ := List.append_of_mem mem
      refine ⟨first ++ front.flatMap (separator ++ ·) ++ separator,
        back.flatMap (separator ++ ·), ?_⟩
      simp

/-- Where no two quantifiers stand in a row, no quantifiers are stacked. -/
theorem Formed.stacked_eq_false {pattern : Pattern} (formed : Formed flavor resolve pattern)
    {nested : Bool} (chain : (pattern.kinds nested).IsChain TokenKind.Single) :
    pattern.stacked = false := by
  have inside : ∀ {nested : Bool} {kinds : List TokenKind},
      (encloseKinds nested kinds).IsChain TokenKind.Single → kinds.IsChain TokenKind.Single := by
    intro nested kinds chain
    cases nested with
    | false => exact chain
    | true => exact chain.left_of_append.tail
  have member : ∀ {separator : List TokenKind} {patterns : List Pattern} {pattern : Pattern},
      (separator.intercalate (kinds.kindsAll patterns)).IsChain TokenKind.Single →
      pattern ∈ patterns → (pattern.kinds true).IsChain TokenKind.Single := by
    intro separator patterns pattern chain mem
    rw [kindsAll_eq_map] at chain
    obtain ⟨before, after, same⟩ :=
      exists_of_mem_intercalate separator (List.mem_map_of_mem (f := kinds true) mem)
    rw [same] at chain
    exact chain.left_of_append.right_of_append
  induction formed generalizing nested with
  | leaf _ _ => rfl
  | sequence _ _ ih =>
    exact stackedAny_eq_false.mpr fun item mem => ih item mem (member (inside chain) mem)
  | choice _ _ _ ih =>
    exact stackedAny_eq_false.mpr fun item mem => ih item mem (member (inside chain) mem)
  | @quantified quantifier operand _ _ ih =>
    rw [stacked, Bool.or_eq_false_iff]
    refine ⟨?_, ih chain.left_of_append⟩
    -- A quantified operand ends with its own quantifier, right before the outer one.
    cases operand with
    | quantified inner operand =>
      have last : TokenKind.quantifier inner ∈
          ((Pattern.quantified inner operand).kinds true).getLast? := by
        rw [kinds, List.getLast?_concat]
        rfl
      rcases (List.isChain_append.mp chain).2.2 _ last (.quantifier quantifier) rfl with h | h
      · cases h
      · cases h
    | _ => rfl

end Pattern

/-- Whether an expression has stacked quantifiers. -/
def Expression.stacked (expression : Expression) : Bool :=
  expression.root.any Pattern.stacked

/-- The canonical text of a formed pattern is read as the same pattern, except where quantifiers are
stacked: there it is refused. -/
theorem Pattern.Formed.read_chars {flavor : Flavor} {resolve : String → Option Symbol}
    {pattern : Pattern} (formed : Formed flavor resolve pattern) :
    (pattern.stacked = false → read flavor resolve (pattern.chars false) = .ok (some pattern)) ∧
      (pattern.stacked = true →
        ∃ error, read flavor resolve (pattern.chars false) = .error error) := by
  have spelled := (formed.writes false).spelled
  constructor
  · intro flat
    obtain ⟨alternatives, derived, whole⟩ := (formed.derived flat).whole
    exact read_eq_some_iff.mpr ⟨_, alternatives, spelled, derived, whole⟩
  · intro stacked
    -- Whatever tokens the canonical text has, they are the ones that are stacked.
    have different : ∀ kinds, Spelled flavor (pattern.chars false) kinds →
        ¬ kinds.IsChain TokenKind.Single := by
      intro kinds again chain
      rw [← spelled.unique again] at chain
      rw [formed.stacked_eq_false chain] at stacked
      cases stacked
    cases again : read flavor resolve (pattern.chars false) with
    | error error => exact ⟨error, rfl⟩
    | ok root =>
      cases root with
      | none => exact absurd .nil (different [] (read_eq_none_iff.mp again))
      | some other =>
        obtain ⟨kinds, alternatives, respelled, derived, _⟩ := read_eq_some_iff.mp again
        exact absurd derived.spaced.chain (different kinds respelled)

/-- The canonical text of a pattern that was read is read as the same pattern, except where
quantifiers are stacked: there it is refused. -/
theorem Pattern.read_chars {flavor : Flavor} {resolve : String → Option Symbol} {text : List Char}
    {pattern : Pattern} (done : read flavor resolve text = .ok (some pattern)) :
    (pattern.stacked = false → read flavor resolve (pattern.chars false) = .ok (some pattern)) ∧
      (pattern.stacked = true →
        ∃ error, read flavor resolve (pattern.chars false) = .error error) :=
  (formed_of_read done).read_chars

/-- The canonical text of an expression is read as the same pattern, or as none if the expression is
empty, except where quantifiers are stacked: there it is refused. -/
theorem Grammar.read_canonical (grammar : Grammar) (flavor : Flavor) (text : String)
    (expression : Expression) (accepted : grammar.read flavor text = .ok expression) :
    (expression.stacked = false →
      grammar.read flavor expression.canonical = .ok ⟨expression.canonical, expression.root⟩) ∧
    (expression.stacked = true →
      ∃ error, grammar.read flavor expression.canonical = .error error) := by
  obtain ⟨root, done, same⟩ := bind_eq_ok.mp accepted
  cases same
  cases root with
  | none => exact ⟨fun _ => rfl, nofun⟩
  | some pattern =>
    obtain ⟨flat, stacked⟩ := Pattern.read_chars done
    have chars : (Expression.canonical ⟨text, some pattern⟩).toList = pattern.chars false :=
      String.toList_ofList
    constructor
    · intro none
      rw [read, Expression.read, chars, flat none]
      rfl
    · intro some
      obtain ⟨error, refused⟩ := stacked some
      refine ⟨error, ?_⟩
      rw [read, Expression.read, chars, refused]
      rfl

section Example

/-- A grammar of one lexeme. -/
private def lone : Grammar :=
  ⟨{}, ⟨[⟨["A"], ⟨"a", (Regex.char (.single 'a')).recognizer⟩⟩]⟩, [], []⟩

/-- The only name. -/
private def loneLeaf : Pattern :=
  .leaf .lexeme "A"

/-- Parentheses that a pattern needs are printed, and others are not. -/
theorem grouped_canonical :
    let root := Pattern.choice [.quantified .star (.sequence [loneLeaf, loneLeaf]), loneLeaf]
    lone.read .full " ((A) A)*|(A)" = .ok ⟨" ((A) A)*|(A)", some root⟩ ∧
      root.text = "(A A)* | A" ∧
      lone.read .full "(A A)* | A" = .ok ⟨"(A A)* | A", some root⟩ := by
  intro root
  have accepted : lone.read .full " ((A) A)*|(A)" = .ok ⟨" ((A) A)*|(A)", some root⟩ := rfl
  have flat : Expression.stacked ⟨" ((A) A)*|(A)", some root⟩ = false := rfl
  have text : root.text = "(A A)* | A" := rfl
  refine ⟨accepted, text, ?_⟩
  rw [← text]
  exact (lone.read_canonical .full _ _ accepted).1 flat

/-- An optional group of something optional loses its parentheses, and its canonical text is
refused. -/
theorem stacked_canonical :
    let root := Pattern.quantified .optional (.quantified .optional loneLeaf)
    lone.read .full "(A?)?" = .ok ⟨"(A?)?", some root⟩ ∧
      root.text = "A??" ∧
      lone.read .full "A??" = .error (.danglingQuantifier '?' 2) :=
  ⟨rfl, rfl, rfl⟩

end Example

end TreeScheme
