import Mathlib.Data.List.Sort
import TreeScheme.Proofs.Scheme.Recognition

/-!
# Tokens and their spans

A token takes a span of the text, from its offset on and as long as its characters. `Token.Cuts`
says of the tokens of a text, without any loop, that nothing is lost: the text of each token is what
stands at its span, the spans follow one another without overlapping, each character that is no
blank lies in exactly one of them, and words are as long as they can be.

This leaves no choice. Two lists of tokens that cut the same text are the same list
(`Token.Cuts.unique`), and scanning finds it wherever the text has only characters of the flavor.
So `Token.scan` gives some tokens exactly if they cut the text, and an error exactly if it names the
first character that the flavor does not have (`Token.scan_loses_nothing`).
-/

namespace TreeScheme

open Header (NameWord)
open Text (byteSize isBlank)

/-! ## The characters of a flavor -/

/-- The operators of a flavor. -/
def Flavor.signs : Flavor → List Char
  | .simple => ['(', ')', '?']
  | .full => ['(', ')', '?', '*', '+', '|']

/-- A character that an expression of a flavor may have: a blank, a character of a name, or an
operator. -/
def Flavor.Has (flavor : Flavor) (c : Char) : Prop :=
  isBlank c = true ∨ isNameChar c = true ∨ c ∈ flavor.signs

/-- A character of a text, behind some others, is the first one that a flavor does not have. -/
structure Flavor.Lacks (flavor : Flavor) (text before : List Char) (c : Char) : Prop where
  stands : ∃ after, before ++ c :: after = text
  before : ∀ d ∈ before, flavor.Has d
  foreign : ¬flavor.Has c

/-- Each operator is a token. -/
theorem TokenKind.isSome_ofSign?_iff {flavor : Flavor} {c : Char} :
    (ofSign? flavor c).isSome = true ↔ c ∈ flavor.signs := by
  cases flavor with
  | simple =>
    simp only [ofSign?, Flavor.signs]
    split_ifs <;> simp [*]
  | full =>
    simp only [ofSign?, Flavor.signs]
    split_ifs <;> simp [*]

theorem Token.allows_iff {flavor : Flavor} {c : Char} : Allows flavor c ↔ flavor.Has c :=
  or_congr_right (or_congr_right TokenKind.isSome_ofSign?_iff)

/-- Only one character of a text is the first one. -/
theorem Flavor.Lacks.unique {flavor : Flavor} {text before front : List Char} {c d : Char}
    (lacks : flavor.Lacks text before c) (again : flavor.Lacks text front d) :
    before = front ∧ c = d := by
  obtain ⟨after, split⟩ := lacks.stands
  obtain ⟨rest, same⟩ := again.stands
  rcases Text.split_append (split.trans same.symm) with ⟨behind, longer, _⟩ | ⟨between, rfl, tail⟩
  · exact absurd (lacks.before d (longer ▸ by simp)) again.foreign
  · cases between with
    | nil =>
      cases tail
      exact ⟨(List.append_nil before).symm, rfl⟩
    | cons e between =>
      cases tail
      exact absurd (again.before c (by simp)) lacks.foreign

namespace TokenKind.Legal

variable {flavor : Flavor} {kind : TokenKind} (legal : kind.Legal flavor)

include legal

theorem chars_ne_nil : kind.chars ≠ [] := by
  rcases legal with ⟨word, rfl, some, _⟩ | ⟨c, sign⟩
  · exact some
  · rw [(of_ofSign? sign).2]
    exact List.cons_ne_nil c []

/-- No token has blanks. -/
theorem solid {c : Char} (mem : c ∈ kind.chars) : isBlank c = false := by
  rcases legal with ⟨word, rfl, _, all⟩ | ⟨d, sign⟩
  · exact nameClass_isNameChar.solid c (all c mem)
  · rw [(of_ofSign? sign).2] at mem
    rw [List.mem_singleton.mp mem]
    exact (solid_of_ofSign? sign).1

/-- The flavor has the characters of its tokens. -/
theorem has {c : Char} (mem : c ∈ kind.chars) : flavor.Has c := by
  rcases legal with ⟨word, rfl, _, all⟩ | ⟨d, sign⟩
  · exact .inr (.inl (all c mem))
  · rw [(of_ofSign? sign).2] at mem
    rw [List.mem_singleton.mp mem]
    exact .inr (.inr (isSome_ofSign?_iff.mp (Option.isSome_of_eq_some sign)))

/-- A token with a name character is a word. -/
theorem exists_word {c : Char} (mem : c ∈ kind.chars) (name : isNameChar c = true) :
    ∃ word, kind = .word word ∧ NameWord isNameChar word := by
  rcases legal with isWord | ⟨d, sign⟩
  · exact isWord
  · rw [(of_ofSign? sign).2] at mem
    rw [List.mem_singleton.mp mem, (solid_of_ofSign? sign).2] at name
    cases name

/-- A token with any other character is this one character, an operator. -/
theorem ofSign?_of_mem {c : Char} (mem : c ∈ kind.chars) (noName : isNameChar c = false) :
    TokenKind.ofSign? flavor c = some kind ∧ kind.chars = [c] := by
  rcases legal with ⟨word, rfl, _, all⟩ | ⟨d, sign⟩
  · rw [all c mem] at noName
    cases noName
  · have chars := (of_ofSign? sign).2
    rw [chars] at mem
    rw [List.mem_singleton.mp mem]
    exact ⟨sign, chars⟩

end TokenKind.Legal

/-! ## Spans -/

namespace Token

/-- Where the span of a token ends. -/
def stop (token : Token) : Nat :=
  token.offset + byteSize token.kind.chars

/-- A character behind some text lies in the span of a token, with all its bytes. -/
def Spans (token : Token) (before : List Char) (c : Char) : Prop :=
  token.offset ≤ byteSize before ∧ byteSize before + c.utf8Size ≤ token.stop

/-- A token stands at a spot of a text, and if it is a word, it is a whole one. -/
structure Stands (token : Token) (text : List Char) (spot : Spot) : Prop where
  text : spot.text = text
  offset : byteSize spot.before = token.offset
  chars : spot.word = token.kind.chars
  whole : ∀ word, token.kind = .word word → spot.IsWhole isNameChar

/-- Tokens cut a text into their spans and blanks. -/
structure Cuts (flavor : Flavor) (text : List Char) (tokens : List Token) : Prop where
  /-- A token is a word or an operator of the flavor. -/
  legal : ∀ token ∈ tokens, token.kind.Legal flavor
  /-- The text of a token is what stands at its span. -/
  stands : ∀ token ∈ tokens, ∃ spot, token.Stands text spot
  /-- No span is empty. -/
  nonempty : ∀ token ∈ tokens, token.offset < token.stop
  /-- Each span ends before the next one starts. -/
  ordered : tokens.Pairwise fun first second => first.stop ≤ second.offset
  /-- Each character that is no blank lies in one span. -/
  covers : ∀ before c after, before ++ c :: after = text → isBlank c = false →
    ∃! token, token ∈ tokens ∧ token.Spans before c

/-- A character lies in one span at most. -/
theorem eq_of_spans {tokens : List Token} {first second : Token} {before : List Char} {c : Char}
    (ordered : tokens.Pairwise fun first second => first.stop ≤ second.offset)
    (memFirst : first ∈ tokens) (memSecond : second ∈ tokens) (here : first.Spans before c)
    (there : second.Spans before c) : first = second := by
  have positive : 0 < c.utf8Size := c.utf8Size_pos
  by_contra apart
  have eitherWay : tokens.Pairwise fun first second =>
      first.stop ≤ second.offset ∨ second.stop ≤ first.offset := ordered.imp .inl
  have : Std.Symm fun first second : Token =>
      first.stop ≤ second.offset ∨ second.stop ≤ first.offset := ⟨fun _ _ => Or.symm⟩
  have disjoint := eitherWay.forall memFirst memSecond apart
  unfold Spans at here there
  omega

end Token

/-- A character in the span of a token is a character of the token. -/
theorem Token.Stands.within {token : Token} {text before after : List Char} {c : Char}
    {spot : Spot} (stands : token.Stands text spot) (split : before ++ c :: after = text)
    (spans : token.Spans before c) : ∃ front behind, before = spot.before ++ front ∧
      token.kind.chars = front ++ c :: behind := by
  obtain ⟨starts, ends⟩ := spans
  have positive : 0 < c.utf8Size := c.utf8Size_pos
  have same : spot.before ++ (spot.word ++ spot.after) = before ++ c :: after :=
    stands.text.trans split.symm
  rw [Token.stop, ← stands.chars, ← stands.offset] at ends
  rw [← stands.offset] at starts
  rw [← stands.chars]
  rcases Text.split_append same with ⟨behind, longer, _⟩ | ⟨front, shorter, rest⟩
  · rw [longer, Text.byteSize_append, Text.byteSize_cons] at starts
    omega
  · rcases Text.split_append rest with ⟨behind, inside, _⟩ | ⟨beyond, past, _⟩
    · exact ⟨front, behind, shorter, inside⟩
    · rw [shorter, past, Text.byteSize_append, Text.byteSize_append] at ends
      omega

/-! ## What is scanned -/

namespace Placed

variable {flavor : Flavor} {start : Nat} {text : List Char} {tokens : List Token} {token : Token}

theorem legal_of_mem (placed : Placed flavor start text tokens) (mem : token ∈ tokens) :
    token.kind.Legal flavor := by
  induction placed with
  | done _ => cases mem
  | token _ legal _ _ ih =>
    rcases List.mem_cons.mp mem with rfl | mem
    · exact legal
    · exact ih mem

/-- What a token stands for is found at its offset. -/
theorem exists_spot (placed : Placed flavor start text tokens) (mem : token ∈ tokens) :
    ∃ spot : Spot, spot.text = text ∧ start + byteSize spot.before = token.offset ∧
      spot.word = token.kind.chars := by
  induction placed with
  | done _ => cases mem
  | @token start gap behind tokens kind _ _ _ _ ih =>
    rcases List.mem_cons.mp mem with rfl | mem
    · exact ⟨⟨gap, kind.chars, behind⟩, rfl, rfl, rfl⟩
    · obtain ⟨⟨before, word, after⟩, rfl, place, chars⟩ := ih mem
      refine ⟨⟨gap ++ kind.chars ++ before, word, after⟩, by simp [Spot.text], ?_, chars⟩
      rw [← place]
      simp only [Text.byteSize_append]
      omega

/-- Each token ends before the next one starts. -/
theorem ordered (placed : Placed flavor start text tokens) :
    tokens.Pairwise fun first second => first.stop ≤ second.offset := by
  induction placed with
  | done _ => exact .nil
  | token _ _ _ rest ih =>
    refine .cons (fun later mem => ?_) ih
    obtain ⟨spot, _, place, _⟩ := rest.exists_spot mem
    rw [← place]
    exact Nat.le_add_right _ _

/-- Each character that is no blank lies in a span. -/
theorem exists_spanning (placed : Placed flavor start text tokens) {before after : List Char}
    {c : Char} (split : before ++ c :: after = text) (solid : isBlank c = false) :
    ∃ token ∈ tokens, token.offset ≤ start + byteSize before ∧
      start + byteSize before + c.utf8Size ≤ token.stop := by
  induction placed generalizing before with
  | @done start blanks blank =>
    have mem : c ∈ blanks := split ▸ by simp
    rw [blank c mem] at solid
    cases solid
  | @token start gap behind tokens kind blank _ _ _ ih =>
    rcases Text.split_append split.symm with ⟨more, rfl, _⟩ | ⟨front, rfl, rest⟩
    · rw [blank c (by simp)] at solid
      cases solid
    · rcases Text.split_append rest with ⟨more, inside, _⟩ | ⟨between, rfl, later⟩
      · refine ⟨_, List.mem_cons_self, ?_, ?_⟩
        · rw [Text.byteSize_append]
          show start + byteSize gap ≤ _
          omega
        · show _ ≤ start + byteSize gap + byteSize kind.chars
          rw [inside]
          simp only [Text.byteSize_append, Text.byteSize_cons]
          omega
      · obtain ⟨token, mem, starts, ends⟩ := ih later.symm
        refine ⟨token, List.mem_cons_of_mem _ mem, ?_, ?_⟩
        · simp only [Text.byteSize_append]
          omega
        · simp only [Text.byteSize_append]
          omega

end Placed

namespace Token

variable {flavor : Flavor} {text : List Char} {tokens others : List Token}

/-- What is scanned cuts the text. -/
theorem cuts_of_scan (scanned : scan flavor 0 text = .ok tokens) : Cuts flavor text tokens := by
  have placed := placed_of_scan scanned
  refine ⟨fun token => placed.legal_of_mem, fun token mem => ?_, fun token mem => ?_,
    placed.ordered, fun before c after split solid => ?_⟩
  · by_cases isWord : ∃ word, token.kind = .word word
    · obtain ⟨kind, offset⟩ := token
      obtain ⟨word, rfl⟩ := isWord
      obtain ⟨spot, same, place, chars, whole⟩ := placed.isWhole_of_mem mem
      rw [Nat.zero_add] at place
      exact ⟨spot, same, place, chars, fun _ _ => whole⟩
    · obtain ⟨spot, same, place, chars⟩ := placed.exists_spot mem
      rw [Nat.zero_add] at place
      exact ⟨spot, same, place, chars, fun word here => absurd ⟨word, here⟩ isWord⟩
  · have some := (placed.legal_of_mem mem).chars_ne_nil
    obtain ⟨c, cs, chars⟩ := List.exists_cons_of_ne_nil some
    have positive : 0 < c.utf8Size := c.utf8Size_pos
    rw [stop, chars, Text.byteSize_cons]
    omega
  · obtain ⟨token, mem, starts, ends⟩ := placed.exists_spanning split solid
    rw [Nat.zero_add] at starts ends
    refine ⟨token, ⟨mem, starts, ends⟩, fun other there => ?_⟩
    exact eq_of_spans placed.ordered there.1 mem there.2 ⟨starts, ends⟩

end Token

/-! ## No other tokens -/

/-- Two whole words of a text, one of which starts within the other, are one word. -/
theorem Spot.IsWhole.eq_of_starts {isName : Char → Bool}
    {before front word after otherWord otherAfter : List Char}
    (whole : IsWhole isName ⟨before ++ front, word, after⟩)
    (otherWhole : IsWhole isName ⟨before, otherWord, otherAfter⟩)
    (names : ∀ c ∈ front, isName c = true)
    (same : before ++ front ++ (word ++ after) = before ++ (otherWord ++ otherAfter)) :
    front = [] ∧ word = otherWord := by
  have empty : front = [] := whole.eq_nil_of_append names
  rw [empty, List.append_nil, List.append_cancel_left_eq] at same
  refine ⟨empty, whole.leadingWord.unique ?_⟩
  rw [same]
  exact otherWhole.leadingWord

namespace Token

variable {flavor : Flavor} {text : List Char} {tokens others : List Token}

namespace Cuts

/-- A text that is cut has only characters of the flavor. -/
theorem has (cuts : Cuts flavor text tokens) : ∀ c ∈ text, flavor.Has c := by
  intro c mem
  cases blank : isBlank c with
  | true => exact .inl blank
  | false =>
    obtain ⟨before, after, split⟩ := List.append_of_mem mem
    obtain ⟨token, ⟨listed, spans⟩, _⟩ := cuts.covers before c after split.symm blank
    obtain ⟨spot, stands⟩ := cuts.stands token listed
    obtain ⟨front, behind, _, chars⟩ := stands.within split.symm spans
    exact (cuts.legal token listed).has (by simp [chars])

/-- Offsets increase. -/
theorem increasing (cuts : Cuts flavor text tokens) :
    tokens.Pairwise fun first second => first.offset < second.offset := by
  refine cuts.ordered.imp_of_mem fun {first second} mem _ le => ?_
  have nonempty := cuts.nonempty first mem
  omega

end Cuts

/-- Two tokens that share a character, right where one of them starts, are one token. -/
theorem Stands.eq_of_shared {token other : Token} {spot otherSpot : Spot} {c : Char}
    {rest front behind : List Char} (stands : token.Stands text spot)
    (otherStands : other.Stands text otherSpot) (legal : token.kind.Legal flavor)
    (otherLegal : other.kind.Legal flavor) (starts : token.kind.chars = c :: rest)
    (shared : spot.before = otherSpot.before ++ front)
    (within : other.kind.chars = front ++ c :: behind) : token = other := by
  have mem : c ∈ token.kind.chars := starts ▸ List.mem_cons_self
  have memOther : c ∈ other.kind.chars := within ▸ by simp
  suffices same : front = [] ∧ token.kind = other.kind by
    obtain ⟨empty, kinds⟩ := same
    have places : token.offset = other.offset := by
      rw [← stands.offset, ← otherStands.offset, shared, empty, List.append_nil]
    cases token
    cases other
    cases kinds
    cases places
    rfl
  cases name : isNameChar c with
  | true =>
    obtain ⟨word, isWord, _⟩ := legal.exists_word mem name
    obtain ⟨otherWord, otherIsWord, names⟩ := otherLegal.exists_word memOther name
    have whole := stands.whole word isWord
    have otherWhole := otherStands.whole otherWord otherIsWord
    have same := stands.text.trans otherStands.text.symm
    have chars := stands.chars
    have otherChars := otherStands.chars
    rw [isWord, TokenKind.chars] at chars
    rw [otherIsWord, TokenKind.chars] at otherChars within
    have all : ∀ d ∈ front, isNameChar d = true := by
      intro d mem
      apply names.2
      rw [within]
      exact List.mem_append_left _ mem
    obtain ⟨before, _, after⟩ := spot
    obtain ⟨otherBefore, _, otherAfter⟩ := otherSpot
    cases chars
    cases otherChars
    cases shared
    obtain ⟨empty, same⟩ := whole.eq_of_starts otherWhole all same
    exact ⟨empty, by rw [isWord, otherIsWord, same]⟩
  | false =>
    obtain ⟨sign, _⟩ := legal.ofSign?_of_mem mem name
    obtain ⟨otherSign, single⟩ := otherLegal.ofSign?_of_mem memOther name
    rw [single] at within
    obtain ⟨empty, _⟩ | ⟨more, _, impossible⟩ := List.cons_eq_append_iff.mp within
    · exact ⟨empty, Option.some.inj (sign.symm.trans otherSign)⟩
    · simp at impossible

namespace Cuts

/-- Every token is found in any list that cuts the text. -/
theorem subset (cuts : Cuts flavor text tokens) (again : Cuts flavor text others) :
    tokens ⊆ others := by
  intro token mem
  have legal := cuts.legal token mem
  obtain ⟨spot, stands⟩ := cuts.stands token mem
  obtain ⟨c, rest, chars⟩ := List.exists_cons_of_ne_nil legal.chars_ne_nil
  have split : spot.before ++ c :: (rest ++ spot.after) = text := by
    rw [← stands.text, Spot.text, stands.chars, chars, List.cons_append]
  have solid : isBlank c = false := legal.solid (chars ▸ List.mem_cons_self)
  -- The first character of the token lies in a span of the other list, too.
  obtain ⟨other, ⟨listed, spans⟩, _⟩ := again.covers _ _ _ split solid
  obtain ⟨otherSpot, otherStands⟩ := again.stands other listed
  obtain ⟨front, behind, shared, within⟩ := otherStands.within split spans
  rw [stands.eq_of_shared otherStands legal (again.legal other listed) chars shared within]
  exact listed

/-- **A text is cut in one way at most.** -/
theorem unique (cuts : Cuts flavor text tokens) (again : Cuts flavor text others) :
    tokens = others := by
  have : Std.Irrefl fun first second : Token => first.offset < second.offset :=
    ⟨fun _ => Nat.lt_irrefl _⟩
  have : Std.Antisymm fun first second : Token => first.offset < second.offset :=
    ⟨fun _ _ less more => absurd less (Nat.lt_asymm more)⟩
  exact cuts.increasing.eq_of_mem_iff again.increasing fun _ =>
    ⟨fun mem => cuts.subset again mem, fun mem => again.subset cuts mem⟩

end Cuts

/-! ## All texts -/

/-- Tokens are found exactly if they cut the text. -/
theorem scan_eq_ok_iff : scan flavor 0 text = .ok tokens ↔ Cuts flavor text tokens := by
  refine ⟨cuts_of_scan, fun cuts => ?_⟩
  obtain ⟨others, scanned⟩ :=
    exists_scan_of_allows (fun c mem => allows_iff.mpr (cuts.has c mem)) 0
  rw [cuts.unique (cuts_of_scan scanned)]
  exact scanned

/-- A text has tokens exactly if the flavor has all its characters. -/
theorem exists_scan_iff :
    (∃ tokens, scan flavor 0 text = .ok tokens) ↔ ∀ c ∈ text, flavor.Has c := by
  constructor
  · intro ⟨tokens, scanned⟩
    exact (cuts_of_scan scanned).has
  · intro all
    exact exists_scan_of_allows (fun c mem => allows_iff.mpr (all c mem)) 0

/-- There is an error exactly if it names the first character that the flavor does not have. -/
theorem scan_eq_error_iff {error : GrammarError} : scan flavor 0 text = .error error ↔
    ∃ before c, flavor.Lacks text before c ∧ error = .unexpectedCharacter c (byteSize before) := by
  have first {error : GrammarError} (refused : scan flavor 0 text = .error error) :
      ∃ before c, flavor.Lacks text before c ∧
        error = .unexpectedCharacter c (byteSize before) := by
    obtain ⟨before, c, after, split, all, foreign, rfl⟩ := scan_eq_error refused
    rw [Nat.zero_add]
    refine ⟨before, c, ⟨⟨after, split.symm⟩, fun d mem => allows_iff.mp (all d mem), ?_⟩, rfl⟩
    exact fun has => foreign (allows_iff.mpr has)
  refine ⟨first, ?_⟩
  rintro ⟨before, c, lacks, rfl⟩
  cases scanned : scan flavor 0 text with
  | ok tokens =>
    obtain ⟨after, split⟩ := lacks.stands
    exact absurd (exists_scan_iff.mp ⟨tokens, scanned⟩ c (split ▸ by simp)) lacks.foreign
  | error error =>
    obtain ⟨front, d, again, rfl⟩ := first scanned
    obtain ⟨rfl, rfl⟩ := lacks.unique again
    rfl

/-- **Nothing is lost.** A text has tokens exactly if all its characters are blanks, characters of
names or operators of the flavor. The tokens that are found are those that cut the text, and no
others do: each of them is what stands at its span, spans are in order and do not overlap, every
character that is no blank lies in exactly one span, and words are as long as they can be. An error
names the first character that the flavor does not have, and where it is. -/
theorem scan_loses_nothing (flavor : Flavor) (text : List Char) :
    ((∃ tokens, scan flavor 0 text = .ok tokens) ↔ ∀ c ∈ text, flavor.Has c) ∧
      (∀ tokens, scan flavor 0 text = .ok tokens ↔ Cuts flavor text tokens) ∧
      ∀ error, scan flavor 0 text = .error error ↔ ∃ before c,
        flavor.Lacks text before c ∧ error = .unexpectedCharacter c (byteSize before) :=
  ⟨exists_scan_iff, fun _ => scan_eq_ok_iff, fun _ => scan_eq_error_iff⟩

-- The blank has three bytes, and the words meet at the bar.
example : scan .full 0 "\u3000a-1|B".toList =
    .ok [⟨.word "a-1".toList, 3⟩, ⟨.bar, 6⟩, ⟨.word ['B'], 7⟩] := by decide

end Token

end TreeScheme
