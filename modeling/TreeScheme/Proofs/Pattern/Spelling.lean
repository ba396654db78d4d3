import TreeScheme.Pattern.Reader
import TreeScheme.Proofs.Result
import TreeScheme.Proofs.Scheme.Header

/-!
# How tokens are spelled

`Token.scan` reads a text from the right and glues name characters together where they touch.
`Spelled` says which tokens a text has without offsets and without gluing: blanks, signs, and words
that end where no name character follows. A text is scanned exactly if it spells tokens, and its
tokens are of the kinds that it spells (`Token.scan_iff`).

Offsets are for messages only, so they do not matter to `Spelled`. Neither do blanks at the ends of
a text (`spelled_trim`).
-/

namespace TreeScheme

open Header (NameWord startsName)
open Text (isBlank trim trimEnd trimStart)

/-- A text spells tokens of some kinds in a flavor. -/
inductive Spelled (flavor : Flavor) : List Char → List TokenKind → Prop where
  | done : Spelled flavor [] []
  | blank {c cs kinds} :
    isBlank c = true →
    Spelled flavor cs kinds →
    Spelled flavor (c :: cs) kinds
  | word {word cs kinds} :
    NameWord isNameChar word →
    startsName isNameChar cs = false →
    Spelled flavor cs kinds →
    Spelled flavor (word ++ cs) (.word word :: kinds)
  | sign {c cs kind kinds} :
    TokenKind.ofSign? flavor c = some kind →
    Spelled flavor cs kinds →
    Spelled flavor (c :: cs) (kind :: kinds)

/-! ## Signs -/

/-- A sign is no word, and is its own text. -/
theorem TokenKind.of_ofSign? {flavor : Flavor} {c : Char} {kind : TokenKind}
    (found : ofSign? flavor c = some kind) : (∀ word, kind ≠ .word word) ∧ kind.chars = [c] := by
  cases flavor with
  | simple =>
    simp only [ofSign?] at found
    split_ifs at found with h h h <;> cases found <;> subst h <;> exact ⟨nofun, rfl⟩
  | full =>
    simp only [ofSign?] at found
    split_ifs at found with h h h h h h <;> cases found <;> subst h <;> exact ⟨nofun, rfl⟩

/-- A sign is neither a blank nor a character of a name. -/
theorem TokenKind.solid_of_ofSign? {flavor : Flavor} {c : Char} {kind : TokenKind}
    (found : ofSign? flavor c = some kind) : isBlank c = false ∧ isNameChar c = false := by
  obtain ⟨noWord, chars⟩ := of_ofSign? found
  cases kind with
  | word word => exact absurd rfl (noWord word)
  | openGroup =>
    cases chars
    decide
  | closeGroup =>
    cases chars
    decide
  | bar =>
    cases chars
    decide
  | quantifier quantifier => cases quantifier <;> cases chars <;> decide

/-- No name starts with a blank. -/
theorem isNameChar_of_blank {c : Char} (blank : isBlank c = true) : isNameChar c = false := by
  by_contra name
  rw [nameClass_isNameChar.solid c (by simpa using name)] at blank
  cases blank

/-! ## Taking spellings apart -/

namespace Spelled

variable {flavor : Flavor} {c : Char} {cs : List Char} {kinds : List TokenKind}

/-- Behind a blank stands what the whole text spells. -/
theorem of_blank (spelled : Spelled flavor (c :: cs) kinds) (blank : isBlank c = true) :
    Spelled flavor cs kinds := by
  generalize same : c :: cs = text at spelled
  cases spelled with
  | done => cases same
  | blank _ rest =>
    cases same
    exact rest
  | @word word behind kinds isWord _ _ =>
    obtain ⟨some, all⟩ := isWord
    obtain ⟨d, word, rfl⟩ := List.exists_cons_of_ne_nil some
    cases same
    have name := all c List.mem_cons_self
    rw [isNameChar_of_blank blank] at name
    cases name
  | sign found _ =>
    cases same
    rw [(TokenKind.solid_of_ofSign? found).1] at blank
    cases blank

/-- A text that starts with a name character spells a word first, as far as there are name
characters. -/
theorem exists_word (spelled : Spelled flavor cs kinds) (name : startsName isNameChar cs = true) :
    ∃ word behind rest, cs = word ++ behind ∧ kinds = .word word :: rest ∧
      NameWord isNameChar word ∧ startsName isNameChar behind = false ∧
      Spelled flavor behind rest := by
  cases spelled with
  | done => cases name
  | blank blank _ =>
    rw [startsName, isNameChar_of_blank blank] at name
    cases name
  | word isWord apart rest => exact ⟨_, _, _, rfl, rfl, isWord, apart, rest⟩
  | sign found _ =>
    rw [startsName, (TokenKind.solid_of_ofSign? found).2] at name
    cases name

end Spelled

namespace Token

/-! ## Scanning -/

/-- What scanning a text from an offset has found. The word at the offset, if there is one, is the
one that a name character before the text joins. -/
structure Found (flavor : Flavor) (offset : Nat) (cs : List Char) (tokens : List Token) : Prop where
  behind : ∀ token ∈ tokens, offset ≤ token.offset
  touches : startsName isNameChar cs = true → ∃ word rest, tokens = ⟨.word word, offset⟩ :: rest
  apart : startsName isNameChar cs = false →
    ∀ word rest, tokens ≠ ⟨.word word, offset⟩ :: rest
  spelled : Spelled flavor cs (tokens.map kind)

namespace Found

variable {flavor : Flavor} {offset : Nat} {c : Char} {cs : List Char} {tokens : List Token}

/-- A blank has no token. -/
theorem blank (found : Found flavor (offset + c.utf8Size) cs tokens) (blank : isBlank c = true) :
    Found flavor offset (c :: cs) tokens := by
  have positive : 0 < c.utf8Size := c.utf8Size_pos
  have noName : startsName isNameChar (c :: cs) = false := isNameChar_of_blank blank
  refine ⟨fun token mem => ?_, fun name => ?_, fun _ word rest same => ?_,
    .blank blank found.spelled⟩
  · have := found.behind token mem
    omega
  · rw [noName] at name
    cases name
  · subst same
    have : offset + c.utf8Size ≤ offset := found.behind _ List.mem_cons_self
    omega

/-- A sign is a token. -/
theorem sign (found : Found flavor (offset + c.utf8Size) cs tokens) {kind : TokenKind}
    (isSign : TokenKind.ofSign? flavor c = some kind) :
    Found flavor offset (c :: cs) (⟨kind, offset⟩ :: tokens) := by
  have noName : startsName isNameChar (c :: cs) = false := (TokenKind.solid_of_ofSign? isSign).2
  refine ⟨fun token mem => ?_, fun name => ?_, fun _ word rest same => ?_,
    .sign isSign found.spelled⟩
  · rcases List.mem_cons.mp mem with rfl | mem
    · exact Nat.le_refl offset
    · have := found.behind token mem
      omega
  · rw [noName] at name
    cases name
  · cases same
    exact (TokenKind.of_ofSign? isSign).1 word rfl

/-- A name character joins the word that it touches. -/
theorem consNameChar_of_touches {word : List Char} :
    consNameChar c offset (⟨.word word, offset + c.utf8Size⟩ :: tokens) =
      ⟨.word (c :: word), offset⟩ :: tokens := by
  simp [consNameChar]

/-- A name character that touches no word is a word. -/
theorem consNameChar_of_apart (apart : ∀ word rest,
    tokens ≠ ⟨.word word, offset + c.utf8Size⟩ :: rest) :
    consNameChar c offset tokens = ⟨.word [c], offset⟩ :: tokens := by
  unfold consNameChar
  split
  · rfl
  · rename_i word start rest
    rw [if_neg]
    intro same
    subst same
    exact apart word rest rfl
  · rfl

/-- A name character is a word, or the start of one. -/
theorem name (found : Found flavor (offset + c.utf8Size) cs tokens) (isName : isNameChar c = true) :
    Found flavor offset (c :: cs) (consNameChar c offset tokens) := by
  have starts : ∀ word rest, consNameChar c offset tokens = ⟨.word word, offset⟩ :: rest →
      (∀ token ∈ rest, offset ≤ token.offset) → Spelled flavor (c :: cs) (.word word ::
        rest.map kind) → Found flavor offset (c :: cs) (consNameChar c offset tokens) := by
    intro word rest same behind spelled
    rw [same]
    refine ⟨fun token mem => ?_, fun _ => ⟨word, rest, rfl⟩, fun noName => ?_, spelled⟩
    · rcases List.mem_cons.mp mem with rfl | mem
      · exact Nat.le_refl offset
      · exact behind token mem
    · rw [startsName, isName] at noName
      cases noName
  cases touching : startsName isNameChar cs with
  | false =>
    refine starts [c] tokens (consNameChar_of_apart (found.apart touching)) (fun token mem => ?_) ?_
    · have := found.behind token mem
      omega
    · have isWord : NameWord isNameChar [c] := ⟨List.cons_ne_nil _ _, by simpa using isName⟩
      exact .word isWord touching found.spelled
  | true =>
    obtain ⟨word, rest, rfl⟩ := found.touches touching
    refine starts (c :: word) rest consNameChar_of_touches (fun token mem => ?_) ?_
    · have := found.behind token (List.mem_cons_of_mem _ mem)
      omega
    · obtain ⟨first, behind, kinds, rfl, same, ⟨_, all⟩, apart, spelled⟩ :=
        found.spelled.exists_word touching
      cases same
      have isWord : NameWord isNameChar (c :: word) := by
        refine ⟨List.cons_ne_nil _ _, fun d mem => ?_⟩
        rcases List.mem_cons.mp mem with rfl | mem
        · exact isName
        · exact all d mem
      exact .word isWord apart spelled

end Found

/-- Scanning finds what the text spells. -/
theorem found_of_scan {flavor : Flavor} {cs : List Char} {offset : Nat} {tokens : List Token}
    (scanned : scan flavor offset cs = .ok tokens) : Found flavor offset cs tokens := by
  induction cs generalizing offset tokens with
  | nil =>
    cases scanned
    exact ⟨fun _ mem => absurd mem List.not_mem_nil, nofun, fun _ _ _ => nofun, .done⟩
  | cons c cs ih =>
    rw [scan] at scanned
    split at scanned
    · rename_i blank
      exact (ih scanned).blank blank
    · split at scanned
      · rename_i name
        obtain ⟨rest, found, rfl⟩ := map_eq_ok.mp scanned
        exact (ih found).name name
      · split at scanned
        · rename_i kind sign
          obtain ⟨rest, found, rfl⟩ := map_eq_ok.mp scanned
          exact (ih found).sign sign
        · cases scanned

/-- What a text spells is found from every offset. -/
theorem exists_scan {flavor : Flavor} {cs : List Char} {kinds : List TokenKind}
    (spelled : Spelled flavor cs kinds) (offset : Nat) :
    ∃ tokens, scan flavor offset cs = .ok tokens ∧ tokens.map kind = kinds := by
  induction spelled generalizing offset with
  | done => exact ⟨[], rfl, rfl⟩
  | @blank c cs kinds blank _ ih =>
    obtain ⟨tokens, scanned, rfl⟩ := ih (offset + c.utf8Size)
    refine ⟨tokens, ?_, rfl⟩
    rw [scan, if_pos blank, scanned]
  | @sign c cs kind kinds isSign _ ih =>
    obtain ⟨tokens, scanned, rfl⟩ := ih (offset + c.utf8Size)
    obtain ⟨noBlank, noName⟩ := TokenKind.solid_of_ofSign? isSign
    refine ⟨⟨kind, offset⟩ :: tokens, ?_, rfl⟩
    rw [scan, if_neg (by simp [noBlank]), if_neg (by simp [noName]), isSign, scanned]
    rfl
  | @word word cs kinds isWord apart _ ih =>
    obtain ⟨some, all⟩ := isWord
    -- The word grows to the left, one character at a time.
    induction word generalizing offset with
    | nil => exact absurd rfl some
    | cons c word grow =>
      have name : isNameChar c = true := all c List.mem_cons_self
      have scan_cons : ∀ tokens, scan flavor (offset + c.utf8Size) (word ++ cs) = .ok tokens →
          scan flavor offset (c :: word ++ cs) = .ok (consNameChar c offset tokens) := by
        intro tokens scanned
        rw [List.cons_append, scan, if_neg (by simp [nameClass_isNameChar.solid c name]),
          if_pos name, scanned]
        rfl
      cases word with
      | nil =>
        obtain ⟨tokens, scanned, rfl⟩ := ih (offset + c.utf8Size)
        refine ⟨_, scan_cons tokens scanned, ?_⟩
        rw [Found.consNameChar_of_apart ((found_of_scan scanned).apart apart), List.map_cons]
      | cons d word =>
        obtain ⟨tokens, scanned, same⟩ := grow (offset + c.utf8Size) (List.cons_ne_nil _ _)
          fun e mem => all e (List.mem_cons_of_mem _ mem)
        have touching : startsName isNameChar (d :: word ++ cs) = true :=
          all d (List.mem_cons_of_mem _ List.mem_cons_self)
        obtain ⟨found, rest, rfl⟩ := (found_of_scan scanned).touches touching
        cases same
        exact ⟨_, scan_cons _ scanned, by rw [Found.consNameChar_of_touches, List.map_cons]⟩

/-- A text spells tokens exactly if scanning finds tokens of these kinds. -/
theorem scan_iff {flavor : Flavor} {cs : List Char} {kinds : List TokenKind} (offset : Nat) :
    (∃ tokens, scan flavor offset cs = .ok tokens ∧ tokens.map kind = kinds) ↔
      Spelled flavor cs kinds := by
  constructor
  · intro ⟨tokens, scanned, same⟩
    rw [← same]
    exact (found_of_scan scanned).spelled
  · intro spelled
    exact exists_scan spelled offset

/-- Blanks at the end of a text change nothing. -/
theorem scan_append {blanks : List Char} (blank : ∀ c ∈ blanks, isBlank c = true)
    (flavor : Flavor) (offset : Nat) (cs : List Char) :
    scan flavor offset (cs ++ blanks) = scan flavor offset cs := by
  induction cs generalizing offset with
  | nil =>
    induction blanks generalizing offset with
    | nil => rfl
    | cons c blanks ih =>
      have skipped :
          scan flavor offset (c :: blanks) = scan flavor (offset + c.utf8Size) blanks := by
        rw [scan, if_pos (blank c List.mem_cons_self)]
      rw [List.nil_append, skipped]
      exact ih (fun d mem => blank d (List.mem_cons_of_mem _ mem)) _
  | cons c cs ih => rw [List.cons_append, scan, scan, ih]

end Token

namespace Spelled

variable {flavor : Flavor} {cs : List Char} {kinds : List TokenKind}

/-- A text spells one list of kinds at most. -/
theorem unique {others : List TokenKind} (spelled : Spelled flavor cs kinds)
    (again : Spelled flavor cs others) : kinds = others := by
  obtain ⟨tokens, scanned, rfl⟩ := (Token.scan_iff 0).mpr spelled
  obtain ⟨_, rescanned, rfl⟩ := (Token.scan_iff 0).mpr again
  rw [scanned] at rescanned
  cases rescanned
  rfl

/-- Blanks at the start of a text change nothing. -/
theorem append_iff {blanks : List Char} (blank : ∀ c ∈ blanks, isBlank c = true) :
    Spelled flavor (blanks ++ cs) kinds ↔ Spelled flavor cs kinds := by
  induction blanks with
  | nil => rfl
  | cons c blanks ih =>
    have here : isBlank c = true := blank c List.mem_cons_self
    rw [← ih fun d mem => blank d (List.mem_cons_of_mem _ mem)]
    exact ⟨fun spelled => spelled.of_blank here, fun spelled => .blank here spelled⟩

end Spelled

/-- Blanks at the ends of a text change nothing. -/
theorem spelled_trim {flavor : Flavor} {cs : List Char} {kinds : List TokenKind} :
    Spelled flavor (trim cs) kinds ↔ Spelled flavor cs kinds := by
  have start : ∀ c ∈ cs.takeWhile isBlank, isBlank c = true :=
    fun c mem => List.mem_takeWhile_imp mem
  obtain ⟨blanks, blank, split⟩ := Text.exists_trimEnd_append (trimStart cs)
  calc Spelled flavor (trim cs) kinds
    _ ↔ Spelled flavor (trimStart cs) kinds := by
      rw [← Token.scan_iff 0, ← Token.scan_iff 0, split, Token.scan_append blank, trim]
    _ ↔ Spelled flavor (cs.takeWhile isBlank ++ trimStart cs) kinds :=
      (Spelled.append_iff start).symm
    _ ↔ Spelled flavor cs kinds := by rw [trimStart, List.takeWhile_append_dropWhile]

end TreeScheme
