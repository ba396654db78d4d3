import TreeScheme.Proofs.Pattern.Canonical
import TreeScheme.Proofs.Pattern.Unambiguity

/-!
# Where tokens stand

`Spelled` leaves offsets out. `Placed` has them: it says of a text that starts at some offset which
tokens it has, where each of them stands, and that there is nothing else but blanks. A word ends
where no name character follows. Whatever `Token.scan` finds is placed (`Token.placed_of_scan`).

Scanning is refused at the first character that no expression can have, and only there
(`Token.scan_eq_error`).
-/

namespace TreeScheme

open Header (NameWord startsName)
open Text (byteSize isBlank)

/-- A text that starts at an offset has tokens, and each of them stands at its own offset. -/
inductive Placed (flavor : Flavor) : Nat → List Char → List Token → Prop where
  | done {offset blanks} :
    (∀ c ∈ blanks, isBlank c = true) →
    Placed flavor offset blanks []
  | token {offset gap behind tokens} {kind : TokenKind} :
    (∀ c ∈ gap, isBlank c = true) →
    kind.Legal flavor →
    (∀ word, kind = .word word → startsName isNameChar behind = false) →
    Placed flavor (offset + byteSize gap + byteSize kind.chars) behind tokens →
    Placed flavor offset (gap ++ (kind.chars ++ behind)) (⟨kind, offset + byteSize gap⟩ :: tokens)

namespace Placed

variable {flavor : Flavor} {offset : Nat} {c : Char} {cs : List Char} {tokens : List Token}

/-- A blank before a text moves its tokens. -/
theorem blank (placed : Placed flavor (offset + c.utf8Size) cs tokens) (blank : isBlank c = true) :
    Placed flavor offset (c :: cs) tokens := by
  cases placed with
  | done blanks => exact .done (List.forall_mem_cons.mpr ⟨blank, blanks⟩)
  | @token _ gap behind tokens kind blanks legal apart rest =>
    have gapped : ∀ d ∈ c :: gap, isBlank d = true := List.forall_mem_cons.mpr ⟨blank, blanks⟩
    have moved : offset + c.utf8Size + byteSize gap = offset + byteSize (c :: gap) :=
      Nat.add_assoc _ _ _
    rw [moved] at rest ⊢
    exact .token gapped legal apart rest

/-- A sign before a text is a token. -/
theorem sign (placed : Placed flavor (offset + c.utf8Size) cs tokens) {kind : TokenKind}
    (isSign : TokenKind.ofSign? flavor c = some kind) :
    Placed flavor offset (c :: cs) (⟨kind, offset⟩ :: tokens) := by
  obtain ⟨noWord, chars⟩ := TokenKind.of_ofSign? isSign
  have whole : Placed flavor offset ([] ++ (kind.chars ++ cs)) (⟨kind, offset + 0⟩ :: tokens) := by
    refine .token (fun _ mem => absurd mem List.not_mem_nil) (.inr ⟨c, isSign⟩)
      (fun word same => absurd same (noWord word)) ?_
    rw [chars]
    exact placed
  rw [chars] at whole
  exact whole

/-- A word before a text that starts with no name character is a token. -/
theorem word {word : List Char} (placed : Placed flavor (offset + byteSize word) cs tokens)
    (isWord : NameWord isNameChar word) (apart : startsName isNameChar cs = false) :
    Placed flavor offset (word ++ cs) (⟨.word word, offset⟩ :: tokens) := by
  have whole : Placed flavor offset ([] ++ ((TokenKind.word word).chars ++ cs))
      (⟨.word word, offset + 0⟩ :: tokens) :=
    .token (fun _ mem => absurd mem List.not_mem_nil) (.inl ⟨word, rfl, isWord⟩)
      (fun _ _ => apart) placed
  exact whole

/-- A token that stands where a text starts has no blanks before it. -/
theorem exists_behind {kind : TokenKind}
    (placed : Placed flavor offset cs (⟨kind, offset⟩ :: tokens)) :
    ∃ behind, cs = kind.chars ++ behind ∧ kind.Legal flavor ∧
      (∀ word, kind = .word word → startsName isNameChar behind = false) ∧
      Placed flavor (offset + byteSize kind.chars) behind tokens := by
  generalize first : (⟨kind, offset⟩ :: tokens : List Token) = all at placed
  cases placed with
  | done _ => cases first
  | @token _ gap behind _ _ _ legal apart rest =>
    obtain ⟨same, rfl⟩ := List.cons.inj first
    obtain ⟨rfl, place⟩ := Token.mk.inj same
    cases gap with
    | nil => exact ⟨behind, rfl, legal, apart, rest⟩
    | cons d gap =>
      have positive : 0 < d.utf8Size := d.utf8Size_pos
      rw [Text.byteSize_cons] at place
      omega

/-- A word at the start of a text grows with a name character before it. -/
theorem grow {text : List Char}
    (placed : Placed flavor (offset + c.utf8Size) cs (⟨.word text, offset + c.utf8Size⟩ :: tokens))
    (name : isNameChar c = true) :
    Placed flavor offset (c :: cs) (⟨.word (c :: text), offset⟩ :: tokens) := by
  obtain ⟨behind, rfl, legal, apart, rest⟩ := placed.exists_behind
  have isWord : NameWord isNameChar (c :: text) :=
    ⟨List.cons_ne_nil _ _, List.forall_mem_cons.mpr ⟨name, legal.nameWord.2⟩⟩
  have size : offset + c.utf8Size + byteSize text = offset + byteSize (c :: text) :=
    Nat.add_assoc _ _ _
  rw [TokenKind.chars, size] at rest
  exact rest.word isWord (apart text rfl)

end Placed

namespace Token

/-- What is scanned stands where its tokens say. -/
theorem placed_of_scan {flavor : Flavor} {cs : List Char} {offset : Nat} {tokens : List Token}
    (scanned : scan flavor offset cs = .ok tokens) : Placed flavor offset cs tokens := by
  induction cs generalizing offset tokens with
  | nil =>
    cases scanned
    exact .done fun _ mem => absurd mem List.not_mem_nil
  | cons c cs ih =>
    rw [scan] at scanned
    split at scanned
    · rename_i blank
      exact (ih scanned).blank blank
    · split at scanned
      · rename_i name
        obtain ⟨rest, found, rfl⟩ := map_eq_ok.mp scanned
        have behind := ih found
        -- The name character joins a word that it touches, and is a word of its own otherwise.
        cases touching : startsName isNameChar cs with
        | true =>
          obtain ⟨text, others, rfl⟩ := (found_of_scan found).touches touching
          rw [Found.consNameChar_of_touches]
          exact behind.grow name
        | false =>
          rw [Found.consNameChar_of_apart ((found_of_scan found).apart touching)]
          exact behind.word ⟨List.cons_ne_nil _ _, List.forall_mem_singleton.mpr name⟩ touching
      · split at scanned
        · rename_i kind sign
          obtain ⟨rest, found, rfl⟩ := map_eq_ok.mp scanned
          exact (ih found).sign sign
        · cases scanned

/-- Scanning is refused at the first character that cannot stand in an expression. -/
theorem scan_eq_error {flavor : Flavor} {cs : List Char} {offset : Nat} {error : GrammarError}
    (refused : scan flavor offset cs = .error error) :
    ∃ before c behind, cs = before ++ c :: behind ∧ (∀ d ∈ before, Allows flavor d) ∧
      ¬Allows flavor c ∧ error = .unexpectedCharacter c (offset + byteSize before) := by
  induction cs generalizing offset with
  | nil => cases refused
  | cons c cs ih =>
    have later : Allows flavor c → scan flavor (offset + c.utf8Size) cs = .error error →
        ∃ before d behind, c :: cs = before ++ d :: behind ∧ (∀ e ∈ before, Allows flavor e) ∧
          ¬Allows flavor d ∧ error = .unexpectedCharacter d (offset + byteSize before) := by
      intro allowed refused
      obtain ⟨before, d, behind, rfl, all, foreign, rfl⟩ := ih refused
      refine ⟨c :: before, d, behind, rfl, List.forall_mem_cons.mpr ⟨allowed, all⟩, foreign, ?_⟩
      rw [Text.byteSize_cons, Nat.add_assoc]
    rw [scan] at refused
    split at refused
    · rename_i blank
      exact later (.inl blank) refused
    · rename_i solid
      split at refused
      · rename_i name
        exact later (.inr (.inl name)) (map_eq_error.mp refused)
      · rename_i noName
        split at refused
        · rename_i kind sign
          exact later (.inr (.inr (Option.isSome_of_eq_some sign))) (map_eq_error.mp refused)
        · rename_i noSign
          cases refused
          refine ⟨[], c, cs, rfl, fun _ mem => absurd mem List.not_mem_nil, ?_, rfl⟩
          rintro (blank | name | sign)
          · exact solid blank
          · exact noName name
          · rw [noSign] at sign
            cases sign

end Token

end TreeScheme
