import TreeScheme.Proofs.Matcher.Cursor
import TreeScheme.Proofs.Pattern.Places
import TreeScheme.Proofs.Scheme.Words

/-!
# One alphabet, many readers

Names are recognised in several places: where a body looks for the id of a case, where an expression
is cut into tokens, and where the arguments of directives are read. Each place has a loop of its
own. What they recognise is said here without any loop. A `LeadingWord` is what a text starts with:
at least one name character, only name characters, and none behind it.

**At a place of a text**, all of them recognise the leading word of what follows
(`recognisedAt`): the dispatcher (`nameAt_append_iff`), the tokenizer (`Token.scan_eq_word_iff`), an
alias list for its first name (`Header.read_first_iff`), and the name of a definition, which has
nothing behind it (`Scheme.isName_iff_leadingWord`). The names of lexemes are read over fewer
characters; for a word without lower-case letters this makes no difference (`LeadingWord.upper`).

**Throughout a text** (`recognisedIn`), the words among the tokens are exactly its whole words
(`Placed.isWhole_of_mem`, `Placed.mem_of_isWhole`), all names of an alias list are whole words
(`Header.exists_whole`), and no word is found within a character (`nameAt_eq_some_iff`).
-/

namespace TreeScheme

open Header (NameWord startsName)
open Text (byteSize isBlank)

/-! ## Leading words -/

/-- The word that a text starts with, as long as it can be. -/
def LeadingWord (isName : Char → Bool) (text word : List Char) : Prop :=
  NameWord isName word ∧ ∃ after, text = word ++ after ∧ startsName isName after = false

namespace LeadingWord

variable {isName : Char → Bool} {text word other : List Char}

/-- A leading word is all name characters at the start of a text. -/
theorem takeWhile_eq (leading : LeadingWord isName text word) : text.takeWhile isName = word := by
  obtain ⟨⟨_, all⟩, after, rfl, apart⟩ := leading
  have stop : after.takeWhile isName = [] := by
    cases after with
    | nil => rfl
    | cons c after =>
      have other : ¬isName c = true := by simpa [startsName] using apart
      exact List.takeWhile_cons_of_neg other
  rw [List.takeWhile_append_of_pos all, stop, List.append_nil]

/-- The name characters at the start of a text are its leading word, if there are any. -/
theorem of_takeWhile (some : text.takeWhile isName ≠ []) :
    LeadingWord isName text (text.takeWhile isName) :=
  ⟨⟨some, fun _ mem => List.mem_takeWhile_imp mem⟩, _, List.takeWhile_append_dropWhile.symm,
    Header.startsName_dropWhile text⟩

/-- A text has one leading word at most. -/
theorem unique (leading : LeadingWord isName text word) (again : LeadingWord isName text other) :
    word = other :=
  leading.takeWhile_eq.symm.trans again.takeWhile_eq

/-- A text with a leading word starts with a name character. -/
theorem starts (leading : LeadingWord isName text word) : startsName isName text = true := by
  obtain ⟨⟨some, all⟩, after, rfl, _⟩ := leading
  obtain ⟨c, cs, rfl⟩ := List.exists_cons_of_ne_nil some
  exact all c List.mem_cons_self

/-- A text is its own leading word if it is a word. -/
theorem self_iff : LeadingWord isName word word ↔ NameWord isName word :=
  ⟨And.left, fun isWord => ⟨isWord, [], (List.append_nil word).symm, rfl⟩⟩

/-- A leading word without lower-case letters is one of the characters of lexeme names, too. -/
theorem upper (leading : LeadingWord isNameChar text word)
    (noLower : ∀ c ∈ word, c.isLower = false) : LeadingWord isUpperNameChar text word := by
  obtain ⟨⟨some, all⟩, after, rfl, apart⟩ := leading
  refine ⟨⟨some, fun c mem => ?_⟩, after, rfl, ?_⟩
  · by_contra other
    have lower := isNameChar_eq_isLower (Bool.eq_false_iff.mpr other)
    rw [all c mem, noLower c mem] at lower
    cases lower
  · cases after with
    | nil => rfl
    | cons c after =>
      by_contra name
      have more := isNameChar_of_isUpperNameChar (eq_true_of_ne_false name)
      rw [startsName, more] at apart
      cases apart

end LeadingWord

/-! ## The dispatcher -/

/-- The word at a place is the leading word of what follows there. -/
theorem nameAt_append_iff {before rest word : List Char} :
    nameAt (before ++ rest) (byteSize before) = some word ↔ LeadingWord isNameChar rest word := by
  simp only [nameAt, Text.seek_append]
  constructor
  · intro found
    split at found
    · cases found
    · rename_i c cs taken
      cases found
      exact taken ▸ .of_takeWhile (taken ▸ List.cons_ne_nil c cs)
  · intro leading
    obtain ⟨c, cs, rfl⟩ := List.exists_cons_of_ne_nil leading.1.1
    simp only [leading.takeWhile_eq]

/-- A word is found at an offset exactly if the offset is a place of the text, and the word is the
leading word there. -/
theorem nameAt_eq_some_iff {text word : List Char} {offset : Nat} :
    nameAt text offset = some word ↔ ∃ before rest, text = before ++ rest ∧
      byteSize before = offset ∧ LeadingWord isNameChar rest word := by
  constructor
  · intro found
    obtain ⟨cursor, place, _⟩ := seek_of_nameAt found
    obtain ⟨before, split, rfl⟩ := Text.eq_append_of_seek place
    rw [split] at found
    exact ⟨before, cursor.rest, split, rfl, nameAt_append_iff.mp found⟩
  · rintro ⟨before, rest, rfl, rfl, leading⟩
    exact nameAt_append_iff.mpr leading

/-! ## The tokenizer -/

namespace Token

variable {flavor : Flavor} {offset : Nat} {text word : List Char}

/-- A text whose characters can all stand in an expression has tokens. -/
theorem exists_scan_of_allows (allowed : ∀ c ∈ text, Allows flavor c) (offset : Nat) :
    ∃ tokens, scan flavor offset text = .ok tokens := by
  obtain ⟨kinds, spelled⟩ := exists_spelled_iff.mpr allowed
  obtain ⟨tokens, scanned, _⟩ := exists_scan spelled offset
  exact ⟨tokens, scanned⟩

/-- A word that is the first token of a text is its leading word. -/
theorem leadingWord_of_scan {more : List Token}
    (scanned : scan flavor offset text = .ok (⟨.word word, offset⟩ :: more)) :
    LeadingWord isNameChar text word := by
  obtain ⟨behind, rfl, legal, apart, _⟩ := (placed_of_scan scanned).exists_behind
  exact ⟨legal.nameWord, behind, rfl, apart word rfl⟩

/-- The first token of a text that starts with a name character is its leading word. -/
theorem scan_eq_word_iff (allowed : ∀ c ∈ text, Allows flavor c) :
    (∃ more, scan flavor offset text = .ok (⟨.word word, offset⟩ :: more)) ↔
      LeadingWord isNameChar text word := by
  refine ⟨fun ⟨_, scanned⟩ => leadingWord_of_scan scanned, fun leading => ?_⟩
  obtain ⟨tokens, scanned⟩ := exists_scan_of_allows allowed offset
  obtain ⟨first, more, rfl⟩ := (found_of_scan scanned).touches leading.starts
  rw [leading.unique (leadingWord_of_scan scanned)]
  exact ⟨more, scanned⟩

end Token

/-! ### Whole words -/

/-- A character of a text that is put together stands in the one part or in the other. -/
theorem Text.split_append {first second before after : List Char} {c : Char}
    (same : first ++ second = before ++ c :: after) :
    (∃ behind, first = before ++ c :: behind ∧ after = behind ++ second) ∨
      ∃ front, before = first ++ front ∧ second = front ++ c :: after := by
  rcases List.append_eq_append_iff.mp same with ⟨front, rfl, rest⟩ | ⟨more, rfl, rest⟩
  · exact .inr ⟨front, rfl, rest⟩
  · cases more with
    | nil => exact .inr ⟨[], by simp, rest.symm⟩
    | cons d behind =>
      cases rest
      exact .inl ⟨behind, rfl, rfl⟩

/-- A text that starts with no name character. -/
theorem startsName_eq_false_iff {isName : Char → Bool} {text : List Char} :
    startsName isName text = false ↔ ∀ c ∈ text.head?, isName c = false := by
  cases text <;> simp [startsName]

namespace Spot.IsWhole

variable {isName : Char → Bool} {front before word after : List Char}

/-- A whole word is the leading word where it stands. -/
theorem leadingWord (whole : IsWhole isName ⟨before, word, after⟩) :
    LeadingWord isName (word ++ after) word :=
  ⟨whole.word, after, rfl, startsName_eq_false_iff.mpr whole.after⟩

/-- A whole word of a text is one of any end of the text that it stands in. -/
theorem of_append (whole : IsWhole isName ⟨front ++ before, word, after⟩) :
    IsWhole isName ⟨before, word, after⟩ := by
  refine ⟨whole.word, fun c mem => whole.before c ?_, whole.after⟩
  rw [List.getLast?_append, Option.mem_def.mp mem]
  rfl

/-- No name character stands before a whole word. -/
theorem eq_nil_of_append (whole : IsWhole isName ⟨front ++ before, word, after⟩)
    (names : ∀ c ∈ before, isName c = true) : before = [] := by
  by_contra nonempty
  have last := List.getLast?_eq_some_getLast nonempty
  have other := whole.before (before.getLast nonempty) (by simp [List.getLast?_append, last])
  rw [names _ (List.getLast_mem nonempty)] at other
  cases other

end Spot.IsWhole

namespace Placed

variable {flavor : Flavor} {start place : Nat} {text word : List Char} {tokens : List Token}

/-- Every word among the tokens is a whole word of the text, and stands where its token says. -/
theorem isWhole_of_mem (placed : Placed flavor start text tokens)
    (mem : ⟨.word word, place⟩ ∈ tokens) : ∃ spot : Spot, spot.text = text ∧
      start + byteSize spot.before = place ∧ spot.word = word ∧ spot.IsWhole isNameChar := by
  induction placed with
  | done _ => cases mem
  | @token start gap behind tokens kind blanks legal apart rest ih =>
    rcases List.mem_cons.mp mem with same | mem
    · cases same
      have gapEnds : ∀ c ∈ gap.getLast?, isNameChar c = false := fun c last =>
        isNameChar_of_blank (blanks c (List.mem_of_getLast? last))
      exact ⟨⟨gap, word, behind⟩, rfl, rfl, rfl, legal.nameWord, gapEnds,
        startsName_eq_false_iff.mp (apart word rfl)⟩
    · obtain ⟨⟨before, word, after⟩, rfl, rfl, rfl, whole⟩ := ih mem
      refine ⟨⟨gap ++ kind.chars ++ before, word, after⟩, by simp [Spot.text], ?_, rfl, whole.word,
        fun c last => ?_, whole.after⟩
      · simp only [Text.byteSize_append]
        omega
      · rw [List.getLast?_append] at last
        cases ends : before.getLast? with
        | some d =>
          rw [ends] at last
          cases last
          exact whole.before c ends
        | none =>
          -- The word stands right behind the token, so this is a sign.
          have empty : before = [] := List.getLast?_eq_none_iff.mp ends
          rw [ends, Option.none_or, List.getLast?_append] at last
          rcases legal with ⟨other, rfl, _⟩ | ⟨sign, isSign⟩
          · have touching := apart other rfl
            rw [empty, Spot.text, List.nil_append, whole.leadingWord.starts] at touching
            cases touching
          · rw [(TokenKind.of_ofSign? isSign).2] at last
            cases last
            exact (TokenKind.solid_of_ofSign? isSign).2

/-- A whole word that starts within the first token is this token, as far as it is in it. -/
theorem eq_word_of_isWhole {gap before more cs after : List Char} {c : Char} {kind : TokenKind}
    (blanks : ∀ d ∈ gap, isBlank d = true) (legal : kind.Legal flavor)
    (whole : Spot.IsWhole isNameChar ⟨before, c :: cs, after⟩)
    (split : gap ++ kind.chars = before ++ c :: more) :
    before = gap ∧ kind = .word (c :: more) := by
  have name : isNameChar c = true := whole.word.2 c List.mem_cons_self
  have within : ∃ front, before = gap ++ front ∧ kind.chars = front ++ c :: more := by
    rcases Text.split_append split with ⟨blank, rfl, _⟩ | inside
    · rw [isNameChar_of_blank (blanks c (by simp))] at name
      cases name
    · exact inside
  obtain ⟨front, rfl, chars⟩ := within
  rcases legal with ⟨word, rfl, _, all⟩ | ⟨sign, isSign⟩
  · have chars : word = front ++ c :: more := chars
    have start := whole.eq_nil_of_append fun d mem => all d (chars ▸ List.mem_append_left _ mem)
    rw [chars, start]
    exact ⟨List.append_nil gap, rfl⟩
  · have noName := (TokenKind.solid_of_ofSign? isSign).2
    rw [(TokenKind.of_ofSign? isSign).2] at chars
    have mem : c ∈ [sign] := chars ▸ by simp
    rw [List.mem_singleton.mp mem, noName] at name
    cases name

/-- Every whole word of the text is a token. -/
theorem mem_of_isWhole (placed : Placed flavor start text tokens) {spot : Spot}
    (same : spot.text = text) (whole : spot.IsWhole isNameChar) :
    ⟨.word spot.word, start + byteSize spot.before⟩ ∈ tokens := by
  obtain ⟨before, word, after⟩ := spot
  obtain ⟨c, cs, rfl⟩ := List.exists_cons_of_ne_nil whole.word.1
  induction placed generalizing before with
  | @done start blanks blank =>
    have mem : c ∈ blanks := same ▸ by simp [Spot.text]
    have name : isNameChar c = true := whole.word.2 c List.mem_cons_self
    rw [isNameChar_of_blank (blank c mem)] at name
    cases name
  | @token start gap behind tokens kind blanks legal apart rest ih =>
    rw [Spot.text, ← List.append_assoc gap] at same
    rcases Text.split_append same.symm with ⟨more, split, left⟩ | ⟨between, rfl, later⟩
    · obtain ⟨rfl, rfl⟩ := eq_word_of_isWhole blanks legal whole split
      have here : LeadingWord isNameChar (c :: (more ++ behind)) (c :: more) :=
        ⟨legal.nameWord, behind, rfl, apart _ rfl⟩
      rw [← left] at here
      rw [whole.leadingWord.unique here]
      exact List.mem_cons_self
    · have mem := ih between later.symm whole.of_append
      simp only [Text.byteSize_append, ← Nat.add_assoc] at mem ⊢
      exact List.mem_cons_of_mem _ mem

end Placed

/-! ## Arguments of directives -/

namespace Header

variable {isName : Char → Bool}

/-- The first name of a list is the leading word. -/
theorem leadingWord_of_read (names : NameClass isName) {text : String} {header : Header}
    (found : read isName text = some header) : ∃ word,
      LeadingWord isName text.toList word ∧
      (TreeScheme.aliases header.aliases).head? = some (.ofList word) := by
  have spelled := spells_of_read names found
  generalize text.toList = cs at spelled
  obtain @⟨word, passed, words, left, isWord, further, apart, _, _⟩ := spelled
  refine ⟨word, ⟨isWord, _, rfl, further.startsName_append names apart⟩, ?_⟩
  rw [aliases_of_further names isWord further]
  rfl

/-- A line that starts with a name character has a list. -/
theorem exists_read (names : NameClass isName) {text : String} (single : '\n' ∉ text.toList)
    (starts : startsName isName text.toList = true) : ∃ header, read isName text = some header := by
  rw [read]
  generalize text.toList = cs at *
  cases cs with
  | nil => cases starts
  | cons c cs =>
    have name : isName c = true := starts
    obtain ⟨passed, _, _, split, _⟩ := exists_further names
      (List.dropWhile_sublist isName (l := cs)).length_le (startsName_dropWhile cs)
    simp only [name, if_true]
    generalize afterNames isName cs.length (cs.dropWhile isName) = left at split ⊢
    have noBreak : '\n' ∉ left.dropWhile isBlank := by
      intro mem
      have mem := (List.dropWhile_sublist _).subset mem
      have behind : '\n' ∈ cs.dropWhile isName := split ▸ List.mem_append_right _ mem
      exact single (List.mem_cons_of_mem _ ((List.dropWhile_sublist _).subset behind))
    simp [noBreak]

/-- On a line, the first name of a list is the leading word. -/
theorem read_first_iff (names : NameClass isName) {text word : List Char} (single : '\n' ∉ text) :
    (∃ header, read isName (.ofList text) = some header ∧
      (TreeScheme.aliases header.aliases).head? = some (.ofList word)) ↔
        LeadingWord isName text word := by
  constructor
  · rintro ⟨header, found, first⟩
    obtain ⟨other, leading, same⟩ := leadingWord_of_read names found
    rw [first, Option.some.injEq, String.ofList_inj] at same
    rw [String.toList_ofList] at leading
    exact same ▸ leading
  · intro leading
    have same : (String.ofList text).toList = text := String.toList_ofList
    have starts : startsName isName (String.ofList text).toList = true := by
      rw [same]
      exact leading.starts
    obtain ⟨header, found⟩ := exists_read names (by rwa [same]) starts
    obtain ⟨other, again, first⟩ := leadingWord_of_read names found
    rw [same] at again
    exact ⟨header, found, leading.unique again ▸ first⟩

/-- Nothing is read where no name character stands. -/
theorem read_eq_none {text : List Char} (apart : startsName isName text = false) :
    read isName (.ofList text) = none := by
  rw [read, String.toList_ofList]
  cases text with
  | nil => rfl
  | cons c text =>
    rw [startsName] at apart
    simp [apart]

/-- All names of a list are whole words of the text. -/
theorem exists_whole {text : String} {header : Header}
    (found : read isNameChar text = some header) : ∃ spots, Listed text.toList spots ∧
      spots.map (fun spot => String.ofList spot.word) = TreeScheme.aliases header.aliases ∧
      ∀ spot ∈ spots, spot.IsWhole isNameChar := by
  obtain ⟨front, last, left, words, spread, listed, same, apart⟩ :=
    (spells_of_read nameClass_isNameChar found).exists_spread nameClass_isNameChar
  refine ⟨front ++ [last], listed, ?_, ?_⟩
  · rw [← same, ← spread.words, List.map_map]
    rfl
  · rw [List.forall_mem_append, List.forall_mem_singleton]
    exact ⟨spread.front_isWhole nameClass_isNameChar fun _ => id,
      (spread.last_isWhole_iff nameClass_isNameChar fun _ => id).mpr apart⟩

end Header

/-- The name of a definition is a text that is its own leading word. -/
theorem Scheme.isName_iff_leadingWord {text : List Char} :
    isName (.ofList text) = true ↔ LeadingWord isNameChar text text := by
  rw [isName_iff, String.toList_ofList, LeadingWord.self_iff]

/-- Lower-case letters are name characters, but none of lexeme names. -/
theorem isUpperNameChar_of_isLower {c : Char} (lower : c.isLower = true) :
    isUpperNameChar c = false := by
  have name : isNameChar c = true := by
    have letters : c.isAlphanum = (c.isUpper || c.isLower || c.isDigit) := rfl
    simp [isNameChar, letters, lower]
  have ascii : ∀ n < 128, (Char.ofNat n).isLower = true →
      isUpperNameChar (Char.ofNat n) = false := by decide
  have upper := ascii c.toNat (toNat_lt_of_isNameChar name)
  rw [Char.ofNat_toNat] at upper
  exact upper lower

/-! ## All of them -/

/-- What is recognised at a place of a text, behind `before` and in front of `rest`. -/
structure RecognisedAt (before rest word : List Char) : Prop where
  /-- The word that selects a case. -/
  dispatcher : nameAt (before ++ rest) (byteSize before) = some word ↔
    LeadingWord isNameChar rest word
  /-- A token, where all characters can stand in an expression. -/
  tokenizer : ∀ flavor, (∀ c ∈ rest, Token.Allows flavor c) →
    ((∃ more, Token.scan flavor (byteSize before) rest =
        .ok (⟨.word word, byteSize before⟩ :: more)) ↔ LeadingWord isNameChar rest word)
  /-- The first name of an alias list, on a line. -/
  list : '\n' ∉ rest →
    ((∃ header, Header.read isNameChar (.ofList rest) = some header ∧
        (aliases header.aliases).head? = some (.ofList word)) ↔ LeadingWord isNameChar rest word)
  /-- The name of a definition, which has nothing behind it. -/
  name : Scheme.isName (.ofList rest) = true ↔ LeadingWord isNameChar rest rest
  /-- The first name of a lexeme, on a line, if the word has no lower-case letter. -/
  lexeme : '\n' ∉ rest → (∀ c ∈ word, c.isLower = false) → LeadingWord isNameChar rest word →
    ∃ header, Header.read isUpperNameChar (.ofList rest) = some header ∧
      (aliases header.aliases).head? = some (.ofList word)
  /-- No lexeme has a name that starts with a lower-case letter. -/
  noLexeme : (∀ c ∈ rest.head?, isNameChar c = false ∨ c.isLower = true) →
    Header.read isUpperNameChar (.ofList rest) = none

/-- **At every place of every text, the same words are recognised.** -/
theorem recognisedAt (before rest word : List Char) : RecognisedAt before rest word where
  dispatcher := nameAt_append_iff
  tokenizer _ allowed := Token.scan_eq_word_iff allowed
  list := Header.read_first_iff nameClass_isNameChar
  name := Scheme.isName_iff_leadingWord
  lexeme single noLower leading :=
    (Header.read_first_iff nameClass_isUpperNameChar single).mpr (leading.upper noLower)
  noLexeme other := by
    refine Header.read_eq_none (startsName_eq_false_iff.mpr fun c mem => ?_)
    rcases other c mem with noName | lower
    · by_contra upper
      rw [isNameChar_of_isUpperNameChar (eq_true_of_ne_false upper)] at noName
      cases noName
    · exact isUpperNameChar_of_isLower lower

/-- What is recognised in a text from its start to its end. -/
structure RecognisedIn (text : List Char) : Prop where
  /-- The words that select cases are leading words at places of the text. -/
  dispatcher : ∀ offset word, nameAt text offset = some word ↔ ∃ before rest,
    text = before ++ rest ∧ byteSize before = offset ∧ LeadingWord isNameChar rest word
  /-- The tokens that are words are the whole words of the text. -/
  tokenizer : ∀ flavor tokens, Token.scan flavor 0 text = .ok tokens → ∀ word place,
    ⟨.word word, place⟩ ∈ tokens ↔ ∃ spot : Spot, spot.text = text ∧
      byteSize spot.before = place ∧ spot.word = word ∧ spot.IsWhole isNameChar
  /-- The names of an alias list are whole words of the text. -/
  list : ∀ header, Header.read isNameChar (.ofList text) = some header → ∃ spots,
    Listed text spots ∧
    spots.map (fun spot => String.ofList spot.word) = aliases header.aliases ∧
    ∀ spot ∈ spots, spot.IsWhole isNameChar

/-- **In every text, whole words are recognised.** -/
theorem recognisedIn (text : List Char) : RecognisedIn text where
  dispatcher _ _ := nameAt_eq_some_iff
  tokenizer flavor tokens scanned word place := by
    have placed := Token.placed_of_scan scanned
    constructor
    · intro mem
      obtain ⟨spot, same, start, rest⟩ := placed.isWhole_of_mem mem
      exact ⟨spot, same, (Nat.zero_add _).symm.trans start, rest⟩
    · rintro ⟨spot, same, rfl, rfl, whole⟩
      have mem := placed.mem_of_isWhole same whole
      rwa [Nat.zero_add] at mem
  list header found := by
    have whole := Header.exists_whole found
    rwa [String.toList_ofList] at whole

end TreeScheme
