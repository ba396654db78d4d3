import TreeScheme.Proofs.Scheme.Preorder

/-!
# Names are whole words

The names that a directive declares are words of its argument. A `Spot` is a word together with the
place where it stands, and `Listed` says which spots make up the alias list at the start of a text.
Where a list is read over all characters of names, no word of it is cut: the characters right before
and right behind are no name characters (`Node.Heads.listsWords`).

The names of lexemes are read over fewer characters, without lower-case letters, and nothing has to
stand between the list and what follows. So the last name is cut off a longer word exactly if a
lower-case letter follows it (`Node.Heads.listsUpperWords`). Every other name that a scheme gets, at
any depth, is a whole word (`Scheme.names_are_words`).
-/

namespace TreeScheme

open Text (isBlank)
open Header (NameWord Further Spells)

/-! ## Spots -/

/-- A word in a text, with what stands before it and behind it. -/
structure Spot where
  before : List Char
  word : List Char
  after : List Char

namespace Spot

/-- The text that a word stands in. -/
def text (spot : Spot) : List Char :=
  spot.before ++ (spot.word ++ spot.after)

/-- A word of name characters that is not part of a longer one: the characters right before and
right behind it, if there are any, are no name characters. -/
structure IsWhole (isName : Char → Bool) (spot : Spot) : Prop where
  word : NameWord isName spot.word
  before : ∀ c ∈ spot.before.getLast?, isName c = false
  after : ∀ c ∈ spot.after.head?, isName c = false

/-- The next word of an alias list stands behind a bar, with nothing but blanks around the bar. -/
def Next (spot next : Spot) : Prop :=
  ∃ left right, (∀ c ∈ left, isBlank c = true) ∧ (∀ c ∈ right, isBlank c = true) ∧
    next.before = spot.before ++ (spot.word ++ (left ++ '|' :: right))

end Spot

/-- The words of the alias list that a text starts with, from left to right. -/
structure Listed (text : List Char) (spots : List Spot) : Prop where
  text : ∀ spot ∈ spots, spot.text = text
  first : ∀ spot ∈ spots.head?, spot.before = []
  chain : spots.IsChain Spot.Next

/-! ## The words of a list -/

/-- What can stand between the names of a list. -/
def IsSeparator (c : Char) : Prop :=
  isBlank c = true ∨ c = '|'

theorem NameClass.of_separator {isName : Char → Bool} (names : NameClass isName) {c : Char}
    (separates : IsSeparator c) : isName c = false := by
  rcases separates with blank | rfl
  · cases name : isName c with
    | false => rfl
    | true => exact absurd blank (by simp [names.solid c name])
  · exact names.noBar

/-- The words of a list and where they stand: separators stand right before all of them, and right
behind all but the last, behind which `left` follows. -/
structure Spread (isName : Char → Bool) (text left : List Char) (words : List (List Char))
    (front : List Spot) (last : Spot) : Prop where
  text : ∀ spot ∈ front ++ [last], spot.text = text
  words : (front ++ [last]).map (·.word) = words
  chain : (front ++ [last]).IsChain Spot.Next
  names : ∀ spot ∈ front ++ [last], NameWord isName spot.word
  before : ∀ spot ∈ front ++ [last], ∀ c ∈ spot.before.getLast?, IsSeparator c
  after : ∀ spot ∈ front, ∀ c ∈ spot.after.head?, IsSeparator c
  left : last.after = left

variable {isName : Char → Bool}

/-- The spots of a word and the further names behind it. -/
theorem Header.Further.exists_spread {text : List Char} {words : List (List Char)}
    (further : Further isName text words) (left before : List Char) {word : List Char}
    (isWord : NameWord isName word) (separated : ∀ c ∈ before.getLast?, IsSeparator c) :
    ∃ front last, (front ++ [last]).head? = some ⟨before, word, text ++ left⟩ ∧
      Spread isName (before ++ (word ++ (text ++ left))) left (word :: words) front last := by
  induction further generalizing before word with
  | done =>
    exact ⟨[], ⟨before, word, left⟩, rfl, by simp [Spot.text], rfl, .singleton _,
      by simpa using isWord, by simpa using separated, by simp, rfl⟩
  | @more gap other next text words blankGap blankOther isNext _ ih =>
    have bar : ∀ c ∈ (before ++ (word ++ (gap ++ '|' :: other))).getLast?, IsSeparator c := by
      intro c mem
      simp only [List.getLast?_append, List.getLast?_cons, Option.some_or, Option.mem_some] at mem
      cases last : other.getLast? with
      | none => exact .inr (by simpa [last] using mem.symm)
      | some d =>
        have here : d = c := by simpa [last] using mem
        exact .inl (blankOther c (here ▸ List.mem_of_getLast? last))
    have behind : ∀ c ∈ (gap ++ '|' :: (other ++ (next ++ text)) ++ left).head?, IsSeparator c := by
      intro c mem
      cases gap with
      | nil => exact .inr (by simpa using mem.symm)
      | cons d gap =>
        have here : d = c := by simpa using mem
        exact .inl (blankGap c (here ▸ List.mem_cons_self))
    obtain ⟨front, last, head, spread⟩ := ih _ isNext bar
    have whole : before ++ (word ++ (gap ++ '|' :: other)) ++ (next ++ (text ++ left)) =
        before ++ (word ++ (gap ++ '|' :: (other ++ (next ++ text)) ++ left)) := by simp
    rw [whole] at spread
    let first : Spot := ⟨before, word, gap ++ '|' :: (other ++ (next ++ text)) ++ left⟩
    have following : ∀ spot ∈ (front ++ [last]).head?, first.Next spot := by
      intro spot mem
      rw [head, Option.mem_some] at mem
      subst mem
      exact ⟨gap, other, blankGap, blankOther, rfl⟩
    refine ⟨first :: front, last, rfl, ?_⟩
    exact {
      text := List.forall_mem_cons.mpr ⟨rfl, spread.text⟩
      words := by rw [List.cons_append, List.map_cons, spread.words]
      chain := List.isChain_cons.mpr ⟨following, spread.chain⟩
      names := List.forall_mem_cons.mpr ⟨isWord, spread.names⟩
      before := List.forall_mem_cons.mpr ⟨separated, spread.before⟩
      after := List.forall_mem_cons.mpr ⟨behind, spread.after⟩
      left := spread.left }

/-- The spots of a list that was read, before what is left behind it. -/
theorem Header.Spells.exists_spread (names : NameClass isName) {text : List Char} {header : Header}
    (spelled : Spells isName text header) : ∃ front last left words,
      Spread isName text left words front last ∧ Listed text (front ++ [last]) ∧
      words.map String.ofList = TreeScheme.aliases header.aliases ∧
      ∀ c ∈ left.head?, isName c = false := by
  obtain @⟨word, passed, words, left, isWord, further, apart, _, _⟩ := spelled
  obtain ⟨front, last, head, spread⟩ := further.exists_spread left [] isWord (by simp)
  refine ⟨front, last, left, _, spread, ⟨spread.text, by simp [head], spread.chain⟩, ?_, ?_⟩
  · rw [Header.aliases_of_further names isWord further]
  · intro c mem
    cases left with
    | nil => cases mem
    | cons d left =>
      cases mem
      exact apart

namespace Spread

variable {text left : List Char} {words : List (List Char)} {front : List Spot} {last : Spot}

/-- All words but the last are whole, also as words of more characters. -/
theorem front_isWhole (spread : Spread isName text left words front last) {isMore : Char → Bool}
    (names : NameClass isMore) (more : ∀ c, isName c = true → isMore c = true) :
    ∀ spot ∈ front, spot.IsWhole isMore := by
  intro spot mem
  have listed : spot ∈ front ++ [last] := List.mem_append_left _ mem
  have word := spread.names spot listed
  exact ⟨⟨word.1, fun c here => more c (word.2 c here)⟩,
    fun c here => names.of_separator (spread.before spot listed c here),
    fun c here => names.of_separator (spread.after spot mem c here)⟩

/-- The last word is whole exactly if no name character follows it. -/
theorem last_isWhole_iff (spread : Spread isName text left words front last)
    {isMore : Char → Bool} (names : NameClass isMore)
    (more : ∀ c, isName c = true → isMore c = true) :
    last.IsWhole isMore ↔ ∀ c ∈ left.head?, isMore c = false := by
  have listed : last ∈ front ++ [last] := by simp
  have word := spread.names last listed
  rw [← spread.left]
  refine ⟨(·.after), fun apart => ⟨⟨word.1, fun c here => more c (word.2 c here)⟩, ?_, apart⟩⟩
  exact fun c here => names.of_separator (spread.before last listed c here)

end Spread

/-! ## The names of a directive -/

/-- The names that a node lists, and where they stand in its argument. -/
def Node.Lists (node : Node) (spots : List Spot) (names : List String) : Prop :=
  ∃ text, node.rawArgument? = some text ∧ Listed text.toList spots ∧
    spots.map (fun spot => String.ofList spot.word) = names

/-- The names that a node lists are whole words of its argument. -/
def Node.ListsWords (node : Node) (names : List String) : Prop :=
  ∃ spots, node.Lists spots names ∧ ∀ spot ∈ spots, spot.IsWhole isNameChar

/-- The names that a node lists are whole words without lower-case letters. As words of all name
characters they are whole, too, but for the last one, which is whole exactly if no lower-case letter
follows it. -/
def Node.ListsUpperWords (node : Node) (names : List String) : Prop :=
  ∃ front last, node.Lists (front ++ [last]) names ∧
    (∀ spot ∈ front ++ [last], spot.IsWhole isUpperNameChar) ∧
    (∀ spot ∈ front, spot.IsWhole isNameChar) ∧
    (last.IsWhole isNameChar ↔ ∀ c ∈ last.after.head?, c.isLower = false)

/-- A node with an alias list lists its words, and no name character follows the last of them. -/
theorem Node.Heads.exists_spread (names : NameClass isName) {node : Node} {header : Header}
    (headed : node.Heads isName header) : ∃ text left words front last,
      Spread isName text left words front last ∧
      node.Lists (front ++ [last]) (aliases header.aliases) ∧
      ∀ c ∈ left.head?, isName c = false := by
  obtain ⟨text, raw, spelled⟩ := headed
  obtain ⟨front, last, left, words, spread, listed, same, apart⟩ := spelled.exists_spread names
  refine ⟨_, left, words, front, last, spread, ⟨text, raw, listed, ?_⟩, apart⟩
  rw [← same, ← spread.words, List.map_map]
  rfl

/-- A name character that a lexeme name cannot have is a lower-case letter. -/
theorem isNameChar_eq_isLower {c : Char} (other : isUpperNameChar c = false) :
    isNameChar c = c.isLower := by
  have letters : c.isAlphanum = (c.isUpper || c.isLower || c.isDigit) := rfl
  simp only [isUpperNameChar, Bool.or_eq_false_iff] at other
  simp [isNameChar, letters, other]

/-- A list that is read over all name characters is a list of whole words. -/
theorem Node.Heads.listsWords {node : Node} {header : Header}
    (headed : node.Heads isNameChar header) : node.ListsWords (aliases header.aliases) := by
  obtain ⟨text, left, words, front, last, spread, lists, apart⟩ :=
    headed.exists_spread nameClass_isNameChar
  refine ⟨front ++ [last], lists, ?_⟩
  rw [List.forall_mem_append, List.forall_mem_singleton]
  exact ⟨spread.front_isWhole nameClass_isNameChar fun _ => id,
    (spread.last_isWhole_iff nameClass_isNameChar fun _ => id).mpr apart⟩

/-- A list that is read over the characters of lexeme names. -/
theorem Node.Heads.listsUpperWords {node : Node} {header : Header}
    (headed : node.Heads isUpperNameChar header) :
    node.ListsUpperWords (aliases header.aliases) := by
  obtain ⟨text, left, words, front, last, spread, lists, apart⟩ :=
    headed.exists_spread nameClass_isUpperNameChar
  refine ⟨front, last, lists, ?_,
    spread.front_isWhole nameClass_isNameChar fun _ => isNameChar_of_isUpperNameChar, ?_⟩
  · rw [List.forall_mem_append, List.forall_mem_singleton]
    exact ⟨spread.front_isWhole nameClass_isUpperNameChar fun _ => id,
      (spread.last_isWhole_iff nameClass_isUpperNameChar fun _ => id).mpr apart⟩
  · rw [spread.last_isWhole_iff nameClass_isNameChar fun _ => isNameChar_of_isUpperNameChar,
      spread.left]
    refine forall₂_congr fun c here => ?_
    rw [isNameChar_eq_isLower (apart c here)]

namespace Scheme

/-- Rules that nodes state keep the names that the nodes list, whatever matchers they get. -/
theorem listsWords_of_stated {nodes : List Node} {rules : List Rule}
    (stated : List.Forall₂ Stated (Node.families nodes) (Rule.families rules))
    (matcherOf : String → Option Matcher) :
    List.Forall₂ (fun node rule => node.ListsWords rule.tags) (Node.families nodes)
      (Rule.families (Rule.equipAll matcherOf rules)) := by
  rw [Rule.families_equipAll, List.forall₂_map_right_iff]
  refine stated.imp fun node rule here => ?_
  obtain ⟨header, headed, tags, _⟩ := here.header
  obtain ⟨keyword, _, arguments, matcher, children, row⟩ := rule
  rw [Rule.equip]
  exact tags ▸ headed.listsWords

/-- **Names are whole words.** In every scheme that is read, the names of all lexemes, cases and
rules, at any depth, are those that their directives list, one directive for each of them and
nothing left over, and

* the ids of a case and the tags of a rule are whole words of the argument: no name character stands
  right before or right behind any of them;
* so are the names of a lexeme, but for the last one, which is whole exactly if no lower-case letter
  stands right behind it. -/
theorem names_are_words {engine : Engine} {tree : Node} {limits : Limits} {scheme : Scheme}
    (built : read tree limits engine = .ok scheme) :
    List.Forall₂ (fun node lexeme => node.ListsUpperWords lexeme.aliases)
      (tagged "lex" tree.children) scheme.grammar.lexemes.declarations ∧
    List.Forall₂ (fun node definition =>
        List.Forall₂ (fun entry case => entry.ListsWords case.ids) (tagged "case" node.children)
          definition.cases)
      (tagged "def" tree.children) scheme.grammar.definitions ∧
    List.Forall₂ (fun node rule => node.ListsWords rule.tags)
      (Node.families (tagged "rule" tree.children)) (Rule.families scheme.common.children) ∧
    List.Forall₂ (fun node rule => node.ListsWords rule.tags)
      (Node.families (tagged "root-rule" tree.children)) (Rule.families scheme.root.children) := by
  obtain ⟨declarations, declares, _, finished⟩ := read_eq_ok_iff.mp built
  obtain ⟨grammar, made, _, rfl⟩ := finish_eq_ok_iff.mp finished
  have builder := Draft.builder_of limits declarations
  have reads := Builder.reads_of_build made
  have vocabulary := Builder.vocabulary_of_build made
  rw [builder] at reads vocabulary
  refine ⟨?_, ?_, ?_, ?_⟩
  · show List.Forall₂ _ _ grammar.vocabulary.lexemes.declarations
    rw [vocabulary]
    refine (forall₂_lexemes declares).imp fun node lexeme here => ?_
    cases here with
    | lexeme _ _ headed => exact headed.listsUpperWords
  · refine (forall₂_comp (forall₂_definitions declares) reads).imp ?_
    rintro node definition ⟨draft, here, read⟩
    cases here with
    | definition _ _ _ enters =>
      refine (forall₂_comp enters.forall₂_cases read.cases).imp ?_
      rintro entry case ⟨_, ⟨header, headed, rfl⟩, ids⟩
      exact ids.ids ▸ headed.listsWords
  · have stated := forall₂_common declares
    rw [← Draft.common_of limits declarations] at stated
    exact listsWords_of_stated stated _
  · have stated := forall₂_root declares
    rw [← Draft.root_of limits declarations] at stated
    exact listsWords_of_stated stated _

section Example

/-- A lexeme with two names. -/
private def idOrName : Node :=
  { tag := "lex", argument := some (.raw "ID | NAME [a-z]+"), row := 1 }

/-- A case with two ids. -/
private def onOrOff : Node :=
  { tag := "case", argument := some (.raw "on|off"), row := 3 }

/-- The definition with this case. -/
private def flag : Node :=
  { tag := "def", argument := some (.raw "flag"), row := 2, children := [onOrOff] }

/-- A rule with two tags. -/
private def itemOrFlag : Node :=
  { tag := "children", argument := some (.raw "item|flag2"), row := 5 }

/-- A rule with two tags and another rule below it. -/
private def itemOrEntry : Node :=
  { tag := "rule", argument := some (.raw "item |entry ID"), row := 4, children := [itemOrFlag] }

/-- A root rule whose tag is followed by its arguments. -/
private def page : Node :=
  { tag := "root-rule", argument := some (.raw "page-1 flag"), row := 6 }

/-- One directive of each kind. -/
private def namedTwice : Node :=
  .root [idOrName, flag, itemOrEntry, page]

/-- All names in a tree of directives are whole words: those of a lexeme, the ids of a case, and the
tags of rules at any depth. -/
theorem named_twice_words : ∃ scheme, read namedTwice = .ok scheme ∧
    idOrName.ListsUpperWords ["ID", "NAME"] ∧ onOrOff.ListsWords ["on", "off"] ∧
    itemOrEntry.ListsWords ["item", "entry"] ∧ itemOrFlag.ListsWords ["item", "flag2"] ∧
    page.ListsWords ["page-1"] := by
  have accepted : (read namedTwice).toOption.map (fun scheme =>
      (scheme.grammar.lexemes.declarations.map (·.aliases),
        scheme.grammar.definitions.map (·.cases.map (·.ids)),
        (Rule.families scheme.common.children).map (·.tags),
        (Rule.families scheme.root.children).map (·.tags))) =
      some ([["ID", "NAME"]], [[["on", "off"]]], [["item", "entry"], ["item", "flag2"]],
        [["page-1"]]) := by
    decide +kernel
  obtain ⟨scheme, built, same⟩ := Option.map_eq_some_iff.mp accepted
  have built := eq_ok_of_toOption built
  simp only [Prod.mk.injEq] at same
  obtain ⟨names, ids, common, root⟩ := same
  obtain ⟨lexemes, definitions, inCommon, inRoot⟩ := names_are_words built
  -- Said of the names alone, this is about the directives of the tree.
  have ofLexemes : List.Forall₂ Node.ListsUpperWords [idOrName] [["ID", "NAME"]] := by
    rw [← names]
    exact List.forall₂_map_right_iff.mpr lexemes
  have ofCases : List.Forall₂ (fun node lists => List.Forall₂ Node.ListsWords
      (tagged "case" node.children) lists) [flag] [[["on", "off"]]] := by
    rw [← ids]
    refine List.forall₂_map_right_iff.mpr (definitions.imp fun node definition each => ?_)
    exact List.forall₂_map_right_iff.mpr each
  have ofCommon : List.Forall₂ Node.ListsWords [itemOrEntry, itemOrFlag]
      [["item", "entry"], ["item", "flag2"]] := by
    rw [← common]
    exact List.forall₂_map_right_iff.mpr inCommon
  have ofRoot : List.Forall₂ Node.ListsWords [page] [["page-1"]] := by
    rw [← root]
    exact List.forall₂_map_right_iff.mpr inRoot
  have ofCase := (List.forall₂_cons.mp (List.forall₂_cons.mp ofCases).1).1
  obtain ⟨entry, nested⟩ := List.forall₂_cons.mp ofCommon
  exact ⟨scheme, built, (List.forall₂_cons.mp ofLexemes).1, ofCase, entry,
    (List.forall₂_cons.mp nested).1, (List.forall₂_cons.mp ofRoot).1⟩

/-- A lexeme whose name is a word with a lower-case letter. -/
private def mixedLexeme : Node :=
  { tag := "lex", argument := some (.raw "Id x"), row := 1 }

/-- Only the upper-case letter of the word becomes the name of the lexeme. -/
theorem lexeme_name_cut : ∃ scheme, read (.root [mixedLexeme]) = .ok scheme ∧
    scheme.grammar.lexemes.declarations.map (·.aliases) = [["I"]] ∧
    ¬mixedLexeme.ListsWords ["I"] := by
  have accepted : (read (.root [mixedLexeme])).toOption.map
      (fun scheme => scheme.grammar.lexemes.declarations.map (·.aliases)) = some [["I"]] := by
    decide +kernel
  obtain ⟨scheme, built, names⟩ := Option.map_eq_some_iff.mp accepted
  refine ⟨scheme, eq_ok_of_toOption built, names, ?_⟩
  rintro ⟨spots, ⟨text, raw, listed, same⟩, whole⟩
  cases raw
  obtain ⟨spot, rfl, word⟩ := List.map_eq_singleton_iff.mp same
  -- The list starts where the argument does, so the letter behind its word is not in it.
  have start := listed.first spot rfl
  have text := listed.text spot (List.mem_singleton_self _)
  replace word : spot.word = ['I'] := by rw [← String.toList_ofList (l := spot.word), word]; rfl
  rw [Spot.text, start, word] at text
  have after : spot.after = ['d', ' ', 'x'] := List.append_cancel_left text
  have cut := (whole spot (List.mem_singleton_self _)).after 'd' (by simp [after])
  exact absurd cut (by decide)

end Example

end Scheme

end TreeScheme
