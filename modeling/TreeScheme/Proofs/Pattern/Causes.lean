import TreeScheme.Proofs.Matcher.Boundaries
import TreeScheme.Proofs.Pattern.Places
import TreeScheme.Proofs.Text.Parentheses

/-!
# What errors of expressions point at

Every error of `Expression.read` has an offset, and the offset is a place of the text where the
cause can be seen (`PointsAt`). A character that no expression can have is pointed at before
anything else; all other errors point at a token, and most of them not at the token that was being
read, but at one that the reader remembers: the latest bar, or the parenthesis behind which it
waits. `Reading.Over` says that it remembers them rightly.

The group that an error calls unclosed is not closed, or it has one quantifier right behind another
(`Doubled`): the reader stops there, inside the group, and does not look for its end
(`Expression.unclosed_or_doubled`).
-/

namespace TreeScheme

open Header (NameWord startsName)
open Text (Balanced Bare Closes byteSize isBlank)

/-! ## Causes -/

/-- In the group that was opened right before a text, and not deeper, one quantifier stands right
behind another. -/
def Doubled (behind : List Char) : Prop :=
  ∃ inside blanks after, ∃ first second : Quantifier,
    behind = inside ++ first.sign :: (blanks ++ second.sign :: after) ∧ Balanced inside ∧
      ∀ c ∈ blanks, isBlank c = true

/-- An error points at a place of a text: what stands `before` it, and what stands there. -/
inductive PointsAt (flavor : Flavor) (resolve : String → Option Symbol) (before : List Char) :
    GrammarError → List Char → Prop where
  /-- The first character that cannot stand in an expression. -/
  | unexpectedCharacter {c behind} :
    (∀ d ∈ before, Token.Allows flavor d) →
    ¬Token.Allows flavor c →
    PointsAt flavor resolve before (.unexpectedCharacter c (byteSize before)) (c :: behind)
  /-- The parenthesis of a group that is not closed, or where it cannot be seen because of a
  quantifier behind another one. -/
  | unclosedGroup {behind} :
    ¬Closes behind ∨ Doubled behind →
    PointsAt flavor resolve before (.unclosedGroup (byteSize before)) ('(' :: behind)
  | emptyGroup {behind} :
    PointsAt flavor resolve before (.emptyGroup (byteSize before)) ('(' :: behind)
  | danglingQuantifier {quantifier : Quantifier} {behind} :
    PointsAt flavor resolve before (.danglingQuantifier quantifier.sign (byteSize before))
      (quantifier.sign :: behind)
  | emptyAlternative {behind} :
    PointsAt flavor resolve before (.emptyAlternative (byteSize before)) ('|' :: behind)
  /-- A whole word that stands for nothing. -/
  | unknownIdentifier {word behind} :
    NameWord isNameChar word →
    (∀ c ∈ before.getLast?, isNameChar c = false) →
    startsName isNameChar behind = false →
    Pattern.resolveIn flavor resolve (.ofList word) = none →
    PointsAt flavor resolve before (.unknownIdentifier (.ofList word) (byteSize before))
      (word ++ behind)
  | trailingTokens {behind} :
    PointsAt flavor resolve before (.trailingTokens ")" (byteSize before)) (')' :: behind)

/-- An error points at some place of a text. -/
def Explained (flavor : Flavor) (resolve : String → Option Symbol) (text : List Char)
    (error : GrammarError) : Prop :=
  ∃ before there, text = before ++ there ∧ PointsAt flavor resolve before error there

variable {flavor : Flavor} {resolve : String → Option Symbol}

/-- What an error points at is a boundary of the text before its end. -/
theorem Explained.offset {text : List Char} {error : GrammarError}
    (explained : Explained flavor resolve text error) :
    ∃ offset, error.offset? = some offset ∧ Text.IsBoundary text offset ∧
      offset < byteSize text := by
  obtain ⟨before, there, rfl, points⟩ := explained
  have some : there ≠ [] := by
    cases points with
    | unknownIdentifier isWord _ _ _ => exact List.append_ne_nil_of_left_ne_nil isWord.1 _
    | _ => exact List.cons_ne_nil _ _
  have place : error.offset? = .some (byteSize before) := by cases points <;> rfl
  refine ⟨byteSize before, place, ⟨before, there, rfl, rfl⟩, ?_⟩
  obtain ⟨c, behind, rfl⟩ := List.exists_cons_of_ne_nil some
  have positive : 0 < c.utf8Size := c.utf8Size_pos
  rw [Text.byteSize_append, Text.byteSize_cons]
  omega

/-! ## Texts without parentheses -/

theorem bare_of_blank {blanks : List Char} (blank : ∀ c ∈ blanks, isBlank c = true) :
    Bare blanks :=
  ⟨fun mem => absurd (blank _ mem) (by decide), fun mem => absurd (blank _ mem) (by decide)⟩

theorem bare_of_nameWord {word : List Char} (isWord : NameWord isNameChar word) : Bare word :=
  ⟨fun mem => absurd (isWord.2 _ mem) (by decide), fun mem => absurd (isWord.2 _ mem) (by decide)⟩

theorem bare_sign (quantifier : Quantifier) : Bare [quantifier.sign] := by
  cases quantifier <;> exact ⟨by decide, by decide⟩

/-! ## Where words end -/

/-- A text that a word begins starts with a name character. -/
theorem TokenKind.Legal.startsName_append {word : List Char} (legal : Legal flavor (.word word))
    (behind : List Char) :
    startsName isNameChar ((TokenKind.word word).chars ++ behind) = true := by
  obtain ⟨some, all⟩ := legal.nameWord
  obtain ⟨c, word, rfl⟩ := List.exists_cons_of_ne_nil some
  exact all c List.mem_cons_self

/-- What stands right before a name character is no name character, if a token ends there. -/
theorem TokenKind.Legal.last_of_touches {kind : TokenKind} (legal : kind.Legal flavor)
    {front behind : List Char}
    (ends : ∀ word, kind = .word word → startsName isNameChar behind = false)
    (touches : startsName isNameChar behind = true) :
    ∀ c ∈ (front ++ kind.chars).getLast?, isNameChar c = false := by
  rcases legal with ⟨word, rfl, _⟩ | ⟨d, sign⟩
  · rw [ends word rfl] at touches
    cases touches
  · rw [(TokenKind.of_ofSign? sign).2, List.getLast?_concat]
    rintro c ⟨⟩
    exact (TokenKind.solid_of_ofSign? sign).2

namespace Pattern

/-! ## What a reader remembers -/

/-- A level has gone over a text that stands behind another one. -/
structure Level.Over (before : List Char) (level : Level) (text : List Char) : Prop where
  balanced : Balanced text
  /-- The latest bar stands where it is remembered. -/
  bar : ∀ offset, level.lastBar = some offset →
    ∃ front behind, text = front ++ '|' :: behind ∧ byteSize (before ++ front) = offset
  /-- An item that takes no quantifier has one, and it is what was read last. -/
  marked : level.items ≠ [] → level.bare = false → ∃ front blanks, ∃ quantifier : Quantifier,
    text = front ++ quantifier.sign :: blanks ∧ ∀ c ∈ blanks, isBlank c = true

/-- A reader has gone over a text: each level over what stands behind its parenthesis, and each
parenthesis stands where it is remembered. -/
inductive Reading.Over : Reading → List Char → Prop where
  | root {level text} :
    level.Over [] text →
    Over ⟨level, []⟩ text
  | inside {level parent outer before text} :
    Over ⟨parent, outer⟩ before →
    level.Over (before ++ ['(']) text →
    Over ⟨level, (byteSize before, parent) :: outer⟩ (before ++ ['('] ++ text)

namespace Level.Over

variable {level : Level} {before text more : List Char}

/-- A new level has gone over nothing. -/
theorem empty (before : List Char) : Level.Over before {} [] :=
  ⟨.nil, nofun, fun some => absurd rfl some⟩

/-- Where more text follows, the latest bar is still where it was. -/
theorem bar_append (went : level.Over before text) (more : List Char) (offset : Nat)
    (bar : level.lastBar = some offset) : ∃ front behind, text ++ more = front ++ '|' :: behind ∧
      byteSize (before ++ front) = offset := by
  obtain ⟨front, behind, rfl, place⟩ := went.bar offset bar
  exact ⟨front, behind ++ more, by simp, place⟩

theorem blanks (went : level.Over before text) (blank : ∀ c ∈ more, isBlank c = true) :
    level.Over before (text ++ more) := by
  refine ⟨went.balanced.append (bare_of_blank blank).balanced, went.bar_append more, ?_⟩
  intro some marked
  obtain ⟨front, blanks, quantifier, rfl, all⟩ := went.marked some marked
  exact ⟨front, blanks ++ more, quantifier, by simp, List.forall_mem_append.mpr ⟨all, blank⟩⟩

/-- A word or a group becomes an item. -/
theorem add (went : level.Over before text) (balanced : Balanced more) (item : Pattern) :
    (level.add item).Over before (text ++ more) :=
  ⟨went.balanced.append balanced, went.bar_append more, fun _ => nofun⟩

/-- A quantifier is taken by the latest item. -/
theorem quantify (went : level.Over before text) (quantifier : Quantifier) (items : List Pattern) :
    Level.Over before { level with items, bare := false } (text ++ [quantifier.sign]) :=
  ⟨went.balanced.append (bare_sign quantifier).balanced, went.bar_append _,
    fun _ _ => ⟨text, [], quantifier, rfl, fun _ mem => absurd mem List.not_mem_nil⟩⟩

/-- A bar is remembered. -/
theorem split (went : level.Over before text) :
    (level.split (byteSize (before ++ text))).Over before (text ++ ['|']) := by
  have bare : Bare ['|'] := ⟨by decide, by decide⟩
  refine ⟨went.balanced.append bare.balanced, ?_, fun some => absurd rfl some⟩
  intro offset bar
  cases bar
  exact ⟨text, [], rfl, rfl⟩

end Level.Over

/-- What going on with a reader comes to: it has gone over more of a text, or there is an error that
points at some place of the text as a whole. -/
def GoesOver (flavor : Flavor) (resolve : String → Option Symbol) (front behind : List Char) :
    Except GrammarError Reading → Prop
  | .ok reading => reading.Over front
  | .error error => Explained flavor resolve (front ++ behind) error

namespace Reading.Over

variable {reading : Reading} {front : List Char}

/-- The innermost level has gone over the end of the text. -/
theorem innermost (went : reading.Over front) :
    ∃ before text, front = before ++ text ∧ reading.level.Over before text := by
  cases went with
  | root inner => exact ⟨[], front, rfl, inner⟩
  | inside _ inner => exact ⟨_, _, rfl, inner⟩

/-- More text is gone over by the innermost level. -/
theorem mapLevel (went : reading.Over front) {level : Level} {more : List Char}
    (grows : ∀ before text, before ++ text = front → reading.level.Over before text →
      level.Over before (text ++ more)) :
    Reading.Over { reading with level } (front ++ more) := by
  cases went with
  | root inner => exact .root (grows [] front rfl inner)
  | inside outer inner =>
    rw [List.append_assoc]
    exact .inside outer (grows _ _ rfl inner)

theorem blanks (went : reading.Over front) {more : List Char}
    (blank : ∀ c ∈ more, isBlank c = true) : reading.Over (front ++ more) :=
  went.mapLevel fun _ _ _ level => level.blanks blank

/-- An empty alternative is explained by the latest bar. -/
theorem explained_bar (went : reading.Over front) {offset : Nat}
    (bar : reading.level.lastBar = some offset) (more : List Char) :
    Explained flavor resolve (front ++ more) (.emptyAlternative offset) := by
  obtain ⟨before, text, rfl, level⟩ := went.innermost
  obtain ⟨start, behind, rfl, rfl⟩ := level.bar offset bar
  exact ⟨before ++ start, '|' :: (behind ++ more), by simp, .emptyAlternative⟩

/-- A reader that waits behind a parenthesis has gone over it, and over balanced text behind it. -/
theorem opened (went : reading.Over front) {start : Nat} {parent : Level}
    {outer : List (Nat × Level)} (around : reading.outer = (start, parent) :: outer) :
    ∃ before text, front = before ++ '(' :: text ∧ byteSize before = start ∧
      Over ⟨parent, outer⟩ before ∧ reading.level.Over (before ++ ['(']) text := by
  cases went with
  | root _ => cases around
  | inside outside inner =>
    cases around
    exact ⟨_, _, List.append_assoc _ _ _, rfl, outside, inner⟩

/-- One token is gone over, or there is an error. -/
theorem step (went : reading.Over front) {kind : TokenKind} (legal : kind.Legal flavor)
    {behind : List Char}
    (starts : ∀ word, kind = .word word → ∀ c ∈ front.getLast?, isNameChar c = false)
    (ends : ∀ word, kind = .word word → startsName isNameChar behind = false) :
    GoesOver flavor resolve (front ++ kind.chars) behind
      (Pattern.step flavor resolve reading ⟨kind, byteSize front⟩) := by
  unfold Pattern.step
  cases kind with
  | word text =>
    dsimp only
    split
    · exact went.mapLevel fun _ _ _ level =>
        level.add (bare_of_nameWord legal.nameWord).balanced _
    · rename_i unknown
      refine ⟨front, text ++ behind, List.append_assoc _ _ _, ?_⟩
      exact .unknownIdentifier legal.nameWord (starts text rfl) (ends text rfl) unknown
  | openGroup =>
    have inner := Reading.Over.inside went (.empty (front ++ ['(']))
    rw [List.append_nil] at inner
    exact inner
  | closeGroup =>
    dsimp only
    split
    · rename_i bar
      rw [GoesOver, List.append_assoc]
      exact went.explained_bar bar _
    · rename_i start parent outer _ _ around
      obtain ⟨before, text, rfl, rfl, _, _⟩ := went.opened around
      exact ⟨before, '(' :: (text ++ ')' :: behind), by simp [TokenKind.chars], .emptyGroup⟩
    · rename_i start parent outer _ around
      obtain ⟨before, text, rfl, rfl, outside, inner⟩ := went.opened around
      -- The level that closes becomes a group of the one that waits around it.
      have group := outside.mapLevel fun _ _ _ parent =>
        parent.add inner.balanced.enclose reading.level.close
      rw [GoesOver]
      simpa [TokenKind.chars] using group
    · exact ⟨front, ')' :: behind, by simp [TokenKind.chars], .trailingTokens⟩
  | quantifier quantifier =>
    dsimp only
    split
    · exact went.mapLevel fun _ _ _ level => level.quantify quantifier _
    · rename_i item items start parent outer split marked around
      obtain ⟨before, text, rfl, rfl, _, inner⟩ := went.opened around
      have some : reading.level.items ≠ [] := by
        rw [split]
        exact List.cons_ne_nil _ _
      obtain ⟨inside, blanks, first, rfl, blank⟩ := inner.marked some marked
      have bare : Bare ([first.sign] ++ blanks) := (bare_sign first).append (bare_of_blank blank)
      refine ⟨before, '(' :: (inside ++ first.sign :: (blanks ++ quantifier.sign :: behind)),
        by simp [TokenKind.chars], .unclosedGroup (.inr ?_)⟩
      exact ⟨inside, blanks, behind, first, quantifier, rfl, inner.balanced.of_append bare, blank⟩
    · exact ⟨front, quantifier.sign :: behind, by simp [TokenKind.chars], .danglingQuantifier⟩
  | bar =>
    dsimp only
    split
    · cases bar : reading.level.lastBar with
      | none => exact ⟨front, '|' :: behind, by simp [TokenKind.chars], .emptyAlternative⟩
      | some offset =>
        rw [GoesOver, List.append_assoc]
        exact went.explained_bar bar _
    · refine went.mapLevel fun before text same level => ?_
      rw [← same]
      exact level.split

/-- An error at the end of a text points at some place of it. -/
theorem finish (went : reading.Over front) {error : GrammarError}
    (refused : Pattern.finish reading = .error error) : Explained flavor resolve front error := by
  unfold Pattern.finish at refused
  split at refused
  · rename_i bar
    cases refused
    have explained : Explained flavor resolve (front ++ []) (.emptyAlternative _) :=
      went.explained_bar bar []
    rw [List.append_nil] at explained
    exact explained
  · rename_i start parent outer around _
    cases refused
    obtain ⟨before, text, rfl, rfl, _, inner⟩ := went.opened around
    exact ⟨before, '(' :: text, rfl, .unclosedGroup (.inl inner.balanced.not_closes)⟩
  · cases refused

/-- Every error of reading to the end of a text points at some place of it. -/
theorem explained (went : reading.Over front) {rest : List Char} {tokens : List Token}
    (placed : Placed flavor (byteSize front) rest tokens)
    (apart : startsName isNameChar rest = true → ∀ c ∈ front.getLast?, isNameChar c = false)
    {error : GrammarError}
    (refused : (Pattern.readAll flavor resolve reading tokens >>= Pattern.finish) = .error error) :
    Explained flavor resolve (front ++ rest) error := by
  generalize place : byteSize front = offset at placed
  induction placed generalizing reading front with
  | done blank => exact (went.blanks blank).finish refused
  | @token offset gap behind tokens kind blank legal ends _ ih =>
    subst place
    have gone := went.blanks blank
    have size : byteSize front + byteSize gap = byteSize (front ++ gap) :=
      (Text.byteSize_append _ _).symm
    rw [size] at refused ih
    have starts : ∀ word, kind = .word word →
        ∀ c ∈ (front ++ gap).getLast?, isNameChar c = false := by
      rintro word rfl
      rcases List.eq_nil_or_concat' gap with rfl | ⟨blanks, last, rfl⟩
      · rw [List.append_nil]
        exact apart (legal.startsName_append behind)
      · rw [← List.append_assoc, List.getLast?_concat]
        rintro c ⟨⟩
        exact isNameChar_of_blank (blank _ (by simp))
    have first : GoesOver flavor resolve (front ++ gap ++ kind.chars) behind
        (Pattern.step flavor resolve reading ⟨kind, byteSize (front ++ gap)⟩) :=
      gone.step legal starts ends
    rw [Pattern.readAll, bind_assoc] at refused
    have split : front ++ (gap ++ (kind.chars ++ behind)) =
        front ++ gap ++ kind.chars ++ behind := by simp
    rw [split]
    rcases bind_eq_error.mp refused with here | ⟨next, done, later⟩
    · rw [here] at first
      exact first
    · rw [done] at first
      refine ih first (legal.last_of_touches ends) later ?_
      rw [Text.byteSize_append]

end Reading.Over

/-- A new reader has gone over nothing. -/
theorem Reading.Over.empty : Reading.Over {} [] :=
  .root (.empty [])

/-- Every error of reading a text points at some place of it. -/
theorem explained_of_read {text : List Char} {error : GrammarError}
    (refused : read flavor resolve text = .error error) : Explained flavor resolve text error := by
  rcases bind_eq_error.mp refused with refused | ⟨tokens, scanned, refused⟩
  · obtain ⟨before, c, behind, rfl, all, foreign, rfl⟩ := Token.scan_eq_error refused
    rw [Nat.zero_add]
    exact ⟨before, c :: behind, rfl, .unexpectedCharacter all foreign⟩
  · cases tokens with
    | nil => cases refused
    | cons token tokens =>
      have stopped : (readAll flavor resolve {} (token :: tokens) >>= finish) = .error error := by
        refine bind_eq_error.mpr ((bind_eq_error.mp refused).imp_right ?_)
        rintro ⟨reading, done, ending⟩
        rcases bind_eq_error.mp ending with last | ⟨_, _, whole⟩
        · exact ⟨reading, done, last⟩
        · cases whole
      exact Reading.Over.empty.explained (Token.placed_of_scan scanned) (fun _ => nofun) stopped

end Pattern

/-! ## Expressions -/

/-- **Errors point at their causes.** Whatever names stand for, every error of reading an expression
has an offset, which is a boundary of the text before its end, and what the error says can be seen
there. A text with a character that cannot stand in an expression is refused because of the first
one, whatever else is wrong with it. -/
theorem Expression.errors_point_at_causes (flavor : Flavor) (resolve : String → Option Symbol)
    (source : String) :
    (∀ error, Expression.read flavor resolve source = .error error →
      Explained flavor resolve source.toList error ∧
        ∃ offset, error.offset? = some offset ∧ Text.IsBoundary source.toList offset ∧
          offset < byteSize source.toList) ∧
    ((∃ c ∈ source.toList, ¬Token.Allows flavor c) →
      ∃ c offset, Expression.read flavor resolve source =
        .error (.unexpectedCharacter c offset)) := by
  constructor
  · intro error refused
    rcases bind_eq_error.mp refused with refused | ⟨_, _, done⟩
    · have explained := Pattern.explained_of_read refused
      exact ⟨explained, explained.offset⟩
    · cases done
  · rintro ⟨c, mem, foreign⟩
    cases scanned : Token.scan flavor 0 source.toList with
    | ok tokens =>
      have all := exists_spelled_iff.mp ⟨_, (Token.scan_iff 0).mp ⟨tokens, scanned, rfl⟩⟩
      exact absurd (all c mem) foreign
    | error error =>
      obtain ⟨before, d, _, _, _, _, rfl⟩ := Token.scan_eq_error scanned
      refine ⟨d, 0 + byteSize before, ?_⟩
      rw [Expression.read, Pattern.read, scanned]
      rfl

-- Offsets are counted in bytes: the blank before the parenthesis has three.
example : Expression.read .full (fun _ => none) "\u3000)" = .error (.trailingTokens ")" 3) :=
  rfl

/-- **A group that is called unclosed** is not closed, or one quantifier stands right behind another
in it. So an expression of which all parentheses are closed is refused for an unclosed group only if
it has such quantifiers, in the group that the error points at. -/
theorem Expression.unclosed_or_doubled {flavor : Flavor} {resolve : String → Option Symbol}
    {source : String} {offset : Nat}
    (refused : Expression.read flavor resolve source = .error (.unclosedGroup offset)) :
    ∃ before behind, source.toList = before ++ '(' :: behind ∧ byteSize before = offset ∧
      (¬Closes behind ∨ Doubled behind) ∧ (Balanced source.toList → Doubled behind) := by
  rcases bind_eq_error.mp refused with refused | ⟨_, _, done⟩
  · obtain ⟨before, there, split, points⟩ := Pattern.explained_of_read refused
    cases points with
    | @unclosedGroup behind why =>
      refine ⟨before, behind, split, rfl, why, fun balanced => why.resolve_left ?_⟩
      rw [split] at balanced
      exact not_not_intro balanced.closes
  · cases done

section Example

/-- One name, which is a lexeme. -/
private def onlyA (name : String) : Option Symbol :=
  if name = "A" then some .lexeme else none

/-- The second group is closed, and only called unclosed because of the quantifiers in it. -/
theorem Expression.doubled_inside : Expression.read .full onlyA "A|((A+ *)A)" =
      .error (.unclosedGroup 3) ∧
    ∃ before behind, "A|((A+ *)A)".toList = before ++ '(' :: behind ∧ byteSize before = 3 ∧
      (¬Closes behind ∨ Doubled behind) ∧ (Balanced "A|((A+ *)A)".toList → Doubled behind) := by
  have refused : Expression.read .full onlyA "A|((A+ *)A)" = .error (.unclosedGroup 3) := rfl
  exact ⟨refused, unclosed_or_doubled refused⟩

/-- A group that is closed is called unclosed. -/
theorem Expression.closed_called_unclosed :
    Expression.read .full onlyA "(A??)" = .error (.unclosedGroup 0) ∧
      Balanced "(A??)".toList ∧ Closes "A??)".toList := by
  refine ⟨rfl, by decide, ⟨"A??".toList, [], by decide, by decide⟩⟩

end Example

end TreeScheme
