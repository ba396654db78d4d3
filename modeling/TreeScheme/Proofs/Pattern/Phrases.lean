import TreeScheme.Proofs.Pattern.Spelling

/-!
# The grammar of pattern expressions

`Pattern.read` goes over the tokens once and keeps what is open on a stack. `Derives` is the grammar
that it reads by, without a stack and without offsets: which tokens are an alternation, a sequence,
an operand or a group, and the patterns that these have as members.

Every derivation is read (`Derives.reads`), by one statement for each kind of phrase about how it
changes the state of the reader. Conversely every state is a derivation with open ends
(`Reading.Holds`): each level holds derivations of its complete alternatives and of its items, one
token keeps this, and so do all. So a text is read as a pattern exactly if it spells tokens that
derive this pattern (`Pattern.read_eq_some_iff`).
-/

namespace TreeScheme.Pattern

/-- The kinds of phrases. -/
inductive Phrase where
  /-- Sequences, separated by bars. -/
  | alternation
  /-- One or more operands. -/
  | sequence
  /-- A group, perhaps with a quantifier. -/
  | operand
  /-- A name, or an alternation between parentheses. -/
  | group
deriving DecidableEq

/-- Tokens of some kinds are a phrase with some members: the alternatives of an alternation, the
items of a sequence, or the one pattern that an operand or a group is. -/
inductive Derives (flavor : Flavor) (resolve : String → Option Symbol) :
    Phrase → List TokenKind → List Pattern → Prop where
  | name {word symbol} :
    resolveIn flavor resolve (.ofList word) = some symbol →
    Derives flavor resolve .group [.word word] [.leaf symbol (.ofList word)]
  | parens {kinds alternatives} :
    Derives flavor resolve .alternation kinds alternatives →
    Derives flavor resolve .group (.openGroup :: kinds ++ [.closeGroup])
      [collapse choice alternatives]
  | bare {kinds pattern} :
    Derives flavor resolve .group kinds [pattern] →
    Derives flavor resolve .operand kinds [pattern]
  | quantified {kinds pattern} (quantifier : Quantifier) :
    Derives flavor resolve .group kinds [pattern] →
    Derives flavor resolve .operand (kinds ++ [.quantifier quantifier])
      [.quantified quantifier pattern]
  | item {kinds pattern} :
    Derives flavor resolve .operand kinds [pattern] →
    Derives flavor resolve .sequence kinds [pattern]
  | nextItem {kinds items last pattern} :
    Derives flavor resolve .sequence kinds items →
    Derives flavor resolve .operand last [pattern] →
    Derives flavor resolve .sequence (kinds ++ last) (items ++ [pattern])
  | alternative {kinds items} :
    Derives flavor resolve .sequence kinds items →
    Derives flavor resolve .alternation kinds [collapse sequence items]
  | nextAlternative {kinds alternatives last items} :
    Derives flavor resolve .alternation kinds alternatives →
    Derives flavor resolve .sequence last items →
    Derives flavor resolve .alternation (kinds ++ .bar :: last)
      (alternatives ++ [collapse sequence items])

variable {flavor : Flavor} {resolve : String → Option Symbol}

/-! ## Derivations are read -/

/-- Reading on through two lists of tokens is reading on through one and then the other. -/
theorem readAll_append (reading : Reading) (first second : List Token) :
    readAll flavor resolve reading (first ++ second) =
      (readAll flavor resolve reading first >>= fun middle =>
        readAll flavor resolve middle second) := by
  induction first generalizing reading with
  | nil => rfl
  | cons token first ih =>
    rw [List.cons_append, readAll, readAll, bind_assoc]
    exact bind_congr fun middle => ih middle

theorem readAll_singleton (reading : Reading) (token : Token) :
    readAll flavor resolve reading [token] = step flavor resolve reading token := by
  rw [readAll]
  exact bind_pure _

/-- What reading a phrase with some members does: they become items of the innermost level. An
alternation needs a level of its own, and leaves all but the last alternative behind. -/
def Reads (flavor : Flavor) (resolve : String → Option Symbol) (tokens : List Token)
    (members : List Pattern) : Phrase → Prop
  | .group => ∀ reading : Reading,
    readAll flavor resolve reading tokens = .ok { reading with
      level := { reading.level with items := members ++ reading.level.items, bare := true } }
  | .operand | .sequence => ∀ reading : Reading, ∃ bare,
    readAll flavor resolve reading tokens = .ok { reading with
      level := { reading.level with items := members.reverse ++ reading.level.items, bare } }
  | .alternation => ∀ reading : Reading, reading.level.items = [] → ∃ level : Level,
    readAll flavor resolve reading tokens = .ok { reading with level } ∧ level.items ≠ [] ∧
      level.current :: level.alternatives = members.reverse ++ reading.level.alternatives

/-- Every phrase has members. -/
theorem Derives.members_ne_nil {phrase : Phrase} {kinds : List TokenKind} {members : List Pattern}
    (derived : Derives flavor resolve phrase kinds members) : members ≠ [] := by
  cases derived <;> simp

/-! ### One token -/

/-- A closing parenthesis ends a level that has items. -/
theorem step_closeGroup {level parent : Level} (some : level.items ≠ []) (start : Nat)
    (outer : List (Nat × Level)) {token : Token} (kind : token.kind = .closeGroup) :
    step flavor resolve ⟨level, (start, parent) :: outer⟩ token =
      .ok ⟨parent.add level.close, outer⟩ := by
  obtain ⟨item, items, split⟩ := List.exists_cons_of_ne_nil some
  simp only [step, kind, split]

/-- A bar ends a sequence that has items. -/
theorem step_bar {level : Level} (some : level.items ≠ []) (outer : List (Nat × Level))
    {token : Token} (kind : token.kind = .bar) :
    step flavor resolve ⟨level, outer⟩ token = .ok ⟨level.split token.offset, outer⟩ := by
  obtain ⟨item, items, split⟩ := List.exists_cons_of_ne_nil some
  simp only [step, kind, split]

/-- Reading ends with everything closed, and with no bar at the very end. -/
theorem finish_eq_ok {reading : Reading} {pattern : Pattern} :
    finish reading = .ok pattern ↔ reading.outer = [] ∧
      (reading.level.items = [] → reading.level.lastBar = none) ∧
      reading.level.close = pattern := by
  unfold finish
  split
  · rename_i offset none bar
    simp [none, bar]
  · rename_i around _
    simp [around]
  · rename_i around last
    simp only [around, true_and, Except.ok.injEq, iff_and_self]
    intro _ none
    by_contra bar
    obtain ⟨offset, bar⟩ := Option.ne_none_iff_exists'.mp bar
    exact last offset none bar

/-- Every derivation is read. -/
theorem Derives.reads {phrase : Phrase} {kinds : List TokenKind} {members : List Pattern}
    (derived : Derives flavor resolve phrase kinds members) {tokens : List Token}
    (same : tokens.map Token.kind = kinds) : Reads flavor resolve tokens members phrase := by
  induction derived generalizing tokens with
  | @name word symbol found =>
    intro reading
    obtain ⟨token, rfl, kind⟩ := List.map_eq_singleton_iff.mp same
    rw [readAll_singleton, step, kind]
    simp only [found]
    rfl
  | @parens kinds alternatives _ ih =>
    intro reading
    obtain ⟨front, last, rfl, sameFront, ending⟩ := List.map_eq_append_iff.mp same
    obtain ⟨opening, inner, rfl, opens, sameInner⟩ := List.map_eq_cons_iff.mp sameFront
    obtain ⟨closing, rfl, closes⟩ := List.map_eq_singleton_iff.mp ending
    -- Behind the parenthesis a level of its own is read, while the level around it waits.
    obtain ⟨level, read, some, members⟩ :=
      ih sameInner ⟨{}, (opening.offset, reading.level) :: reading.outer⟩ rfl
    have whole : level.close = collapse choice alternatives := by
      rw [Level.close, members, List.append_nil, List.reverse_reverse]
    calc readAll flavor resolve reading (opening :: inner ++ [closing])
      _ = (readAll flavor resolve ⟨{}, (opening.offset, reading.level) :: reading.outer⟩ inner >>=
          fun middle => readAll flavor resolve middle [closing]) := by
        rw [List.cons_append, readAll, step, opens, ← readAll_append]
        rfl
      _ = step flavor resolve ⟨level, (opening.offset, reading.level) :: reading.outer⟩
          closing := by
        rw [read, ← readAll_singleton]
        rfl
      _ = _ := by
        rw [step_closeGroup some _ _ closes, whole]
        rfl
  | bare _ ih =>
    intro reading
    exact ⟨true, ih same reading⟩
  | quantified quantifier _ ih =>
    intro reading
    obtain ⟨front, last, rfl, sameFront, ending⟩ := List.map_eq_append_iff.mp same
    obtain ⟨token, rfl, kind⟩ := List.map_eq_singleton_iff.mp ending
    refine ⟨false, ?_⟩
    rw [readAll_append, ih sameFront reading]
    show readAll flavor resolve _ [token] = _
    rw [readAll_singleton, step, kind]
    rfl
  | item _ ih => exact ih same
  | nextItem _ _ ihItems ihLast =>
    intro reading
    obtain ⟨front, last, rfl, sameFront, sameLast⟩ := List.map_eq_append_iff.mp same
    obtain ⟨_, read⟩ := ihItems sameFront reading
    obtain ⟨bare, readLast⟩ := ihLast sameLast
      { reading with level := { reading.level with items := _ ++ reading.level.items, bare := _ } }
    refine ⟨bare, ?_⟩
    rw [readAll_append, read]
    show readAll flavor resolve _ last = _
    rw [readLast]
    simp
  | @alternative kinds items derived ih =>
    intro reading empty
    obtain ⟨bare, read⟩ := ih same reading
    refine ⟨_, read, ?_, ?_⟩
    · simp [derived.members_ne_nil]
    · simp [Level.current, empty]
  | @nextAlternative kinds alternatives last items _ derived ihFront ihLast =>
    intro reading empty
    obtain ⟨front, rest, rfl, sameFront, sameRest⟩ := List.map_eq_append_iff.mp same
    obtain ⟨bar, behind, rfl, kind, sameLast⟩ := List.map_eq_cons_iff.mp sameRest
    obtain ⟨level, read, some, members⟩ := ihFront sameFront reading empty
    -- The bar leaves no items, so the last sequence has only its own.
    obtain ⟨bare, readLast⟩ := ihLast sameLast ⟨level.split bar.offset, reading.outer⟩
    refine ⟨{ level.split bar.offset with items := items.reverse, bare }, ?_, ?_, ?_⟩
    · rw [readAll_append, read]
      show readAll flavor resolve ⟨level, reading.outer⟩ (bar :: behind) = _
      rw [readAll, step_bar some _ kind]
      show readAll flavor resolve ⟨level.split bar.offset, reading.outer⟩ behind = _
      rw [readLast]
      simp [Level.split]
    · simp [derived.members_ne_nil]
    · simp [Level.current, Level.split, ← members]

/-! ## What is read is derived -/

/-- The complete alternatives of a level, and the bar behind the last of them. -/
inductive Closed (flavor : Flavor) (resolve : String → Option Symbol) :
    List Pattern → Option Nat → List TokenKind → Prop where
  | none : Closed flavor resolve [] none []
  | bar {alternatives kinds} (offset : Nat) :
    Derives flavor resolve .alternation kinds alternatives.reverse →
    Closed flavor resolve alternatives (some offset) (kinds ++ [.bar])

/-- The items of a level, and whether the last of them is a group. -/
inductive Begun (flavor : Flavor) (resolve : String → Option Symbol) :
    List Pattern → Bool → List TokenKind → Prop where
  | none : Begun flavor resolve [] false []
  | bare {items bare kinds last item} :
    Begun flavor resolve items bare kinds →
    Derives flavor resolve .group last [item] →
    Begun flavor resolve (item :: items) true (kinds ++ last)
  | quantified {item items kinds} :
    Derives flavor resolve .sequence kinds (item :: items).reverse →
    Begun flavor resolve (item :: items) false kinds

/-- A level has read tokens of some kinds. -/
def Level.Holds (flavor : Flavor) (resolve : String → Option Symbol) (level : Level)
    (kinds : List TokenKind) : Prop :=
  ∃ done begun, kinds = done ++ begun ∧
    Closed flavor resolve level.alternatives level.lastBar done ∧
    Begun flavor resolve level.items level.bare begun

/-- A reader has read tokens of some kinds: each group that is open holds what stands behind its
parenthesis. -/
inductive Reading.Holds (flavor : Flavor) (resolve : String → Option Symbol) :
    Reading → List TokenKind → Prop where
  | root {level kinds} :
    level.Holds flavor resolve kinds →
    Holds flavor resolve ⟨level, []⟩ kinds
  | inside {level start parent outer before kinds} :
    Holds flavor resolve ⟨parent, outer⟩ before →
    level.Holds flavor resolve kinds →
    Holds flavor resolve ⟨level, (start, parent) :: outer⟩ (before ++ .openGroup :: kinds)

/-- Items and one more operand are a sequence. -/
theorem Begun.derives_append {items : List Pattern} {bare : Bool} {kinds last : List TokenKind}
    {pattern : Pattern} (begun : Begun flavor resolve items bare kinds)
    (operand : Derives flavor resolve .operand last [pattern]) :
    Derives flavor resolve .sequence (kinds ++ last) (pattern :: items).reverse := by
  induction begun generalizing last pattern with
  | none => exact .item operand
  | @bare items bare kinds middle item _ group ih =>
    rw [List.reverse_cons]
    exact .nextItem (ih (.bare group)) operand
  | quantified derived =>
    rw [List.reverse_cons]
    exact .nextItem derived operand

/-- Items are a sequence. -/
theorem Begun.derives {items : List Pattern} {bare : Bool} {kinds : List TokenKind}
    (begun : Begun flavor resolve items bare kinds) (some : items ≠ []) :
    Derives flavor resolve .sequence kinds items.reverse := by
  cases begun with
  | none => exact absurd rfl some
  | bare front group => exact front.derives_append (.bare group)
  | quantified derived => exact derived

namespace Level.Holds

variable {level : Level} {kinds : List TokenKind}

/-- A new level has read nothing. -/
theorem empty : Level.Holds flavor resolve {} [] :=
  ⟨[], [], rfl, .none, .none⟩

/-- A group becomes an item. -/
theorem add (holds : level.Holds flavor resolve kinds) {last : List TokenKind} {pattern : Pattern}
    (group : Derives flavor resolve .group last [pattern]) :
    (level.add pattern).Holds flavor resolve (kinds ++ last) := by
  obtain ⟨done, begun, rfl, closed, items⟩ := holds
  exact ⟨done, begun ++ last, List.append_assoc _ _ _, closed, .bare items group⟩

/-- A level with items is an alternation. -/
theorem derives (holds : level.Holds flavor resolve kinds) (some : level.items ≠ []) :
    Derives flavor resolve .alternation kinds (level.current :: level.alternatives).reverse := by
  obtain ⟨done, begun, rfl, closed, items⟩ := holds
  have sequence := items.derives some
  generalize level.lastBar = lastBar at closed
  rw [Level.current]
  generalize level.alternatives = alternatives at *
  cases closed with
  | none => exact .alternative sequence
  | bar _ front =>
    rw [List.reverse_cons, List.append_assoc]
    exact .nextAlternative front sequence

/-- A level without items and bars has read nothing. -/
theorem eq_nil (holds : level.Holds flavor resolve kinds) (noItems : level.items = [])
    (noBar : level.lastBar = none) : kinds = [] := by
  obtain ⟨done, begun, rfl, closed, items⟩ := holds
  rw [noBar] at closed
  rw [noItems] at items
  generalize level.alternatives = alternatives at closed
  generalize level.bare = bare at items
  cases closed
  cases items
  rfl

/-- A quantifier is taken by the latest item. -/
theorem quantify (holds : level.Holds flavor resolve kinds) {item : Pattern} {items : List Pattern}
    (split : level.items = item :: items) (bare : level.bare = true) (quantifier : Quantifier) :
    Level.Holds flavor resolve
      { level with items := .quantified quantifier item :: items, bare := false }
      (kinds ++ [.quantifier quantifier]) := by
  obtain ⟨done, begun, rfl, closed, latest⟩ := holds
  refine ⟨done, begun ++ [.quantifier quantifier], List.append_assoc _ _ _, closed, ?_⟩
  rw [split, bare] at latest
  cases latest with
  | bare front group =>
    rw [List.append_assoc]
    exact .quantified (front.derives_append (.quantified quantifier group))

/-- A bar completes the current sequence. -/
theorem split (holds : level.Holds flavor resolve kinds) (some : level.items ≠ []) (offset : Nat) :
    (level.split offset).Holds flavor resolve (kinds ++ [.bar]) := by
  refine ⟨kinds ++ [.bar], [], (List.append_nil _).symm, ?_, .none⟩
  exact .bar offset (holds.derives some)

end Level.Holds

namespace Reading.Holds

variable {reading : Reading} {kinds : List TokenKind}

/-- More tokens are read by the innermost level. -/
theorem mapLevel (holds : reading.Holds flavor resolve kinds) {level : Level}
    {more : List TokenKind} (grows : ∀ kinds, reading.level.Holds flavor resolve kinds →
      level.Holds flavor resolve (kinds ++ more)) :
    Reading.Holds flavor resolve { reading with level } (kinds ++ more) := by
  cases holds with
  | root inner => exact .root (grows _ inner)
  | inside outer inner =>
    rw [List.append_assoc, List.cons_append]
    exact .inside outer (grows _ inner)

/-- One token keeps what the reader holds. -/
theorem step (holds : reading.Holds flavor resolve kinds) {token : Token} {next : Reading}
    (done : Pattern.step flavor resolve reading token = .ok next) :
    next.Holds flavor resolve (kinds ++ [token.kind]) := by
  unfold Pattern.step at done
  dsimp only at done
  split at done
  · rename_i word kind
    split at done
    · rename_i symbol found
      cases done
      rw [kind]
      exact holds.mapLevel fun _ level => level.add (.name found)
    · cases done
  · rename_i kind
    cases done
    rw [kind]
    exact .inside holds .empty
  · rename_i kind
    split at done
    · cases done
    · cases done
    · rename_i item items start parent outer split around
      cases done
      rw [kind]
      obtain ⟨level, _⟩ := reading
      dsimp only at split around
      subst around
      cases holds with
      | @inside _ _ _ _ before kinds waiting inner =>
        -- The level that closes becomes a group of the one that waits around it.
        rw [List.append_assoc]
        have group := Derives.parens (inner.derives (by simp [split]))
        exact waiting.mapLevel fun _ outside => outside.add group
    · cases done
  · rename_i quantifier kind
    split at done
    · rename_i item items split bare
      cases done
      rw [kind]
      exact holds.mapLevel fun _ level => level.quantify split bare quantifier
    · cases done
    · cases done
  · rename_i kind
    split at done
    · cases done
    · rename_i item items split
      cases done
      rw [kind]
      exact holds.mapLevel fun _ level => level.split (by simp [split]) token.offset

/-- All tokens keep what the reader holds. -/
theorem readAll (holds : reading.Holds flavor resolve kinds) {tokens : List Token} {last : Reading}
    (done : Pattern.readAll flavor resolve reading tokens = .ok last) :
    last.Holds flavor resolve (kinds ++ tokens.map Token.kind) := by
  induction tokens generalizing reading kinds with
  | nil =>
    cases done
    rw [List.map_nil, List.append_nil]
    exact holds
  | cons token tokens ih =>
    obtain ⟨next, first, rest⟩ := bind_eq_ok.mp done
    have behind := ih (holds.step first) rest
    rw [List.append_assoc] at behind
    exact behind

/-- What is read in the end is derived, if there were tokens. -/
theorem finish (holds : reading.Holds flavor resolve kinds) (some : kinds ≠ []) {pattern : Pattern}
    (done : Pattern.finish reading = .ok pattern) :
    ∃ alternatives, Derives flavor resolve .alternation kinds alternatives ∧
      pattern = collapse choice alternatives := by
  obtain ⟨closed, noBar, rfl⟩ := finish_eq_ok.mp done
  cases holds with
  | inside _ _ => cases closed
  | @root level kinds holds =>
    refine ⟨_, holds.derives fun none => ?_, rfl⟩
    exact some (holds.eq_nil none (noBar none))

end Reading.Holds

/-! ## Texts -/

/-- A text is read as a pattern exactly if it spells tokens that derive this pattern. -/
theorem read_eq_some_iff {text : List Char} {pattern : Pattern} :
    read flavor resolve text = .ok (some pattern) ↔
      ∃ kinds alternatives, Spelled flavor text kinds ∧
        Derives flavor resolve .alternation kinds alternatives ∧
        pattern = collapse choice alternatives := by
  constructor
  · intro done
    obtain ⟨tokens, scanned, rest⟩ := bind_eq_ok.mp done
    cases tokens with
    | nil => cases rest
    | cons token tokens =>
      obtain ⟨reading, through, ending⟩ := bind_eq_ok.mp rest
      obtain ⟨_, finished, same⟩ := bind_eq_ok.mp ending
      cases same
      have holds := (Reading.Holds.root .empty).readAll through
      obtain ⟨alternatives, derived, whole⟩ := holds.finish (List.cons_ne_nil _ _) finished
      exact ⟨_, alternatives, (Token.scan_iff 0).mp ⟨_, scanned, rfl⟩, derived, whole⟩
  · intro ⟨kinds, alternatives, spelled, derived, whole⟩
    obtain ⟨tokens, scanned, same⟩ := (Token.scan_iff 0).mpr spelled
    obtain ⟨level, through, nonempty, members⟩ := derived.reads same {} rfl
    have finished : finish ⟨level, []⟩ = .ok pattern := by
      refine finish_eq_ok.mpr ⟨rfl, fun none => absurd none nonempty, ?_⟩
      rw [whole, Level.close, members, List.append_nil, List.reverse_reverse]
    cases tokens with
    | nil =>
      -- Nothing is read from no tokens, so there would be no items.
      cases through
      exact absurd rfl nonempty
    | cons token tokens =>
      refine bind_eq_ok.mpr ⟨_, scanned, bind_eq_ok.mpr ⟨_, through, ?_⟩⟩
      exact bind_eq_ok.mpr ⟨_, finished, rfl⟩

/-- A text is read as no pattern exactly if it spells no tokens. -/
theorem read_eq_none_iff {text : List Char} :
    read flavor resolve text = .ok none ↔ Spelled flavor text [] := by
  rw [← Token.scan_iff 0]
  constructor
  · intro done
    obtain ⟨tokens, scanned, rest⟩ := bind_eq_ok.mp done
    cases tokens with
    | nil => exact ⟨[], scanned, rfl⟩
    | cons token tokens =>
      obtain ⟨reading, _, ending⟩ := bind_eq_ok.mp rest
      obtain ⟨_, _, same⟩ := bind_eq_ok.mp ending
      cases same
  · intro ⟨tokens, scanned, same⟩
    cases List.map_eq_nil_iff.mp same
    rw [read, scanned]
    rfl

/-- Blanks at the ends of a text do not change what is read. -/
theorem read_trim {text : List Char} {root : Option Pattern} :
    read flavor resolve (Text.trim text) = .ok root ↔ read flavor resolve text = .ok root := by
  cases root with
  | none => rw [read_eq_none_iff, read_eq_none_iff, spelled_trim]
  | some pattern => simp only [read_eq_some_iff, spelled_trim]

end TreeScheme.Pattern
