import TreeScheme.Proofs.Grammar.Totality

/-!
# The simple flavor is a fragment of the full one

The simple flavor lacks three signs and all definitions. A text that uses none of them is read the
same in both flavors, and a text that uses one of them cannot hide it: each bar makes a choice, each
other repetition a quantified pattern, and each definition a leaf, whatever collapses around them.
So the simple flavor reads exactly the texts that the full one reads as a plain pattern, and as the
same pattern (`Pattern.read_simple_iff`).

The two halves meet in the tokens. Texts spell the same tokens in both flavors, as long as all of
them belong to the simple one (`spelled_simple_iff`), and a derivation in the full flavor that comes
to a plain pattern has only such tokens (`Pattern.Derives.simple`).
-/

namespace TreeScheme

/-! ## Plain patterns -/

/-- Whether a pattern is made of lexemes, sequences and optional parts only. -/
def Pattern.isPlain : Pattern → Bool
  | leaf symbol _ => symbol == .lexeme
  | sequence items => isPlainAll items
  | choice _ => false
  | quantified quantifier operand => quantifier == .optional && operand.isPlain
where
  /-- Whether several patterns are plain. -/
  isPlainAll : List Pattern → Bool
  | [] => true
  | pattern :: rest => pattern.isPlain && isPlainAll rest

/-- Whether an expression has a plain pattern, or none. -/
def Expression.isPlain (expression : Expression) : Bool :=
  expression.root.all Pattern.isPlain

theorem Pattern.isPlainAll_iff {patterns : List Pattern} :
    isPlain.isPlainAll patterns = true ↔ ∀ pattern ∈ patterns, pattern.isPlain = true := by
  induction patterns with
  | nil => simp [isPlain.isPlainAll]
  | cons pattern rest ih => simp [isPlain.isPlainAll, ih]

/-! ## Tokens -/

/-- A sign of the simple flavor is the same sign in the full one. -/
theorem TokenKind.ofSign?_full {c : Char} {kind : TokenKind}
    (sign : ofSign? .simple c = some kind) : ofSign? .full c = some kind := by
  simp only [ofSign?] at sign ⊢
  split_ifs at sign with h h h <;> cases sign <;> subst h <;> decide

/-- A text spells tokens in the simple flavor exactly if it spells them in the full one and all of
them belong to the simple one. -/
theorem spelled_simple_iff {text : List Char} {kinds : List TokenKind} :
    Spelled .simple text kinds ↔
      Spelled .full text kinds ∧ ∀ kind ∈ kinds, kind.Legal .simple := by
  constructor
  · intro spelled
    refine ⟨?_, spelled.legal⟩
    induction spelled with
    | done => exact .done
    | blank blank _ ih => exact .blank blank ih
    | word isWord apart _ ih => exact .word isWord apart ih
    | sign sign _ ih => exact .sign (TokenKind.ofSign?_full sign) ih
  · rintro ⟨spelled, legal⟩
    induction spelled with
    | done => exact .done
    | blank blank _ ih => exact .blank blank (ih legal)
    | word isWord apart _ ih =>
      exact .word isWord apart (ih fun kind mem => legal kind (List.mem_cons_of_mem _ mem))
    | sign sign _ ih =>
      have here := (legal _ List.mem_cons_self).ofSign? (TokenKind.of_ofSign? sign).2
        (TokenKind.solid_of_ofSign? sign).2
      exact .sign here (ih fun kind mem => legal kind (List.mem_cons_of_mem _ mem))

namespace Pattern

variable {resolve : String → Option Symbol}

/-- A word stands for the same in both flavors if it stands for a lexeme, and otherwise for nothing
in the simple one. -/
theorem resolveIn_simple_iff {name : String} {symbol : Symbol} :
    resolveIn .simple resolve name = some symbol ↔
      resolveIn .full resolve name = some symbol ∧ symbol = .lexeme := by
  unfold resolveIn
  cases resolve name with
  | none => simp
  | some found => cases found <;> cases symbol <;> simp

/-! ## Phrases -/

/-- A phrase of the simple flavor is a phrase of the full one. -/
theorem Derives.full {phrase : Phrase} {kinds : List TokenKind} {members : List Pattern}
    (derived : Derives .simple resolve phrase kinds members) :
    Derives .full resolve phrase kinds members := by
  induction derived with
  | name found => exact .name (resolveIn_simple_iff.mp found).1
  | parens _ ih => exact .parens ih
  | bare _ ih => exact .bare ih
  | quantified quantifier _ ih => exact .quantified quantifier ih
  | item _ ih => exact .item ih
  | nextItem _ _ ihItems ihLast => exact .nextItem ihItems ihLast
  | alternative _ ih => exact .alternative ih
  | nextAlternative _ _ ihFront ihLast => exact .nextAlternative ihFront ihLast

/-- Whether the members of a phrase come to plain patterns. The alternatives of an alternation do so
together, as a choice that may collapse. -/
def Phrase.Plain (members : List Pattern) : Phrase → Prop
  | .alternation => (collapse choice members).isPlain = true
  | .sequence | .operand | .group => ∀ member ∈ members, member.isPlain = true

/-- A sequence is plain exactly if its items are, also if it collapses. -/
theorem isPlain_collapse_sequence {items : List Pattern} :
    (collapse sequence items).isPlain = true ↔ ∀ item ∈ items, item.isPlain = true := by
  match items with
  | [] => simp [collapse, isPlain, isPlain.isPlainAll]
  | [only] => simp [collapse]
  | first :: second :: rest => exact isPlainAll_iff

/-- A phrase of the full flavor that comes to plain patterns is a phrase of the simple one, and its
tokens belong to the simple one. -/
theorem Derives.simple {phrase : Phrase} {kinds : List TokenKind} {members : List Pattern}
    (derived : Derives .full resolve phrase kinds members) (plain : phrase.Plain members)
    (legal : ∀ kind ∈ kinds, kind.Legal .full) :
    Derives .simple resolve phrase kinds members ∧ ∀ kind ∈ kinds, kind.Legal .simple := by
  induction derived with
  | @name word symbol found =>
    have isLexeme : symbol = .lexeme := by simpa [Phrase.Plain, isPlain] using plain
    refine ⟨.name (resolveIn_simple_iff.mpr ⟨found, isLexeme⟩), ?_⟩
    rw [List.forall_mem_singleton]
    exact .inl ⟨word, rfl, (legal _ List.mem_cons_self).nameWord⟩
  | @parens kinds alternatives _ ih =>
    have inner : (collapse choice alternatives).isPlain = true := plain _ List.mem_cons_self
    obtain ⟨derived, simple⟩ := ih inner fun kind mem => legal kind (by simp [mem])
    refine ⟨.parens derived, fun kind mem => ?_⟩
    rw [List.mem_append, List.mem_cons, List.mem_singleton] at mem
    rcases mem with (rfl | mem) | rfl
    · exact .inr ⟨'(', rfl⟩
    · exact simple kind mem
    · exact .inr ⟨')', rfl⟩
  | bare _ ih =>
    obtain ⟨derived, simple⟩ := ih plain legal
    exact ⟨.bare derived, simple⟩
  | @quantified kinds pattern quantifier _ ih =>
    have whole : quantifier = .optional ∧ pattern.isPlain = true := by
      simpa [Phrase.Plain, isPlain] using plain
    obtain ⟨rfl, inner⟩ := whole
    obtain ⟨derived, simple⟩ :=
      ih (List.forall_mem_singleton.mpr inner) fun kind mem => legal kind (by simp [mem])
    refine ⟨.quantified .optional derived, ?_⟩
    rw [List.forall_mem_append, List.forall_mem_singleton]
    exact ⟨simple, .inr ⟨'?', rfl⟩⟩
  | item _ ih =>
    obtain ⟨derived, simple⟩ := ih plain legal
    exact ⟨.item derived, simple⟩
  | nextItem _ _ ihItems ihLast =>
    obtain ⟨before, last⟩ := List.forall_mem_append.mp plain
    obtain ⟨items, simpleItems⟩ := ihItems before fun kind mem => legal kind (by simp [mem])
    obtain ⟨operand, simpleLast⟩ := ihLast last fun kind mem => legal kind (by simp [mem])
    exact ⟨.nextItem items operand, List.forall_mem_append.mpr ⟨simpleItems, simpleLast⟩⟩
  | alternative _ ih =>
    -- A single alternative is the pattern itself.
    obtain ⟨derived, simple⟩ := ih (isPlain_collapse_sequence.mp plain) legal
    exact ⟨.alternative derived, simple⟩
  | @nextAlternative kinds alternatives last items front _ _ _ =>
    -- Two alternatives are a choice, which is not plain.
    obtain ⟨first, rest, rfl⟩ := List.exists_cons_of_ne_nil front.members_ne_nil
    cases rest <;> cases plain

/-! ## Texts -/

/-- Every pattern that is read in the simple flavor is plain. -/
theorem Formed.isPlain {pattern : Pattern} (formed : Formed .simple resolve pattern) :
    pattern.isPlain = true := by
  induction formed with
  | leaf _ known =>
    rw [(resolveIn_simple_iff.mp known).2]
    rfl
  | sequence _ _ ih => exact isPlainAll_iff.mpr ih
  | choice bar _ _ _ => cases bar
  | @quantified quantifier _ sign _ ih =>
    cases quantifier with
    | optional => exact ih
    | star | plus => cases sign

/-- **The simple flavor is the plain fragment.** A text is read in the simple flavor exactly if it is
read in the full one, as a plain pattern or as none, and then it is read as the same. -/
theorem read_simple_iff {text : List Char} {root : Option Pattern} :
    read .simple resolve text = .ok root ↔
      read .full resolve text = .ok root ∧ root.all isPlain = true := by
  cases root with
  | none =>
    rw [read_eq_none_iff, read_eq_none_iff, spelled_simple_iff]
    simp
  | some pattern =>
    rw [Option.all_some]
    constructor
    · intro done
      refine ⟨?_, (formed_of_read done).isPlain⟩
      obtain ⟨kinds, alternatives, spelled, derived, whole⟩ := read_eq_some_iff.mp done
      exact read_eq_some_iff.mpr
        ⟨kinds, alternatives, (spelled_simple_iff.mp spelled).1, derived.full, whole⟩
    · rintro ⟨done, plain⟩
      obtain ⟨kinds, alternatives, spelled, derived, rfl⟩ := read_eq_some_iff.mp done
      obtain ⟨simple, legal⟩ := derived.simple plain spelled.legal
      exact read_eq_some_iff.mpr
        ⟨kinds, alternatives, spelled_simple_iff.mpr ⟨spelled, legal⟩, simple, rfl⟩

end Pattern

namespace Grammar

/-- A text is read in the simple flavor exactly as in the full one, if that gives a plain
expression. -/
theorem read_simple_eq_ok_iff {grammar : Grammar} {text : String} {expression : Expression} :
    grammar.read .simple text = .ok expression ↔
      grammar.read .full text = .ok expression ∧ expression.isPlain = true := by
  constructor
  · intro done
    obtain ⟨root, found, same⟩ := bind_eq_ok.mp done
    cases same
    obtain ⟨full, plain⟩ := Pattern.read_simple_iff.mp found
    exact ⟨bind_eq_ok.mpr ⟨root, full, rfl⟩, plain⟩
  · rintro ⟨done, plain⟩
    obtain ⟨root, found, same⟩ := bind_eq_ok.mp done
    cases same
    exact bind_eq_ok.mpr ⟨root, Pattern.read_simple_iff.mpr ⟨found, plain⟩, rfl⟩

/-- **The simple flavor is exact.** Over the names of any grammar, a text is read in the simple
flavor exactly if it is read in the full one as a pattern of lexemes, sequences and optional parts
only, or as no pattern. Then both have the same pattern, canonical text and plural names, both
compile, and their matchers give the same result for every input. -/
theorem simple_flavor_exact (grammar : Grammar) (text : String) :
    (∀ expression, grammar.read .simple text = .ok expression ↔
      grammar.read .full text = .ok expression ∧ expression.isPlain = true) ∧
    ∀ simple, grammar.read .simple text = .ok simple →
      ∃ full, grammar.read .full text = .ok full ∧ full.root = simple.root ∧
        full.canonical = simple.canonical ∧ full.plurality = simple.plurality ∧
        ∃ first second, grammar.matcherIn .simple text = .ok first ∧
          grammar.matcher text = .ok second ∧
          ∀ input, first.evaluate input = second.evaluate input := by
  refine ⟨fun expression => read_simple_eq_ok_iff, fun simple done => ?_⟩
  have full := (read_simple_eq_ok_iff.mp done).1
  obtain ⟨matcher, compiled⟩ := exists_compile_of_read done
  exact ⟨simple, full, rfl, rfl, rfl, matcher, matcher, bind_eq_ok.mpr ⟨simple, done, compiled⟩,
    bind_eq_ok.mpr ⟨simple, full, compiled⟩, fun _ => rfl⟩

end Grammar

end TreeScheme
