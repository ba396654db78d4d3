import TreeScheme.Proofs.Scheme.Filling

/-!
# What directives declare

Reading a scheme goes through its directives once and does three things with each: it takes the
directive apart, checks that its names are new, and keeps what it declares for later. This module
says the three apart from each other.

What a directive declares is said of the directive alone (`Scheme.Declares`), down to the entries of
a definition (`Scheme.Enters`) and the rules below a rule (`Scheme.States`). What is kept is the
list of these declarations, one behind the other (`Scheme.Draft.declare`). And all checks on the way
come to one condition at the end: no name was declared twice (`Scheme.readDirectives_iff`).
-/

namespace TreeScheme

/-- A node whose argument is spelled as an alias list with something behind it. -/
def Node.Heads (isName : Char → Bool) (node : Node) (header : Header) : Prop :=
  ∃ text, node.rawArgument? = some text ∧ Header.Spells isName text.toList header

namespace Scheme

/-! ## Single directives -/

/-- The sequences and the cases that the nodes below a definition enter, each in order. -/
inductive Enters : List Node → List String → List (String × String) → Prop where
  | done : Enters [] [] []
  | sequence {node nodes sequences cases} :
    node.tag = "seq" →
    node.children = [] →
    Enters nodes sequences cases →
    Enters (node :: nodes) (node.rawArgument?.getD "" :: sequences) cases
  | case {node nodes header sequences cases} :
    node.tag = "case" →
    node.children = [] →
    node.Heads isNameChar header →
    Enters nodes sequences cases →
    Enters (node :: nodes) sequences ((header.aliases, header.rest.getD "") :: cases)

mutual

/-- The rule that a node states, with its keyword. -/
inductive States : RuleKeyword → Node → Rule → Prop where
  | intro {keyword tag argument children row header rules} :
    Node.Heads isNameChar ⟨tag, argument, children, row⟩ header →
    StatesBelow children rules →
    States keyword ⟨tag, argument, children, row⟩
      { keyword, tags := aliases header.aliases, arguments := header.rest, children := rules, row }

/-- The rules that the nodes below a rule state, in order. -/
inductive StatesBelow : List Node → List Rule → Prop where
  | done : StatesBelow [] []
  | rule {node nodes rule rules} :
    node.tag = "rule" →
    States .rule node rule →
    StatesBelow nodes rules →
    StatesBelow (node :: nodes) (rule :: rules)
  | children {node nodes rule rules} :
    node.tag = "children" →
    States .children node rule →
    StatesBelow nodes rules →
    StatesBelow (node :: nodes) (rule :: rules)

end

/-- What a directive at the top of a scheme can declare. -/
inductive Declaration where
  | lexeme (lexeme : LexemeDeclaration)
  | definition (definition : TreeScheme.Draft) (row : Nat)
  | common (rule : Rule)
  | root (rule : Rule)

/-- What a directive at the top of a scheme declares. -/
inductive Declares (engine : Engine) : Node → Declaration → Prop where
  | lexeme {node header pattern recognizer} :
    node.tag = "lex" →
    node.children = [] →
    node.Heads isUpperNameChar header →
    header.rest = some pattern →
    engine.recognizer? pattern = some recognizer →
    Declares engine node (.lexeme ⟨aliases header.aliases, ⟨pattern, recognizer⟩⟩)
  | definition {node name sequences cases} :
    node.tag = "def" →
    node.rawArgument? = some name →
    Header.NameWord isNameChar name.toList →
    Enters node.children sequences cases →
    Declares engine node (.definition ⟨name, sequences, cases⟩ node.row)
  | common {node rule} :
    node.tag = "rule" →
    States .rule node rule →
    Declares engine node (.common rule)
  | root {node rule} :
    node.tag = "root-rule" →
    States .rootRule node rule →
    Declares engine node (.root rule)

/-! ## Reading a directive -/

/-- The tag of a directive. -/
def Directive.tag : Directive → String
  | lex => "lex"
  | definition => "def"
  | sequence => "seq"
  | case => "case"
  | rule => "rule"
  | rootRule => "root-rule"
  | children => "children"

theorem Directive.ofTag?_eq_some_iff {tag : String} {directive : Directive} :
    Directive.ofTag? tag = some directive ↔ tag = directive.tag := by
  constructor
  · intro found
    unfold Directive.ofTag? at found
    split at found <;> cases found <;> rfl
  · rintro rfl
    cases directive <;> rfl

theorem header_iff {isName : Char → Bool} (names : NameClass isName) {node : Node}
    {found : Header} : header isName node = .ok found ↔ node.Heads isName found := by
  rw [header, Node.Heads]
  constructor
  · intro read
    split at read
    · cases read
    · rename_i text raw
      split at read
      · cases read
      · rename_i parsed
        cases read
        exact ⟨text, raw, (Header.read_iff names).mp parsed⟩
  · rintro ⟨text, raw, spelled⟩
    simp only [raw, (Header.read_iff names).mpr spelled]

theorem rejectChildren_iff {node : Node} : rejectChildren node = .ok () ↔ node.children = [] := by
  rw [rejectChildren]
  split
  · rename_i none
    exact ⟨fun _ => none, fun _ => rfl⟩
  · rename_i some
    constructor
    · intro impossible
      cases impossible
    · intro none
      rw [none] at some
      cases some

/-- An argument with an alias list has names. -/
theorem aliases_ne_nil_of_heads {isName : Char → Bool} (names : NameClass isName) {node : Node}
    {found : Header} (headed : node.Heads isName found) : aliases found.aliases ≠ [] := by
  obtain ⟨text, _, spelled⟩ := headed
  exact (Header.opens_of_read names (Header.read_of_spells names spelled)).1.some

/-- A text is a name exactly if it is a word of name characters. -/
theorem isName_iff {text : String} :
    isName text = true ↔ Header.NameWord isNameChar text.toList := by
  simp [isName, Header.NameWord]

/-- The entries of a definition are put behind those that it has. -/
theorem readEntries_iff {nodes : List Node} {draft definition : TreeScheme.Draft} :
    readEntries draft nodes = .ok definition ↔ ∃ sequences cases, Enters nodes sequences cases ∧
      ⟨draft.name, draft.sequences ++ sequences, draft.cases ++ cases⟩ = definition := by
  induction nodes generalizing draft with
  | nil =>
    constructor
    · intro read
      cases read
      exact ⟨[], [], .done, by simp⟩
    · rintro ⟨_, _, enters, rfl⟩
      cases enters
      simp [readEntries]
  | cons node nodes ih =>
    rw [readEntries, bind_eq_ok]
    constructor
    · rintro ⟨_, childless, read⟩
      have childless := rejectChildren_iff.mp childless
      split at read
      · rename_i tag
        obtain ⟨sequences, cases, enters, rfl⟩ := ih.mp read
        refine ⟨_, cases, .sequence (Directive.ofTag?_eq_some_iff.mp tag) childless enters, ?_⟩
        simp [TreeScheme.Draft.addSequence]
      · rename_i tag
        obtain ⟨found, headed, read⟩ := bind_eq_ok.mp read
        obtain ⟨sequences, cases, enters, rfl⟩ := ih.mp read
        refine ⟨sequences, _, .case (Directive.ofTag?_eq_some_iff.mp tag) childless
          ((header_iff nameClass_isNameChar).mp headed) enters, ?_⟩
        simp [TreeScheme.Draft.addCase]
      · cases read
    · rintro ⟨_, _, enters, rfl⟩
      cases enters with
      | sequence tag childless enters =>
        refine ⟨(), rejectChildren_iff.mpr childless, ?_⟩
        rw [show Directive.ofTag? node.tag = some .sequence from
          Directive.ofTag?_eq_some_iff.mpr tag]
        exact ih.mpr ⟨_, _, enters, by simp [TreeScheme.Draft.addSequence]⟩
      | case tag childless headed enters =>
        refine ⟨(), rejectChildren_iff.mpr childless, ?_⟩
        rw [show Directive.ofTag? node.tag = some .case from Directive.ofTag?_eq_some_iff.mpr tag]
        exact bind_eq_ok.mpr ⟨_, (header_iff nameClass_isNameChar).mpr headed,
          ih.mpr ⟨_, _, enters, by simp [TreeScheme.Draft.addCase]⟩⟩

mutual

/-- A rule is read as its node states it. -/
theorem readRule_iff {keyword : RuleKeyword} : ∀ {node : Node} {rule : Rule},
    readRule keyword node = .ok rule ↔ States keyword node rule
  | ⟨tag, argument, children, row⟩, rule => by
    rw [readRule]
    constructor
    · intro read
      obtain ⟨found, headed, read⟩ := bind_eq_ok.mp read
      obtain ⟨rules, below, same⟩ := bind_eq_ok.mp read
      cases same
      exact .intro ((header_iff nameClass_isNameChar).mp headed) (readRules_iff.mp below)
    · rintro (⟨headed, below⟩)
      exact bind_eq_ok.mpr ⟨_, (header_iff nameClass_isNameChar).mpr headed,
        bind_eq_ok.mpr ⟨_, readRules_iff.mpr below, rfl⟩⟩

theorem readRules_iff : ∀ {nodes : List Node} {rules : List Rule},
    readRule.readRules nodes = .ok rules ↔ StatesBelow nodes rules
  | [], rules => by
    constructor
    · intro read
      cases read
      exact .done
    · rintro ⟨⟩
      rfl
  | node :: nodes, rules => by
    rw [readRule.readRules]
    constructor
    · intro read
      obtain ⟨keyword, nested, read⟩ := bind_eq_ok.mp read
      obtain ⟨rule, here, read⟩ := bind_eq_ok.mp read
      obtain ⟨others, later, same⟩ := bind_eq_ok.mp read
      cases same
      rw [nestedKeyword] at nested
      split at nested
      · rename_i tag
        cases nested
        exact .rule (Directive.ofTag?_eq_some_iff.mp tag) (readRule_iff.mp here)
          (readRules_iff.mp later)
      · rename_i tag
        cases nested
        exact .children (Directive.ofTag?_eq_some_iff.mp tag) (readRule_iff.mp here)
          (readRules_iff.mp later)
      · cases nested
    · intro states
      cases states with
      | rule tag here later =>
        have nested : nestedKeyword node = .ok .rule := by
          rw [nestedKeyword, show Directive.ofTag? node.tag = some .rule from
            Directive.ofTag?_eq_some_iff.mpr tag]
        exact bind_eq_ok.mpr ⟨_, nested, bind_eq_ok.mpr ⟨_, readRule_iff.mpr here,
          bind_eq_ok.mpr ⟨_, readRules_iff.mpr later, rfl⟩⟩⟩
      | children tag here later =>
        have nested : nestedKeyword node = .ok .children := by
          rw [nestedKeyword, show Directive.ofTag? node.tag = some .children from
            Directive.ofTag?_eq_some_iff.mpr tag]
        exact bind_eq_ok.mpr ⟨_, nested, bind_eq_ok.mpr ⟨_, readRule_iff.mpr here,
          bind_eq_ok.mpr ⟨_, readRules_iff.mpr later, rfl⟩⟩⟩

end

/-! ## Drafts -/

/-- A draft with another declaration. -/
def Draft.declare (draft : Draft) : Declaration → Draft
  | .lexeme lexeme => { draft with
      builder := { draft.builder with
        lexemes := ⟨draft.builder.lexemes.declarations ++ [lexeme]⟩ } }
  | .definition definition row => { draft with
      builder := { draft.builder with drafts := draft.builder.drafts ++ [definition] }
      definitionRows := (definition.name, row) :: draft.definitionRows }
  | .common rule => { draft with common := draft.common ++ [rule] }
  | .root rule => { draft with root := draft.root ++ [rule] }

/-- A declaration of names that a draft does not have. -/
def Draft.Fresh (draft : Draft) : Declaration → Prop
  | .lexeme lexeme =>
    lexeme.aliases.Nodup ∧ ∀ name ∈ lexeme.aliases, name ∉ draft.builder.lexemes.names
  | .definition definition _ => definition.name ∉ draft.builder.drafts.map TreeScheme.Draft.name
  | .common _ | .root _ => True

/-- A draft in which no name is declared twice. A lexeme and a definition may share one. -/
structure Draft.Distinct (draft : Draft) : Prop where
  lexemes : draft.builder.lexemes.names.Nodup
  definitions : (draft.builder.drafts.map TreeScheme.Draft.name).Nodup

variable {engine : Engine}

theorem readLexeme_iff {draft next : Draft} {node : Node} :
    readLexeme engine draft node = .ok next ↔ node.children = [] ∧ ∃ found pattern recognizer,
      node.Heads isUpperNameChar found ∧ found.rest = some pattern ∧
      engine.recognizer? pattern = some recognizer ∧
      draft.Fresh (.lexeme ⟨aliases found.aliases, ⟨pattern, recognizer⟩⟩) ∧
      draft.declare (.lexeme ⟨aliases found.aliases, ⟨pattern, recognizer⟩⟩) = next := by
  rw [readLexeme, bind_eq_ok]
  constructor
  · rintro ⟨_, childless, read⟩
    obtain ⟨found, headed, read⟩ := bind_eq_ok.mp read
    split at read
    · cases read
    · rename_i pattern rest
      obtain ⟨builder, declared, same⟩ := bind_eq_ok.mp read
      cases same
      obtain ⟨lexemes, registered, same⟩ := bind_eq_ok.mp (within_eq_ok.mp declared)
      cases same
      obtain ⟨_, free, recognizer, known, rfl⟩ := Registry.register_iff.mp registered
      exact ⟨rejectChildren_iff.mp childless, found, pattern, recognizer,
        (header_iff nameClass_isUpperNameChar).mp headed, rest, known,
        (firstTaken_eq_none_iff _ _).mp free, rfl⟩
  · rintro ⟨childless, found, pattern, recognizer, headed, rest, known, fresh, rfl⟩
    have registered := Registry.register_iff.mpr
      ⟨aliases_ne_nil_of_heads nameClass_isUpperNameChar headed,
        (firstTaken_eq_none_iff _ _).mpr fresh, recognizer, known, rfl⟩
    refine ⟨(), rejectChildren_iff.mpr childless, bind_eq_ok.mpr
      ⟨found, (header_iff nameClass_isUpperNameChar).mpr headed, ?_⟩⟩
    rw [rest]
    exact bind_eq_ok.mpr ⟨_, within_eq_ok.mpr (bind_eq_ok.mpr ⟨_, registered, rfl⟩), rfl⟩

theorem readDefinition_iff {draft next : Draft} {node : Node} :
    readDefinition draft node = .ok next ↔ ∃ name sequences cases,
      node.rawArgument? = some name ∧ Header.NameWord isNameChar name.toList ∧
      Enters node.children sequences cases ∧
      draft.Fresh (.definition ⟨name, sequences, cases⟩ node.row) ∧
      draft.declare (.definition ⟨name, sequences, cases⟩ node.row) = next := by
  rw [readDefinition]
  constructor
  · intro read
    split at read
    · rename_i isName
      obtain ⟨_, _, read⟩ := bind_eq_ok.mp read
      obtain ⟨definition, entered, read⟩ := bind_eq_ok.mp read
      obtain ⟨builder, declared, same⟩ := bind_eq_ok.mp read
      cases same
      obtain ⟨_, fresh, same⟩ := bind_eq_ok.mp (within_eq_ok.mp declared)
      cases same
      obtain ⟨sequences, cases, enters, rfl⟩ := readEntries_iff.mp entered
      cases raw : node.rawArgument? with
      | none =>
        rw [raw] at isName
        cases isName
      | some name =>
        rw [raw] at isName fresh
        exact ⟨name, sequences, cases, rfl, isName_iff.mp isName, enters,
          checkFresh_iff.mp fresh, rfl⟩
    · cases read
  · rintro ⟨name, sequences, cases, raw, isWord, enters, fresh, rfl⟩
    have free : draft.builder.checkFresh name = .ok () := checkFresh_iff.mpr fresh
    rw [raw, Option.getD_some, if_pos (isName_iff.mpr isWord)]
    exact bind_eq_ok.mpr ⟨(), within_eq_ok.mpr free, bind_eq_ok.mpr
      ⟨_, readEntries_iff.mpr ⟨sequences, cases, enters, rfl⟩, bind_eq_ok.mpr
        ⟨_, within_eq_ok.mpr (bind_eq_ok.mpr ⟨(), free, rfl⟩), rfl⟩⟩⟩

/-- **One directive.** It is read exactly if it declares something under new names, and this is put
behind what the draft has. -/
theorem readDirective_iff {draft next : Draft} {node : Node} :
    readDirective engine draft node = .ok next ↔ ∃ declaration, Declares engine node declaration ∧
      draft.Fresh declaration ∧ draft.declare declaration = next := by
  rw [readDirective]
  constructor
  · intro read
    split at read
    · rename_i tag
      obtain ⟨childless, found, pattern, recognizer, headed, rest, known, fresh, rfl⟩ :=
        readLexeme_iff.mp read
      exact ⟨_, .lexeme (Directive.ofTag?_eq_some_iff.mp tag) childless headed rest known, fresh,
        rfl⟩
    · rename_i tag
      obtain ⟨name, sequences, cases, raw, isWord, enters, fresh, rfl⟩ := readDefinition_iff.mp read
      exact ⟨_, .definition (Directive.ofTag?_eq_some_iff.mp tag) raw isWord enters, fresh, rfl⟩
    · rename_i tag
      obtain ⟨rule, here, same⟩ := bind_eq_ok.mp read
      cases same
      exact ⟨_, .common (Directive.ofTag?_eq_some_iff.mp tag) (readRule_iff.mp here), trivial, rfl⟩
    · rename_i tag
      obtain ⟨rule, here, same⟩ := bind_eq_ok.mp read
      cases same
      exact ⟨_, .root (Directive.ofTag?_eq_some_iff.mp tag) (readRule_iff.mp here), trivial, rfl⟩
    · cases read
  · rintro ⟨declaration, declares, fresh, rfl⟩
    cases declares with
    | lexeme tag childless headed rest known =>
      rw [show Directive.ofTag? node.tag = some .lex from Directive.ofTag?_eq_some_iff.mpr tag]
      exact readLexeme_iff.mpr ⟨childless, _, _, _, headed, rest, known, fresh, rfl⟩
    | definition tag raw isWord enters =>
      rw [show Directive.ofTag? node.tag = some .definition from
        Directive.ofTag?_eq_some_iff.mpr tag]
      exact readDefinition_iff.mpr ⟨_, _, _, raw, isWord, enters, fresh, rfl⟩
    | common tag states =>
      rw [show Directive.ofTag? node.tag = some .rule from Directive.ofTag?_eq_some_iff.mpr tag]
      exact bind_eq_ok.mpr ⟨_, readRule_iff.mpr states, rfl⟩
    | root tag states =>
      rw [show Directive.ofTag? node.tag = some .rootRule from
        Directive.ofTag?_eq_some_iff.mpr tag]
      exact bind_eq_ok.mpr ⟨_, readRule_iff.mpr states, rfl⟩

/-- New names are what keeps all names different. -/
theorem Draft.Distinct.declare_iff {draft : Draft} (distinct : draft.Distinct)
    (declaration : Declaration) :
    (draft.declare declaration).Distinct ↔ draft.Fresh declaration := by
  cases declaration with
  | lexeme lexeme =>
    have names : (draft.declare (.lexeme lexeme)).builder.lexemes.names =
        draft.builder.lexemes.names ++ lexeme.aliases := by
      simp [Draft.declare, Registry.names]
    constructor
    · intro next
      have all := next.lexemes
      rw [names, List.nodup_append] at all
      exact ⟨all.2.1, fun name new old => all.2.2 name old name new rfl⟩
    · rintro ⟨different, fresh⟩
      refine ⟨?_, distinct.definitions⟩
      rw [names, List.nodup_append]
      refine ⟨distinct.lexemes, different, ?_⟩
      rintro name old other new rfl
      exact fresh name new old
  | definition definition row =>
    constructor
    · intro next
      have all := next.definitions
      rw [Draft.declare, List.map_append, List.nodup_append] at all
      intro old
      exact all.2.2 _ old _ (List.mem_singleton_self _) rfl
    · intro fresh
      exact ⟨distinct.lexemes, nodup_append_name distinct.definitions fresh⟩
  | common rule | root rule => exact ⟨fun _ => trivial, fun _ => ⟨distinct.1, distinct.2⟩⟩

/-- A draft had different names before, too. -/
theorem Draft.Distinct.of_declare {draft : Draft} {declaration : Declaration}
    (next : (draft.declare declaration).Distinct) : draft.Distinct := by
  cases declaration with
  | lexeme lexeme =>
    refine ⟨?_, next.definitions⟩
    have all := next.lexemes
    rw [Draft.declare, Registry.names_append] at all
    exact (List.nodup_append.mp all).1
  | definition definition row =>
    refine ⟨next.lexemes, ?_⟩
    have all := next.definitions
    rw [Draft.declare, List.map_append] at all
    exact (List.nodup_append.mp all).1
  | common rule | root rule => exact ⟨next.1, next.2⟩

theorem Draft.Distinct.of_foldl {declarations : List Declaration} {draft : Draft}
    (final : (declarations.foldl Draft.declare draft).Distinct) : draft.Distinct := by
  induction declarations generalizing draft with
  | nil => exact final
  | cons declaration declarations ih => exact (ih final).of_declare

/-- **All directives.** They are read exactly if each declares something and no name is declared
twice, and the draft holds these declarations in order. -/
theorem readDirectives_iff {nodes : List Node} {draft next : Draft} (distinct : draft.Distinct) :
    readDirectives engine draft nodes = .ok next ↔ ∃ declarations,
      List.Forall₂ (Declares engine) nodes declarations ∧
      declarations.foldl Draft.declare draft = next ∧ next.Distinct := by
  induction nodes generalizing draft with
  | nil =>
    constructor
    · intro read
      cases read
      exact ⟨[], .nil, rfl, distinct⟩
    · rintro ⟨_, all, rfl, _⟩
      cases all
      rfl
  | cons node nodes ih =>
    rw [readDirectives, bind_eq_ok]
    constructor
    · rintro ⟨between, here, later⟩
      obtain ⟨declaration, declares, fresh, rfl⟩ := readDirective_iff.mp here
      obtain ⟨declarations, all, same, final⟩ :=
        (ih ((distinct.declare_iff declaration).mpr fresh)).mp later
      exact ⟨declaration :: declarations, .cons declares all, same, final⟩
    · rintro ⟨_, all, rfl, final⟩
      obtain ⟨declaration, declarations, declares, others, rfl⟩ :=
        List.forall₂_cons_left_iff.mp all
      rw [List.foldl_cons] at final
      have between : (draft.declare declaration).Distinct := final.of_foldl
      refine ⟨_, readDirective_iff.mpr
        ⟨declaration, declares, (distinct.declare_iff declaration).mp between, rfl⟩, ?_⟩
      exact (ih between).mpr ⟨declarations, others, rfl, final⟩

/-! ## What is kept -/

/-- The lexemes among some declarations. -/
def lexemes (declarations : List Declaration) : List LexemeDeclaration :=
  declarations.filterMap fun
    | .lexeme lexeme => some lexeme
    | _ => none

/-- The definitions among some declarations. -/
def definitions (declarations : List Declaration) : List TreeScheme.Draft :=
  declarations.filterMap fun
    | .definition definition _ => some definition
    | _ => none

/-- The common rules among some declarations. -/
def commonRules (declarations : List Declaration) : List Rule :=
  declarations.filterMap fun
    | .common rule => some rule
    | _ => none

/-- The root rules among some declarations. -/
def rootRules (declarations : List Declaration) : List Rule :=
  declarations.filterMap fun
    | .root rule => some rule
    | _ => none

/-- A draft keeps lexemes, definitions and rules apart, each kind in the order of declaration. -/
theorem foldl_declare (declarations : List Declaration) (draft : Draft) :
    (declarations.foldl Draft.declare draft).builder =
        ⟨draft.builder.limits, ⟨draft.builder.lexemes.declarations ++ lexemes declarations⟩,
          draft.builder.drafts ++ definitions declarations⟩ ∧
      (declarations.foldl Draft.declare draft).common =
        draft.common ++ commonRules declarations ∧
      (declarations.foldl Draft.declare draft).root = draft.root ++ rootRules declarations := by
  induction declarations generalizing draft with
  | nil => simp [lexemes, definitions, commonRules, rootRules]
  | cons declaration declarations ih =>
    obtain ⟨builder, common, root⟩ := ih (draft.declare declaration)
    rw [List.foldl_cons, builder, common, root]
    cases declaration <;>
      simp [Draft.declare, lexemes, definitions, commonRules, rootRules]

/-- The draft of some declarations. -/
def Draft.of (limits : Limits) (declarations : List Declaration) : Draft :=
  declarations.foldl Draft.declare { builder := { limits } }

theorem Draft.builder_of (limits : Limits) (declarations : List Declaration) :
    (Draft.of limits declarations).builder =
      ⟨limits, ⟨lexemes declarations⟩, definitions declarations⟩ :=
  (foldl_declare declarations _).1

theorem Draft.common_of (limits : Limits) (declarations : List Declaration) :
    (Draft.of limits declarations).common = commonRules declarations :=
  (foldl_declare declarations _).2.1

theorem Draft.root_of (limits : Limits) (declarations : List Declaration) :
    (Draft.of limits declarations).root = rootRules declarations :=
  (foldl_declare declarations _).2.2

/-- **What reading a scheme comes to.** Every directive declares something, no name is declared
twice, and the draft of the declarations comes to the scheme. -/
theorem read_eq_ok_iff {tree : Node} {limits : Limits} {scheme : Scheme} :
    read tree limits engine = .ok scheme ↔ ∃ declarations,
      List.Forall₂ (Declares engine) tree.children declarations ∧
      (Draft.of limits declarations).Distinct ∧
      finish (Draft.of limits declarations) = .ok scheme := by
  have empty : Draft.Distinct { builder := { limits } } := ⟨List.nodup_nil, List.nodup_nil⟩
  constructor
  · intro built
    obtain ⟨draft, directives, finished⟩ := bind_eq_ok.mp built
    obtain ⟨declarations, declares, rfl, distinct⟩ := (readDirectives_iff empty).mp directives
    exact ⟨declarations, declares, distinct, finished⟩
  · rintro ⟨declarations, declares, distinct, finished⟩
    exact bind_eq_ok.mpr
      ⟨_, (readDirectives_iff empty).mpr ⟨declarations, declares, rfl, distinct⟩, finished⟩

end Scheme

end TreeScheme
