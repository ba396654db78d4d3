import TreeScheme.Proofs.Scheme.Drafts
import TreeScheme.Proofs.Scheme.Rows

/-!
# Drafts as trees of directives

A draft is written as a tree: a node for each lexeme, each definition and each rule, in this order.
For a readable draft this module proves the two things that there are to know about that tree:

* it is tidy, so it survives being an outline (`Scheme.Draft.tidy_nodes`);
* reading its directives gives the draft again, except that alias lists are now joined without
  blanks and that rules have lost their rows (`Scheme.readDirectives_nodes`).

Neither exception matters to the grammar: a list is only ever taken apart into its names, and a
definition with joined lists is read as it was before (`Draft.read_joined`).
-/

namespace TreeScheme

open Outline (IsLine IsWord)

/-- A node with an argument, or with none. -/
def Node.directive (tag : String) (argument : Option String) (children : List Node) : Node :=
  { tag, argument := argument.map .raw, children }

@[simp] theorem Node.rawArgument?_directive (tag : String) (argument : Option String)
    (children : List Node) : (Node.directive tag argument children).rawArgument? = argument := by
  cases argument <;> rfl

/-- A name is a word. -/
theorem isWord_of_isName {name : String} (isName : Scheme.isName name = true) : IsWord name := by
  simp only [Scheme.isName, Bool.and_eq_true, List.all_eq_true] at isName
  refine ⟨fun none => ?_, fun c mem => nameClass_isNameChar.solid c (isName.2 c mem)⟩
  simp [String.toList_eq_nil_iff.mp none] at isName

/-- A word is a trimmed line. -/
theorem isLine_of_isWord {word : String} (isWord : IsWord word) : IsLine word :=
  ⟨Text.trimmed_of_all isWord.1 isWord.2, fun mem => by cases isWord.2 '\n' mem⟩

/-- A directive is tidy if its parts are. -/
theorem Node.tidy_directive {tag : String} {argument : Option String} {children : List Node}
    (word : IsWord tag) (line : ∀ text, argument = some text → IsLine text)
    (inside : ∀ child ∈ children, child.Tidy) : (Node.directive tag argument children).Tidy := by
  cases argument with
  | none => exact .plain word inside
  | some text => exact .argument word (line text rfl) inside

/-! ## Lexemes -/

/-- The node of a lexeme. -/
def LexemeDeclaration.node (declaration : LexemeDeclaration) : Node :=
  .directive "lex" (some (Header.write declaration.aliases (some declaration.lexeme.pattern))) []

theorem LexemeDeclaration.Readable.tidy_node {engine : Engine}
    {declaration : LexemeDeclaration} (readable : declaration.Readable engine) :
    declaration.node.Tidy := by
  refine Node.tidy_directive (isWord_of_isName rfl) ?_
    (fun _ mem => absurd mem List.not_mem_nil)
  rintro text ⟨⟩
  refine Header.isLine_write nameClass_isUpperNameChar readable.names ?_
  rintro pattern ⟨⟩
  exact readable.pattern

/-! ## Definitions -/

/-- The node of a sequence. -/
def sequenceNode (source : String) : Node :=
  .directive "seq" (argumentOf source) []

/-- The node of a case. -/
def caseNode (entry : String × String) : Node :=
  .directive "case" (some (Header.write (aliases entry.1) (argumentOf entry.2))) []

/-- A case whose ids are joined without blanks. -/
def joinedCase (entry : String × String) : String × String :=
  ("|".intercalate (aliases entry.1), entry.2)

/-- A draft whose cases have their ids joined. -/
def Draft.joined (draft : Draft) : Draft :=
  { draft with cases := draft.cases.map joinedCase }

/-- The node of a definition. -/
def Draft.node (draft : Draft) : Node :=
  .directive "def" (some draft.name)
    (draft.sequences.map sequenceNode ++ draft.cases.map caseNode)

theorem Draft.Readable.tidy_node {draft : Draft} (readable : draft.Readable) : draft.node.Tidy := by
  refine Node.tidy_directive (isWord_of_isName rfl) ?_ fun child mem => ?_
  · rintro text ⟨⟩
    exact isLine_of_isWord (isWord_of_isName readable.name)
  · rcases List.mem_append.mp mem with mem | mem
    · obtain ⟨source, given, rfl⟩ := List.mem_map.mp mem
      exact Node.tidy_directive (isWord_of_isName rfl) (readable.sequences source given)
        (fun _ mem => absurd mem List.not_mem_nil)
    · obtain ⟨entry, given, rfl⟩ := List.mem_map.mp mem
      obtain ⟨listable, follows⟩ := readable.cases entry given
      refine Node.tidy_directive (isWord_of_isName rfl) ?_
        (fun _ mem => absurd mem List.not_mem_nil)
      rintro text ⟨⟩
      exact Header.isLine_write nameClass_isNameChar listable follows

/-- Joining alias lists changes no ids. -/
theorem aliases_joined_of_readable {draft : Draft} (readable : draft.Readable)
    {entry : String × String} (mem : entry ∈ draft.cases) :
    aliases ("|".intercalate (aliases entry.1)) = aliases entry.1 :=
  Header.aliases_joined nameClass_isNameChar (readable.cases entry mem).1

/-- A definition is read the same with its alias lists joined. -/
theorem Draft.read_joined {draft : Draft} (readable : draft.Readable)
    (resolve : String → Option Symbol) (index : Nat) :
    draft.joined.read resolve index = draft.read resolve index := by
  have cases : ∀ (entries : List (String × String)) (taken : List String),
      (∀ entry ∈ entries, aliases ("|".intercalate (aliases entry.1)) = aliases entry.1 ∧
        aliases entry.1 ≠ []) →
      readCases resolve taken (entries.map joinedCase) = readCases resolve taken entries := by
    intro entries
    induction entries with
    | nil => exact fun _ _ => rfl
    | cons entry entries ih =>
      intro taken all
      obtain ⟨same, some⟩ := all entry List.mem_cons_self
      obtain ⟨list, source⟩ := entry
      simp only [List.map_cons, joinedCase, readCases, same, List.isEmpty_iff, some, if_false,
        ih _ fun other mem => all other (List.mem_cons_of_mem _ mem)]
  rw [read, read, joined, cases]
  intro entry mem
  exact ⟨aliases_joined_of_readable readable mem, (readable.cases entry mem).1.some⟩

/-! ## Rules -/

namespace Rule

mutual

/-- The node of a rule. -/
def node : Rule → Node
  | ⟨keyword, tags, arguments, _, children, _⟩ =>
    .directive keyword.text (some (Header.write tags arguments)) (nodes children)

/-- The nodes of rules. -/
def nodes : List Rule → List Node
  | [] => []
  | rule :: rules => rule.node :: nodes rules

end

mutual

/-- A rule as it is read from its node: without a matcher and without rows. -/
def bare : Rule → Rule
  | ⟨keyword, tags, arguments, _, children, _⟩ =>
    ⟨keyword, tags, arguments, none, bareAll children, 0⟩

/-- Rules as they are read from their nodes. -/
def bareAll : List Rule → List Rule
  | [] => []
  | rule :: rules => rule.bare :: bareAll rules

end

mutual

theorem tidy_node : ∀ {rule : Rule}, rule.Readable → rule.node.Tidy
  | ⟨keyword, tags, arguments, matcher, children, row⟩, readable => by
    cases readable with
    | intro listable follows _ inside =>
      refine Node.tidy_directive ?_ ?_ (tidy_nodes inside)
      · cases keyword <;> exact isWord_of_isName rfl
      · rintro text ⟨⟩
        exact Header.isLine_write nameClass_isNameChar listable follows

theorem tidy_nodes : ∀ {rules : List Rule}, (∀ rule ∈ rules, rule.Readable) →
    ∀ node ∈ nodes rules, node.Tidy
  | [], _ => fun _ mem => absurd mem List.not_mem_nil
  | rule :: rules, readable => by
    intro node mem
    rcases List.mem_cons.mp mem with rfl | mem
    · exact tidy_node (readable rule List.mem_cons_self)
    · exact tidy_nodes (fun other mem => readable other (List.mem_cons_of_mem _ mem)) node mem

end

/-- The line of a rule is read as its tags and its arguments. -/
theorem header_directive {isName : Char → Bool} (names : NameClass isName) {list : List String}
    (listable : Header.Listable isName list) {rest : Option String}
    (follows : ∀ text, rest = some text → Header.Follows isName text) (tag : String)
    (children : List Node) :
    Scheme.header isName (.directive tag (some (Header.write list rest)) children) =
      .ok ⟨"|".intercalate list, rest⟩ := by
  rw [Scheme.header, Node.rawArgument?_directive]
  simp only [Header.read_write names listable follows]

/-- The keyword of a rule below a rule is read from its node. -/
theorem nestedKeyword_node {rule : Rule} (nested : rule.keyword ≠ .rootRule) :
    Scheme.nestedKeyword rule.node = .ok rule.keyword := by
  obtain ⟨keyword, tags, arguments, matcher, children, row⟩ := rule
  cases keyword with
  | rule => rfl
  | rootRule => exact absurd rfl nested
  | children => rfl

mutual

/-- A rule is read from its node. -/
theorem readRule_node : ∀ {rule : Rule}, rule.Readable →
    Scheme.readRule rule.keyword rule.node = .ok rule.bare
  | ⟨keyword, tags, arguments, matcher, children, row⟩, readable => by
    cases readable with
    | intro listable follows nested inside =>
      have headed := header_directive nameClass_isNameChar listable follows keyword.text
        (nodes children)
      rw [node, Node.directive, Scheme.readRule]
      refine bind_eq_ok.mpr ⟨_, headed, bind_eq_ok.mpr ⟨_, readRules_nodes inside nested, ?_⟩⟩
      rw [Header.aliases_joined nameClass_isNameChar listable, bare]
      rfl

theorem readRules_nodes : ∀ {rules : List Rule}, (∀ rule ∈ rules, rule.Readable) →
    (∀ rule ∈ rules, rule.keyword ≠ .rootRule) →
    Scheme.readRule.readRules (nodes rules) = .ok (bareAll rules)
  | [], _, _ => rfl
  | rule :: rules, readable, nested => by
    have rest := readRules_nodes (fun other mem => readable other (List.mem_cons_of_mem _ mem))
      (fun other mem => nested other (List.mem_cons_of_mem _ mem))
    rw [nodes, Scheme.readRule.readRules]
    exact bind_eq_ok.mpr ⟨_, nestedKeyword_node (nested rule List.mem_cons_self),
      bind_eq_ok.mpr ⟨_, readRule_node (readable rule List.mem_cons_self),
        bind_eq_ok.mpr ⟨_, rest, rfl⟩⟩⟩

end

end Rule

/-! ## Drafts -/

namespace Scheme

variable {engine : Engine}

/-- The nodes of a draft. -/
def Draft.nodes (draft : Draft) : List Node :=
  draft.builder.lexemes.declarations.map LexemeDeclaration.node ++
    draft.builder.drafts.map TreeScheme.Draft.node ++ Rule.nodes (draft.common ++ draft.root)

theorem Draft.tidy_nodes {draft : Draft} (readable : draft.Readable engine) :
    ∀ node ∈ draft.nodes, node.Tidy := by
  intro node mem
  rw [nodes, List.append_assoc, List.mem_append, List.mem_append] at mem
  rcases mem with mem | mem | mem
  · obtain ⟨declaration, declared, rfl⟩ := List.mem_map.mp mem
    exact (readable.lexemes declaration declared).tidy_node
  · obtain ⟨definition, declared, rfl⟩ := List.mem_map.mp mem
    exact (readable.definitions definition declared).tidy_node
  · refine Rule.tidy_nodes (fun rule mem => ?_) node mem
    rcases List.mem_append.mp mem with mem | mem
    · exact (readable.common rule mem).1
    · exact (readable.root rule mem).1

/-- Directives are read one after another. -/
theorem readDirectives_append (engine : Engine) (draft : Draft) (first second : List Node) :
    readDirectives engine draft (first ++ second) =
      (readDirectives engine draft first >>= fun next => readDirectives engine next second) := by
  induction first generalizing draft with
  | nil => rfl
  | cons node first ih =>
    rw [List.cons_append, readDirectives, readDirectives]
    cases readDirective engine draft node with
    | error e => rfl
    | ok next => exact ih next

/-- A lexeme with new names is read from its node. -/
theorem readDirective_lexeme {draft : Draft} {declaration : LexemeDeclaration}
    (readable : declaration.Readable engine)
    (free : firstTaken draft.builder.lexemes.names declaration.aliases = none) :
    readDirective engine draft declaration.node = .ok { draft with
      builder := { draft.builder with
        lexemes := ⟨draft.builder.lexemes.declarations ++ [declaration]⟩ } } := by
  have follows : ∀ text, some declaration.lexeme.pattern = some text →
      Header.Follows isUpperNameChar text := by
    rintro text ⟨⟩
    exact readable.pattern
  have joined := Header.aliases_joined nameClass_isUpperNameChar readable.names
  have registered : draft.builder.lexemes.register ("|".intercalate declaration.aliases)
      declaration.lexeme.pattern engine =
      .ok ⟨draft.builder.lexemes.declarations ++ [declaration]⟩ := by
    refine Registry.register_iff.mpr ?_
    rw [joined]
    exact ⟨readable.names.some, free, _, readable.recognizer, rfl⟩
  refine bind_eq_ok.mpr ⟨(), rfl, bind_eq_ok.mpr ⟨_, Rule.header_directive
    nameClass_isUpperNameChar readable.names follows "lex" [], ?_⟩⟩
  refine bind_eq_ok.mpr ⟨_, within_eq_ok.mpr ?_, rfl⟩
  exact bind_eq_ok.mpr ⟨_, registered, rfl⟩

/-- Lexemes are read from their nodes. -/
theorem readDirectives_lexemes (draft : Draft) {declarations : List LexemeDeclaration}
    (readable : ∀ declaration ∈ declarations, declaration.Readable engine)
    (distinct : (Registry.names ⟨draft.builder.lexemes.declarations ++ declarations⟩).Nodup) :
    readDirectives engine draft (declarations.map LexemeDeclaration.node) = .ok { draft with
      builder := { draft.builder with
        lexemes := ⟨draft.builder.lexemes.declarations ++ declarations⟩ } } := by
  induction declarations generalizing draft with
  | nil =>
    rw [List.append_nil]
    rfl
  | cons declaration declarations ih =>
    have free : firstTaken draft.builder.lexemes.names declaration.aliases = none := by
      rw [Registry.names_append] at distinct
      obtain ⟨_, later, apart⟩ := List.nodup_append.mp distinct
      rw [Registry.names, List.flatMap_cons] at later
      refine (firstTaken_eq_none_iff _ _).mpr ⟨(List.nodup_append.mp later).1, ?_⟩
      intro name mem taken
      exact apart name taken name (List.mem_flatMap_of_mem List.mem_cons_self mem) rfl
    have split : draft.builder.lexemes.declarations ++ declaration :: declarations =
        draft.builder.lexemes.declarations ++ [declaration] ++ declarations := by simp
    rw [split] at distinct ⊢
    refine bind_eq_ok.mpr
      ⟨_, readDirective_lexeme (readable declaration List.mem_cons_self) free, ?_⟩
    exact ih _ (fun other mem => readable other (List.mem_cons_of_mem _ mem)) distinct

theorem getD_argumentOf (text : String) : (argumentOf text).getD "" = text := by
  rw [argumentOf]
  split
  · rename_i empty
    rw [empty]
    rfl
  · rfl

/-- Sequences are read from their nodes. -/
theorem readEntries_sequences (sources : List String) (draft : TreeScheme.Draft)
    (more : List Node) :
    readEntries draft (sources.map sequenceNode ++ more) =
      readEntries { draft with sequences := draft.sequences ++ sources } more := by
  induction sources generalizing draft with
  | nil =>
    rw [List.append_nil]
    rfl
  | cons source sources ih =>
    have first : readEntries draft ((source :: sources).map sequenceNode ++ more) =
        readEntries (draft.addSequence ((argumentOf source).getD ""))
          (sources.map sequenceNode ++ more) := by
      rw [List.map_cons, List.cons_append, readEntries, sequenceNode, Node.rawArgument?_directive]
      rfl
    rw [first, getD_argumentOf, ih, TreeScheme.Draft.addSequence]
    simp

/-- Cases are read from their nodes, with their ids joined. -/
theorem readEntries_cases (draft : TreeScheme.Draft) {entries : List (String × String)}
    (readable : ∀ entry ∈ entries, Header.Listable isNameChar (aliases entry.1) ∧
      ∀ text, argumentOf entry.2 = some text → Header.Follows isNameChar text) :
    readEntries draft (entries.map caseNode) =
      .ok { draft with cases := draft.cases ++ entries.map joinedCase } := by
  induction entries generalizing draft with
  | nil =>
    rw [List.map_nil, List.map_nil, List.append_nil]
    rfl
  | cons entry entries ih =>
    obtain ⟨listable, follows⟩ := readable entry List.mem_cons_self
    have rest := ih (draft.addCase ("|".intercalate (aliases entry.1)) entry.2)
      fun other mem => readable other (List.mem_cons_of_mem _ mem)
    have headed := Rule.header_directive nameClass_isNameChar listable follows "case" []
    rw [List.map_cons, readEntries]
    refine bind_eq_ok.mpr ⟨(), rfl, bind_eq_ok.mpr ⟨_, headed, ?_⟩⟩
    rw [getD_argumentOf, rest, TreeScheme.Draft.addCase]
    simp [joinedCase]

/-- A definition with a new name is read from its node, with its ids joined. -/
theorem readDirective_definition (engine : Engine) {draft : Draft} {definition : TreeScheme.Draft}
    (readable : definition.Readable)
    (fresh : definition.name ∉ draft.builder.drafts.map TreeScheme.Draft.name) :
    readDirective engine draft definition.node = .ok { draft with
      builder := { draft.builder with drafts := draft.builder.drafts ++ [definition.joined] }
      definitionRows := (definition.name, 0) :: draft.definitionRows } := by
  have entered : readEntries { name := definition.name } definition.node.children =
      .ok definition.joined := by
    rw [TreeScheme.Draft.node, Node.directive, readEntries_sequences,
      readEntries_cases _ readable.cases]
    rfl
  have free : draft.builder.checkFresh definition.name = .ok () := checkFresh_iff.mpr fresh
  have defined : draft.builder.define definition.joined =
      .ok { draft.builder with drafts := draft.builder.drafts ++ [definition.joined] } :=
    bind_eq_ok.mpr ⟨(), free, rfl⟩
  have named : definition.node.rawArgument?.getD "" = definition.name := rfl
  have read : readDirective engine draft definition.node = readDefinition draft definition.node :=
    rfl
  rw [read, readDefinition]
  simp only [named, readable.name, if_true]
  exact bind_eq_ok.mpr ⟨(), within_eq_ok.mpr free, bind_eq_ok.mpr ⟨_, entered,
    bind_eq_ok.mpr ⟨_, within_eq_ok.mpr defined, rfl⟩⟩⟩

/-- Definitions are read from their nodes, with their ids joined. -/
theorem readDirectives_definitions (engine : Engine) (draft : Draft)
    {definitions : List TreeScheme.Draft}
    (readable : ∀ definition ∈ definitions, definition.Readable)
    (distinct : ((draft.builder.drafts ++ definitions).map TreeScheme.Draft.name).Nodup) :
    ∃ rows, readDirectives engine draft (definitions.map TreeScheme.Draft.node) = .ok { draft with
      builder := { draft.builder with
        drafts := draft.builder.drafts ++ definitions.map TreeScheme.Draft.joined }
      definitionRows := rows } := by
  induction definitions generalizing draft with
  | nil =>
    refine ⟨draft.definitionRows, ?_⟩
    rw [List.map_nil, List.map_nil, List.append_nil]
    rfl
  | cons definition definitions ih =>
    have fresh : definition.name ∉ draft.builder.drafts.map TreeScheme.Draft.name := by
      rw [List.map_append, List.map_cons] at distinct
      intro taken
      exact (List.nodup_append.mp distinct).2.2 _ taken _ List.mem_cons_self rfl
    have first := readDirective_definition engine (readable definition List.mem_cons_self) fresh
    obtain ⟨rows, rest⟩ := ih
      { draft with
        builder := { draft.builder with drafts := draft.builder.drafts ++ [definition.joined] }
        definitionRows := (definition.name, 0) :: draft.definitionRows }
      (fun other mem => readable other (List.mem_cons_of_mem _ mem)) (by
        simpa [TreeScheme.Draft.joined] using distinct)
    refine ⟨rows, bind_eq_ok.mpr ⟨_, first, ?_⟩⟩
    rw [rest]
    simp

/-- Rules are read from their nodes, each into its own scope. -/
theorem readDirectives_rules {rules : List Rule} (draft : Draft)
    (readable : ∀ rule ∈ rules, rule.Readable ∧ rule.keyword ≠ .children) :
    readDirectives engine draft (Rule.nodes rules) = .ok { draft with
      common := draft.common ++ Rule.bareAll (rules.filter (·.keyword = .rule))
      root := draft.root ++ Rule.bareAll (rules.filter (·.keyword = .rootRule)) } := by
  induction rules generalizing draft with
  | nil => simp [Rule.nodes, readDirectives, Rule.bareAll]
  | cons rule rules ih =>
    obtain ⟨written, outer⟩ := readable rule List.mem_cons_self
    have here := Rule.readRule_node written
    have rest := fun next => ih next fun other mem => readable other (List.mem_cons_of_mem _ mem)
    obtain ⟨keyword, tags, arguments, matcher, children, row⟩ := rule
    cases keyword with
    | rule =>
      refine bind_eq_ok.mpr ⟨_, bind_eq_ok.mpr ⟨_, here, rfl⟩, ?_⟩
      rw [rest]
      simp [Rule.bareAll]
    | rootRule =>
      refine bind_eq_ok.mpr ⟨_, bind_eq_ok.mpr ⟨_, here, rfl⟩, ?_⟩
      rw [rest]
      simp [Rule.bareAll]
    | children => exact absurd rfl outer

/-- A draft as it is read from its nodes. -/
def Draft.reread (draft : Draft) (rows : List (String × Nat)) : Draft where
  builder := { draft.builder with drafts := draft.builder.drafts.map TreeScheme.Draft.joined }
  definitionRows := rows
  common := Rule.bareAll draft.common
  root := Rule.bareAll draft.root

/-- The rules of the two scopes are told apart by their keywords. -/
theorem Draft.Readable.filter_rules {draft : Draft} (readable : draft.Readable engine) :
    (draft.common ++ draft.root).filter (·.keyword = .rule) = draft.common ∧
      (draft.common ++ draft.root).filter (·.keyword = .rootRule) = draft.root := by
  have common := fun rule mem => (readable.common rule mem).2
  have root := fun rule mem => (readable.root rule mem).2
  rw [List.filter_append, List.filter_append]
  constructor
  · rw [List.filter_eq_self.mpr fun rule mem => by simp [common rule mem],
      List.filter_eq_nil_iff.mpr fun rule mem => by simp [root rule mem], List.append_nil]
  · rw [List.filter_eq_nil_iff.mpr fun rule mem => by simp [common rule mem],
      List.filter_eq_self.mpr fun rule mem => by simp [root rule mem], List.nil_append]

/-- A readable draft is read from its nodes. -/
theorem readDirectives_nodes {draft : Draft} (readable : draft.Readable engine) :
    ∃ rows, readDirectives engine { builder := { limits := draft.builder.limits } } draft.nodes =
      .ok (draft.reread rows) := by
  have lexemes := readDirectives_lexemes { builder := { limits := draft.builder.limits } }
    readable.lexemes (by
      rw [List.nil_append]
      exact readable.lexemeNames)
  rw [List.nil_append] at lexemes
  obtain ⟨rows, definitions⟩ := readDirectives_definitions engine
    { builder := { limits := draft.builder.limits, lexemes := draft.builder.lexemes } }
    readable.definitions (by
      rw [List.nil_append]
      exact readable.definitionNames)
  rw [List.nil_append] at definitions
  refine ⟨rows, ?_⟩
  rw [Draft.nodes, readDirectives_append, readDirectives_append, lexemes]
  refine bind_eq_ok.mpr ⟨_, definitions, ?_⟩
  rw [readDirectives_rules, readable.filter_rules.1, readable.filter_rules.2]
  · rfl
  · intro rule mem
    rcases List.mem_append.mp mem with mem | mem
    · obtain ⟨written, keyword⟩ := readable.common rule mem
      exact ⟨written, by simp [keyword]⟩
    · obtain ⟨written, keyword⟩ := readable.root rule mem
      exact ⟨written, by simp [keyword]⟩

end Scheme

end TreeScheme
