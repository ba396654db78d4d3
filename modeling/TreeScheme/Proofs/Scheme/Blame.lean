import TreeScheme.Proofs.Grammar.Refusals
import TreeScheme.Proofs.Scheme.Preorder

/-!
# The nodes that errors name

A scheme is refused in one of three phases: while its directives are read, when its grammar is made,
or when the arguments of its rules are made ready to run. An error says a directive and a row. In
the first phase it is made right at the node that it speaks of (`Scheme.Blames`); in the others the
row comes from what was kept of the nodes, a table of rows for definitions and the rules themselves.

Every error names a node of the tree (`Scheme.error_names_node`). An error in the body of a
definition names the directive of this definition, because the rows of all definitions are known
(`Scheme.Draft.Located`); an error in arguments names the first node whose rule has arguments that
cannot be read, where common rules come before root rules and every rule before those below it
(`Scheme.FirstUnread`).
-/

namespace TreeScheme

/-- The directive that an error speaks of. -/
def SchemeError.tag : SchemeError → String
  | missingAliases tag _ | badAliases tag _ _ | unexpectedNode tag _ | grammar tag _ _ => tag
  | missingPattern _ => "lex"
  | badName _ _ => "def"

/-- What a node says of arguments, if it states a rule: what stands behind its alias list. -/
def Node.ruleArguments? (node : Node) : Option String :=
  node.rawArgument?.bind fun text => (Header.read isNameChar text).bind (·.rest)

namespace Scheme

/-! ## Directives -/

/-- An error that a node gives rise to while it is read. -/
inductive Blames : SchemeError → Node → Prop where
  | missingAliases {node : Node} :
    node.rawArgument? = none →
    Blames (.missingAliases node.tag node.row) node
  | badAliases {node : Node} {isName text} :
    node.rawArgument? = some text →
    Header.read isName text = none →
    Blames (.badAliases node.tag text node.row) node
  | missingPattern {node : Node} {header} :
    node.tag = "lex" →
    node.Heads isUpperNameChar header →
    header.rest = none →
    Blames (.missingPattern node.row) node
  | badName {node : Node} :
    node.tag = "def" →
    isName (node.rawArgument?.getD "") = false →
    Blames (.badName (node.rawArgument?.getD "") node.row) node
  | unexpectedNode {node : Node} :
    Blames (.unexpectedNode node.tag node.row) node
  | lexeme {node : Node} {cause} :
    node.tag = "lex" →
    Blames (.grammar node.tag node.row cause) node
  | definition {node : Node} :
    node.tag = "def" →
    Blames (.grammar node.tag node.row (.duplicateDefinition (node.rawArgument?.getD ""))) node

/-- The row and the directive of an error are those of the node that it blames. -/
theorem Blames.row_tag {error : SchemeError} {node : Node} (blames : Blames error node) :
    node.row = error.row ∧ node.tag = error.tag := by
  cases blames with
  | missingAliases | badAliases | unexpectedNode | lexeme | definition => exact ⟨rfl, rfl⟩
  | missingPattern tag | badName tag => exact ⟨rfl, tag⟩

variable {engine : Engine} {error : SchemeError}

theorem blames_of_header {isName : Char → Bool} {node : Node}
    (refused : header isName node = .error error) : Blames error node := by
  rw [header] at refused
  split at refused
  · rename_i none
    cases refused
    exact .missingAliases none
  · rename_i text raw
    split at refused
    · rename_i unread
      cases refused
      exact .badAliases raw unread
    · cases refused

/-- An error of the grammar carries the directive and its row. -/
theorem within_eq_error {α : Type} {tag : String} {row : Nat} {result : Except GrammarError α} :
    within tag row result = .error error ↔
      ∃ cause, result = .error cause ∧ error = .grammar tag row cause := by
  cases result with
  | ok a => simp [within]
  | error cause => simp [within, eq_comm]

/-- A name that is not new is refused as a duplicate. -/
theorem checkFresh_eq_error {builder : Builder} {name : String} {cause : GrammarError}
    (refused : builder.checkFresh name = .error cause) : cause = .duplicateDefinition name := by
  rw [Builder.checkFresh] at refused
  split at refused
  · cases refused
    rfl
  · cases refused

/-- A definition whose name is taken. -/
theorem blames_of_checkFresh {builder : Builder} {node : Node} (tag : node.tag = "def")
    (refused : within node.tag node.row (builder.checkFresh (node.rawArgument?.getD "")) =
      .error error) : Blames error node := by
  obtain ⟨cause, taken, rfl⟩ := within_eq_error.mp refused
  exact checkFresh_eq_error taken ▸ .definition tag

theorem blames_of_unexpected {α : Type} {node : Node}
    (refused : (unexpected node : Except SchemeError α) = .error error) : Blames error node := by
  cases refused
  exact .unexpectedNode

/-- An error names one of some nodes, or a node below them. -/
def BlamesAmong (error : SchemeError) (nodes : List Node) : Prop :=
  ∃ node ∈ nodes, Blames error node

/-- A node that is blamed itself. -/
theorem Blames.among {node : Node} (blames : Blames error node) : BlamesAmong error node.family :=
  ⟨node, node.mem_family_self, blames⟩

theorem BlamesAmong.of_subset {nodes more : List Node} (blames : BlamesAmong error nodes)
    (subset : nodes ⊆ more) : BlamesAmong error more := by
  obtain ⟨node, mem, here⟩ := blames
  exact ⟨node, subset mem, here⟩

theorem blames_of_rejectChildren {node : Node} (refused : rejectChildren node = .error error) :
    BlamesAmong error node.family := by
  rw [rejectChildren] at refused
  split at refused
  · cases refused
  · rename_i child others children
    refine ⟨child, ?_, blames_of_unexpected refused⟩
    rw [node.family_eq, children]
    exact List.mem_cons_of_mem _
      (Node.mem_families_iff.mpr ⟨child, List.mem_cons_self, child.mem_family_self⟩)

theorem blames_of_readLexeme {draft : Draft} {node : Node} (tag : node.tag = "lex")
    (refused : readLexeme engine draft node = .error error) : BlamesAmong error node.family := by
  rcases bind_eq_error.mp refused with rejected | ⟨_, _, refused⟩
  · exact blames_of_rejectChildren rejected
  · rcases bind_eq_error.mp refused with unheaded | ⟨header, headed, refused⟩
    · exact (blames_of_header unheaded).among
    · split at refused
      · rename_i none
        cases refused
        exact (Blames.missingPattern tag
          ((header_iff nameClass_isUpperNameChar).mp headed) none).among
      · rcases bind_eq_error.mp refused with unregistered | ⟨_, _, done⟩
        · obtain ⟨cause, _, rfl⟩ := within_eq_error.mp unregistered
          exact (Blames.lexeme tag).among
        · cases done

theorem blames_of_readEntries {nodes : List Node} {draft : TreeScheme.Draft}
    (refused : readEntries draft nodes = .error error) :
    BlamesAmong error (Node.families nodes) := by
  induction nodes generalizing draft with
  | nil => cases refused
  | cons node nodes ih =>
    have first : node.family ⊆ Node.families (node :: nodes) := List.subset_append_left _ _
    have rest : Node.families nodes ⊆ Node.families (node :: nodes) := List.subset_append_right _ _
    rcases bind_eq_error.mp refused with rejected | ⟨_, _, refused⟩
    · exact (blames_of_rejectChildren rejected).of_subset first
    · split at refused
      · exact (ih refused).of_subset rest
      · rcases bind_eq_error.mp refused with unheaded | ⟨_, _, refused⟩
        · exact (blames_of_header unheaded).among.of_subset first
        · exact (ih refused).of_subset rest
      · exact (blames_of_unexpected refused).among.of_subset first

theorem blames_of_readDefinition {draft : Draft} {node : Node} (tag : node.tag = "def")
    (refused : readDefinition draft node = .error error) : BlamesAmong error node.family := by
  rw [readDefinition] at refused
  split at refused
  · rcases bind_eq_error.mp refused with taken | ⟨_, free, refused⟩
    · exact (blames_of_checkFresh tag taken).among
    · rcases bind_eq_error.mp refused with entry | ⟨definition, entered, refused⟩
      · refine (blames_of_readEntries entry).of_subset ?_
        rw [node.family_eq]
        exact List.subset_cons_self _ _
      · rcases bind_eq_error.mp refused with taken | ⟨_, _, done⟩
        · -- The name was new before the entries were read, and it still is.
          obtain ⟨cause, taken, _⟩ := within_eq_error.mp taken
          obtain ⟨sequences, cases, _, rfl⟩ := readEntries_iff.mp entered
          rcases bind_eq_error.mp taken with again | ⟨_, _, done⟩
          · rw [within_eq_ok.mp free] at again
            cases again
          · cases done
        · cases done
  · rename_i bad
    cases refused
    exact (Blames.badName tag (eq_false_of_ne_true bad)).among

mutual

theorem blames_of_readRule {keyword : RuleKeyword} : ∀ {node : Node},
    readRule keyword node = .error error → BlamesAmong error node.family
  | ⟨tag, argument, children, row⟩, refused => by
    rw [readRule] at refused
    rcases bind_eq_error.mp refused with unheaded | ⟨_, _, refused⟩
    · exact (blames_of_header unheaded).among
    · rcases bind_eq_error.mp refused with below | ⟨_, _, done⟩
      · refine (blames_of_readRules below).of_subset ?_
        rw [Node.family]
        exact List.subset_cons_self _ _
      · cases done

theorem blames_of_readRules : ∀ {nodes : List Node},
    readRule.readRules nodes = .error error → BlamesAmong error (Node.families nodes)
  | [], refused => by cases refused
  | node :: nodes, refused => by
    have first : node.family ⊆ Node.families (node :: nodes) := List.subset_append_left _ _
    rw [readRule.readRules] at refused
    rcases bind_eq_error.mp refused with foreign | ⟨_, _, refused⟩
    · rw [nestedKeyword] at foreign
      split at foreign
      · cases foreign
      · cases foreign
      · exact (blames_of_unexpected foreign).among.of_subset first
    · rcases bind_eq_error.mp refused with here | ⟨_, _, refused⟩
      · exact (blames_of_readRule here).of_subset first
      · rcases bind_eq_error.mp refused with later | ⟨_, _, done⟩
        · exact (blames_of_readRules later).of_subset (List.subset_append_right _ _)
        · cases done

end

/-- A directive that is refused is blamed, or a node below it is. -/
theorem blames_of_readDirective {draft : Draft} {node : Node}
    (refused : readDirective engine draft node = .error error) : BlamesAmong error node.family := by
  rw [readDirective] at refused
  split at refused
  · rename_i tag
    exact blames_of_readLexeme (Directive.ofTag?_eq_some_iff.mp tag) refused
  · rename_i tag
    exact blames_of_readDefinition (Directive.ofTag?_eq_some_iff.mp tag) refused
  · rcases bind_eq_error.mp refused with here | ⟨_, _, done⟩
    · exact blames_of_readRule here
    · cases done
  · rcases bind_eq_error.mp refused with here | ⟨_, _, done⟩
    · exact blames_of_readRule here
    · cases done
  · exact (blames_of_unexpected refused).among

/-- Of directives that are refused one is blamed, or a node below one. -/
theorem blames_of_readDirectives {nodes : List Node} {draft : Draft}
    (refused : readDirectives engine draft nodes = .error error) :
    BlamesAmong error (Node.families nodes) := by
  induction nodes generalizing draft with
  | nil => cases refused
  | cons node nodes ih =>
    rcases bind_eq_error.mp refused with here | ⟨_, _, later⟩
    · exact (blames_of_readDirective here).of_subset (List.subset_append_left _ _)
    · exact (ih later).of_subset (List.subset_append_right _ _)

/-! ## Definitions -/

/-- The definitions of a draft are those of some nodes, and their rows are known. -/
def Draft.Located (draft : Draft) (nodes : List Node) : Prop :=
  ∀ definition ∈ draft.builder.drafts, ∃ node ∈ nodes, node.tag = "def" ∧
    node.rawArgument? = some definition.name ∧
    draft.definitionRows.lookup definition.name = some node.row

/-- One more declaration. -/
theorem Draft.Located.declare {draft : Draft} {nodes : List Node} (located : draft.Located nodes)
    {node : Node} (listed : node ∈ nodes) {declaration : Declaration}
    (declares : Declares engine node declaration) (fresh : draft.Fresh declaration) :
    (draft.declare declaration).Located nodes := by
  cases declares with
  | lexeme | common | root => exact located
  | @definition name _ _ tag raw =>
    intro definition mem
    rcases List.mem_append.mp mem with earlier | here
    · obtain ⟨other, among, otherTag, otherRaw, row⟩ := located definition earlier
      refine ⟨other, among, otherTag, otherRaw, ?_⟩
      -- The new name is none of the earlier ones, so their rows are still found.
      have new : definition.name ≠ name := by
        rintro rfl
        exact fresh (List.mem_map.mpr ⟨definition, earlier, rfl⟩)
      rw [Draft.declare, List.lookup_cons, beq_false_of_ne new]
      exact row
    · cases List.mem_singleton.mp here
      refine ⟨node, listed, tag, raw, ?_⟩
      rw [Draft.declare, List.lookup_cons_self]

/-- All directives. -/
theorem located_of_readDirectives {nodes all : List Node} (among : nodes ⊆ all)
    {draft next : Draft} (located : draft.Located all)
    (read : readDirectives engine draft nodes = .ok next) : next.Located all := by
  induction nodes generalizing draft with
  | nil =>
    cases read
    exact located
  | cons node nodes ih =>
    obtain ⟨between, here, later⟩ := bind_eq_ok.mp read
    obtain ⟨declaration, declares, fresh, rfl⟩ := readDirective_iff.mp here
    obtain ⟨first, rest⟩ := List.cons_subset.mp among
    exact ih rest (located.declare first declares fresh) later

/-- A draft whose grammar cannot be made has a definition that cannot be read, and the error names
the directive of this definition. -/
theorem Draft.Located.exists_of_buildGrammar {draft : Draft} {nodes : List Node}
    (located : draft.Located nodes) (refused : buildGrammar draft = .error error) :
    ∃ node ∈ nodes, ∃ name cause, node.tag = "def" ∧ node.rawArgument? = some name ∧
      draft.definitionRows.lookup name = some node.row ∧
      draft.builder.build = .error (.inDefinition name cause) ∧
      error = .grammar "def" node.row (.inDefinition name cause) := by
  rw [buildGrammar] at refused
  split at refused
  · cases refused
  · rename_i outer built
    cases refused
    obtain ⟨before, definition, after, cause, split, _, _, rfl⟩ :=
      Builder.build_eq_error_iff.mp built
    obtain ⟨node, listed, tag, name, row⟩ := located definition (by simp [split])
    refine ⟨node, listed, definition.name, cause, tag, name, row, built, ?_⟩
    rw [errorRow, row, Option.getD_some]

/-! ## Arguments of rules -/

/-- An error names the first of some rules whose arguments cannot be read. -/
def FirstUnread (grammar : Grammar) (rules : List Rule) (error : SchemeError) : Prop :=
  ∃ before rule after text cause, rules = before ++ rule :: after ∧
    (∀ earlier ∈ before, ∀ text ∈ earlier.arguments, Parses grammar.vocabulary.resolve text) ∧
    rule.arguments = some text ∧ grammar.read .full text = .error cause ∧
    error = .grammar rule.keyword.text rule.row cause

section Filling

variable {grammar : Grammar} {first second : List Rule}

theorem FirstUnread.append (unread : FirstUnread grammar first error) :
    FirstUnread grammar (first ++ second) error := by
  obtain ⟨before, rule, after, text, cause, rfl, rest⟩ := unread
  exact ⟨before, rule, after ++ second, text, cause, by simp, rest⟩

theorem FirstUnread.behind (parse : ∀ rule ∈ first, ∀ text ∈ rule.arguments,
      Parses grammar.vocabulary.resolve text)
    (unread : FirstUnread grammar second error) : FirstUnread grammar (first ++ second) error := by
  obtain ⟨before, rule, after, text, cause, rfl, earlier, rest⟩ := unread
  exact ⟨first ++ before, rule, after, text, cause, by simp,
    List.forall_mem_append.mpr ⟨parse, earlier⟩, rest⟩

/-- Texts of rules are what their families have for arguments. -/
theorem parse_families {rules : List Rule}
    (parse : ∀ text ∈ Rule.texts rules, Parses grammar.vocabulary.resolve text) :
    ∀ rule ∈ Rule.families rules, ∀ text ∈ rule.arguments,
      Parses grammar.vocabulary.resolve text :=
  fun rule mem text same => parse text (List.mem_filterMap.mpr ⟨rule, mem, same⟩)

/-- Only reading a text can fail when its matcher is made. -/
theorem read_of_shareMatcher {shared : Shared} {text : String} {cause : GrammarError}
    (refused : shareMatcher grammar shared text = .error cause) :
    grammar.read .full text = .error cause := by
  rw [shareMatcher] at refused
  split at refused
  · cases refused
  · rcases bind_eq_error.mp refused with unread | ⟨expression, read, refused⟩
    · exact unread
    · split at refused
      · cases refused
      · rcases bind_eq_error.mp refused with uncompiled | ⟨_, _, done⟩
        · obtain ⟨matcher, compiled⟩ := Grammar.exists_compile_of_read read
          rw [compiled] at uncompiled
          cases uncompiled
        · cases done

theorem unread_of_fillArguments {shared : Shared} {keyword : RuleKeyword} {row : Nat}
    {arguments : Option String}
    (refused : fillArguments grammar shared keyword row arguments = .error error) :
    ∃ text cause, arguments = some text ∧ grammar.read .full text = .error cause ∧
      error = .grammar keyword.text row cause := by
  cases arguments with
  | none => cases refused
  | some text =>
    rcases bind_eq_error.mp refused with unshared | ⟨_, _, done⟩
    · obtain ⟨cause, unmade, same⟩ := within_eq_error.mp unshared
      exact ⟨text, cause, rfl, read_of_shareMatcher unmade, same⟩
    · cases done

mutual

/-- A rule that cannot be filled in. -/
theorem unread_of_fill {texts : List String} {shared : Shared}
    (holds : shared.Holds grammar texts) : ∀ {rule : Rule},
    fill grammar shared rule = .error error → FirstUnread grammar rule.family error
  | ⟨keyword, tags, arguments, matcher, children, row⟩, refused => by
    rw [fill] at refused
    rw [Rule.family]
    rcases bind_eq_error.mp refused with own | ⟨⟨made, between⟩, here, refused⟩
    · obtain ⟨text, cause, same, unread, rfl⟩ := unread_of_fillArguments own
      exact ⟨[], _, _, text, cause, rfl, nofun, same, unread, rfl⟩
    · obtain ⟨parses, holds, _⟩ := of_fillArguments holds here
      rcases bind_eq_error.mp refused with below | ⟨_, _, done⟩
      · rw [← List.singleton_append]
        exact (unread_of_fillAll holds below).behind (by simpa using parses)
      · cases done

/-- Rules that cannot be filled in. -/
theorem unread_of_fillAll {texts : List String} {shared : Shared}
    (holds : shared.Holds grammar texts) : ∀ {rules : List Rule},
    fill.fillAll grammar shared rules = .error error →
    FirstUnread grammar (Rule.families rules) error
  | [], refused => by cases refused
  | rule :: rules, refused => by
    rw [fill.fillAll] at refused
    rw [Rule.families]
    rcases bind_eq_error.mp refused with here | ⟨⟨made, between⟩, filled, refused⟩
    · exact (unread_of_fill holds here).append
    · obtain ⟨parses, holds, _⟩ := of_fill holds filled
      have own := parse_families parses
      rw [Rule.families, Rule.families, List.append_nil] at own
      rcases bind_eq_error.mp refused with later | ⟨_, _, done⟩
      · exact (unread_of_fillAll holds later).behind own
      · cases done

end

end Filling

/-- A draft with a grammar that comes to no scheme has a rule whose arguments cannot be read. -/
theorem unread_of_finish {draft : Draft} {grammar : Grammar}
    (built : draft.builder.build = .ok grammar) (refused : finish draft = .error error) :
    FirstUnread grammar (Rule.families draft.common ++ Rule.families draft.root) error := by
  rcases bind_eq_error.mp refused with unbuilt | ⟨made, builtHere, refused⟩
  · rw [buildGrammar_eq_ok.mpr built] at unbuilt
    cases unbuilt
  · cases (buildGrammar_eq_ok.mpr built).symm.trans builtHere
    rcases bind_eq_error.mp refused with common | ⟨⟨filled, shared⟩, commonFilled, refused⟩
    · exact (unread_of_fillAll (Shared.holds_nil grammar) common).append
    · obtain ⟨parses, holds, _⟩ := of_fillAll (Shared.holds_nil grammar) commonFilled
      rcases bind_eq_error.mp refused with root | ⟨_, _, done⟩
      · exact (unread_of_fillAll holds root).behind (parse_families parses)
      · cases done

/-- A rule has the arguments that its node says. -/
theorem Stated.arguments_eq {node : Node} {rule : Rule} (stated : Stated node rule) :
    rule.arguments = node.ruleArguments? := by
  obtain ⟨header, ⟨text, raw, spelled⟩, _, arguments⟩ := stated.header
  rw [arguments, Node.ruleArguments?, raw, Option.bind_some,
    Header.read_of_spells nameClass_isNameChar spelled, Option.bind_some]

/-- The first rule whose arguments cannot be read is stated by the first node of the kind. -/
theorem FirstUnread.exists_node {grammar : Grammar} {nodes : List Node} {rules : List Rule}
    (stated : List.Forall₂ Stated nodes rules) (unread : FirstUnread grammar rules error) :
    ∃ before node after text cause, nodes = before ++ node :: after ∧
      (∀ earlier ∈ before, ∀ text ∈ earlier.ruleArguments?,
        Parses grammar.vocabulary.resolve text) ∧
      node.ruleArguments? = some text ∧ grammar.read .full text = .error cause ∧
      error = .grammar node.tag node.row cause := by
  obtain ⟨before, rule, after, text, cause, rfl, parse, arguments, refused, rfl⟩ := unread
  have front := List.forall₂_take_append _ _ _ stated
  obtain ⟨node, rest, here, _, split⟩ :=
    List.forall₂_cons_right_iff.mp (List.forall₂_drop_append _ _ _ stated)
  refine ⟨nodes.take before.length, node, rest, text, cause, ?_, fun earlier mem text same => ?_,
    ?_, refused, ?_⟩
  · rw [← split, List.take_append_drop]
  · obtain ⟨other, listed, states⟩ := exists_of_forall₂ front mem
    exact parse other listed text (states.arguments_eq ▸ same)
  · rw [← here.arguments_eq, arguments]
  · rw [here.tag, here.row]

/-! ## Whole trees -/

/-- Why the nodes of a scheme are refused, and the node that the error names. -/
inductive Refusal (engine : Engine) (limits : Limits) (nodes : List Node) :
    SchemeError → Node → Prop where
  /-- A directive cannot be read, because of this node. -/
  | directive {error node} :
    readDirectives engine { builder := { limits } } nodes = .error error →
    node ∈ Node.families nodes →
    Blames error node →
    Refusal engine limits nodes error node
  /-- The definition under this node cannot be read, and its row is known. -/
  | definition {draft node name cause} :
    readDirectives engine { builder := { limits } } nodes = .ok draft →
    draft.builder.build = .error (.inDefinition name cause) →
    node ∈ nodes →
    node.tag = "def" →
    node.rawArgument? = some name →
    draft.definitionRows.lookup name = some node.row →
    Refusal engine limits nodes (.grammar "def" node.row (.inDefinition name cause)) node
  /-- The arguments of this rule cannot be read, but those of all rules before it can. -/
  | argument {draft grammar before node after text cause} :
    readDirectives engine { builder := { limits } } nodes = .ok draft →
    draft.builder.build = .ok grammar →
    Node.families (tagged "rule" nodes) ++ Node.families (tagged "root-rule" nodes) =
      before ++ node :: after →
    (∀ earlier ∈ before, ∀ text ∈ earlier.ruleArguments?,
      Parses grammar.vocabulary.resolve text) →
    node.ruleArguments? = some text →
    grammar.read .full text = .error cause →
    Refusal engine limits nodes (.grammar node.tag node.row cause) node

/-- **Errors name nodes.** Whatever tree is refused, some node in it has the row of the error and is
tagged with the directive that the error speaks of. And this node is at fault:

* if a directive cannot be read, it is what the error was made for;
* if the body of a definition cannot be read, it is the directive of the definition with the name
  that the error gives, and the row of the definition is known;
* if arguments cannot be read, it is the first node of a rule whose arguments cannot be, common
  rules before root rules and every rule before those below it. -/
theorem error_names_node {tree : Node} {limits : Limits} {error : SchemeError}
    (refused : read tree limits engine = .error error) :
    ∃ node ∈ Node.families tree.children, node.row = error.row ∧ node.tag = error.tag ∧
      Refusal engine limits tree.children error node := by
  rcases bind_eq_error.mp refused with unread | ⟨draft, directives, unfinished⟩
  · obtain ⟨node, among, blames⟩ := blames_of_readDirectives unread
    exact ⟨node, among, blames.row_tag.1, blames.row_tag.2, .directive unread among blames⟩
  · cases made : draft.builder.build with
    | error outer =>
      have located : draft.Located tree.children :=
        located_of_readDirectives (List.Subset.refl _) (fun _ mem => absurd mem List.not_mem_nil)
          directives
      have unbuilt : buildGrammar draft = .error error := by
        rcases bind_eq_error.mp unfinished with here | ⟨grammar, built, _⟩
        · exact here
        · rw [buildGrammar_eq_ok.mp built] at made
          cases made
      obtain ⟨node, listed, name, cause, tag, raw, row, built, rfl⟩ :=
        located.exists_of_buildGrammar unbuilt
      exact ⟨node, Node.mem_families_iff.mpr ⟨node, listed, node.mem_family_self⟩, rfl, tag,
        .definition directives built listed tag raw row⟩
    | ok grammar =>
      -- The rules of the draft are those that the nodes state, one after another, so the first rule
      -- that cannot be filled in is stated by the first node of the kind.
      have empty : Draft.Distinct { builder := { limits } } := ⟨List.nodup_nil, List.nodup_nil⟩
      obtain ⟨declarations, declares, rfl, _⟩ := (readDirectives_iff empty).mp directives
      have stated := List.rel_append (forall₂_common declares) (forall₂_root declares)
      rw [← Draft.common_of limits declarations, ← Draft.root_of limits declarations] at stated
      obtain ⟨before, node, after, text, cause, split, parse, arguments, unread, rfl⟩ :=
        (unread_of_finish made unfinished).exists_node stated
      have among : Node.families (tagged "rule" tree.children) ++
          Node.families (tagged "root-rule" tree.children) ⊆ Node.families tree.children :=
        List.append_subset.mpr ⟨Node.families_subset (tagged_subset _ _),
          Node.families_subset (tagged_subset _ _)⟩
      exact ⟨node, among (by simp [split]), rfl, rfl,
        .argument directives made split parse arguments unread⟩

section Example

/-- Two rules whose arguments speak of no name: one below a root rule, and then a common one. -/
private def misspelled : Node :=
  .root [{ tag := "root-rule", argument := some (.raw "page"), row := 1, children :=
      [{ tag := "children", argument := some (.raw "item NAME"), row := 2 }] },
    { tag := "rule", argument := some (.raw "note NAME"), row := 3 }]

/-- The error names the common rule, though a root rule stands before it. -/
theorem misspelled_named :
    read misspelled = .error (.grammar "rule" 3 (.unknownIdentifier "NAME" 0)) ∧
    ∃ node ∈ Node.families misspelled.children, node.row = 3 ∧ node.tag = "rule" := by
  have answered : (match read misspelled with
      | .ok _ => none
      | .error cause => some cause) = some (.grammar "rule" 3 (.unknownIdentifier "NAME" 0)) := by
    decide +kernel
  have refused : read misspelled = .error (.grammar "rule" 3 (.unknownIdentifier "NAME" 0)) := by
    split at answered
    · cases answered
    · cases answered
      assumption
  obtain ⟨node, among, row, tag, _⟩ := error_names_node refused
  exact ⟨refused, node, among, row, tag⟩

end Example

end Scheme

end TreeScheme
