import TreeScheme.Proofs.Grammar.Rearranged
import TreeScheme.Proofs.Scheme.Declarations
import TreeScheme.Proofs.Scheme.Trimmed

/-!
# Directives may stand in any order

A scheme may declare its lexemes and definitions before or after it uses them. Only rules are tried
in the order in which they stand, and so are the sequences of a definition. A tree is rearranged if
its directives are put into another order that keeps these (`Scheme.Rearranged`).

Rearranging changes the numbers of definitions and the order of lexemes and cases, which no matcher
can notice. So a rearranged tree is accepted if the tree is, and validates every document the same,
the document that is handed back included (`Scheme.rearranged_validates`).
-/

namespace TreeScheme

/-! ## Trees -/

/-- A directive may be rearranged inside: the entries of a definition may stand in another order, as
long as its sequences keep theirs. -/
inductive Node.Rearranged : Node → Node → Prop where
  | same (node : Node) : Rearranged node node
  | entries {argument entries others row} :
    entries.Perm others →
    entries.filter (·.tag == "seq") = others.filter (·.tag == "seq") →
    Rearranged ⟨"def", argument, entries, row⟩ ⟨"def", argument, others, row⟩

theorem Node.Rearranged.symm {node other : Node} (rearranged : node.Rearranged other) :
    other.Rearranged node := by
  cases rearranged with
  | same => exact .same _
  | entries perm kept => exact .entries perm.symm kept.symm

namespace Scheme

/-- Directives may be rearranged, as long as the rules keep their order, and so do the root
rules. -/
structure Rearranged (directives others : List Node) : Prop where
  moved : ∃ middle, directives.Perm middle ∧ List.Forall₂ Node.Rearranged middle others
  rules : directives.filter (·.tag == "rule") = others.filter (·.tag == "rule")
  rootRules : directives.filter (·.tag == "root-rule") = others.filter (·.tag == "root-rule")

theorem Rearranged.symm {directives others : List Node}
    (rearranged : Rearranged directives others) : Rearranged others directives := by
  obtain ⟨middle, perm, each⟩ := rearranged.moved
  obtain ⟨permuted, again, there⟩ := exists_perm_forall₂ perm.symm each
  exact ⟨⟨permuted, there, again.flip.imp fun _ _ => Node.Rearranged.symm⟩,
    rearranged.rules.symm, rearranged.rootRules.symm⟩

/-! ## Declarations -/

/-- What a node enters as a case. -/
def EntersCase (node : Node) (entry : String × String) : Prop :=
  ∃ header, node.Heads isNameChar header ∧ entry = (header.aliases, header.rest.getD "")

/-- Sequences and cases do not depend on how they are mixed. -/
theorem enters_iff {nodes : List Node} {sequences : List String} {cases : List (String × String)} :
    Enters nodes sequences cases ↔
      (∀ node ∈ nodes, node.children = [] ∧ (node.tag = "seq" ∨ node.tag = "case")) ∧
      (nodes.filter (·.tag == "seq")).map (·.rawArgument?.getD "") = sequences ∧
      List.Forall₂ EntersCase (nodes.filter (·.tag == "case")) cases := by
  induction nodes generalizing sequences cases with
  | nil =>
    constructor
    · rintro ⟨⟩
      exact ⟨nofun, rfl, .nil⟩
    · rintro ⟨_, rfl, each⟩
      cases each
      exact .done
  | cons node nodes ih =>
    rw [List.forall_mem_cons]
    constructor
    · intro enters
      cases enters with
      | sequence tag childless later =>
        obtain ⟨all, rfl, each⟩ := ih.mp later
        refine ⟨⟨⟨childless, .inl tag⟩, all⟩, ?_, ?_⟩
        · rw [List.filter_cons_of_pos (by simp [tag]), List.map_cons]
        · rwa [List.filter_cons_of_neg (by simp [tag])]
      | case tag childless headed later =>
        obtain ⟨all, rfl, each⟩ := ih.mp later
        refine ⟨⟨⟨childless, .inr tag⟩, all⟩, ?_, ?_⟩
        · rw [List.filter_cons_of_neg (by simp [tag])]
        · rw [List.filter_cons_of_pos (by simp [tag])]
          exact .cons ⟨_, headed, rfl⟩ each
    · rintro ⟨⟨⟨childless, tag⟩, all⟩, rfl, each⟩
      rcases tag with tag | tag
      · rw [List.filter_cons_of_neg (by simp [tag])] at each
        rw [List.filter_cons_of_pos (by simp [tag]), List.map_cons]
        exact .sequence tag childless (ih.mpr ⟨all, rfl, each⟩)
      · rw [List.filter_cons_of_pos (by simp [tag]), List.forall₂_cons_left_iff] at each
        obtain ⟨_, others, ⟨header, headed, rfl⟩, each, rfl⟩ := each
        rw [List.filter_cons_of_neg (by simp [tag])]
        exact .case tag childless headed (ih.mpr ⟨all, rfl, each⟩)

/-- Rearranged entries are the same sequences, and the same cases in another order. -/
theorem Enters.rearranged {nodes others : List Node} {sequences : List String}
    {cases : List (String × String)} (enters : Enters nodes sequences cases)
    (perm : nodes.Perm others)
    (kept : nodes.filter (·.tag == "seq") = others.filter (·.tag == "seq")) :
    ∃ permuted, Enters others sequences permuted ∧ cases.Perm permuted := by
  obtain ⟨all, inOrder, each⟩ := enters_iff.mp enters
  obtain ⟨permuted, again, there⟩ := exists_perm_forall₂ (perm.filter _) each
  refine ⟨permuted, enters_iff.mpr ⟨fun node mem => ?_, kept ▸ inOrder, again⟩, there⟩
  exact all node (perm.mem_iff.mpr mem)

/-- A declaration whose cases, if it is a definition, stand in another order. -/
inductive Declaration.Rearranged : Declaration → Declaration → Prop where
  | same (declaration : Declaration) : Rearranged declaration declaration
  | definition {definition other row} :
    definition.Rearranged other →
    Rearranged (.definition definition row) (.definition other row)

variable {engine : Engine}

/-- A rearranged directive makes a rearranged declaration. -/
theorem Declares.rearranged {node other : Node} {declaration : Declaration}
    (declares : Declares engine node declaration) (rearranged : node.Rearranged other) :
    ∃ again, Declares engine other again ∧ declaration.Rearranged again := by
  cases rearranged with
  | same => exact ⟨declaration, declares, .same _⟩
  | entries perm kept =>
    cases declares with
    | definition tag raw isWord enters =>
      obtain ⟨permuted, entersAgain, cases⟩ := enters.rearranged perm kept
      exact ⟨_, .definition tag raw isWord entersAgain, .definition ⟨rfl, rfl, cases⟩⟩
    | lexeme tag _ _ _ _ | common tag _ | root tag _ => exact absurd tag (by simp)

/-- The common rules are those of the rule nodes, in order. -/
theorem mapM_readRule_common {nodes : List Node} {declarations : List Declaration}
    (declares : List.Forall₂ (Declares engine) nodes declarations) :
    (nodes.filter (·.tag == "rule")).mapM (readRule .rule) = .ok (commonRules declarations) := by
  rw [mapM_eq_ok]
  induction declares with
  | nil => exact .nil
  | cons here _ ih =>
    cases here with
    | common tag states =>
      rw [List.filter_cons_of_pos (by simp [tag])]
      exact .cons (readRule_iff.mpr states) ih
    | lexeme tag _ _ _ _ | definition tag _ _ _ | root tag _ =>
      rw [List.filter_cons_of_neg (by simp [tag])]
      exact ih

/-- The root rules are those of the root-rule nodes, in order. -/
theorem mapM_readRule_root {nodes : List Node} {declarations : List Declaration}
    (declares : List.Forall₂ (Declares engine) nodes declarations) :
    (nodes.filter (·.tag == "root-rule")).mapM (readRule .rootRule) =
      .ok (rootRules declarations) := by
  rw [mapM_eq_ok]
  induction declares with
  | nil => exact .nil
  | cons here _ ih =>
    cases here with
    | root tag states =>
      rw [List.filter_cons_of_pos (by simp [tag])]
      exact .cons (readRule_iff.mpr states) ih
    | lexeme tag _ _ _ _ | definition tag _ _ _ | common tag _ =>
      rw [List.filter_cons_of_neg (by simp [tag])]
      exact ih

theorem lexemes_eq_of_rearranged {declarations others : List Declaration}
    (each : List.Forall₂ Declaration.Rearranged declarations others) :
    lexemes others = lexemes declarations := by
  induction each with
  | nil => rfl
  | @cons declaration _ _ _ here _ ih =>
    cases here with
    | same =>
      cases declaration with
      | lexeme lexeme => exact congrArg (lexeme :: ·) ih
      | definition _ _ | common _ | root _ => exact ih
    | definition _ => exact ih

theorem definitions_of_rearranged {declarations others : List Declaration}
    (each : List.Forall₂ Declaration.Rearranged declarations others) :
    List.Forall₂ TreeScheme.Draft.Rearranged (definitions declarations) (definitions others) := by
  induction each with
  | nil => exact .nil
  | @cons declaration _ _ _ here _ ih =>
    cases here with
    | same =>
      cases declaration with
      | definition definition row => exact .cons (.refl _) ih
      | lexeme _ | common _ | root _ => exact ih
    | definition same => exact .cons same ih

/-- **All declarations.** Rearranged directives declare the same lexemes and definitions in another
order, and the same rules. -/
theorem exists_declarations {nodes others : List Node} (rearranged : Rearranged nodes others)
    {declarations : List Declaration}
    (declares : List.Forall₂ (Declares engine) nodes declarations) :
    ∃ again, List.Forall₂ (Declares engine) others again ∧
      (lexemes declarations).Perm (lexemes again) ∧
      (∃ middle, (definitions declarations).Perm middle ∧
        List.Forall₂ TreeScheme.Draft.Rearranged middle (definitions again)) ∧
      commonRules again = commonRules declarations ∧ rootRules again = rootRules declarations := by
  obtain ⟨nodesBetween, perm, each⟩ := rearranged.moved
  obtain ⟨between, declaresBetween, permDeclared⟩ := exists_perm_forall₂ perm declares
  obtain ⟨again, declaresAgain, same⟩ := exists_forall₂_square
    (fun _ _ _ moved declared => declared.rearranged moved) each declaresBetween
  have common := mapM_readRule_common declaresAgain
  have root := mapM_readRule_root declaresAgain
  rw [← rearranged.rules, mapM_readRule_common declares] at common
  rw [← rearranged.rootRules, mapM_readRule_root declares] at root
  refine ⟨again, declaresAgain, ?_, ⟨_, permDeclared.filterMap _, definitions_of_rearranged same⟩,
    (Except.ok.inj common).symm, (Except.ok.inj root).symm⟩
  rw [lexemes_eq_of_rearranged same]
  exact permDeclared.filterMap _

/-! ## Schemes -/

/-- The draft of rearranged directives. -/
theorem builder_rearranged {limits : Limits} {declarations again : List Declaration}
    (distinct : (Draft.of limits declarations).Distinct)
    (lexemesPerm : (lexemes declarations).Perm (lexemes again))
    (definitionsPerm : ∃ middle, (definitions declarations).Perm middle ∧
      List.Forall₂ TreeScheme.Draft.Rearranged middle (definitions again)) :
    Builder.Rearranged (Draft.of limits declarations).builder (Draft.of limits again).builder := by
  obtain ⟨lexemeNames, definitionNames⟩ := distinct
  rw [Draft.builder_of] at lexemeNames definitionNames ⊢
  rw [Draft.builder_of]
  exact ⟨rfl, lexemesPerm, lexemeNames, definitionsPerm, definitionNames⟩

/-- No name is declared twice in another order. -/
theorem distinct_of_rearranged {draft again : Draft} (distinct : draft.Distinct)
    (rearranged : draft.builder.Rearranged again.builder) : again.Distinct :=
  ⟨(rearranged.lexemes.flatMap_right _).nodup_iff.mp distinct.lexemes,
    rearranged.names_perm.nodup_iff.mp distinct.definitions⟩

end Scheme

namespace Rule

mutual

/-- Rules with matchers that match the same are alike. -/
theorem alike_equip {matcherOf again : String → Option Matcher}
    (same : ∀ text input,
      (again text).map (·.evaluate input) = (matcherOf text).map (·.evaluate input)) :
    ∀ rule : Rule, Alike (rule.equip matcherOf) (rule.equip again)
  | ⟨keyword, tags, arguments, matcher, children, row⟩ => by
    rw [equip, equip]
    refine .intro rfl (fun input => ?_) (alike_equipAll same children)
    cases arguments with
    | none => rfl
    | some text => exact same text input

theorem alike_equipAll {matcherOf again : String → Option Matcher}
    (same : ∀ text input,
      (again text).map (·.evaluate input) = (matcherOf text).map (·.evaluate input)) :
    ∀ rules : List Rule,
      List.Forall₂ Alike (equipAll matcherOf rules) (equipAll again rules)
  | [] => .nil
  | rule :: rules => .cons (alike_equip same rule) (alike_equipAll same rules)

end

/-- Scopes of rules that are alike are alike. -/
theorem alike_scope {keyword : RuleKeyword} {rules others : List Rule}
    (alike : List.Forall₂ Alike rules others) :
    Alike (scope keyword rules) (scope keyword others) :=
  .intro rfl (fun _ => rfl) alike

end Rule

/-- Renumbered grammars share matchers that match the same. -/
theorem Grammar.Renumbered.sharedMatcher_evaluate {grammar again : Grammar}
    (renumbered : grammar.Renumbered again) (texts : List String) (text input : String) :
    (again.sharedMatcher texts text).map (·.evaluate input) =
      (grammar.sharedMatcher texts text).map (·.evaluate input) := by
  have canonical : ∀ matcher : Matcher, (matcher.renumber
      (grammar.vocabulary.number again.vocabulary) again.bodies).expression.canonical =
      matcher.expression.canonical := fun _ => rfl
  have matchers : ∀ text, (again.matcher (id text)).toOption = (grammar.matcher text).toOption.map
      (Matcher.renumber (grammar.vocabulary.number again.vocabulary) again.bodies) := by
    intro text
    rw [id_eq, renumbered.matcher_eq]
    cases grammar.matcher text <;> rfl
  have shared := sharedMatcher_map canonical matchers texts text
  rw [List.map_id, id_eq] at shared
  rw [shared, Option.map_map]
  cases found : grammar.sharedMatcher texts text with
  | none => rw [Option.map_none, Option.map_none]
  | some matcher =>
    obtain ⟨first, _, made⟩ := exists_text_of_sharedMatcher found
    have evaluated := renumbered.evaluate_eq made input
    rw [Option.map_some, Option.map_some, Function.comp_apply, evaluated]

namespace Scheme

/-- A rearranged tree is accepted as well, and validates every document the same. -/
theorem exists_read_of_rearranged {engine : Engine} {tree other : Node}
    (rearranged : Rearranged tree.children other.children) {limits : Limits} {scheme : Scheme}
    (built : read tree limits engine = .ok scheme) :
    ∃ again, read other limits engine = .ok again ∧
      ∀ mode document, again.validate mode document = scheme.validate mode document := by
  obtain ⟨declarations, declares, distinct, finished⟩ := read_eq_ok_iff.mp built
  obtain ⟨again, declaresAgain, lexemesPerm, definitionsPerm, common, root⟩ :=
    exists_declarations rearranged declares
  have moved := builder_rearranged distinct lexemesPerm definitionsPerm
  have distinctAgain := distinct_of_rearranged distinct moved
  obtain ⟨grammar, made, parses, rfl⟩ := finish_eq_ok_iff.mp finished
  obtain ⟨grammarAgain, madeAgain, renumbered⟩ := moved.exists_build made
  have texts : (Draft.of limits again).texts = (Draft.of limits declarations).texts := by
    rw [Draft.texts, Draft.texts, Draft.common_of, Draft.common_of, Draft.root_of, Draft.root_of,
      common, root]
  have parsesAgain : ∀ text ∈ (Draft.of limits again).texts,
      Parses grammarAgain.vocabulary.resolve text := by
    rw [texts, renumbered.vocabulary.resolve_eq]
    exact parses
  refine ⟨_, read_eq_ok_iff.mpr ⟨again, declaresAgain, distinctAgain,
    finish_eq_ok_iff.mpr ⟨grammarAgain, madeAgain, parsesAgain, rfl⟩⟩, ?_⟩
  have same := renumbered.sharedMatcher_evaluate (Draft.of limits declarations).texts
  refine validate_eq_of_alike ?_ ?_
  · rw [Draft.equipped, Draft.equipped, texts, Draft.common_of, Draft.common_of, common]
    exact Rule.alike_scope (Rule.alike_equipAll same _)
  · rw [Draft.equipped, Draft.equipped, texts, Draft.root_of, Draft.root_of, root]
    exact Rule.alike_scope (Rule.alike_equipAll same _)

/-- **Directives may stand in any order.** Trees that are the same up to rows and up to the order of
directives, except that of rules among each other, are both refused, or both are schemes. Then both
schemes give the same answer to every document, with the same document afterwards. -/
theorem rearranged_validates {tree other : Node}
    (rearranged : Rearranged tree.withoutRows.children other.withoutRows.children)
    (limits : Limits) (engine : Engine) :
    Parallel (fun scheme again : Scheme =>
        ∀ mode document, again.validate mode document = scheme.validate mode document)
      (read tree limits engine) (read other limits engine) := by
  have first := parallel_read tree limits engine
  have second := parallel_read other limits engine
  cases built : read tree limits engine with
  | ok scheme =>
    obtain ⟨_, erased, rfl⟩ := first.exists_right built
    obtain ⟨_, erasedAgain, same⟩ := exists_read_of_rearranged rearranged erased
    obtain ⟨again, builtAgain, rfl⟩ := second.exists_left erasedAgain
    rw [builtAgain]
    intro mode document
    have both := same mode document
    rwa [validate_withoutRows, validate_withoutRows] at both
  | error e =>
    cases builtAgain : read other limits engine with
    | error e' => trivial
    | ok again =>
      obtain ⟨_, erasedAgain, _⟩ := second.exists_right builtAgain
      obtain ⟨_, erased, _⟩ := exists_read_of_rearranged rearranged.symm erasedAgain
      obtain ⟨_, impossible, _⟩ := first.exists_left erased
      rw [built] at impossible
      cases impossible

section Example

/-- A rule, the definition it uses, and the lexeme that the definition uses. -/
private def usedFirst : Node :=
  .root [{ tag := "root-rule", argument := some (.raw "p pair"), row := 1 },
    { tag := "def", argument := some (.raw "pair"), row := 2, children :=
      [{ tag := "seq", argument := some (.raw "ID"), row := 3 },
        { tag := "case", argument := some (.raw "one ID"), row := 4 },
        { tag := "case", argument := some (.raw "two"), row := 5 }] },
    { tag := "lex", argument := some (.raw "ID [a-z]+"), row := 6 }]

/-- The same from bottom to top. -/
private def declaredFirst : Node :=
  .root [{ tag := "lex", argument := some (.raw "ID [a-z]+"), row := 1 },
    { tag := "def", argument := some (.raw "pair"), row := 2, children :=
      [{ tag := "case", argument := some (.raw "two"), row := 3 },
        { tag := "case", argument := some (.raw "one ID"), row := 4 },
        { tag := "seq", argument := some (.raw "ID"), row := 5 }] },
    { tag := "root-rule", argument := some (.raw "p pair"), row := 6 }]

/-- Both orders are accepted, and give the same answers. -/
theorem used_first_validates : ∃ scheme again, read usedFirst = .ok scheme ∧
    read declaredFirst = .ok again ∧
    ∀ mode document, again.validate mode document = scheme.validate mode document := by
  have accepted : (read usedFirst).isOk = true := by decide +kernel
  have rearranged :
      Rearranged usedFirst.withoutRows.children declaredFirst.withoutRows.children := by
    simp only [usedFirst, declaredFirst, Node.root, Node.withoutRows, Node.withoutRowsAll]
    refine ⟨⟨_, (List.reverse_perm _).symm, ?_⟩, by simp, by simp⟩
    exact .cons (.same _) (.cons (.entries (List.reverse_perm _).symm (by simp))
      (.cons (.same _) .nil))
  -- The trees are kept general here, lest they be read while the statement is elaborated.
  have general : ∀ {tree other : Node},
      Rearranged tree.withoutRows.children other.withoutRows.children → (read tree).isOk = true →
      ∃ scheme again, read tree = .ok scheme ∧ read other = .ok again ∧
        ∀ mode document, again.validate mode document = scheme.validate mode document := by
    intro tree other rearranged accepted
    obtain ⟨scheme, built⟩ := exists_ok_of_isOk accepted
    obtain ⟨again, builtAgain, same⟩ := (rearranged_validates rearranged {} _).exists_right built
    exact ⟨scheme, again, built, builtAgain, same⟩
  exact general rearranged accepted

end Example

end Scheme

end TreeScheme
