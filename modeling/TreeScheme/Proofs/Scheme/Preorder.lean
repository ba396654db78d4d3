import TreeScheme.Proofs.Scheme.Declarations

/-!
# Directives from top to bottom

What was declared keeps the order of the directives. This module pairs the two up: the nodes of a
tree that are directives of one kind with what they declare, place by place, and the nodes of rules
with the rules they state, in preorder and at any depth (`Scheme.Stated`). Nothing is left over on
either side, so what is proved of each pair holds of every directive of the kind and of everything
that a scheme has.
-/

namespace TreeScheme

/-! ## Nodes from top to bottom -/

namespace Node

mutual

/-- A node and all nodes below it, a node before those below it. -/
def family : Node → List Node
  | ⟨tag, argument, children, row⟩ => ⟨tag, argument, children, row⟩ :: families children

/-- Some nodes and all nodes below them. -/
def families : List Node → List Node
  | [] => []
  | node :: nodes => node.family ++ families nodes

end

theorem family_eq (node : Node) : node.family = node :: families node.children := by
  obtain ⟨tag, argument, children, row⟩ := node
  rw [family]

theorem mem_family_self (node : Node) : node ∈ node.family :=
  family_eq node ▸ List.mem_cons_self

theorem mem_families_iff {nodes : List Node} {other : Node} :
    other ∈ families nodes ↔ ∃ node ∈ nodes, other ∈ node.family := by
  induction nodes with
  | nil => simp [families]
  | cons node nodes ih => simp [families, ih]

/-- Nodes of a tree have no others below them than the tree has. -/
theorem families_subset {nodes more : List Node} (among : nodes ⊆ more) :
    families nodes ⊆ families more := by
  intro other mem
  obtain ⟨node, listed, below⟩ := mem_families_iff.mp mem
  exact mem_families_iff.mpr ⟨node, among listed, below⟩

end Node

namespace Scheme

/-! ## One kind of directive -/

variable {engine : Engine}

/-- The nodes with a tag. -/
def tagged (tag : String) (nodes : List Node) : List Node :=
  nodes.filter (·.tag == tag)

theorem tagged_subset (tag : String) (nodes : List Node) : tagged tag nodes ⊆ nodes :=
  fun _ mem => (List.mem_filter.mp mem).1

/-- Directives of one kind, and what they declare. -/
theorem forall₂_tagged {α : Type} {tag : String} {pick : Declaration → Option α}
    {related : Node → α → Prop}
    (picks : ∀ {node declaration}, Declares engine node declaration →
      (node.tag = tag ∧ ∃ a, pick declaration = some a ∧ related node a) ∨
        (node.tag ≠ tag ∧ pick declaration = none))
    {nodes : List Node} {declarations : List Declaration}
    (declares : List.Forall₂ (Declares engine) nodes declarations) :
    List.Forall₂ related (tagged tag nodes) (declarations.filterMap pick) := by
  induction declares with
  | nil => exact .nil
  | cons here _ ih =>
    rw [tagged, List.filter_cons]
    rcases picks here with ⟨same, a, picked, holds⟩ | ⟨other, passed⟩
    · rw [if_pos (beq_iff_eq.mpr same), List.filterMap_cons_some picked]
      exact .cons holds ih
    · rw [if_neg (by simpa using other), List.filterMap_cons_none passed]
      exact ih

section Kinds

variable {nodes : List Node} {declarations : List Declaration}
  (declares : List.Forall₂ (Declares engine) nodes declarations)

include declares

/-- Lexemes are declared by `lex`. -/
theorem forall₂_lexemes : List.Forall₂ (fun node lexeme => Declares engine node (.lexeme lexeme))
    (tagged "lex" nodes) (lexemes declarations) := by
  refine forall₂_tagged (fun here => ?_) declares
  cases here with
  | lexeme tag childless headed rest known =>
    exact .inl ⟨tag, _, rfl, .lexeme tag childless headed rest known⟩
  | definition tag | common tag | root tag => exact .inr ⟨tag ▸ by decide, rfl⟩

/-- Definitions are declared by `def`. -/
theorem forall₂_definitions : List.Forall₂
    (fun node definition => Declares engine node (.definition definition node.row))
    (tagged "def" nodes) (definitions declarations) := by
  refine forall₂_tagged (fun here => ?_) declares
  cases here with
  | definition tag raw isWord enters => exact .inl ⟨tag, _, rfl, .definition tag raw isWord enters⟩
  | lexeme tag | common tag | root tag => exact .inr ⟨tag ▸ by decide, rfl⟩

/-- Common rules are declared by `rule`. -/
theorem forall₂_commonRules : List.Forall₂ (fun node rule => Declares engine node (.common rule))
    (tagged "rule" nodes) (commonRules declarations) := by
  refine forall₂_tagged (fun here => ?_) declares
  cases here with
  | common tag states => exact .inl ⟨tag, _, rfl, .common tag states⟩
  | lexeme tag | definition tag | root tag => exact .inr ⟨tag ▸ by decide, rfl⟩

/-- Root rules are declared by `root-rule`. -/
theorem forall₂_rootRules : List.Forall₂ (fun node rule => Declares engine node (.root rule))
    (tagged "root-rule" nodes) (rootRules declarations) := by
  refine forall₂_tagged (fun here => ?_) declares
  cases here with
  | root tag states => exact .inl ⟨tag, _, rfl, .root tag states⟩
  | lexeme tag | definition tag | common tag => exact .inr ⟨tag ▸ by decide, rfl⟩

end Kinds

/-- The cases of a definition are entered by `case`. -/
theorem Enters.forall₂_cases {nodes : List Node} {sequences : List String}
    {cases : List (String × String)} (enters : Enters nodes sequences cases) :
    List.Forall₂ (fun node entry => ∃ header, node.Heads isNameChar header ∧
      (header.aliases, header.rest.getD "") = entry) (tagged "case" nodes) cases := by
  induction enters with
  | done => exact .nil
  | sequence tag _ _ ih =>
    rw [tagged, List.filter_cons, if_neg (by simp [tag])]
    exact ih
  | case tag _ headed _ ih =>
    rw [tagged, List.filter_cons, if_pos (beq_iff_eq.mpr tag)]
    exact .cons ⟨_, headed, rfl⟩ ih

/-! ## Rules at any depth -/

/-- A node states a rule: the rule has the keyword, the row, the tags and the arguments that the
node says. -/
structure Stated (node : Node) (rule : Rule) : Prop where
  tag : node.tag = rule.keyword.text
  row : node.row = rule.row
  header : ∃ header, node.Heads isNameChar header ∧ rule.tags = aliases header.aliases ∧
    rule.arguments = header.rest

mutual

/-- A node states a rule, and the nodes below it state the rules below the rule. -/
theorem States.forall₂_family {keyword : RuleKeyword} : ∀ {node : Node} {rule : Rule},
    States keyword node rule → node.tag = keyword.text →
    List.Forall₂ Stated node.family rule.family
  | _, _, .intro headed below, tag => by
    rw [Node.family, Rule.family]
    exact .cons ⟨tag, rfl, _, headed, rfl, rfl⟩ below.forall₂_families

theorem StatesBelow.forall₂_families : ∀ {nodes : List Node} {rules : List Rule},
    StatesBelow nodes rules → List.Forall₂ Stated (Node.families nodes) (Rule.families rules)
  | _, _, .done => .nil
  | _, _, .rule tag here later =>
    List.rel_append (here.forall₂_family tag) later.forall₂_families
  | _, _, .children tag here later =>
    List.rel_append (here.forall₂_family tag) later.forall₂_families

end

/-- Nodes state rules, and the nodes below them state the rules below. -/
theorem forall₂_stated (keyword : RuleKeyword) {nodes : List Node} {rules : List Rule}
    (states : List.Forall₂ (fun node rule => node.tag = keyword.text ∧ States keyword node rule)
      nodes rules) : List.Forall₂ Stated (Node.families nodes) (Rule.families rules) := by
  induction states with
  | nil => exact .nil
  | cons here _ ih => exact List.rel_append (here.2.forall₂_family here.1) ih

section Rules

variable {nodes : List Node} {declarations : List Declaration}
  (declares : List.Forall₂ (Declares engine) nodes declarations)

include declares

/-- The common rules of a scheme, at any depth, and the nodes that state them. -/
theorem forall₂_common : List.Forall₂ Stated (Node.families (tagged "rule" nodes))
    (Rule.families (commonRules declarations)) := by
  refine forall₂_stated .rule ((forall₂_commonRules declares).imp fun node rule here => ?_)
  cases here with
  | common tag states => exact ⟨tag, states⟩

/-- The root rules of a scheme, at any depth, and the nodes that state them. -/
theorem forall₂_root : List.Forall₂ Stated (Node.families (tagged "root-rule" nodes))
    (Rule.families (rootRules declarations)) := by
  refine forall₂_stated .rootRule ((forall₂_rootRules declares).imp fun node rule here => ?_)
  cases here with
  | root tag states => exact ⟨tag, states⟩

end Rules

end Scheme

end TreeScheme
