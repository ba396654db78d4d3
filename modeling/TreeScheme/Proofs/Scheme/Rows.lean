import TreeScheme.Proofs.Outline.Listing
import TreeScheme.Scheme.Printer

/-!
# Rows are for messages only

A scheme keeps the row of every rule, and errors name rows, but nothing else depends on them. So a
tree and the same tree without its rows are both refused, or give schemes that are the same up to
the rows of their rules (`Scheme.parallel_read`). The text of a scheme does not depend on rows
either.

Each reader has its statement here. They are all of one form, a tree beside its copy without rows,
so that one recursion over one tree is enough.
-/

namespace TreeScheme

namespace Node

theorem tag_withoutRows (node : Node) : node.withoutRows.tag = node.tag := by
  obtain ⟨tag, argument, children, row⟩ := node
  rw [withoutRows]

theorem rawArgument?_withoutRows (node : Node) :
    node.withoutRows.rawArgument? = node.rawArgument? := by
  obtain ⟨tag, argument, children, row⟩ := node
  rw [withoutRows]
  rfl

theorem children_withoutRows (node : Node) :
    node.withoutRows.children = node.children.map withoutRows := by
  obtain ⟨tag, argument, children, row⟩ := node
  rw [withoutRows, withoutRowsAll_eq_map]

end Node

/-! ## Rules -/

namespace Rule

mutual

/-- A rule without its row and those of the rules below it. -/
def withoutRows : Rule → Rule
  | ⟨keyword, tags, arguments, matcher, children, _⟩ =>
    ⟨keyword, tags, arguments, matcher, withoutRowsAll children, 0⟩

/-- Rules without rows. -/
def withoutRowsAll : List Rule → List Rule
  | [] => []
  | rule :: rules => rule.withoutRows :: withoutRowsAll rules

end

theorem withoutRowsAll_eq_map (rules : List Rule) :
    withoutRowsAll rules = rules.map withoutRows := by
  induction rules with
  | nil => rfl
  | cons rule rules ih => rw [withoutRowsAll, ih, List.map_cons]

mutual

/-- There is nothing left to take away. -/
theorem withoutRows_withoutRows : ∀ rule : Rule, rule.withoutRows.withoutRows = rule.withoutRows
  | ⟨keyword, tags, arguments, matcher, children, row⟩ => by
    rw [withoutRows, withoutRows, withoutRowsAll_withoutRowsAll children]

theorem withoutRowsAll_withoutRowsAll : ∀ rules : List Rule,
    withoutRowsAll (withoutRowsAll rules) = withoutRowsAll rules
  | [] => rfl
  | rule :: rules => by
    rw [withoutRowsAll, withoutRowsAll, withoutRows_withoutRows rule,
      withoutRowsAll_withoutRowsAll rules]

end

mutual

/-- Rows are not written. -/
theorem lines_withoutRows (depth : Nat) : ∀ rule : Rule,
    rule.withoutRows.lines depth = rule.lines depth
  | ⟨keyword, tags, arguments, matcher, children, row⟩ => by
    simp only [withoutRows, lines, linesAll_withoutRows (depth + 1) children]

theorem linesAll_withoutRows (depth : Nat) : ∀ rules : List Rule,
    lines.linesAll depth (withoutRowsAll rules) = lines.linesAll depth rules
  | [] => rfl
  | rule :: rules => by
    rw [withoutRowsAll, lines.linesAll, lines.linesAll, lines_withoutRows depth rule,
      linesAll_withoutRows depth rules]

end

end Rule

namespace Scheme

/-- A scheme without the rows of its rules. -/
def withoutRows (scheme : Scheme) : Scheme :=
  ⟨scheme.grammar, scheme.common.withoutRows, scheme.root.withoutRows⟩

theorem withoutRows_withoutRows (scheme : Scheme) :
    scheme.withoutRows.withoutRows = scheme.withoutRows := by
  simp only [withoutRows, Rule.withoutRows_withoutRows]

/-- Schemes that are the same up to rows have the same text. -/
theorem text_withoutRows (scheme : Scheme) : scheme.withoutRows.text = scheme.text := by
  obtain ⟨grammar, common, root⟩ := scheme
  have children (rule : Rule) : rule.withoutRows.children = Rule.withoutRowsAll rule.children := by
    obtain ⟨keyword, tags, arguments, matcher, children, row⟩ := rule
    rw [Rule.withoutRows]
  simp only [text, lines, withoutRows, children, Rule.withoutRowsAll_eq_map]
  rw [← List.map_append, ← Rule.withoutRowsAll_eq_map, Rule.linesAll_withoutRows]

/-! ## Readers -/

/-- Only refusals name rows. -/
theorem parallel_within {α : Type} (tag tag' : String) (row row' : Nat)
    (result : Except GrammarError α) :
    Parallel Eq (within tag row result) (within tag' row' result) := by
  cases result with
  | ok a => exact rfl
  | error cause => trivial

theorem parallel_unexpected {α : Type} (related : α → α → Prop) (node other : Node) :
    Parallel related (unexpected node) (unexpected other) :=
  trivial

theorem parallel_header (isName : Char → Bool) (node : Node) :
    Parallel Eq (header isName node) (header isName node.withoutRows) := by
  rw [header, header, Node.rawArgument?_withoutRows]
  split
  · trivial
  · split
    · trivial
    · exact rfl

theorem parallel_rejectChildren (node : Node) :
    Parallel Eq (rejectChildren node) (rejectChildren node.withoutRows) := by
  rw [rejectChildren, rejectChildren, Node.children_withoutRows]
  cases node.children with
  | nil => exact rfl
  | cons child children => trivial

theorem parallel_readEntries (draft : TreeScheme.Draft) (nodes : List Node) :
    Parallel Eq (readEntries draft nodes) (readEntries draft (nodes.map Node.withoutRows)) := by
  induction nodes generalizing draft with
  | nil => exact rfl
  | cons node nodes ih =>
    rw [List.map_cons, readEntries, readEntries, Node.tag_withoutRows,
      Node.rawArgument?_withoutRows]
    refine (parallel_rejectChildren node).bind fun _ _ _ => ?_
    split
    · exact ih _
    · refine (parallel_header isNameChar node).bind fun found same agree => ?_
      subst agree
      exact ih _
    · exact parallel_unexpected _ _ _

theorem parallel_nestedKeyword (node : Node) :
    Parallel Eq (nestedKeyword node) (nestedKeyword node.withoutRows) := by
  rw [nestedKeyword, nestedKeyword, Node.tag_withoutRows]
  split
  · exact rfl
  · exact rfl
  · exact parallel_unexpected _ _ _

mutual

theorem parallel_readRule (keyword : RuleKeyword) : ∀ node : Node,
    Parallel (fun rule other => other = rule.withoutRows) (readRule keyword node)
      (readRule keyword node.withoutRows)
  | ⟨tag, argument, children, row⟩ => by
    rw [readRule, Node.withoutRows, readRule]
    have headers := parallel_header isNameChar ⟨tag, argument, children, row⟩
    refine headers.bind fun found same agree => ?_
    subst agree
    refine (parallel_readRules children).bind fun rules others same => ?_
    rw [same, ← Rule.withoutRowsAll_eq_map]
    exact rfl

theorem parallel_readRules : ∀ nodes : List Node,
    Parallel (fun rules others => others = rules.map Rule.withoutRows) (readRule.readRules nodes)
      (readRule.readRules (Node.withoutRowsAll nodes))
  | [] => rfl
  | node :: nodes => by
    rw [Node.withoutRowsAll, readRule.readRules, readRule.readRules]
    refine (parallel_nestedKeyword node).bind fun keyword same agree => ?_
    subst agree
    refine (parallel_readRule keyword node).bind fun rule other same => ?_
    refine (parallel_readRules nodes).bind fun rules others sameRest => ?_
    rw [same, sameRest]
    exact rfl

end

/-- Drafts that are the same up to rows. -/
structure Draft.SameWithoutRows (draft other : Draft) : Prop where
  builder : other.builder = draft.builder
  common : other.common = draft.common.map Rule.withoutRows
  root : other.root = draft.root.map Rule.withoutRows

variable {engine : Engine}

theorem parallel_readLexeme {draft other : Draft} (same : draft.SameWithoutRows other)
    (node : Node) :
    Parallel Draft.SameWithoutRows (readLexeme engine draft node)
      (readLexeme engine other node.withoutRows) := by
  rw [readLexeme, readLexeme, same.builder]
  refine (parallel_rejectChildren node).bind fun _ _ _ => ?_
  refine (parallel_header isUpperNameChar node).bind fun found _ agree => ?_
  subst agree
  cases found.rest with
  | none => trivial
  | some pattern =>
    refine (parallel_within _ _ _ _ _).bind fun builder _ agree => ?_
    subst agree
    exact ⟨rfl, same.common, same.root⟩

theorem parallel_readDefinition {draft other : Draft} (same : draft.SameWithoutRows other)
    (node : Node) :
    Parallel Draft.SameWithoutRows (readDefinition draft node)
      (readDefinition other node.withoutRows) := by
  simp only [readDefinition, same.builder, Node.rawArgument?_withoutRows,
    Node.children_withoutRows]
  split
  · refine (parallel_within _ _ _ _ _).bind fun _ _ _ => ?_
    refine (parallel_readEntries _ node.children).bind fun definition _ agree => ?_
    subst agree
    refine (parallel_within _ _ _ _ _).bind fun builder _ agree => ?_
    subst agree
    exact ⟨rfl, same.common, same.root⟩
  · trivial

theorem parallel_readDirective {draft other : Draft} (same : draft.SameWithoutRows other)
    (node : Node) :
    Parallel Draft.SameWithoutRows (readDirective engine draft node)
      (readDirective engine other node.withoutRows) := by
  rw [readDirective, readDirective, Node.tag_withoutRows]
  split
  · exact parallel_readLexeme same node
  · exact parallel_readDefinition same node
  · refine (parallel_readRule .rule node).bind fun rule _ agree => ?_
    subst agree
    exact ⟨same.builder, by simp [same.common], same.root⟩
  · refine (parallel_readRule .rootRule node).bind fun rule _ agree => ?_
    subst agree
    exact ⟨same.builder, same.common, by simp [same.root]⟩
  · exact parallel_unexpected _ _ _

theorem parallel_readDirectives {draft other : Draft} (same : draft.SameWithoutRows other)
    (nodes : List Node) :
    Parallel Draft.SameWithoutRows (readDirectives engine draft nodes)
      (readDirectives engine other (nodes.map Node.withoutRows)) := by
  induction nodes generalizing draft other with
  | nil => exact same
  | cons node nodes ih =>
    rw [List.map_cons, readDirectives, readDirectives]
    exact (parallel_readDirective same node).bind fun _ _ next => ih next

/-! ## Filling in matchers -/

theorem parallel_fillArguments (grammar : Grammar) (shared : Shared) (keyword : RuleKeyword)
    (row row' : Nat) (arguments : Option String) :
    Parallel Eq (fillArguments grammar shared keyword row arguments)
      (fillArguments grammar shared keyword row' arguments) := by
  cases arguments with
  | none => exact rfl
  | some text =>
    refine (parallel_within _ _ _ _ _).bind fun made _ agree => ?_
    subst agree
    exact rfl

mutual

theorem parallel_fill (grammar : Grammar) (shared : Shared) : ∀ rule : Rule,
    Parallel (fun filled other => other = (filled.1.withoutRows, filled.2))
      (fill grammar shared rule) (fill grammar shared rule.withoutRows)
  | ⟨keyword, tags, arguments, matcher, children, row⟩ => by
    rw [fill, Rule.withoutRows, fill]
    refine (parallel_fillArguments grammar shared keyword row 0 arguments).bind
      fun filled _ agree => ?_
    subst agree
    refine (parallel_fillAll grammar filled.2 children).bind fun inside _ agree => ?_
    subst agree
    simp only [← Rule.withoutRowsAll_eq_map]
    exact rfl

theorem parallel_fillAll (grammar : Grammar) (shared : Shared) : ∀ rules : List Rule,
    Parallel (fun filled other => other = (filled.1.map Rule.withoutRows, filled.2))
      (fill.fillAll grammar shared rules)
      (fill.fillAll grammar shared (Rule.withoutRowsAll rules))
  | [] => rfl
  | rule :: rules => by
    rw [Rule.withoutRowsAll, fill.fillAll, fill.fillAll]
    refine (parallel_fill grammar shared rule).bind fun first _ agree => ?_
    subst agree
    refine (parallel_fillAll grammar first.2 rules).bind fun rest _ agree => ?_
    subst agree
    exact rfl

end

theorem parallel_buildGrammar {draft other : Draft} (same : draft.SameWithoutRows other) :
    Parallel Eq (buildGrammar draft) (buildGrammar other) := by
  rw [buildGrammar, buildGrammar, same.builder]
  cases draft.builder.build with
  | ok grammar => exact rfl
  | error cause => trivial

theorem parallel_finish {draft other : Draft} (same : draft.SameWithoutRows other) :
    Parallel (fun scheme erased => erased = scheme.withoutRows) (finish draft) (finish other) := by
  rw [finish, finish, same.common, same.root]
  refine (parallel_buildGrammar same).bind fun grammar _ agree => ?_
  subst agree
  rw [← Rule.withoutRowsAll_eq_map, ← Rule.withoutRowsAll_eq_map]
  refine (parallel_fillAll grammar {} draft.common).bind fun common _ agree => ?_
  subst agree
  refine (parallel_fillAll grammar common.2 draft.root).bind fun root _ agree => ?_
  subst agree
  simp only [← Rule.withoutRowsAll_eq_map]
  exact rfl

/-- **Rows are for messages only.** A tree and the tree without its rows are both refused, or give
the same scheme up to rows. -/
theorem parallel_read (tree : Node) (limits : Limits) (engine : Engine) :
    Parallel (fun scheme erased => erased = scheme.withoutRows) (read tree limits engine)
      (read tree.withoutRows limits engine) := by
  rw [read, read, Node.children_withoutRows]
  have empty : Draft.SameWithoutRows { builder := { limits } } { builder := { limits } } :=
    ⟨rfl, rfl, rfl⟩
  exact (parallel_readDirectives empty tree.children).bind fun _ _ same => parallel_finish same

end Scheme

end TreeScheme
