import Mathlib.Data.List.Induction
import Mathlib.Data.List.Nodup
import Mathlib.Data.List.Perm.Subperm
import TreeScheme.Proofs.Validation.Verdict

/-!
# Scopes

The scope of a node's children is put together from the rules below the scope of the node and from
the common rules, which come again at every depth, and nothing is left out that is there already.
Still no rule ever stands in a scope twice. For this it matters which rule is meant, not what it
looks like: a scheme may hold the same rule at two places. So the rules of a scope are followed
together with the places where they stand (`Located`).

`Scheme.trace` is validation with rules that know their places. It also keeps the scope of every
call of the walk, in order. Which calls there are is said without it: there is one for the top of
the document and one for every node that is admitted, and the scope of each follows from the tags on
the way there (`Scheme.scopeAt`, `Scheme.trace_scopes`). `Scheme.scopes_distinct` proves that the
trace comes out as validation does, that it keeps the scopes of these calls, and that in every such
scope the places differ.

**The invariant.** The common rule tree's own top never stands in a scope. So a scope stays free of
doubles if that top is added to it (`Scheme.Separate`), and the next scope is exactly what stands
below the places of the longer list: places below different places differ, and no place below
another is the top.
-/

namespace TreeScheme

/-! ## Places -/

/-- A place in a scheme: in one of its two trees of rules, behind indices that lead there. -/
inductive Place where
  | common (path : List Nat)
  | root (path : List Nat)
deriving DecidableEq, Repr

/-- The place of a rule's child. -/
def Place.below (index : Nat) : Place → Place
  | common path => common (path ++ [index])
  | root path => root (path ++ [index])

/-- The rule at a place. -/
def Scheme.ruleAt? (scheme : Scheme) : Place → Option Rule
  | .common path => scheme.common.descend? path
  | .root path => scheme.root.descend? path

/-- A rule and the place where it stands. -/
structure Located where
  place : Place
  rule : Rule

namespace Located

/-- The rules directly below one. -/
def children (located : Located) : List Located :=
  located.rule.children.zipIdx.map fun (rule, index) => ⟨located.place.below index, rule⟩

/-- The rules directly below one that accept a tag. -/
def matching (located : Located) (tag : String) : List Located :=
  located.children.filter (·.rule.accepts tag)

end Located

namespace Scheme

/-- The top of the common rules. -/
def commonTop (scheme : Scheme) : Located :=
  ⟨.common [], scheme.common⟩

/-- The top of the root rules. -/
def rootTop (scheme : Scheme) : Located :=
  ⟨.root [], scheme.root⟩

end Scheme

mutual

/-- The number of rules in a tree, its top included. -/
def Rule.size : Rule → Nat
  | { children, .. } => sizes children + 1

/-- The number of rules in several trees. -/
def Rule.sizes : List Rule → Nat
  | [] => 0
  | rule :: rules => rule.size + sizes rules

end

/-- A tree of rules has one rule more than there are below its top. -/
theorem Rule.size_eq (rule : Rule) : rule.size = sizes rule.children + 1 := by
  obtain ⟨_, _, _, _, _, _⟩ := rule
  rw [size]

/-- The number of rules of a scheme. The tops of its trees are not rules of their own. -/
def Scheme.ruleCount (scheme : Scheme) : Nat :=
  Rule.sizes scheme.common.children + Rule.sizes scheme.root.children

/-! ## The walk with places -/

namespace Validation

/-- What validation comes to, and the scopes of the calls of the walk on the way, in order. -/
abbrev Traced (α : Type) := (Option ValidationError × α) × List (List Located)

/-- The rules that accept a tag: those below the rules of a scope, then the common ones. -/
def acceptingAt (common : Located) (scope : List Located) (tag : String) : List Located :=
  scope.flatMap (·.matching tag) ++ common.matching tag

/-- Validates a node in a scope. The walk is called once more for its children, if it gets there,
and the scope of that call comes first. -/
def traceNode (common : Located) (mode : Mode) (scope : List Located) : Node → Traced Node
  | { tag, argument, children, row } =>
    let located := acceptingAt common scope tag
    match applyAll mode (located.map (·.rule)) { tag, argument, children, row } with
    | (some cause, argument) =>
      ((some (.invalidArguments tag row cause), { tag, argument, children, row }), [])
    | (none, argument) =>
      if located.isEmpty then ((some (.invalidNode tag row), { tag, argument, children, row }), [])
      else
        let ((error, children), scopes) := traceAll located children
        ((error, { tag, argument, children, row }), located :: scopes)
where
  /-- Validates nodes in a scope, one after another, up to the first error. -/
  traceAll (scope : List Located) : List Node → Traced (List Node)
  | [] => ((none, []), [])
  | node :: nodes =>
    match traceNode common mode scope node with
    | ((some error, node), scopes) => ((some error, node :: nodes), scopes)
    | ((none, node), scopes) =>
      let ((error, nodes), later) := traceAll scope nodes
      ((error, node :: nodes), scopes ++ later)

end Validation

/-- Validates the nodes below the root of a document. The first call of the walk has the root
scope. -/
def Scheme.trace (scheme : Scheme) (mode : Mode) (document : Node) : Validation.Traced Node :=
  let ((error, children), scopes) :=
    Validation.traceNode.traceAll scheme.commonTop mode [scheme.rootTop] document.children
  ((error, { document with children }), [scheme.rootTop] :: scopes)

/-! ## Without the places -/

namespace Located

theorem map_rule_children (located : Located) :
    located.children.map (·.rule) = located.rule.children := by
  rw [children, List.map_map]
  exact List.zipIdx_map_fst 0 _

theorem map_rule_matching (located : Located) (tag : String) :
    (located.matching tag).map (·.rule) = located.rule.matching tag := by
  rw [matching, Rule.matching, ← map_rule_children, List.filter_map]
  rfl

end Located

namespace Validation

/-- Without places, the rules that accept a tag are those of validation. -/
theorem map_rule_acceptingAt (common : Located) (scope : List Located) (tag : String) :
    (acceptingAt common scope tag).map (·.rule) =
      accepting common.rule (scope.map (·.rule)) tag := by
  rw [acceptingAt, accepting, List.map_append, Located.map_rule_matching, List.map_flatMap,
    List.flatMap_map]
  simp only [Located.map_rule_matching]

mutual

/-- Without places and scopes, the walk is that of validation. -/
theorem traceNode_fst (common : Located) (mode : Mode) (scope : List Located) : ∀ node : Node,
    (traceNode common mode scope node).1 =
      validateNode common.rule mode (scope.map (·.rule)) node
  | ⟨tag, argument, children, row⟩ => by
    have below := traceAll_fst common mode (acceptingAt common scope tag) children
    simp only [traceNode, validateNode, ← map_rule_acceptingAt, ← below, List.isEmpty_map]
    cases applyAll mode ((acceptingAt common scope tag).map (·.rule))
        ⟨tag, argument, children, row⟩ with
    | mk error read =>
      cases error with
      | some cause => rfl
      | none => cases (acceptingAt common scope tag).isEmpty <;> rfl

theorem traceAll_fst (common : Located) (mode : Mode) (scope : List Located) : ∀ nodes : List Node,
    (traceNode.traceAll common mode scope nodes).1 =
      validateNode.validateAll common.rule mode (scope.map (·.rule)) nodes
  | [] => rfl
  | node :: nodes => by
    have here := traceNode_fst common mode scope node
    have later := traceAll_fst common mode scope nodes
    rw [traceNode.traceAll, validateNode.validateAll, ← here, ← later]
    rcases traceNode common mode scope node with ⟨⟨_ | error, after⟩, scopes⟩ <;> rfl

end

end Validation

/-! ## Rules below different places -/

namespace Rule

/-- One more index leads to a child. -/
theorem descend?_concat {rule parent : Rule} {path : List Nat}
    (found : rule.descend? path = some parent) (index : Nat) :
    rule.descend? (path ++ [index]) = parent.children[index]? := by
  induction path generalizing rule with
  | nil =>
    cases found
    rw [List.nil_append, descend?]
    split <;> simp [*, descend?]
  | cons first path ih =>
    rw [descend?] at found
    rw [List.cons_append, descend?]
    split at found
    · cases found
    · exact ih found

end Rule

/-- Places below two places are the same only if the two are. -/
theorem Place.below_inj {first second : Place} {index other : Nat} :
    first.below index = second.below other ↔ first = second ∧ index = other := by
  cases first <;> cases second <;> simp [below]

/-- No place below another is the top of the common rules. -/
theorem Place.below_ne_top (place : Place) (index : Nat) : place.below index ≠ .common [] := by
  cases place <;> simp [below]

namespace Located

/-- A rule below another one stands at one of its indices. -/
theorem mem_matching {located child : Located} {tag : String}
    (mem : child ∈ located.matching tag) : ∃ index, child.place = located.place.below index ∧
      located.rule.children[index]? = some child.rule := by
  obtain ⟨⟨rule, index⟩, listed, rfl⟩ := List.mem_map.mp (List.mem_filter.mp mem).1
  exact ⟨index, rfl, (List.mem_zipIdx_iff_getElem?.mp listed)⟩

/-- The rules below one stand at different places. -/
theorem nodup_matching (located : Located) (tag : String) :
    ((located.matching tag).map (·.place)).Nodup := by
  have indices : located.children.map (·.place) =
      (List.range' 0 located.rule.children.length).map (located.place.below ·) := by
    rw [children, ← List.zipIdx_map_snd, List.map_map, List.map_map]
    rfl
  have distinct : (located.children.map (·.place)).Nodup := by
    rw [indices]
    exact (List.nodup_range' 1).map fun _ _ same => (Place.below_inj.mp same).2
  exact distinct.sublist (List.filter_sublist.map _)

end Located

/-! ## The invariant -/

namespace Scheme

/-- A scope holds rules of a scheme, and together with the top of the common rules they stand at
different places. -/
structure Separate (scheme : Scheme) (scope : List Located) : Prop where
  standing : ∀ located ∈ scope ++ [scheme.commonTop],
    scheme.ruleAt? located.place = some located.rule
  distinct : ((scope ++ [scheme.commonTop]).map (·.place)).Nodup

variable {scheme : Scheme} {scope : List Located}

/-- The root scope is separate. -/
theorem separate_rootTop (scheme : Scheme) : scheme.Separate [scheme.rootTop] := by
  constructor
  · intro located mem
    rcases List.mem_append.mp mem with here | here
    · rw [List.mem_singleton.mp here]
      rfl
    · rw [List.mem_singleton.mp here]
      rfl
  · simp [commonTop, rootTop]

/-- What stands below a rule of a scheme stands in the scheme. -/
theorem ruleAt?_below {place : Place} {parent : Rule}
    (found : scheme.ruleAt? place = some parent) (index : Nat) :
    scheme.ruleAt? (place.below index) = parent.children[index]? := by
  cases place with
  | common path => exact Rule.descend?_concat found index
  | root path => exact Rule.descend?_concat found index

/-- The next scope is what stands below the rules of a scope and below the top of the common
rules. -/
theorem acceptingAt_eq_flatMap (scheme : Scheme) (scope : List Located) (tag : String) :
    Validation.acceptingAt scheme.commonTop scope tag =
      (scope ++ [scheme.commonTop]).flatMap (·.matching tag) := by
  rw [Validation.acceptingAt, List.flatMap_append, List.flatMap_singleton]

/-- **One step.** The scope of a node's children is separate if the scope of the node is. -/
theorem Separate.accepting (separate : scheme.Separate scope) (tag : String) :
    scheme.Separate (Validation.acceptingAt scheme.commonTop scope tag) := by
  rw [acceptingAt_eq_flatMap]
  constructor
  · intro located mem
    rcases List.mem_append.mp mem with below | top
    · obtain ⟨parent, inside, mem⟩ := List.mem_flatMap.mp below
      obtain ⟨index, place, child⟩ := Located.mem_matching mem
      rw [place, ruleAt?_below (separate.standing parent inside), child]
    · exact separate.standing located (List.mem_append_right _ top)
  · have apart : (scope ++ [scheme.commonTop]).Pairwise fun first second =>
        first.place ≠ second.place := List.pairwise_map.mp separate.distinct
    rw [List.map_append, List.map_flatMap, List.map_singleton]
    refine List.nodup_append.mpr ⟨List.nodup_flatMap.mpr ⟨fun located _ => ?_, ?_⟩, ?_, ?_⟩
    · exact located.nodup_matching tag
    · refine apart.imp fun {first second} differ place mem other => ?_
      obtain ⟨child, inside, rfl⟩ := List.mem_map.mp mem
      obtain ⟨again, insideAgain, same⟩ := List.mem_map.mp other
      obtain ⟨index, here, _⟩ := Located.mem_matching inside
      obtain ⟨otherIndex, there, _⟩ := Located.mem_matching insideAgain
      rw [here, there] at same
      exact differ (Place.below_inj.mp same).1.symm
    · exact List.nodup_singleton _
    · intro place mem top isTop
      obtain ⟨parent, _, mem⟩ := List.mem_flatMap.mp mem
      obtain ⟨child, inside, rfl⟩ := List.mem_map.mp mem
      obtain ⟨index, here, _⟩ := Located.mem_matching inside
      rw [List.mem_singleton.mp isTop, here]
      exact Place.below_ne_top parent.place index

/-! ## All calls -/

mutual

/-- **All steps.** The walk is called with separate scopes only. -/
theorem separate_of_mem_traceNode (scheme : Scheme) (mode : Mode) {scope : List Located}
    (separate : scheme.Separate scope) : ∀ node : Node,
    ∀ inner ∈ (Validation.traceNode scheme.commonTop mode scope node).2, scheme.Separate inner
  | ⟨tag, argument, children, row⟩ => by
    have next := separate.accepting tag
    have below := separate_of_mem_traceAll scheme mode next children
    intro inner mem
    rw [Validation.traceNode] at mem
    split at mem
    · exact absurd mem List.not_mem_nil
    · split at mem
      · exact absurd mem List.not_mem_nil
      · rcases List.mem_cons.mp mem with rfl | mem
        · exact next
        · exact below inner mem

theorem separate_of_mem_traceAll (scheme : Scheme) (mode : Mode) {scope : List Located}
    (separate : scheme.Separate scope) : ∀ nodes : List Node,
    ∀ inner ∈ (Validation.traceNode.traceAll scheme.commonTop mode scope nodes).2,
      scheme.Separate inner
  | [] => fun _ mem => absurd mem List.not_mem_nil
  | node :: nodes => by
    have here := separate_of_mem_traceNode scheme mode separate node
    have later := separate_of_mem_traceAll scheme mode separate nodes
    intro inner mem
    rw [Validation.traceNode.traceAll] at mem
    split at mem
    · rename_i stopped
      exact here inner (stopped ▸ mem)
    · rename_i admitted
      rcases List.mem_append.mp mem with mem | mem
      · exact here inner (admitted ▸ mem)
      · exact later inner mem

end

end Scheme

/-! ## Which calls there are -/

namespace Scheme

/-- The scope for what stands below a node, from the tags on the way to the node. At the top of a
document it is the root scope. -/
def scopeAt (scheme : Scheme) (tags : List String) : List Located :=
  tags.foldl (Validation.acceptingAt scheme.commonTop) [scheme.rootTop]

/-- One more tag makes the scope one step deeper. -/
theorem scopeAt_concat (scheme : Scheme) (above : List String) (tag : String) :
    scheme.scopeAt (above ++ [tag]) =
      Validation.acceptingAt scheme.commonTop (scheme.scopeAt above) tag := by
  rw [scopeAt, List.foldl_concat, scopeAt]

/-- Without places, the scope below a node is the rules that match the node. -/
theorem map_rule_scopeAt (scheme : Scheme) (tags : List String) :
    (scheme.scopeAt tags).map (·.rule) = scheme.matchedRules tags := by
  induction tags using List.reverseRecOn with
  | nil => rfl
  | append_singleton above tag ih =>
    rw [scopeAt_concat, Validation.map_rule_acceptingAt, ih, ← Validation.accepting_matchedRules]
    rfl

/-- The scope below a node is empty if no rule matches the node. -/
theorem scopeAt_eq_nil_iff {scheme : Scheme} {tags : List String} :
    scheme.scopeAt tags = [] ↔ scheme.matchedRules tags = [] := by
  rw [← map_rule_scopeAt, List.map_eq_nil_iff]

/-- Validation gets through the nodes `admitted` and no further: they are the first nodes, each of
them is admitted, and the next one is refused with the error, or there is none. -/
structure Passes (scheme : Scheme) (mode : Mode) (visits admitted : List Visit)
    (error : Option ValidationError) : Prop where
  admits : ∀ visit ∈ admitted, ∃ argument, scheme.Admits mode visit argument
  whole : error = none → visits = admitted
  stops : ∀ cause, error = some cause → ∃ visit after, visits = admitted ++ visit :: after ∧
    scheme.Refuses mode visit cause

namespace Passes

variable {scheme : Scheme} {mode : Mode} {visit : Visit}
  {first second admitted others : List Visit} {error : Option ValidationError}

/-- Validation stops at a node that is refused. -/
theorem refused {cause : ValidationError} (refused : scheme.Refuses mode visit cause)
    (rest : List Visit) : scheme.Passes mode (visit :: rest) [] (some cause) where
  admits _ mem := absurd mem List.not_mem_nil
  whole impossible := by cases impossible
  stops _ same := by
    cases same
    exact ⟨visit, rest, rfl, refused⟩

/-- Validation goes on behind a node that is admitted. -/
theorem cons {argument : Option Argument} (here : scheme.Admits mode visit argument)
    (later : scheme.Passes mode first admitted error) :
    scheme.Passes mode (visit :: first) (visit :: admitted) error where
  admits := List.forall_mem_cons.mpr ⟨⟨argument, here⟩, later.admits⟩
  whole noError := congrArg (visit :: ·) (later.whole noError)
  stops cause same := by
    obtain ⟨other, after, split, refuses⟩ := later.stops cause same
    exact ⟨other, after, congrArg (visit :: ·) split, refuses⟩

/-- Validation goes on behind nodes that are all admitted. -/
theorem append (before : scheme.Passes mode first admitted none)
    (after : scheme.Passes mode second others error) :
    scheme.Passes mode (first ++ second) (admitted ++ others) error where
  admits := List.forall_mem_append.mpr ⟨before.admits, after.admits⟩
  whole noError := by rw [before.whole rfl, after.whole noError]
  stops cause same := by
    obtain ⟨other, rest, split, refuses⟩ := after.stops cause same
    exact ⟨other, rest, by rw [before.whole rfl, split, List.append_assoc], refuses⟩

/-- Behind a node that is refused nothing matters. -/
theorem append_stopped {cause : ValidationError}
    (before : scheme.Passes mode first admitted (some cause)) (second : List Visit) :
    scheme.Passes mode (first ++ second) admitted (some cause) where
  admits := before.admits
  whole impossible := by cases impossible
  stops _ same := by
    obtain ⟨visit, rest, split, refuses⟩ := before.stops _ same
    exact ⟨visit, rest ++ second, by rw [split, List.append_assoc, List.cons_append], refuses⟩

end Passes

end Scheme

namespace Validation

open Scheme (Passes)

mutual

/-- The walk over a tree keeps the scopes below the nodes that it gets through. -/
theorem traceNode_scopes (scheme : Scheme) (mode : Mode) (above : List String) : ∀ node : Node,
    ∃ admitted, scheme.Passes mode (node.visits above) admitted
        (traceNode scheme.commonTop mode (scheme.scopeAt above) node).1.1 ∧
      (traceNode scheme.commonTop mode (scheme.scopeAt above) node).2 =
        admitted.map fun visit => scheme.scopeAt visit.tags
  | ⟨tag, argument, children, row⟩ => by
    have rules := scheme.map_rule_scopeAt (above ++ [tag])
    -- The tags on the way to the node decide its rules, whatever stood before it.
    rw [traceNode, ← scheme.scopeAt_concat, Node.visits]
    by_cases unmatched : scheme.matchedRules (above ++ [tag]) = []
    · rw [Scheme.scopeAt_eq_nil_iff.mpr unmatched]
      exact ⟨[], .refused (.unmatched unmatched) _, rfl⟩
    · have somewhere : (scheme.scopeAt (above ++ [tag])).isEmpty = false :=
        List.isEmpty_eq_false_iff.mpr (mt Scheme.scopeAt_eq_nil_iff.mp unmatched)
      rcases applyAll_matchedRules scheme mode
          ⟨above ++ [tag], ⟨tag, argument, children, row⟩⟩ unmatched
        with ⟨read, asked, admits⟩ | ⟨cause, asked, refuses⟩
      · obtain ⟨admitted, passes, scopes⟩ := traceAll_scopes scheme mode (above ++ [tag]) children
        simp only [rules, asked, somewhere]
        exact ⟨_ :: admitted, .cons admits passes, by rw [List.map_cons, ← scopes]; rfl⟩
      · simp only [rules, asked]
        exact ⟨[], .refused refuses _, rfl⟩

theorem traceAll_scopes (scheme : Scheme) (mode : Mode) (above : List String) :
    ∀ nodes : List Node, ∃ admitted, scheme.Passes mode (Node.visitsAll above nodes) admitted
        (traceNode.traceAll scheme.commonTop mode (scheme.scopeAt above) nodes).1.1 ∧
      (traceNode.traceAll scheme.commonTop mode (scheme.scopeAt above) nodes).2 =
        admitted.map fun visit => scheme.scopeAt visit.tags
  | [] => ⟨[], ⟨fun _ mem => absurd mem List.not_mem_nil, fun _ => rfl, nofun⟩, rfl⟩
  | node :: nodes => by
    obtain ⟨admitted, passes, scopes⟩ := traceNode_scopes scheme mode above node
    rw [traceNode.traceAll, Node.visitsAll]
    rcases here : traceNode scheme.commonTop mode (scheme.scopeAt above) node with
      ⟨⟨_ | cause, after⟩, kept⟩
    · obtain ⟨others, later, scopesLater⟩ := traceAll_scopes scheme mode above nodes
      rw [here] at passes scopes
      exact ⟨admitted ++ others, passes.append later, by
        rw [List.map_append, ← scopes, ← scopesLater]⟩
    · rw [here] at passes scopes
      exact ⟨admitted, passes.append_stopped _, scopes⟩

end

end Validation

/-- **Which calls there are.** The scopes of a trace are the root scope and then, in document order,
one for every node that validation gets through, which is the scope for the children of the node. -/
theorem Scheme.trace_scopes (scheme : Scheme) (mode : Mode) (document : Node) :
    ∃ admitted, scheme.Passes mode (Node.visitsAll [] document.children) admitted
        (scheme.trace mode document).1.1 ∧
      (scheme.trace mode document).2 =
        scheme.scopeAt [] :: admitted.map fun visit => scheme.scopeAt visit.tags := by
  obtain ⟨admitted, passes, scopes⟩ :=
    Validation.traceAll_scopes scheme mode [] document.children
  exact ⟨admitted, passes, congrArg (scheme.scopeAt [] :: ·) scopes⟩

/-- Notes are common, and the only rule of a page also accepts them. In `page [note [item]], note,
item` the walk gets through all nodes but the last, and the rules of a note in a page stand at two
places. -/
example (grammar : Grammar) :
    let item : Rule := { keyword := .children, tags := ["item"] }
    let remark : Rule := { keyword := .children, tags := ["note"] }
    let scheme : Scheme :=
      ⟨grammar, .scope .rule [{ keyword := .rule, tags := ["note"], children := [item] }],
        .scope .rootRule [{ keyword := .rootRule, tags := ["page"], children := [remark] }]⟩
    let noted : Node := { tag := "note", children := [{ tag := "item" }] }
    let trace := scheme.trace .annotate (.root [{ tag := "page", children := [noted] },
      { tag := "note" }, { tag := "item", row := 5 }])
    trace.1.1 = some (.invalidNode "item" 5) ∧
      trace.2.map (·.map (·.place)) = [[.root []], [.root [0]], [.root [0, 0], .common [0]],
        [.common [0, 0]], [.common [0]]] := by
  cbv

/-! ## How many rules there are -/

mutual

/-- The ways to the rules of a tree, from its top. -/
def Rule.paths : Rule → List (List Nat)
  | { children, .. } => [] :: pathsFrom 0 children

/-- The ways to the rules of several trees, the first of which has the index `first`. -/
def Rule.pathsFrom (first : Nat) : List Rule → List (List Nat)
  | [] => []
  | rule :: rules => rule.paths.map (first :: ·) ++ pathsFrom (first + 1) rules

end

namespace Rule

mutual

/-- There are as many ways as there are rules. -/
theorem length_paths : ∀ rule : Rule, rule.paths.length = rule.size
  | ⟨_, _, _, _, children, _⟩ => by
    rw [paths, List.length_cons, length_pathsFrom 0 children, size]

theorem length_pathsFrom (first : Nat) : ∀ rules : List Rule,
    (pathsFrom first rules).length = sizes rules
  | [] => rfl
  | rule :: rules => by
    rw [pathsFrom, List.length_append, List.length_map, length_paths rule,
      length_pathsFrom (first + 1) rules, sizes]

end

/-- Ways that lead to the rules below some rules. -/
theorem mem_pathsFrom {first index : Nat} {path : List Nat} {rule : Rule} {rules : List Rule}
    (here : rules[index]? = some rule) (mem : path ∈ rule.paths) :
    (first + index) :: path ∈ pathsFrom first rules := by
  induction rules generalizing first index with
  | nil => cases here
  | cons head rules ih =>
    rw [pathsFrom]
    cases index with
    | zero =>
      cases here
      exact List.mem_append_left _ (List.mem_map_of_mem mem)
    | succ index =>
      have further : (first + 1 + index) :: path ∈ pathsFrom (first + 1) rules := ih here
      rw [Nat.add_right_comm] at further
      exact List.mem_append_right _ further

/-- Every way that leads to a rule is counted. -/
theorem mem_paths_of_descend? {rule found : Rule} {path : List Nat}
    (leads : rule.descend? path = some found) : path ∈ rule.paths := by
  induction path generalizing rule with
  | nil =>
    cases rule
    exact List.mem_cons_self
  | cons index path ih =>
    rw [descend?] at leads
    split at leads
    · cases leads
    · rename_i child here
      obtain ⟨_, _, _, _, children, _⟩ := rule
      have inside : (0 + index) :: path ∈ pathsFrom 0 children := mem_pathsFrom here (ih leads)
      rw [Nat.zero_add] at inside
      exact List.mem_cons_of_mem _ inside

end Rule

namespace Scheme

/-- All places of a scheme, the tops of its trees included. -/
def places (scheme : Scheme) : List Place :=
  scheme.common.paths.map .common ++ scheme.root.paths.map .root

/-- Every place with a rule is counted. -/
theorem mem_places {scheme : Scheme} {place : Place} {rule : Rule}
    (found : scheme.ruleAt? place = some rule) : place ∈ scheme.places := by
  cases place with
  | common path =>
    exact List.mem_append_left _ (List.mem_map_of_mem (Rule.mem_paths_of_descend? found))
  | root path =>
    exact List.mem_append_right _ (List.mem_map_of_mem (Rule.mem_paths_of_descend? found))

/-- There are two places more than rules. -/
theorem length_places (scheme : Scheme) : scheme.places.length = scheme.ruleCount + 2 := by
  rw [places, List.length_append, List.length_map, List.length_map, Rule.length_paths,
    Rule.length_paths, Rule.size_eq, Rule.size_eq, ruleCount]
  omega

/-- A separate scope has at most one rule more than the scheme. -/
theorem Separate.length_le {scheme : Scheme} {scope : List Located}
    (separate : scheme.Separate scope) : scope.length ≤ scheme.ruleCount + 1 := by
  have listed : (scope ++ [scheme.commonTop]).map (·.place) ⊆ scheme.places := by
    intro place mem
    obtain ⟨located, inside, rfl⟩ := List.mem_map.mp mem
    exact mem_places (separate.standing located inside)
  have bound := (List.subperm_of_subset separate.distinct listed).length_le
  rw [List.length_map, List.length_append, List.length_singleton, length_places] at bound
  exact Nat.le_of_succ_le_succ bound

/-- **Scopes hold no rule twice.** Following the places of rules changes nothing in validation. The
walk is called with the root scope and, once for every node that it gets through, with the scope for
the children of the node; and in every such call the rules of the scope stand at different places of
the scheme. So a scope never has more members than the scheme has rules, and one. -/
theorem scopes_distinct (scheme : Scheme) (mode : Mode) (document : Node) :
    (scheme.trace mode document).1 = scheme.validate mode document ∧
      (∃ admitted, scheme.Passes mode (Node.visitsAll [] document.children) admitted
          (scheme.validate mode document).1 ∧
        (scheme.trace mode document).2 =
          scheme.scopeAt [] :: admitted.map fun visit => scheme.scopeAt visit.tags) ∧
      ∀ scope ∈ (scheme.trace mode document).2,
        (scope.map (·.place)).Nodup ∧
        (∀ located ∈ scope, scheme.ruleAt? located.place = some located.rule) ∧
        scope.length ≤ scheme.ruleCount + 1 := by
  have same : (scheme.trace mode document).1 = scheme.validate mode document := by
    have walked : (Validation.traceNode.traceAll scheme.commonTop mode [scheme.rootTop]
        document.children).1 =
          Validation.validateNode.validateAll scheme.common mode [scheme.root] document.children :=
      Validation.traceAll_fst _ _ _ _
    simp only [trace, validate, ← walked]
  refine ⟨same, same ▸ scheme.trace_scopes mode document, ?_⟩
  intro scope mem
  have separate : scheme.Separate scope := by
    rcases List.mem_cons.mp mem with rfl | mem
    · exact scheme.separate_rootTop
    · exact separate_of_mem_traceAll scheme mode scheme.separate_rootTop _ scope mem
  refine ⟨?_, fun located mem => ?_, separate.length_le⟩
  · exact separate.distinct.sublist (by simp)
  · exact separate.standing located (List.mem_append_left _ mem)

end Scheme

end TreeScheme
