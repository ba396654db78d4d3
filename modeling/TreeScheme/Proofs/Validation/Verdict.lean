import Mathlib.Data.List.Forall2
import TreeScheme.Validation.Basic

/-!
# What validation says of a document

Validation walks over a document once, and in one recursion works out which rules accept a node,
checks its argument, and writes into it what was read. This module says what comes of the walk in
terms that do not walk:

* `Scheme.matchedRules`: the rules that match a node follow from the tags on the way to it alone;
* `Scheme.Admits` and `Scheme.Refuses`: given these rules, a node on its own is admitted, with some
  argument afterwards, or it is refused with some error;
* `Scheme.Proceeds`: nodes are admitted one after another, up to the first that is refused, from
  which on nothing changes.

`Scheme.validate_verdict` proves that this is what validation does, in either mode: whether it
succeeds, which error it gives, and which document it leaves.

**Documents as lists.** `Node.visits` lists the nodes of a tree in document order. Since nothing but
arguments ever changes, a document afterwards is described by two things: it has the shape that it
had before, and the list of its arguments.
-/

namespace TreeScheme

/-! ## Nodes in document order -/

/-- A node of a document, and the tags on the way to it from the top, its own last. -/
structure Visit where
  tags : List String
  node : Node

namespace Visit

/-- The text that is checked: that of the argument, or nothing. -/
def text (visit : Visit) : String :=
  visit.node.rawArgument?.getD ""

/-- The argument of the node. -/
def argument (visit : Visit) : Option Argument :=
  visit.node.argument

end Visit

namespace Node

mutual

/-- The nodes of a tree in document order; `above` are the tags on the way to the tree. -/
def visits (above : List String) : Node → List Visit
  | ⟨tag, argument, children, row⟩ =>
    ⟨above ++ [tag], ⟨tag, argument, children, row⟩⟩ :: visitsAll (above ++ [tag]) children

/-- The nodes of several trees in document order. -/
def visitsAll (above : List String) : List Node → List Visit
  | [] => []
  | node :: nodes => node.visits above ++ visitsAll above nodes

end

mutual

/-- A tree without its arguments. -/
def shape : Node → Node
  | ⟨tag, _, children, row⟩ => ⟨tag, none, shapes children, row⟩

/-- Trees without their arguments. -/
def shapes : List Node → List Node
  | [] => []
  | node :: nodes => node.shape :: shapes nodes

end

end Node

/-! ## One node -/

namespace Scheme

/-- The rules that match a node, from the tags on the way to it. At the top the root scope stands
alone; with every tag come the rules below the ones before it that accept the tag, and then the
common rules that accept it. -/
def matchedRules (scheme : Scheme) (tags : List String) : List Rule :=
  tags.foldl
    (fun rules tag => rules.flatMap (fun rule => rule.children.filter (·.accepts tag)) ++
      scheme.common.children.filter (·.accepts tag))
    [scheme.root]

/-- The grammars of the rules that match a node, in order. -/
def grammars (scheme : Scheme) (tags : List String) : List Matcher :=
  (scheme.matchedRules tags).filterMap (·.matcher)

/-- A node is admitted, and has some argument afterwards. -/
inductive Admits (scheme : Scheme) : Mode → Visit → Option Argument → Prop where
  /-- What was read before is not checked. -/
  | annotated {mode visit} :
    scheme.matchedRules visit.tags ≠ [] →
    visit.node.isAnnotated = true →
    Admits scheme mode visit visit.argument
  /-- Rules without grammars take any argument. -/
  | free {mode visit} :
    scheme.matchedRules visit.tags ≠ [] →
    scheme.grammars visit.tags = [] →
    Admits scheme mode visit visit.argument
  /-- Annotating asks the first grammar only, and keeps what it read. -/
  | read {visit matcher others context} :
    visit.node.isAnnotated = false →
    scheme.grammars visit.tags = matcher :: others →
    matcher.evaluate visit.text = .ok context →
    Admits scheme .annotate visit (some (.parsed context))
  /-- Otherwise every grammar is asked, and nothing is kept. -/
  | checked {visit} :
    scheme.matchedRules visit.tags ≠ [] →
    visit.node.isAnnotated = false →
    (∀ matcher ∈ scheme.grammars visit.tags, ∃ context,
      matcher.evaluate visit.text = .ok context) →
    Admits scheme .validateOnly visit visit.argument

/-- A node is refused. -/
inductive Refuses (scheme : Scheme) : Mode → Visit → ValidationError → Prop where
  /-- No rule matches. -/
  | unmatched {mode visit} :
    scheme.matchedRules visit.tags = [] →
    Refuses scheme mode visit (.invalidNode visit.node.tag visit.node.row)
  /-- Annotating, the first grammar fails. -/
  | unread {visit matcher others cause} :
    visit.node.isAnnotated = false →
    scheme.grammars visit.tags = matcher :: others →
    matcher.evaluate visit.text = .error cause →
    Refuses scheme .annotate visit (.invalidArguments visit.node.tag visit.node.row cause)
  /-- Otherwise, some grammar fails, and this is the first that does. -/
  | unchecked {visit before matcher after cause} :
    visit.node.isAnnotated = false →
    scheme.grammars visit.tags = before ++ matcher :: after →
    (∀ earlier ∈ before, ∃ context, earlier.evaluate visit.text = .ok context) →
    matcher.evaluate visit.text = .error cause →
    Refuses scheme .validateOnly visit (.invalidArguments visit.node.tag visit.node.row cause)

variable {scheme : Scheme} {mode : Mode} {visit : Visit}

/-- No node is both admitted and refused. -/
theorem Admits.not_refuses {argument : Option Argument}
    (admitted : scheme.Admits mode visit argument) (error : ValidationError) :
    ¬scheme.Refuses mode visit error := by
  intro refused
  have unmatched : scheme.matchedRules visit.tags = [] → scheme.grammars visit.tags = [] := by
    intro none
    rw [grammars, none, List.filterMap_nil]
  cases refused with
  | unmatched none =>
    cases admitted with
    | annotated some _ => exact some none
    | free some _ => exact some none
    | read _ first _ =>
      rw [unmatched none] at first
      cases first
    | checked some _ _ => exact some none
  | unread fresh first failed =>
    cases admitted with
    | annotated _ annotated => simp [annotated] at fresh
    | free _ none =>
      rw [none] at first
      cases first
    | read _ first' read =>
      rw [first] at first'
      cases first'
      rw [failed] at read
      cases read
  | @unchecked _ before matcher after _ fresh split _ failed =>
    cases admitted with
    | annotated _ annotated => simp [annotated] at fresh
    | free _ none => simp [none] at split
    | checked _ _ all =>
      obtain ⟨context, read⟩ := all matcher (by simp [split])
      rw [failed] at read
      cases read

/-! ## Nodes one after another -/

/-- Nodes are admitted one after another; the first that is refused gives the error and, with all
nodes behind it, keeps its argument. -/
inductive Proceeds (scheme : Scheme) (mode : Mode) :
    List Visit → Option ValidationError → List (Option Argument) → Prop where
  | done : Proceeds scheme mode [] none []
  | refused {visit rest error} :
    scheme.Refuses mode visit error →
    Proceeds scheme mode (visit :: rest) (some error) ((visit :: rest).map Visit.argument)
  | admitted {visit rest argument error arguments} :
    scheme.Admits mode visit argument →
    Proceeds scheme mode rest error arguments →
    Proceeds scheme mode (visit :: rest) error (argument :: arguments)

namespace Proceeds

variable {first second : List Visit} {error : Option ValidationError}
  {arguments others : List (Option Argument)}

/-- After nodes that are all admitted come the next ones. -/
theorem append (before : scheme.Proceeds mode first none arguments)
    (after : scheme.Proceeds mode second error others) :
    scheme.Proceeds mode (first ++ second) error (arguments ++ others) := by
  induction first generalizing arguments with
  | nil =>
    cases before
    exact after
  | cons visit first ih =>
    cases before with
    | admitted here later => exact .admitted here (ih later)

/-- After an error nothing changes. -/
theorem append_unchanged {error : ValidationError}
    (before : scheme.Proceeds mode first (some error) arguments) (second : List Visit) :
    scheme.Proceeds mode (first ++ second) (some error)
      (arguments ++ second.map Visit.argument) := by
  induction first generalizing arguments with
  | nil => cases before
  | cons visit first ih =>
    cases before with
    | refused here =>
      rw [← List.map_append, List.cons_append]
      exact .refused here
    | admitted here later => exact .admitted here (ih later)

/-- Without an error all nodes are admitted. -/
theorem all_admitted (proceeds : scheme.Proceeds mode first none arguments) :
    List.Forall₂ (scheme.Admits mode) first arguments := by
  induction first generalizing arguments with
  | nil =>
    cases proceeds
    exact .nil
  | cons visit first ih =>
    cases proceeds with
    | admitted here later => exact .cons here (ih later)

/-- An error belongs to the first node that is refused. -/
theorem exists_refused {error : ValidationError}
    (proceeds : scheme.Proceeds mode first (some error) arguments) :
    ∃ before visit after read, first = before ++ visit :: after ∧
      List.Forall₂ (scheme.Admits mode) before read ∧ scheme.Refuses mode visit error ∧
      arguments = read ++ (visit :: after).map Visit.argument := by
  induction first generalizing arguments with
  | nil => cases proceeds
  | cons visit first ih =>
    cases proceeds with
    | refused here => exact ⟨[], visit, first, [], rfl, .nil, here, rfl⟩
    | admitted here later =>
      obtain ⟨before, other, after, read, rfl, admitted, refused, rfl⟩ := ih later
      exact ⟨visit :: before, other, after, _, rfl, .cons here admitted, refused, rfl⟩

/-- There is no error exactly if every node is admitted. -/
theorem eq_none_iff (proceeds : scheme.Proceeds mode first error arguments) :
    error = none ↔ ∀ visit ∈ first, ∃ argument, scheme.Admits mode visit argument := by
  induction proceeds with
  | done => exact ⟨fun _ _ mem => absurd mem List.not_mem_nil, fun _ => rfl⟩
  | @refused visit rest error refused =>
    constructor
    · intro impossible
      cases impossible
    · intro all
      obtain ⟨argument, admitted⟩ := all visit List.mem_cons_self
      exact absurd refused (admitted.not_refuses error)
  | @admitted visit rest argument error arguments admitted _ ih =>
    rw [ih, List.forall_mem_cons]
    exact ⟨fun all => ⟨⟨argument, admitted⟩, all⟩, fun both => both.2⟩

end Proceeds

end Scheme

/-! ## The walk -/

namespace Validation

open Scheme (Admits Refuses Proceeds)

/-- A rule that keeps the argument is passed over. -/
theorem applyAll_of_kept {mode : Mode} {rule : Rule} {node : Node}
    (kept : apply mode rule node = .ok node.argument) (rules : List Rule) :
    applyAll mode (rule :: rules) node = applyAll mode rules node := by
  rw [applyAll, kept]
  obtain ⟨tag, argument, children, row⟩ := node
  rfl

/-- An argument that was read before stays as it is. -/
theorem applyAll_of_annotated {node : Node} (annotated : node.isAnnotated = true) (mode : Mode)
    (rules : List Rule) : applyAll mode rules node = (none, node.argument) := by
  induction rules with
  | nil => rfl
  | cons rule rules ih =>
    rw [applyAll_of_kept (by simp [apply, annotated]), ih]

/-- A rule without a grammar is passed over. -/
theorem applyAll_of_free {rule : Rule} (free : rule.matcher = none) (mode : Mode)
    (rules : List Rule) (node : Node) :
    applyAll mode (rule :: rules) node = applyAll mode rules node :=
  applyAll_of_kept (by simp [apply, Rule.check, free]) rules

section Fresh

variable {rule : Rule} {matcher : Matcher} {node : Node}

/-- A grammar that fails ends the checks. -/
theorem applyAll_of_failed (given : rule.matcher = some matcher) (fresh : node.isAnnotated = false)
    {cause : MatchError} (failed : matcher.evaluate (node.rawArgument?.getD "") = .error cause)
    (mode : Mode) (rules : List Rule) :
    applyAll mode (rule :: rules) node = (some cause, node.argument) := by
  have refused : apply mode rule node = .error cause := by
    simp [apply, Rule.check, given, fresh, failed]
  rw [applyAll, refused]

/-- Annotating, a grammar that succeeds ends the checks. -/
theorem applyAll_of_read (given : rule.matcher = some matcher) (fresh : node.isAnnotated = false)
    {context : Context} (read : matcher.evaluate (node.rawArgument?.getD "") = .ok context)
    (rules : List Rule) :
    applyAll .annotate (rule :: rules) node = (none, some (.parsed context)) := by
  have kept : apply .annotate rule node = .ok (some (.parsed context)) := by
    simp [apply, Rule.check, given, fresh, read, Mode.annotates]
  rw [applyAll, kept]
  exact applyAll_of_annotated rfl .annotate rules

/-- Otherwise, a grammar that succeeds changes nothing. -/
theorem applyAll_of_checked (given : rule.matcher = some matcher)
    (fresh : node.isAnnotated = false) {context : Context}
    (read : matcher.evaluate (node.rawArgument?.getD "") = .ok context) (rules : List Rule) :
    applyAll .validateOnly (rule :: rules) node = applyAll .validateOnly rules node :=
  applyAll_of_kept (by simp [apply, Rule.check, given, fresh, read, Mode.annotates]) rules

end Fresh

/-- Annotating, rules ask the first grammar among them. -/
theorem applyAll_annotate {node : Node} (fresh : node.isAnnotated = false) (rules : List Rule) :
    applyAll .annotate rules node =
      match rules.filterMap (·.matcher) with
      | [] => (none, node.argument)
      | matcher :: _ =>
        match matcher.evaluate (node.rawArgument?.getD "") with
        | .ok context => (none, some (.parsed context))
        | .error cause => (some cause, node.argument) := by
  induction rules with
  | nil => rfl
  | cons rule rules ih =>
    cases given : rule.matcher with
    | none => rw [applyAll_of_free given, ih, List.filterMap_cons_none given]
    | some matcher =>
      rw [List.filterMap_cons_some given]
      cases read : matcher.evaluate (node.rawArgument?.getD "") with
      | ok context => simp only [applyAll_of_read given fresh read, read]
      | error cause => simp only [applyAll_of_failed given fresh read, read]

/-- Otherwise, rules ask every grammar among them up to the first that fails. -/
theorem applyAll_validateOnly {node : Node} (fresh : node.isAnnotated = false)
    (rules : List Rule) :
    (applyAll .validateOnly rules node = (none, node.argument) ∧
      ∀ matcher ∈ rules.filterMap (·.matcher), ∃ context,
        matcher.evaluate (node.rawArgument?.getD "") = .ok context) ∨
    ∃ before matcher after cause,
      applyAll .validateOnly rules node = (some cause, node.argument) ∧
      rules.filterMap (·.matcher) = before ++ matcher :: after ∧
      (∀ earlier ∈ before, ∃ context,
        earlier.evaluate (node.rawArgument?.getD "") = .ok context) ∧
      matcher.evaluate (node.rawArgument?.getD "") = .error cause := by
  induction rules with
  | nil => exact .inl ⟨rfl, fun _ mem => absurd mem List.not_mem_nil⟩
  | cons rule rules ih =>
    cases given : rule.matcher with
    | none =>
      rw [applyAll_of_free given, List.filterMap_cons_none given]
      exact ih
    | some matcher =>
      rw [List.filterMap_cons_some given]
      cases read : matcher.evaluate (node.rawArgument?.getD "") with
      | error cause =>
        exact .inr ⟨[], matcher, _, cause, applyAll_of_failed given fresh read _ _, rfl,
          fun _ mem => absurd mem List.not_mem_nil, read⟩
      | ok context =>
        rw [applyAll_of_checked given fresh read]
        rcases ih with ⟨done, all⟩ | ⟨before, other, after, cause, done, split, all, failed⟩
        · refine .inl ⟨done, fun other mem => ?_⟩
          rcases List.mem_cons.mp mem with rfl | mem
          · exact ⟨context, read⟩
          · exact all other mem
        · refine .inr ⟨matcher :: before, other, after, cause, done, by rw [split]; rfl, ?_, failed⟩
          intro earlier mem
          rcases List.mem_cons.mp mem with rfl | mem
          · exact ⟨context, read⟩
          · exact all earlier mem

/-- The rules that match a node admit its argument, or refuse it and leave it as it is. -/
theorem applyAll_matchedRules (scheme : Scheme) (mode : Mode) (visit : Visit)
    (matched : scheme.matchedRules visit.tags ≠ []) :
    (∃ argument, applyAll mode (scheme.matchedRules visit.tags) visit.node = (none, argument) ∧
      scheme.Admits mode visit argument) ∨
    ∃ cause, applyAll mode (scheme.matchedRules visit.tags) visit.node =
        (some cause, visit.argument) ∧
      scheme.Refuses mode visit
        (.invalidArguments visit.node.tag visit.node.row cause) := by
  cases fresh : visit.node.isAnnotated with
  | true =>
    exact .inl ⟨_, applyAll_of_annotated fresh _ _, .annotated matched fresh⟩
  | false =>
    cases mode with
    | annotate =>
      have asked := applyAll_annotate fresh (scheme.matchedRules visit.tags)
      cases first : scheme.grammars visit.tags with
      | nil =>
        rw [Scheme.grammars] at first
        simp only [first] at asked
        exact .inl ⟨_, asked, .free matched first⟩
      | cons matcher others =>
        have given := first
        rw [Scheme.grammars] at first
        simp only [first] at asked
        cases read : matcher.evaluate visit.text with
        | ok context =>
          rw [Visit.text] at read
          simp only [read] at asked
          exact .inl ⟨_, asked, .read fresh given read⟩
        | error cause =>
          rw [Visit.text] at read
          simp only [read] at asked
          exact .inr ⟨cause, asked, .unread fresh given read⟩
    | validateOnly =>
      rcases applyAll_validateOnly fresh (scheme.matchedRules visit.tags) with
        ⟨asked, all⟩ | ⟨before, matcher, after, cause, asked, split, all, failed⟩
      · exact .inl ⟨_, asked, .checked matched fresh all⟩
      · exact .inr ⟨cause, asked, .unchecked fresh split all failed⟩

/-- One more tag makes the scope one step deeper. -/
theorem accepting_matchedRules (scheme : Scheme) (above : List String) (tag : String) :
    accepting scheme.common (scheme.matchedRules above) tag =
      scheme.matchedRules (above ++ [tag]) := by
  rw [Scheme.matchedRules, Scheme.matchedRules, List.foldl_append]
  rfl

mutual

/-- The walk over a tree proceeds through its nodes in document order, and keeps its shape. -/
theorem validateNode_proceeds (scheme : Scheme) (mode : Mode) (above : List String) :
    ∀ node : Node, ∃ error after,
      validateNode scheme.common mode (scheme.matchedRules above) node = (error, after) ∧
      after.shape = node.shape ∧
      scheme.Proceeds mode (node.visits above) error ((after.visits above).map Visit.argument)
  | ⟨tag, argument, children, row⟩ => by
    rw [validateNode, accepting_matchedRules]
    by_cases none : scheme.matchedRules (above ++ [tag]) = []
    · -- No rule matches, so none checks the argument.
      have refused : scheme.Refuses mode ⟨above ++ [tag], ⟨tag, argument, children, row⟩⟩
          (.invalidNode tag row) := .unmatched none
      refine ⟨_, _, by rw [none]; rfl, rfl, ?_⟩
      exact .refused refused
    · rcases applyAll_matchedRules scheme mode ⟨above ++ [tag], ⟨tag, argument, children, row⟩⟩ none
        with ⟨read, asked, admitted⟩ | ⟨cause, asked, refused⟩
      · obtain ⟨error, nodes, walked, shapes, proceeds⟩ :=
          validateAll_proceeds scheme mode (above ++ [tag]) children
        refine ⟨error, ⟨tag, read, nodes, row⟩, ?_, ?_, ?_⟩
        · simp [asked, none, walked]
        · rw [Node.shape, Node.shape, shapes]
        · rw [Node.visits, Node.visits, List.map_cons]
          exact .admitted admitted proceeds
      · refine ⟨some (.invalidArguments tag row cause), ⟨tag, argument, children, row⟩, ?_, rfl, ?_⟩
        · simp only [asked]
          rfl
        · rw [Node.visits]
          exact .refused refused

theorem validateAll_proceeds (scheme : Scheme) (mode : Mode) (above : List String) :
    ∀ nodes : List Node, ∃ error after,
      validateNode.validateAll scheme.common mode (scheme.matchedRules above) nodes =
        (error, after) ∧
      Node.shapes after = Node.shapes nodes ∧
      scheme.Proceeds mode (Node.visitsAll above nodes) error
        ((Node.visitsAll above after).map Visit.argument)
  | [] => ⟨none, [], rfl, rfl, .done⟩
  | node :: nodes => by
    obtain ⟨error, first, walked, shape, here⟩ := validateNode_proceeds scheme mode above node
    rw [validateNode.validateAll, walked]
    cases error with
    | some error =>
      refine ⟨some error, first :: nodes, rfl, ?_, ?_⟩
      · rw [Node.shapes, Node.shapes, shape]
      · rw [Node.visitsAll, Node.visitsAll, List.map_append]
        exact here.append_unchanged _
    | none =>
      obtain ⟨error, rest, walkedRest, shapes, later⟩ :=
        validateAll_proceeds scheme mode above nodes
      refine ⟨error, first :: rest, by simp [walkedRest], ?_, ?_⟩
      · rw [Node.shapes, Node.shapes, shape, shapes]
      · rw [Node.visitsAll, Node.visitsAll, List.map_append]
        exact here.append later

end

end Validation

namespace Scheme

/-- **The verdict of validation.** Whatever the scheme, the mode and the document:

* nothing but arguments of nodes below the root changes;
* validation succeeds exactly if every node is admitted, and then every node has the argument that
  it is admitted with;
* otherwise the error is that of the first node in document order that is refused; the nodes
  before it have the arguments that they are admitted with, and it and all nodes behind it are
  unchanged. -/
theorem validate_verdict (scheme : Scheme) (mode : Mode) (document : Node) :
    ∃ error children, scheme.validate mode document = (error, { document with children }) ∧
      Node.shapes children = Node.shapes document.children ∧
      (error = none ↔ ∀ visit ∈ Node.visitsAll [] document.children, ∃ argument,
        scheme.Admits mode visit argument) ∧
      (error = none → List.Forall₂ (scheme.Admits mode) (Node.visitsAll [] document.children)
        ((Node.visitsAll [] children).map Visit.argument)) ∧
      ∀ cause, error = some cause → ∃ before visit after read,
        Node.visitsAll [] document.children = before ++ visit :: after ∧
        List.Forall₂ (scheme.Admits mode) before read ∧
        scheme.Refuses mode visit cause ∧
        (Node.visitsAll [] children).map Visit.argument =
          read ++ (visit :: after).map Visit.argument := by
  obtain ⟨error, children, walked, shapes, proceeds⟩ :=
    Validation.validateAll_proceeds scheme mode [] document.children
  refine ⟨error, children, ?_, shapes, proceeds.eq_none_iff, ?_, ?_⟩
  · have top : scheme.matchedRules [] = [scheme.root] := rfl
    rw [top] at walked
    simp only [validate, walked]
  · rintro rfl
    exact proceeds.all_admitted
  · rintro cause rfl
    exact proceeds.exists_refused

end Scheme

end TreeScheme
