import TreeScheme.Proofs.Result
import TreeScheme.Proofs.Validation.Verdict

/-!
# Annotating and only checking

The two modes of validation ask different grammars of a node: annotating stops asking as soon as one
grammar has read the argument, only checking asks every grammar. So they accept different documents.
Yet both ask the same grammar first, and a failure of the first grammar is a failure in both modes.
This module follows two runs side by side:

* `validate_again`: validating once more, in either mode, after annotating gives the same answer and
  changes nothing, also where annotating stopped half way;
* `validateOnly_stricter`: what passes the check is also annotated, and where annotating stops, the
  check stops with the same error or has stopped before.
-/

namespace TreeScheme

/-! ## The first grammar -/

namespace Validation

/-- Rules without grammars take any argument. -/
theorem applyAll_of_none {rules : List Rule} (none : rules.filterMap (·.matcher) = []) (mode : Mode)
    (node : Node) : applyAll mode rules node = (.none, node.argument) := by
  induction rules with
  | nil => rfl
  | cons rule rules ih =>
    have free : rule.matcher = .none := List.filterMap_eq_nil_iff.mp none rule List.mem_cons_self
    rw [List.filterMap_cons_none free] at none
    rw [applyAll_of_free free, ih none]

/-- If the first grammar among rules fails, so do the rules. -/
theorem applyAll_of_first_failed {rules : List Rule} {matcher : Matcher} {others : List Matcher}
    {node : Node} (first : rules.filterMap (·.matcher) = matcher :: others)
    (fresh : node.isAnnotated = false) {cause : MatchError}
    (failed : matcher.evaluate (node.rawArgument?.getD "") = .error cause) (mode : Mode) :
    applyAll mode rules node = (some cause, node.argument) := by
  induction rules with
  | nil => cases first
  | cons rule rules ih =>
    cases given : rule.matcher with
    | none =>
      rw [List.filterMap_cons_none given] at first
      rw [applyAll_of_free given, ih first]
    | some own =>
      rw [List.filterMap_cons_some given] at first
      cases first
      exact applyAll_of_failed given fresh failed mode rules

/-- Of a node, rules look at nothing but the argument. -/
theorem applyAll_congr {node other : Node} (same : other.argument = node.argument) (mode : Mode)
    (rules : List Rule) : applyAll mode rules other = applyAll mode rules node := by
  induction rules generalizing node other with
  | nil => rw [applyAll, applyAll, same]
  | cons rule rules ih =>
    have here : apply mode rule other = apply mode rule node := by
      obtain ⟨_, _, _, _⟩ := node
      obtain ⟨_, _, _, _⟩ := other
      cases same
      rfl
    rw [applyAll, applyAll, here, same]
    cases apply mode rule node with
    | error cause => rfl
    | ok argument => exact ih rfl

/-- **One node, once more.** What rules say of an argument after annotating is what they said when
it was annotated. -/
theorem applyAll_again {rules : List Rule} {node after : Node}
    (annotated : after.argument = (applyAll .annotate rules node).2) (mode : Mode) :
    applyAll mode rules after = applyAll .annotate rules node := by
  cases fresh : node.isAnnotated with
  | true =>
    rw [applyAll_of_annotated fresh] at annotated ⊢
    rw [applyAll_congr annotated, applyAll_of_annotated fresh]
  | false =>
    have asked := applyAll_annotate fresh rules
    cases first : rules.filterMap (·.matcher) with
    | nil =>
      rw [applyAll_of_none first] at annotated ⊢
      rw [applyAll_of_none first, annotated]
    | cons matcher others =>
      simp only [first] at asked
      cases read : matcher.evaluate (node.rawArgument?.getD "") with
      | ok context =>
        simp only [read] at asked
        rw [asked] at annotated ⊢
        have kept : after.isAnnotated = true := by
          simp [Node.isAnnotated, Node.context?, annotated]
        rw [applyAll_of_annotated kept, annotated]
      | error cause =>
        rw [applyAll_of_first_failed first fresh read] at annotated ⊢
        rw [applyAll_congr annotated, applyAll_of_first_failed first fresh read]

/-! ## Once more -/

mutual

/-- A node that was annotated, as far as that went, is validated with the same outcome. -/
theorem validateNode_again (common : Rule) (mode : Mode) (scope : List Rule) : ∀ node : Node,
    validateNode common mode scope (validateNode common .annotate scope node).2 =
      validateNode common .annotate scope node
  | ⟨tag, argument, children, row⟩ => by
    cases asked : applyAll .annotate (accepting common scope tag)
        ⟨tag, argument, children, row⟩ with
    | mk error read =>
      have again : ∀ children, applyAll mode (accepting common scope tag)
          ⟨tag, read, children, row⟩ = (error, read) := by
        intro children
        rw [← asked]
        exact applyAll_again (by rw [asked]) mode
      have below := validateAll_again common mode (accepting common scope tag) children
      cases error with
      | some cause => simp only [validateNode, asked, again]
      | none =>
        cases unmatched : (accepting common scope tag).isEmpty with
        | true => simp [validateNode, asked, again, unmatched]
        | false => simp [validateNode, asked, again, unmatched, below]

theorem validateAll_again (common : Rule) (mode : Mode) (scope : List Rule) : ∀ nodes : List Node,
    validateNode.validateAll common mode scope
        (validateNode.validateAll common .annotate scope nodes).2 =
      validateNode.validateAll common .annotate scope nodes
  | [] => rfl
  | node :: nodes => by
    have here := validateNode_again common mode scope node
    have later := validateAll_again common mode scope nodes
    cases walked : validateNode common .annotate scope node with
    | mk error after =>
      rw [walked] at here
      cases error with
      | some error => simp only [validateNode.validateAll, walked, here]
      | none => simp only [validateNode.validateAll, walked, here, later]

end

end Validation

/-! ## Where validation stops -/

/-- Of two places in a list, the second of which comes behind no member with a property: the first
has the property, so the second is the first or comes before it. -/
theorem eq_or_before {α : Type} {holds : α → Prop} {before after sooner rest : List α}
    {here early : α} (same : before ++ here :: after = sooner ++ early :: rest)
    (none : ∀ other ∈ sooner, ¬holds other) (found : holds here) :
    (sooner = before ∧ early = here) ∨ sooner ++ [early] <+: before := by
  induction sooner generalizing before with
  | nil =>
    cases before with
    | nil =>
      cases same
      exact .inl ⟨rfl, rfl⟩
    | cons first before =>
      cases same
      exact .inr ⟨before, rfl⟩
  | cons first sooner ih =>
    cases before with
    | nil =>
      cases same
      exact absurd found (none here List.mem_cons_self)
    | cons head before =>
      rw [List.cons_append, List.cons_append, List.cons.injEq] at same
      obtain ⟨rfl, same⟩ := same
      rcases ih same fun other mem => none other (List.mem_cons_of_mem _ mem) with
        ⟨rfl, rfl⟩ | ⟨more, split⟩
      · exact .inl ⟨rfl, rfl⟩
      · exact .inr ⟨more, congrArg (head :: ·) split⟩

namespace Scheme

variable {scheme : Scheme} {mode : Mode} {document : Node} {visit : Visit}
  {error other : ValidationError}

/-- A node without matching rules has no grammars. -/
theorem grammars_of_unmatched {tags : List String} (none : scheme.matchedRules tags = []) :
    scheme.grammars tags = [] := by
  rw [grammars, none, List.filterMap_nil]

/-- What annotating refuses, checking refuses with the same error, and with no other. -/
theorem Refuses.validateOnly_iff (refused : scheme.Refuses .annotate visit error) :
    scheme.Refuses .validateOnly visit other ↔ other = error := by
  cases refused with
  | unmatched none =>
    constructor
    · intro again
      cases again with
      | unmatched => rfl
      | unchecked _ split => simp [grammars_of_unmatched none] at split
    · rintro rfl
      exact .unmatched none
  | @unread _ matcher others cause fresh first failed =>
    constructor
    · intro again
      cases again with
      | unmatched none => simp [grammars_of_unmatched none] at first
      | @unchecked _ before early after later _ split all failure =>
        -- The first grammar fails, so none before the failing one was asked.
        cases before with
        | nil =>
          cases first.symm.trans split
          cases failed.symm.trans failure
          rfl
        | cons head before =>
          cases first.symm.trans split
          obtain ⟨context, read⟩ := all matcher List.mem_cons_self
          cases failed.symm.trans read
    · rintro rfl
      have split : scheme.grammars visit.tags = [] ++ matcher :: others := first
      exact .unchecked fresh split (fun _ mem => absurd mem List.not_mem_nil) failed

/-- Validation stops at a node with an error: the node is refused, and none before it is. -/
structure StopsAt (scheme : Scheme) (mode : Mode) (document : Node) (before : List Visit)
    (visit : Visit) (error : ValidationError) : Prop where
  listed : before ++ [visit] <+: Node.visitsAll [] document.children
  admitted : ∀ earlier ∈ before, ∃ argument, scheme.Admits mode earlier argument
  refused : scheme.Refuses mode visit error

/-- Validation goes through the nodes of a document in order. -/
theorem validate_proceeds (scheme : Scheme) (mode : Mode) (document : Node) : ∃ arguments,
    scheme.Proceeds mode (Node.visitsAll [] document.children)
      (scheme.validate mode document).1 arguments := by
  obtain ⟨error, children, walked, _, proceeds⟩ :=
    Validation.validateAll_proceeds scheme mode [] document.children
  have top : scheme.matchedRules [] = [scheme.root] := rfl
  rw [top] at walked
  refine ⟨(Node.visitsAll [] children).map Visit.argument, ?_⟩
  rw [validate, walked]
  exact proceeds

/-- An error of validation is that of a node that it stops at. -/
theorem exists_stopsAt (failed : (scheme.validate mode document).1 = some error) :
    ∃ before visit, scheme.StopsAt mode document before visit error := by
  obtain ⟨arguments, proceeds⟩ := scheme.validate_proceeds mode document
  rw [failed] at proceeds
  obtain ⟨before, visit, after, read, split, admitted, refused, _⟩ := proceeds.exists_refused
  refine ⟨before, visit, ⟨after, ?_⟩, fun earlier mem => ?_, refused⟩
  · rw [split, List.append_assoc, List.singleton_append]
  · obtain ⟨argument, _, here⟩ := exists_of_forall₂ admitted mem
    exact ⟨argument, here⟩

/-- A document with a node that is refused is not valid. -/
theorem exists_error_of_refused (listed : visit ∈ Node.visitsAll [] document.children)
    (refused : scheme.Refuses mode visit error) :
    ∃ other, (scheme.validate mode document).1 = some other := by
  obtain ⟨arguments, proceeds⟩ := scheme.validate_proceeds mode document
  refine Option.ne_none_iff_exists'.mp fun none => ?_
  obtain ⟨argument, admitted⟩ := proceeds.eq_none_iff.mp none visit listed
  exact admitted.not_refuses error refused

/-- Where annotating stops, checking stops with the same error, or it has stopped before. -/
theorem StopsAt.validateOnly {before : List Visit}
    (stops : scheme.StopsAt .annotate document before visit error) :
    ∃ sooner early other, (scheme.validate .validateOnly document).1 = some other ∧
      scheme.StopsAt .validateOnly document sooner early other ∧
      ((sooner = before ∧ early = visit ∧ other = error) ∨ sooner ++ [early] <+: before) := by
  have refused : scheme.Refuses .validateOnly visit error := stops.refused.validateOnly_iff.mpr rfl
  have listed : visit ∈ Node.visitsAll [] document.children :=
    stops.listed.subset (List.mem_append_right _ List.mem_cons_self)
  obtain ⟨other, failed⟩ := exists_error_of_refused listed refused
  obtain ⟨sooner, early, checked⟩ := exists_stopsAt failed
  refine ⟨sooner, early, other, failed, checked, ?_⟩
  obtain ⟨after, split⟩ := stops.listed
  obtain ⟨rest, same⟩ := checked.listed
  rw [← same, List.append_assoc, List.append_assoc] at split
  have none : ∀ earlier ∈ sooner, ¬∃ error, scheme.Refuses .validateOnly earlier error := by
    rintro earlier mem ⟨error, refused⟩
    obtain ⟨argument, admitted⟩ := checked.admitted earlier mem
    exact admitted.not_refuses error refused
  rcases eq_or_before split none ⟨error, refused⟩ with ⟨rfl, rfl⟩ | earlier
  · exact .inl ⟨rfl, rfl, stops.refused.validateOnly_iff.mp checked.refused⟩
  · exact .inr earlier

/-- **Validation is stable.** After annotating has gone through a document, whether to its end or to
an error, validating what it left gives the same answer in either mode, and leaves it as it is. -/
theorem validate_again (scheme : Scheme) (document : Node) (mode : Mode) :
    scheme.validate mode (scheme.validate .annotate document).2 =
      scheme.validate .annotate document := by
  simp only [validate, Validation.validateAll_again]

/-- **Checking is stricter.** A document that passes the check is annotated without an error. If
annotating stops at a node with an error, the check stops there with the same error, or at a node
before it in document order. -/
theorem validateOnly_stricter (scheme : Scheme) (document : Node) :
    ((scheme.validate .validateOnly document).1 = none →
      (scheme.validate .annotate document).1 = none) ∧
    ∀ error, (scheme.validate .annotate document).1 = some error →
      ∃ before visit, scheme.StopsAt .annotate document before visit error ∧
        ∃ sooner early other, (scheme.validate .validateOnly document).1 = some other ∧
          scheme.StopsAt .validateOnly document sooner early other ∧
          ((sooner = before ∧ early = visit ∧ other = error) ∨ sooner ++ [early] <+: before) := by
  constructor
  · intro passed
    by_contra failed
    obtain ⟨error, failed⟩ := Option.ne_none_iff_exists'.mp failed
    obtain ⟨before, visit, stops⟩ := exists_stopsAt failed
    obtain ⟨_, _, other, refused, _⟩ := stops.validateOnly
    cases passed.symm.trans refused
  · intro error failed
    obtain ⟨before, visit, stops⟩ := exists_stopsAt failed
    exact ⟨before, visit, stops, stops.validateOnly⟩

end Scheme

end TreeScheme
