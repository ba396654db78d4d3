import Mathlib.Data.List.Forall2
import TreeScheme.Validation.Basic

/-!
# Rules that cannot be told apart

Validation asks a rule which tags it accepts and what it says of an argument, and then goes on with
the rules below it. Two rules that answer the same, at every depth, are alike (`Rule.Alike`), and
schemes whose rules are alike validate every document the same (`Scheme.validate_eq_of_alike`).
-/

namespace TreeScheme

/-- Rules that accept the same tags and say the same of arguments, and so do the rules below them,
in the same order. -/
inductive Rule.Alike : Rule → Rule → Prop where
  | intro {rule again : Rule} :
    again.tags = rule.tags →
    (∀ text, again.check text = rule.check text) →
    List.Forall₂ Alike rule.children again.children →
    Alike rule again

namespace Rule

open Validation

variable {rule again common commonAgain : Rule} {scope scopeAgain : List Rule}

/-- The rules that accept a tag are alike. -/
theorem Alike.matching (alike : Alike rule again) (tag : String) :
    List.Forall₂ Alike (rule.matching tag) (again.matching tag) := by
  obtain ⟨_, _, below⟩ := alike
  refine List.rel_filter (fun first second both => ?_) below
  obtain ⟨tags, _, _⟩ := both
  simp only [accepts, tags]

/-- The rules that a scope and the common rules have for a tag are alike. -/
theorem forall₂_accepting (alike : Alike common commonAgain)
    (scopes : List.Forall₂ Alike scope scopeAgain) (tag : String) :
    List.Forall₂ Alike (accepting common scope tag) (accepting commonAgain scopeAgain tag) := by
  refine List.rel_append ?_ (alike.matching tag)
  exact List.rel_flatMap scopes fun _ _ both => both.matching tag

/-- Rules that are alike say the same of an argument. -/
theorem applyAll_eq_of_alike {rules others : List Rule} (alike : List.Forall₂ Alike rules others)
    (mode : Mode) (node : Node) : applyAll mode others node = applyAll mode rules node := by
  induction alike generalizing node with
  | nil => rfl
  | @cons rule again _ _ both _ ih =>
    obtain ⟨_, check, _⟩ := both
    have here : apply mode again node = apply mode rule node := by
      rw [apply, apply, check]
    rw [applyAll, applyAll, here]
    split
    · rfl
    · exact ih _

theorem isEmpty_eq_of_alike {rules others : List Rule}
    (alike : List.Forall₂ Alike rules others) : others.isEmpty = rules.isEmpty := by
  cases alike <;> rfl

mutual

/-- A node is validated the same by rules that are alike. -/
theorem validateNode_eq_of_alike {common commonAgain : Rule} (alike : Alike common commonAgain)
    (mode : Mode) {scope scopeAgain : List Rule} (scopes : List.Forall₂ Alike scope scopeAgain) :
    ∀ node : Node, validateNode commonAgain mode scopeAgain node =
      validateNode common mode scope node
  | ⟨tag, argument, children, row⟩ => by
    have rules := forall₂_accepting alike scopes tag
    have below := validateAll_eq_of_alike alike mode rules children
    simp only [validateNode, applyAll_eq_of_alike rules, isEmpty_eq_of_alike rules, below]

theorem validateAll_eq_of_alike {common commonAgain : Rule} (alike : Alike common commonAgain)
    (mode : Mode) {scope scopeAgain : List Rule} (scopes : List.Forall₂ Alike scope scopeAgain) :
    ∀ nodes : List Node, validateNode.validateAll commonAgain mode scopeAgain nodes =
      validateNode.validateAll common mode scope nodes
  | [] => rfl
  | node :: nodes => by
    simp only [validateNode.validateAll, validateNode_eq_of_alike alike mode scopes node,
      validateAll_eq_of_alike alike mode scopes nodes]

end

end Rule

/-- **Documents.** Schemes whose rules are alike validate every document the same. -/
theorem Scheme.validate_eq_of_alike {scheme again : Scheme}
    (common : Rule.Alike scheme.common again.common) (root : Rule.Alike scheme.root again.root)
    (mode : Mode) (document : Node) :
    again.validate mode document = scheme.validate mode document := by
  rw [validate, validate, Rule.validateAll_eq_of_alike common mode (.cons root .nil)]

end TreeScheme
