import TreeScheme.Scheme.Basic
import TreeScheme.Validation.Mode

/-!
# Validation

A document is valid if every node is accepted. The rules that accept a node are those of its scope
with its tag, and then the common ones with its tag; together they are the scope of its children.
The scope of the top nodes is the root scope.

The arguments of a node are checked by the rules that accept it, one after another, until they were
read and replaced: what was read once is not checked again. Validation goes through the document in
order and stops at the first error; the nodes before it keep what was read from them.
-/

namespace TreeScheme

open Text (quote)

/-- Why a document is refused. -/
inductive ValidationError where
  /-- No rule accepts the node. -/
  | invalidNode (tag : String) (row : Nat)
  /-- The arguments of the node do not match a rule that accepts it. -/
  | invalidArguments (tag : String) (row : Nat) (cause : MatchError)
deriving DecidableEq, Repr

namespace ValidationError

/-- The wording of an error. -/
def message : ValidationError → String
  | invalidNode tag row => "invalid node " ++ quote tag ++ s!" in row {row}"
  | invalidArguments tag row cause =>
    "invalid arguments of node " ++ quote tag ++ s!" in row {row}: " ++ cause.message

/-- The row of the node. -/
def row : ValidationError → Nat
  | invalidNode _ row | invalidArguments _ row _ => row

end ValidationError

namespace Validation

/-- The rules that accept a tag: those below the rules of a scope, then the common ones. -/
def accepting (common : Rule) (scope : List Rule) (tag : String) : List Rule :=
  scope.flatMap (·.matching tag) ++ common.matching tag

/-- Checks the argument of a node by one rule, and gives the argument as it is afterwards. -/
def apply (mode : Mode) (rule : Rule) (node : Node) : Except MatchError (Option Argument) :=
  if node.isAnnotated then .ok node.argument
  else
    match rule.check (node.rawArgument?.getD "") with
    | none => .ok node.argument
    | some (.error cause) => .error cause
    | some (.ok context) =>
      .ok (if mode.annotates then some (.parsed context) else node.argument)

/-- Checks the argument of a node by rules, one after another. The answer is the first error, if
there is one, and the argument as it is then. -/
def applyAll (mode : Mode) : List Rule → Node → Option MatchError × Option Argument
  | [], node => (none, node.argument)
  | rule :: rules, node =>
    match apply mode rule node with
    | .error cause => (some cause, node.argument)
    | .ok argument => applyAll mode rules { node with argument }

/-- Validates a node in a scope. -/
def validateNode (common : Rule) (mode : Mode) (scope : List Rule) :
    Node → Option ValidationError × Node
  | { tag, argument, children, row } =>
    let rules := accepting common scope tag
    match applyAll mode rules { tag, argument, children, row } with
    | (some cause, argument) =>
      (some (.invalidArguments tag row cause), { tag, argument, children, row })
    | (none, argument) =>
      if rules.isEmpty then (some (.invalidNode tag row), { tag, argument, children, row })
      else
        let (error, children) := validateAll rules children
        (error, { tag, argument, children, row })
where
  /-- Validates nodes in a scope, one after another, up to the first error. -/
  validateAll (scope : List Rule) : List Node → Option ValidationError × List Node
  | [] => (none, [])
  | node :: nodes =>
    match validateNode common mode scope node with
    | (some error, node) => (some error, node :: nodes)
    | (none, node) =>
      let (error, nodes) := validateAll scope nodes
      (error, node :: nodes)

end Validation

/-- Validates the nodes below the root of a document. The answer is the first error, if there is
one, and the document as it is afterwards. -/
def Scheme.validate (scheme : Scheme) (mode : Mode) (document : Node) :
    Option ValidationError × Node :=
  let (error, children) :=
    Validation.validateNode.validateAll scheme.common mode [scheme.root] document.children
  (error, { document with children })

end TreeScheme
