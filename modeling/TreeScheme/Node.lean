import TreeScheme.Capture.Basic

/-!
# Trees of tagged nodes

Schemes and documents are trees of one shape: a node has a tag, perhaps an argument, children in
order, and the row of the text it came from. Validation may replace the argument's text by what an
argument grammar read from it.
-/

namespace TreeScheme

/-- The argument of a node, as text or as what was read from it. -/
inductive Argument where
  | raw (text : String)
  | parsed (context : Context)

/-- A node of a scheme or document. -/
structure Node where
  tag : String
  argument : Option Argument := none
  children : List Node := []
  /-- The row it was read from, counted from 1; a root has row 0. -/
  row : Nat := 0
deriving Inhabited

namespace Node

/-- The root above the nodes of a document. -/
def root (children : List Node) : Node :=
  { tag := "", children }

/-- The node with one more child, behind those it has. -/
def push (node child : Node) : Node :=
  { node with children := node.children ++ [child] }

/-- The text of an argument that was not read yet. -/
def rawArgument? (node : Node) : Option String :=
  match node.argument with
  | some (.raw text) => some text
  | _ => none

/-- What was read from the argument. -/
def context? (node : Node) : Option Context :=
  match node.argument with
  | some (.parsed context) => some context
  | _ => none

/-- Whether the argument was read. -/
def isAnnotated (node : Node) : Bool :=
  node.context?.isSome

/-- The node with what was read in place of its argument. -/
def annotate (node : Node) (context : Context) : Node :=
  { node with argument := some (.parsed context) }

/-- The node reached from this one by taking, again and again, the child with the next index. -/
def descend? (node : Node) : List Nat → Option Node
  | [] => some node
  | index :: path =>
    match node.children[index]? with
    | none => none
    | some child => child.descend? path

end Node

end TreeScheme
