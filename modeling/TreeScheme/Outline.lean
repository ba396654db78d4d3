import TreeScheme.Node
import TreeScheme.Text.Blank
import TreeScheme.Text.Pieces

/-!
# Outlines

An outline is a text with one node to a line: the line's leading tabs give its depth, its first word
is the tag, and what follows the word is the argument. Blank lines stand for nothing. A line may be
at most one tab deeper than the line before it, and is then that line's child.

Reading goes from top to bottom, and refuses the first line that is indented wrongly. The nodes that
may still get children are open: the one read last, the one it stands in, and so on up to the root.
A node becomes a child only when it is closed, which is when a line comes that does not stand in it,
or at the end.
-/

namespace TreeScheme

/-- Why a line is refused. -/
inductive OutlineError where
  /-- The line skips a level. -/
  | tooDeep (row depth allowed : Nat)
  /-- The line is indented with something other than tabs. -/
  | spaceIndentation (row : Nat)
deriving DecidableEq, Repr

/-- The wording of a refusal. -/
def OutlineError.message : OutlineError → String
  | .tooDeep row depth allowed =>
    s!"row {row} is indented {depth} levels, at most {allowed} allowed"
  | .spaceIndentation row => s!"row {row} is indented with spaces"

namespace Outline

open Text (isBlank pieces trim trimEnd trimStart)

/-- One line that is not blank. -/
structure Entry where
  depth : Nat
  row : Nat
  tag : String
  argument : Option String
deriving DecidableEq, Repr

/-- The entry of a line, given its text behind the tabs: the first word and, if there is any, the
text after it without blanks at either end. -/
def Entry.read (depth row : Nat) (body : List Char) : Entry :=
  let body := trimEnd body
  let argument := trimStart (body.dropWhile (!isBlank ·))
  { depth, row
    tag := .ofList (body.takeWhile (!isBlank ·))
    argument := if argument.isEmpty then none else some (.ofList argument) }

/-- The node of an entry, without children. -/
def Entry.node (entry : Entry) : Node :=
  { tag := entry.tag, argument := entry.argument.map .raw, row := entry.row }

/-- Closes open nodes until only `depth` of them are left in a node, the root. Each becomes the last
child of the one it stands in. The first open node is given on its own. -/
def closeTo (depth : Nat) (node : Node) : List Node → Node × List Node
  | [] => (node, [])
  | parent :: outer =>
    if depth < outer.length + 1 then closeTo depth (parent.push node) outer
    else (node, parent :: outer)

/-- Reads lines from `row` on into an open node and the nodes that it stands in, and closes all but
the root in the end. -/
def readLines (row : Nat) (node : Node) (outer : List Node) :
    List (List Char) → Except OutlineError Node
  | [] => .ok (closeTo 0 node outer).1
  | line :: lines =>
    let depth := (line.takeWhile (· == '\t')).length
    let body := line.dropWhile (· == '\t')
    match body with
    | [] => readLines (row + 1) node outer lines
    | c :: _ =>
      if body.all isBlank then readLines (row + 1) node outer lines
      else if isBlank c then .error (.spaceIndentation row)
      else if outer.length < depth then .error (.tooDeep row depth outer.length)
      else
        let entry := Entry.read depth row body
        let (parent, outer) := closeTo depth node outer
        readLines (row + 1) entry.node (parent :: outer) lines

/-- The tree of an outline, under a root without a tag. -/
def read (text : String) : Except OutlineError Node :=
  readLines 1 (Node.root []) [] (pieces '\n' text.toList)

end Outline

end TreeScheme
