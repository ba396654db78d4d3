import TreeScheme.Pattern.Token

/-!
# Reading pattern expressions

An expression is an alternation of sequences of groups and names, each of which may carry one
quantifier:

* alternation: sequences, separated by bars;
* sequence: one or more operands;
* operand: a group or a name, perhaps with a quantifier behind it;
* group: an alternation between parentheses.

The tokens are read once, from left to right. What is still open is kept on a stack: for the whole
expression and for each group that is not closed, the alternatives that are complete and the items
of the current one. An item may take a quantifier only as long as it has none. Alternations and
sequences of a single member collapse to that member.

A quantifier that finds no such item inside a group says that the group is not closed: a group ends
where its alternation ends, and only a closing parenthesis may stand there.
-/

namespace TreeScheme.Pattern

/-- An alternation that is being read. -/
structure Level where
  /-- The complete alternatives, the latest first. -/
  alternatives : List Pattern := []
  /-- The items of the current sequence, the latest first. -/
  items : List Pattern := []
  /-- Whether the latest item may take a quantifier. -/
  bare : Bool := false
  /-- Where the latest bar stands. -/
  lastBar : Option Nat := none

/-- An expression read up to some token: the innermost alternation, and the ones around it, each
with the offset of the parenthesis behind which it waits. -/
structure Reading where
  level : Level := {}
  outer : List (Nat × Level) := []

namespace Level

/-- Adds an item. -/
def add (level : Level) (item : Pattern) : Level :=
  { level with items := item :: level.items, bare := true }

/-- The current sequence. -/
def current (level : Level) : Pattern :=
  collapse sequence level.items.reverse

/-- Ends the current sequence at a bar. -/
def split (level : Level) (offset : Nat) : Level :=
  { alternatives := level.current :: level.alternatives, lastBar := some offset }

/-- The alternation as a whole. -/
def close (level : Level) : Pattern :=
  collapse choice (level.current :: level.alternatives).reverse

end Level

/-- What a word stands for in a flavor: the simple one knows no definitions. -/
def resolveIn (flavor : Flavor) (resolve : String → Option Symbol) (name : String) :
    Option Symbol :=
  match flavor, resolve name with
  | .simple, some .definition => none
  | _, symbol => symbol

/-- Reads one token. -/
def step (flavor : Flavor) (resolve : String → Option Symbol) (reading : Reading) (token : Token) :
    Except GrammarError Reading :=
  let level := reading.level
  match token.kind with
  | .word text =>
    let name := String.ofList text
    match resolveIn flavor resolve name with
    | some symbol => .ok { reading with level := level.add (.leaf symbol name) }
    | none => .error (.unknownIdentifier name token.offset)
  | .openGroup => .ok { level := {}, outer := (token.offset, level) :: reading.outer }
  | .closeGroup =>
    match level.items, level.lastBar, reading.outer with
    | [], some offset, _ => .error (.emptyAlternative offset)
    | [], none, (start, _) :: _ => .error (.emptyGroup start)
    | _ :: _, _, (_, parent) :: outer => .ok { level := parent.add level.close, outer }
    | _, _, [] => .error (.trailingTokens ")" token.offset)
  | .quantifier quantifier =>
    match level.items, level.bare, reading.outer with
    | item :: items, true, _ =>
      .ok { reading with
        level := { level with items := .quantified quantifier item :: items, bare := false } }
    | _ :: _, false, (start, _) :: _ => .error (.unclosedGroup start)
    | _, _, _ => .error (.danglingQuantifier quantifier.sign token.offset)
  | .bar =>
    match level.items with
    | [] => .error (.emptyAlternative (level.lastBar.getD token.offset))
    | _ :: _ => .ok { reading with level := level.split token.offset }

/-- Reads the end of an expression that has tokens. -/
def finish (reading : Reading) : Except GrammarError Pattern :=
  match reading.level.items, reading.level.lastBar, reading.outer with
  | [], some offset, _ => .error (.emptyAlternative offset)
  | _, _, (start, _) :: _ => .error (.unclosedGroup start)
  | _, _, [] => .ok reading.level.close

/-- Reads on through tokens. -/
def readAll (flavor : Flavor) (resolve : String → Option Symbol) (reading : Reading) :
    List Token → Except GrammarError Reading
  | [] => .ok reading
  | token :: tokens => do
    let reading ← step flavor resolve reading token
    readAll flavor resolve reading tokens

/-- The pattern of a text, or no pattern if the text has no tokens. -/
def read (flavor : Flavor) (resolve : String → Option Symbol) (text : List Char) :
    Except GrammarError (Option Pattern) := do
  match ← Token.scan flavor 0 text with
  | [] => return none
  | token :: tokens =>
    let reading ← readAll flavor resolve {} (token :: tokens)
    return some (← finish reading)

end TreeScheme.Pattern
