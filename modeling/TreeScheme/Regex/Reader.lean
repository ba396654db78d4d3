import TreeScheme.Regex.Bracket

/-!
# Reading a pattern

`Regex.read?` turns the text of a pattern into a regular expression, or gives nothing if the text is
no pattern. It goes through the text once, from left to right, and keeps the groups that are still
open on a stack: each level holds its finished alternatives, the parts of the current one, and the
flags in force, which end with the group.

A pattern that only repeats nothing (`x{0}`) is the empty pattern, and the groups inside it do not
count. Names of groups have to differ, and are otherwise not kept: groups are told apart by number.

There is no limit on how deep groups and brackets are nested or how large an expression becomes when
its repetitions are written out. An engine that has such limits refuses some patterns that are read
here.
-/

namespace TreeScheme.Regex

open Text (isBlank isLetterLike isDecimalDigit)

/-- A part of a pattern. A switch of flags is a part that cannot be repeated. -/
inductive Part where
  | operand (regex : Regex)
  | switch

/-- A group that was not closed yet, or the pattern as a whole. -/
structure Level where
  flags : Flags
  /-- The number of a group that reports its match. -/
  index : Option Nat := none
  /-- Finished alternatives, the latest first. -/
  alternatives : List Regex := []
  /-- The parts of the current alternative, the latest first. -/
  parts : List Part := []

namespace Level

/-- Adds a part. -/
def add (level : Level) (regex : Regex) : Level :=
  { level with parts := .operand regex :: level.parts }

/-- The current alternative as a whole. -/
def current (level : Level) : Regex :=
  sequence <| level.parts.reverse.filterMap fun
    | .operand regex => some regex
    | .switch => none

/-- Starts another alternative. -/
def split (level : Level) : Level :=
  { level with alternatives := level.current :: level.alternatives, parts := [] }

/-- The expression of the level once it is closed. -/
def close (level : Level) : Regex :=
  let body := choice (level.current :: level.alternatives).reverse
  match level.index with
  | some index => .group index body
  | none => body

/-- Repeats the latest part, if it can be repeated. -/
def repeatLast? (level : Level) (least : Nat) (most : Option Nat) (isLazy : Bool) :
    Option Level :=
  match level.parts with
  | .operand regex :: parts =>
    let repeated :=
      if most = some 0 then .empty
      else .repeated regex least most (isLazy == level.flags.swapGreed)
    some { level with parts := .operand repeated :: parts }
  | _ => none

end Level

/-- A pattern read up to some point. -/
structure Reading where
  level : Level
  /-- The levels around it, the innermost first. -/
  outer : List Level := []
  /-- How many numbers of groups were given out. -/
  groups : Nat := 0
  /-- The names of groups so far. -/
  names : List (List Char) := []

namespace Reading

/-- Adds a part to the innermost level. -/
def add (reading : Reading) (regex : Regex) : Reading :=
  { reading with level := reading.level.add regex }

/-- Opens a group that reports its match. -/
def openGroup (reading : Reading) : Reading :=
  let index := reading.groups + 1
  { reading with
    level := { flags := reading.level.flags, index := some index }
    outer := reading.level :: reading.outer
    groups := index }

/-- Opens a group that only groups, with flags of its own. -/
def openPlain (reading : Reading) (flags : Flags) : Reading :=
  { reading with level := { flags }, outer := reading.level :: reading.outer }

/-- Closes the innermost group, if there is one. -/
def closeGroup? (reading : Reading) : Option Reading :=
  match reading.outer with
  | [] => none
  | level :: outer => some { reading with level := level.add reading.level.close, outer }

/-- Sets flags for the rest of the innermost group. -/
def switch (reading : Reading) (flags : Flags) : Reading :=
  { reading with
    level := { reading.level with flags, parts := .switch :: reading.level.parts } }

end Reading

/-- Whether a question mark follows, which makes a repetition lazy. -/
def readLazy : List Char → Bool × List Char
  | '?' :: cs => (true, cs)
  | cs => (false, cs)

/-- The largest count of a repetition, the greatest number of 32 bits. -/
def largestCount : Nat := 4294967295

/-- Reads a decimal number in a count; blanks around it do not matter. -/
def readCount (flags : Flags) (cs : List Char) : Option (Nat × List Char) :=
  let cs := cs.dropWhile isBlank
  go cs.length none cs
where
  /-- Reads on; `value` is what the digits so far stand for, if there were any. -/
  go : (fuel : Nat) → (value : Option Nat) → List Char → Option (Nat × List Char)
  | fuel + 1, value, c :: cs =>
    if c.isDigit then
      go fuel (some (min (largestCount + 1) (10 * value.getD 0 + (c.toNat - '0'.toNat))))
        (flags.skip cs)
    else done value (c :: cs)
  | _, value, cs => done value cs
  /-- A number was read if there were digits and it is not too large. -/
  done (value : Option Nat) (cs : List Char) : Option (Nat × List Char) :=
    match value with
    | some n => if n ≤ largestCount then some (n, flags.skip (cs.dropWhile isBlank)) else none
    | none => none

/-- Reads the bounds of a counted repetition, behind its opening brace. -/
def readBounds (flags : Flags) (cs : List Char) : Option ((Nat × Option Nat) × List Char) := do
  let (least, cs) ← readCount flags (flags.skip cs)
  match cs with
  | '\x7d' :: cs => return ((least, some least), cs)
  | ',' :: cs =>
    match flags.skip cs with
    | '\x7d' :: cs => return ((least, none), cs)
    | cs =>
      let (most, cs) ← readCount flags cs
      match cs with
      | '\x7d' :: cs => if least ≤ most then return ((least, some most), cs) else none
      | _ => none
  | _ => none

/-- Reads flags up to a colon or a closing parenthesis, which is the second part of the answer. No
flag may be named twice, and a minus sign must stand before one. -/
def readFlags (flags : Flags) (seen : List Char) :
    List Char → Option (Flags × Char × List Char)
  | [] => none
  | c :: cs =>
    if c == ':' || c == ')' then
      if seen.head? == some '-' then none
      else if c == ')' && seen.isEmpty then none
      else some (flags, c, cs)
    else if seen.contains c then none
    else if c == '-' then readFlags flags (c :: seen) cs
    else do
      let flags ← flags.set? c (!seen.contains '-')
      readFlags flags (c :: seen) cs

/-- Whether a character may stand in the name of a group. -/
def isGroupNameChar (first : Bool) (c : Char) : Bool :=
  c == '_' || isLetterLike c ||
    (!first && (c == '.' || c == '[' || c == ']' || isDecimalDigit c || Text.category c == .no))

/-- Reads the name of a group, up to its closing angle bracket. -/
def readGroupName (cs : List Char) : Option (List Char × List Char) :=
  let name := cs.takeWhile (· != '>')
  match name, cs.drop name.length with
  | first :: more, _ :: rest =>
    if isGroupNameChar true first && more.all (isGroupNameChar false) then some (name, rest)
    else none
  | _, _ => none

/-- Reads a group with a name. -/
def readNamedGroup (reading : Reading) (cs : List Char) : Option (Reading × List Char) := do
  let (name, cs) ← readGroupName cs
  if reading.names.contains name then none
  else return ({ reading.openGroup with names := name :: reading.names }, cs)

/-- Reads the opening of a group, behind its parenthesis, or a switch of flags. -/
def readOpening (reading : Reading) (cs : List Char) : Option (Reading × List Char) :=
  match reading.level.flags.skip cs with
  | '?' :: '=' :: _ => none
  | '?' :: '!' :: _ => none
  | '?' :: '<' :: '=' :: _ => none
  | '?' :: '<' :: '!' :: _ => none
  | '?' :: 'P' :: '<' :: cs => readNamedGroup reading cs
  | '?' :: '<' :: cs => readNamedGroup reading cs
  | '?' :: cs => do
    let (flags, mark, cs) ← readFlags reading.level.flags [] cs
    return (if mark == ':' then reading.openPlain flags else reading.switch flags, cs)
  | cs => some (reading.openGroup, cs)

/-- A character that stands for itself. -/
def literal? (flags : Flags) (c : Char) (byte : Bool) : Option Regex :=
  if !flags.unicode && byte && 0x80 ≤ c.toNat then none
  else some (.char (flags.closed (.single c)))

/-- Reads the next piece of a pattern: one part, one sign, or one counted repetition. -/
def readPiece (reading : Reading) (c : Char) (cs : List Char) : Option (Reading × List Char) :=
  let flags := reading.level.flags
  let repeated (least : Nat) (most : Option Nat) (cs : List Char) :
      Option (Reading × List Char) := do
    let (isLazy, cs) := readLazy cs
    let level ← reading.level.repeatLast? least most isLazy
    return ({ reading with level }, cs)
  match c with
  | '(' => readOpening reading cs
  | ')' => reading.closeGroup?.map (·, cs)
  | '|' => some ({ reading with level := reading.level.split }, cs)
  | '?' => repeated 0 (some 1) cs
  | '*' => repeated 0 none cs
  | '+' => repeated 1 none cs
  | '\x7b' => do
    let ((least, most), cs) ← readBounds flags cs
    repeated least most (flags.skip cs)
  | '[' => do
    let (set, cs) ← readSet flags cs
    return (reading.add (← flags.charOf? set), cs)
  | '.' => do return (reading.add (← flags.dot?), cs)
  | '^' => some (reading.add (.look flags.lineStart), cs)
  | '$' => some (reading.add (.look flags.lineEnd), cs)
  | '\\' => do
    match ← readEscape flags cs with
    | (.char c byte, cs) => return (reading.add (← literal? flags c byte), cs)
    | (.set set, cs) => return (reading.add (← flags.charOf? set), cs)
    | (.look condition, cs) => return (reading.add (.look condition), cs)
  | c => do return (reading.add (← literal? flags c false), cs)

/-- Reads on to the end of the text. -/
def readAll : (fuel : Nat) → Reading → List Char → Option Reading
  | 0, _, _ => none
  | fuel + 1, reading, cs =>
    match reading.level.flags.skip cs with
    | [] => some reading
    | c :: cs => do
      let (reading, cs) ← readPiece reading c cs
      readAll fuel reading cs

/-- The regular expression of a pattern. Every piece takes at least one character, so as many rounds
as there are characters, and one for the end, are enough. -/
def read? (pattern : String) : Option Regex := do
  let cs := pattern.toList
  let reading ← readAll (cs.length + 1) { level := { flags := {} } } cs
  match reading.outer with
  | [] => some reading.level.close
  | _ :: _ => none

/-- The engine that reads patterns and finds their matches by trying. -/
def engine : Engine where
  Compiled := Regex
  compile? := read?
  groupCount := groupCount
  match? := match?

end TreeScheme.Regex
