import TreeScheme.Regex.Escape

/-!
# Bracketed sets

`[a-z_]` lists characters and ranges, `[^…]` is the complement, brackets may be nested, and the
operators `&&`, `--` and `~~` intersect, subtract and compare what stands to their sides, from left
to right. `[:alpha:]` names an ASCII class; anything else that starts this way is a nested bracket.

A `]` right behind the opening is a character of the set, so no bracket is empty, and so is every
`-` there.
-/

namespace TreeScheme.Regex

/-- A bracket whose end was not read yet. -/
structure Bracket where
  negated : Bool
  /-- What stands before the latest operator, with the operator. -/
  pending : Option (SetOp × CharSet) := none
  /-- What was listed since. -/
  listed : CharSet := .empty

namespace Bracket

/-- Lists a set in a bracket. -/
def list (bracket : Bracket) (set : CharSet) : Bracket :=
  { bracket with listed := .union bracket.listed set }

/-- What the bracket holds so far, before it is negated. -/
def total (bracket : Bracket) : CharSet :=
  match bracket.pending with
  | some (op, left) => .combine op left bracket.listed
  | none => bracket.listed

/-- Meets an operator. -/
def apply (bracket : Bracket) (op : SetOp) : Bracket :=
  { bracket with pending := some (op, bracket.total), listed := .empty }

/-- The set of the bracket once it is closed. -/
def close (bracket : Bracket) : CharSet :=
  .negatedIf bracket.negated bracket.total

end Bracket

/-- A member of a bracket as it is written. -/
inductive Member where
  | char (c : Char)
  | set (set : CharSet)

/-- A character may be listed unless it is no byte while bytes are asked for. -/
def Member.ofChar? (flags : Flags) (c : Char) : Option Member :=
  if !flags.unicode && 0x80 ≤ c.toNat then none else some (.char c)

/-- Reads one character or class. -/
def readMember (flags : Flags) : List Char → Option (Member × List Char)
  | [] => none
  | '\\' :: cs => do
    match ← readEscape flags cs with
    | (.char c _, cs) => return (← Member.ofChar? flags c, cs)
    | (.set set, cs) => return (.set set, cs)
    | (.look _, _) => none
  | c :: cs => do
    return (← Member.ofChar? flags c, cs)

/-- Reads a character, a class or a range. A `-` stands for itself before the end of the bracket,
and is left alone before another one, with which it is an operator. -/
def readRange (flags : Flags) (cs : List Char) : Option (CharSet × List Char) := do
  let (first, cs) ← readMember flags cs
  let cs := flags.skip cs
  let plain : CharSet := match first with
    | .char c => flags.closed (.single c)
    | .set set => set
  match cs with
  | '-' :: behind =>
    let behind := flags.skip behind
    match behind with
    | [] => none
    | ']' :: _ => return (plain, cs)
    | '-' :: _ => return (plain, cs)
    | _ =>
      match first, ← readMember flags behind with
      | .char lo, (.char hi, cs) =>
        if lo ≤ hi then return (flags.closed (.range lo hi), cs) else none
      | _, _ => none
  | _ => return (plain, cs)

/-- Reads the opening of a bracket, behind `[`. -/
def openBracket (flags : Flags) (cs : List Char) : Bracket × List Char :=
  let (negated, cs) := match flags.skip cs with
    | '^' :: cs => (true, flags.skip cs)
    | cs => (false, cs)
  dashes cs.length { negated } cs
where
  /-- Lists the dashes at the start, and a closing bracket if there are none. -/
  dashes : (fuel : Nat) → Bracket → List Char → Bracket × List Char
  | fuel + 1, bracket, '-' :: cs => afterDash fuel (bracket.list (.single '-')) (flags.skip cs)
  | _, bracket, ']' :: cs => (bracket.list (.single ']'), flags.skip cs)
  | _, bracket, cs => (bracket, cs)
  /-- Lists further dashes. -/
  afterDash : (fuel : Nat) → Bracket → List Char → Bracket × List Char
  | fuel + 1, bracket, '-' :: cs => afterDash fuel (bracket.list (.single '-')) (flags.skip cs)
  | _, bracket, cs => (bracket, cs)

/-- Reads the name of an ASCII class, behind `[`. -/
def readNamed (flags : Flags) : List Char → Option (CharSet × List Char)
  | ':' :: cs =>
    let (negated, cs) := match cs with
      | '^' :: cs => (true, cs)
      | cs => (false, cs)
    let name := cs.takeWhile (· != ':')
    match cs.drop name.length with
    | ':' :: ']' :: cs => do
      let set ← CharSet.named? (.ofList name)
      return (.negatedIf negated (flags.closed set), cs)
    | _ => none
  | _ => none

/-- Reads on inside a bracket that stands within the brackets `outer`, the innermost first. -/
def readBracket (flags : Flags) : (fuel : Nat) → (inner : Bracket) → (outer : List Bracket) →
    List Char → Option (CharSet × List Char)
  | 0, _, _, _ => none
  | fuel + 1, inner, outer, cs =>
    match flags.skip cs with
    | [] => none
    | '[' :: cs =>
      match readNamed flags cs with
      | some (set, cs) => readBracket flags fuel (inner.list set) outer cs
      | none =>
        let (bracket, cs) := openBracket flags cs
        readBracket flags fuel bracket (inner :: outer) cs
    | ']' :: cs =>
      match outer with
      | [] => some (inner.close, cs)
      | parent :: outer => readBracket flags fuel (parent.list inner.close) outer cs
    | '&' :: '&' :: cs => readBracket flags fuel (inner.apply .inter) outer cs
    | '-' :: '-' :: cs => readBracket flags fuel (inner.apply .diff) outer cs
    | '~' :: '~' :: cs => readBracket flags fuel (inner.apply .symmDiff) outer cs
    | cs => do
      let (set, cs) ← readRange flags cs
      readBracket flags fuel (inner.list set) outer cs

/-- Reads a bracket, behind its `[`. -/
def readSet (flags : Flags) (cs : List Char) : Option (CharSet × List Char) :=
  let (bracket, rest) := openBracket flags cs
  readBracket flags (cs.length + 1) bracket [] rest

end TreeScheme.Regex
