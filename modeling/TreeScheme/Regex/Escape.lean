import TreeScheme.Regex.Flags
import TreeScheme.Regex.Property

/-!
# Escapes

What may follow a backslash: a sign that would otherwise have a meaning of its own, a control
character, a character by its number, a class, or a condition on the place. Numbers alone would be
references to groups, which are not supported, and letters without a meaning are refused, so that
they stay free for later use.

Every reader takes the text that is left, with the flags in force, and gives what it read with the
rest; it gives nothing if the text is not well formed.
-/

namespace TreeScheme.Regex

/-- What an escape stands for. -/
inductive Escape where
  /-- A character. It is a bare byte if it was written as two hexadecimal digits. -/
  | char (c : Char) (byte : Bool)
  | set (set : CharSet)
  | look (condition : Look)

/-- Signs that mean themselves behind a backslash: everything in ASCII but letters, digits and the
angle brackets, which mark word boundaries. -/
def isEscapable (c : Char) : Bool :=
  c.toNat < 0x80 && !c.isAlphanum && c != '<' && c != '>'

/-- The value of a hexadecimal digit. -/
def hexValue? (c : Char) : Option Nat :=
  if '0' ≤ c && c ≤ '9' then some (c.toNat - '0'.toNat)
  else if 'a' ≤ c && c ≤ 'f' then some (c.toNat - 'a'.toNat + 10)
  else if 'A' ≤ c && c ≤ 'F' then some (c.toNat - 'A'.toNat + 10)
  else none

/-- The character with a number, if there is one: surrogates and numbers beyond the last code point
stand for none. -/
def charOfNat? (n : Nat) : Option Char :=
  if h : n.isValidChar then some (Char.ofNatAux n h) else none

/-- Reads exactly `count` hexadecimal digits. -/
def readDigits (flags : Flags) : (count value : Nat) → List Char → Option (Nat × List Char)
  | 0, value, cs => some (value, cs)
  | count + 1, value, c :: cs => do
    let digit ← hexValue? c
    readDigits flags count (16 * value + digit) (flags.skip cs)
  | _ + 1, _, [] => none

/-- Reads hexadecimal digits up to a closing brace. The value is cut off above the last code point,
so that a long number stays invalid. -/
def readBraced (flags : Flags) (cs : List Char) : Option (Nat × List Char) :=
  go cs.length none (flags.skip cs)
where
  /-- Reads on; `value` is what the digits so far stand for, if there were any. -/
  go : (fuel : Nat) → (value : Option Nat) → List Char → Option (Nat × List Char)
  | fuel + 1, value, c :: cs =>
    if c == '\x7d' then value.map fun n => (n, flags.skip cs)
    else do
      let digit ← hexValue? c
      go fuel (some (min 0x110000 (16 * value.getD 0 + digit))) (flags.skip cs)
  | _, _, _ => none

/-- Reads a character by its number, behind `\x`, `\u` or `\U`: digits in braces, or exactly as many
as the letter calls for. -/
def readNumbered (flags : Flags) (count : Nat) (cs : List Char) : Option (Escape × List Char) :=
  match flags.skip cs with
  | '\x7b' :: cs => do
    let (n, cs) ← readBraced flags cs
    let c ← charOfNat? n
    return (.char c false, cs)
  | cs => do
    let (n, cs) ← readDigits flags count 0 cs
    let c ← charOfNat? n
    return (.char c (count == 2), cs)

/-- Reads a property, behind `\p` or `\P`: one letter, or a name in braces. -/
def readProperty (flags : Flags) (negated : Bool) (cs : List Char) :
    Option (Escape × List Char) :=
  let answer (name rest : List Char) : Option (Escape × List Char) :=
    (property? name).map fun set => (.set (.negatedIf negated (flags.closed set)), rest)
  if !flags.unicode then none
  else
    match flags.skip cs with
    | [] => none
    | '\\' :: _ => none
    | '\x7b' :: cs =>
      let name := cs.takeWhile (· != '\x7d')
      match cs.drop name.length with
      | [] => none
      | _ :: cs =>
        answer (if flags.ignoreBlanks then name.filter (!Text.isBlank ·) else name) cs
    | c :: cs => answer [c] (flags.skip cs)

/-- Reads the name of a special word boundary, behind `\b` and a brace. What cannot be such a name
is left for a counted repetition. -/
def readBoundary (flags : Flags) (cs : List Char) : Option (Escape × List Char) :=
  let ascii := !flags.unicode
  let isNamePart (c : Char) := c.isAlpha || c == '-'
  match cs with
  | '\x7b' :: inside =>
    match flags.skip inside with
    | [] => none
    | c :: _ =>
      if isNamePart c then
        let name := inside.takeWhile (· != '\x7d')
        let plain := if flags.ignoreBlanks then name.filter (!Text.isBlank ·) else name
        match inside.drop name.length with
        | [] => none
        | _ :: rest =>
          match String.ofList plain with
          | "start" => some (.look (.wordStart ascii), rest)
          | "end" => some (.look (.wordEnd ascii), rest)
          | "start-half" => some (.look (.wordStartHalf ascii), rest)
          | "end-half" => some (.look (.wordEndHalf ascii), rest)
          | _ => none
      else some (.look (.boundary ascii), cs)
  | _ => some (.look (.boundary ascii), cs)

/-- Reads what follows a backslash. -/
def readEscape (flags : Flags) : List Char → Option (Escape × List Char)
  | [] => none
  | c :: cs =>
    let ascii := !flags.unicode
    match c with
    | 'x' => readNumbered flags 2 cs
    | 'u' => readNumbered flags 4 cs
    | 'U' => readNumbered flags 8 cs
    | 'p' => readProperty flags false cs
    | 'P' => readProperty flags true cs
    | 'd' => some (.set flags.digits, cs)
    | 'D' => some (.set (.compl flags.digits), cs)
    | 's' => some (.set flags.blanks, cs)
    | 'S' => some (.set (.compl flags.blanks), cs)
    | 'w' => some (.set flags.words, cs)
    | 'W' => some (.set (.compl flags.words), cs)
    | 'a' => some (.char '\x07' false, cs)
    | 'f' => some (.char '\x0c' false, cs)
    | 't' => some (.char '\t' false, cs)
    | 'n' => some (.char '\n' false, cs)
    | 'r' => some (.char '\r' false, cs)
    | 'v' => some (.char '\x0b' false, cs)
    | 'A' => some (.look .start, cs)
    | 'z' => some (.look .finish, cs)
    | 'b' => readBoundary flags cs
    | 'B' => some (.look (.noBoundary ascii), cs)
    | '<' => some (.look (.wordStart ascii), cs)
    | '>' => some (.look (.wordEnd ascii), cs)
    | c => if isEscapable c then some (.char c false, cs) else none

end TreeScheme.Regex
