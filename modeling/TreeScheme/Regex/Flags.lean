import TreeScheme.Regex.Basic

/-!
# Flags

A pattern may switch flags on and off, for the rest of the enclosing group or for a group of its
own. They decide how the parts after them are understood: which characters a letter or a dot stands
for, where lines end, whether repetitions are greedy, and whether blanks and comments are skipped.

With the Unicode flag off a part speaks of single bytes. Since matches may not cut a character, a
part is refused then if it could match a byte that is not a character by itself.
-/

namespace TreeScheme.Regex

open Text (isBlank)

/-- The flags in force at one point of a pattern. -/
structure Flags where
  /-- Under `i`, letters stand for all their case forms. -/
  ignoreCase : Bool := false
  /-- Under `m`, the line anchors hold at every line. -/
  multiLine : Bool := false
  /-- Under `s`, the dot takes line feeds too. -/
  dotAll : Bool := false
  /-- Under `U`, repetitions are lazy unless marked, and greedy if marked. -/
  swapGreed : Bool := false
  /-- Under `u`, classes speak of all scripts. -/
  unicode : Bool := true
  /-- Under `R`, a carriage return ends a line too. -/
  crlf : Bool := false
  /-- Under `x`, blanks and comments are skipped. -/
  ignoreBlanks : Bool := false
deriving DecidableEq, Repr

namespace Flags

/-- The flags with the one that a letter names set to `value`, if the letter names one. -/
def set? (flags : Flags) (letter : Char) (value : Bool) : Option Flags :=
  match letter with
  | 'i' => some { flags with ignoreCase := value }
  | 'm' => some { flags with multiLine := value }
  | 's' => some { flags with dotAll := value }
  | 'U' => some { flags with swapGreed := value }
  | 'u' => some { flags with unicode := value }
  | 'R' => some { flags with crlf := value }
  | 'x' => some { flags with ignoreBlanks := value }
  | _ => none

/-- Drops leading blanks and comments; a comment ends with its line. -/
def skipComments : (inComment : Bool) → List Char → List Char
  | _, [] => []
  | true, c :: cs => skipComments (c != '\n') cs
  | false, c :: cs =>
    if isBlank c then skipComments false cs
    else if c == '#' then skipComments true cs
    else c :: cs

/-- Drops what does not count between the parts of a pattern. -/
def skip (flags : Flags) (cs : List Char) : List Char :=
  if flags.ignoreBlanks then skipComments false cs else cs

/-- Case forms are added to a set if case is ignored. -/
def closed (flags : Flags) (set : CharSet) : CharSet :=
  if flags.ignoreCase then
    if flags.unicode then .caseClosed set else .asciiCaseClosed set
  else set

/-- A set as a part of its own, unless it could match a byte that is no character. -/
def charOf? (flags : Flags) (set : CharSet) : Option Regex :=
  if !flags.unicode && set.exceedsAscii then none else some (.char set)

/-- What the dot stands for. -/
def dot? (flags : Flags) : Option Regex :=
  if !flags.unicode then none
  else if flags.dotAll then some (.char .all)
  else if flags.crlf then some (.char (.compl (.ranges [('\r', '\r'), ('\n', '\n')])))
  else some (.char (.compl (.single '\n')))

/-- What `^` stands for. -/
def lineStart (flags : Flags) : Look :=
  if flags.multiLine then .lineStart flags.crlf else .start

/-- What `$` stands for. -/
def lineEnd (flags : Flags) : Look :=
  if flags.multiLine then .lineEnd flags.crlf else .finish

/-- The digits, blanks and word characters that the flags ask for. -/
def digits (flags : Flags) : CharSet := if flags.unicode then .digit else .asciiDigit

@[inherit_doc digits]
def blanks (flags : Flags) : CharSet := if flags.unicode then .blank else .asciiBlank

@[inherit_doc digits]
def words (flags : Flags) : CharSet := if flags.unicode then .word else .asciiWord

end Flags

end TreeScheme.Regex
