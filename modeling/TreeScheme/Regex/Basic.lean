import TreeScheme.Engine
import TreeScheme.Regex.CharSet

/-!
# Regular expressions and their matches

A regular expression is matched at a place in a text and prefers, among all its matches there, the
one that comes first when alternatives are tried from left to right and repetitions take as much
(or, if lazy, as little) as they can. `Regex.run` finds it by trying: it is given what has to follow
and answers with the first way to match that lets the rest succeed.

**Repetitions.** The iterations that are demanded run one after another. If there is a bound, each
further one is a try of its own, and one that takes no character leads straight on to what follows.
Without a bound, the first iteration may take no character and leads straight on too, but a later
one that takes none is given up: the repetition ends with the iteration before it. So no repetition
runs more often than the text has characters left, plus one, beyond what is demanded.

**Groups.** A group reports the text it matched last. It keeps that text when a later iteration of
the repetition around it takes another way or is given up.

**Where automata go another way.** An automaton that passes no state twice at one place may give up
an iteration for a state that the iteration before passed there. `(?:a*b??)*` takes `a` from `ab`
this way, and both characters here. It takes a body that may start with nothing and would rather end
than take a character it could take.
-/

namespace TreeScheme.Regex

open Text (isWordChar)

/-- A condition on a place that takes no text. -/
inductive Look where
  /-- The start of the text. -/
  | start
  /-- The end of the text. -/
  | finish
  /-- The start of a line; a carriage return ends a line too if `crlf`. -/
  | lineStart (crlf : Bool)
  /-- The end of a line. -/
  | lineEnd (crlf : Bool)
  /-- A word character on exactly one side. -/
  | boundary (ascii : Bool)
  /-- Word characters on both sides or on neither. -/
  | noBoundary (ascii : Bool)
  /-- A word character after the place and none before it. -/
  | wordStart (ascii : Bool)
  /-- A word character before the place and none after it. -/
  | wordEnd (ascii : Bool)
  /-- No word character before the place. -/
  | wordStartHalf (ascii : Bool)
  /-- No word character after the place. -/
  | wordEndHalf (ascii : Bool)
deriving DecidableEq, Repr

/-- Whether a neighbour is a word character. -/
def isWord (ascii : Bool) : Option Char → Bool
  | none => false
  | some c => if ascii then c.isAlphanum || c == '_' else isWordChar c

/-- Whether a condition holds between two neighbours. -/
def Look.holds (before after : Option Char) : Look → Bool
  | start => before.isNone
  | finish => after.isNone
  | lineStart false => before.isNone || before == some '\n'
  | lineStart true =>
    before.isNone || before == some '\n' || (before == some '\r' && after != some '\n')
  | lineEnd false => after.isNone || after == some '\n'
  | lineEnd true =>
    after.isNone || after == some '\r' || (after == some '\n' && before != some '\r')
  | boundary ascii => isWord ascii before != isWord ascii after
  | noBoundary ascii => isWord ascii before == isWord ascii after
  | wordStart ascii => !isWord ascii before && isWord ascii after
  | wordEnd ascii => isWord ascii before && !isWord ascii after
  | wordStartHalf ascii => !isWord ascii before
  | wordEndHalf ascii => !isWord ascii after

end TreeScheme.Regex

namespace TreeScheme

open Engine (Found Groups)
open Regex (CharSet Look)
open Text (Cursor)

/-- A regular expression. -/
inductive Regex where
  /-- Matches without taking text. -/
  | empty
  /-- One character of a set. -/
  | char (accepted : CharSet)
  | look (condition : Look)
  | concat (first second : Regex)
  /-- Tries `first`, then `second`. -/
  | alt (first second : Regex)
  /-- Reports what `body` matched as group number `index`. -/
  | group (index : Nat) (body : Regex)
  /-- At least `least` and, if there is a bound, at most `most` times. -/
  | repeated (body : Regex) (least : Nat) (most : Option Nat) (greedy : Bool)
deriving Repr

namespace Regex

/-- The state of a match under way: where it stands and how many characters it took. -/
structure Place where
  cursor : Cursor
  taken : Nat

/-- What is tried at a place. -/
abbrev Attempt := Place → Groups → Option Found

/-- Takes one character of a set. -/
def takeChar (accepted : CharSet) (next : Attempt) : Attempt := fun place groups =>
  match place.cursor.rest with
  | [] => none
  | c :: rest => if accepted.mem c then next ⟨⟨some c, rest⟩, place.taken + 1⟩ groups else none

/-- Tries one way, and another one only if the first fails. -/
def orElse (first second : Attempt) : Attempt := fun place groups =>
  match first place groups with
  | some found => some found
  | none => second place groups

/-- Runs a body `count` times. -/
def demanded (body : Attempt → Attempt) : Nat → Attempt → Attempt
  | 0, next => next
  | count + 1, next => fun place groups => body (demanded body count next) place groups

/-- Tries one way and another one, the first one before the second if `greedy`. -/
def prefer (greedy : Bool) (first second : Attempt) : Attempt :=
  if greedy then orElse first second else orElse second first

/-- Runs a body, and goes on one way if it took a character and another one if it took none. -/
def advance (body : Attempt → Attempt) (moved stayed : Attempt) : Attempt := fun place groups =>
  body (fun place' groups' =>
    if place.taken < place'.taken then moved place' groups' else stayed place' groups')
    place groups

/-- Runs a body up to `most` times, as long as every run takes a character. -/
def upTo (body : Attempt → Attempt) (greedy : Bool) (next : Attempt) : Nat → Attempt
  | 0 => next
  | most + 1 => fun place groups =>
    prefer greedy (advance body (upTo body greedy next most) next) next place groups

/-- Runs a body again and again, up to `most` times. A run that takes no character is given up. -/
def again (body : Attempt → Attempt) (greedy : Bool) (next : Attempt) : Nat → Attempt
  | 0 => next
  | most + 1 => fun place groups =>
    prefer greedy (advance body (again body greedy next most) fun _ _ => none) next place groups

/-- Runs a body at least once. Further runs take at least one of the characters that are left. -/
def onceOrMore (body : Attempt → Attempt) (greedy : Bool) (next : Attempt) : Attempt :=
  fun place groups =>
    advance body (again body greedy next place.cursor.rest.length) next place groups

/-- The first way to match here that lets `next` succeed. -/
def run : Regex → Attempt → Attempt
  | empty, next => next
  | char accepted, next => takeChar accepted next
  | look condition, next => fun place groups =>
    if condition.holds place.cursor.before place.cursor.rest.head? then next place groups else none
  | concat first second, next => first.run (second.run next)
  | alt first second, next => orElse (first.run next) (second.run next)
  | group index body, next => fun place groups =>
    body.run (fun place' groups' =>
      next place' ((index, place.cursor.rest.take (place'.taken - place.taken)) :: groups'))
      place groups
  | repeated body least (some most) greedy, next =>
    demanded body.run least (upTo body.run greedy next (most - least))
  | repeated body 0 none greedy, next =>
    prefer greedy (onceOrMore body.run greedy next) next
  | repeated body (least + 1) none greedy, next =>
    demanded body.run least (onceOrMore body.run greedy next)

/-- The preferred match at a cursor. -/
def match? (regex : Regex) (cursor : Cursor) : Option Found :=
  regex.run (fun place groups => some ⟨place.taken, groups⟩) ⟨cursor, 0⟩ []

/-- Where no run takes a character, nothing is repeated and the groups stay as they are. -/
theorem again_of_stuck {body : Attempt → Attempt} {place : Place} {groups : Groups}
    (stuck : ∀ moved, advance body moved (fun _ _ => none) place groups = none) (greedy : Bool)
    (next : Attempt) (most : Nat) :
    again body greedy next most place groups = next place groups := by
  cases most with
  | zero => rfl
  | succ most =>
    rw [again, prefer]
    cases greedy with
    | true => simp [orElse, stuck]
    | false =>
      cases result : next place groups with
      | none => simp [orElse, result, stuck]
      | some found => simp [orElse, result]

/-- The group of `(a*)*` keeps what the first run took. -/
example : (repeated (group 1 (repeated (char (.single 'a')) 0 none true)) 0 none true).match?
    (.start ['a']) = some ⟨1, [(1, ['a'])]⟩ := by
  decide

/-- The greatest number of a group. -/
def groupCount : Regex → Nat
  | empty | char _ | look _ => 0
  | concat first second | alt first second => max first.groupCount second.groupCount
  | group index body => max index body.groupCount
  | repeated body _ _ _ => body.groupCount

/-- The recognizer of a regular expression. -/
def recognizer (regex : Regex) : Recognizer :=
  ⟨regex.groupCount, regex.match?⟩

/-- One expression after another. -/
def sequence : List Regex → Regex
  | [] => empty
  | [regex] => regex
  | regex :: rest => concat regex (sequence rest)

/-- One expression or another, the first one preferred. -/
def choice : List Regex → Regex
  | [] => empty
  | [regex] => regex
  | regex :: rest => alt regex (choice rest)

end Regex

end TreeScheme
