import TreeScheme.Name

/-!
# The arguments of directives

The argument of most directives is an alias list and then, behind blanks, a text of its own kind.
The list ends where no further bar with a name behind it follows. Blanks between the list and the
text may be missing, since a character that belongs to no name ends the list as well. The text may
not hold a line feed, and keeps its trailing blanks: a pattern may end in one.
-/

namespace TreeScheme

open Text (isBlank)

/-- The argument of a directive, taken apart. -/
structure Header where
  /-- The alias list as written. -/
  aliases : String
  /-- The text behind it, unless it is empty. -/
  rest : Option String
deriving DecidableEq, Repr

namespace Header

/-- What is left behind as many further names as there are, each behind a bar, in a text that starts
right behind a name. Every further name takes at least one character. -/
def afterNames (isName : Char → Bool) : (fuel : Nat) → List Char → List Char
  | 0, text => text
  | fuel + 1, text =>
    match text.dropWhile isBlank with
    | '|' :: behind =>
      match behind.dropWhile isBlank with
      | c :: cs => if isName c then afterNames isName fuel (cs.dropWhile isName) else text
      | [] => text
    | _ => text

/-- Takes an argument apart, given which characters make up names. -/
def read (isName : Char → Bool) (text : String) : Option Header :=
  match text.toList with
  | [] => none
  | c :: cs =>
    if isName c then
      let left := afterNames isName cs.length (cs.dropWhile isName)
      let rest := left.dropWhile isBlank
      if rest.contains '\n' then none
      else
        some
          { aliases := .ofList ((c :: cs).take (cs.length + 1 - left.length))
            rest := if rest.isEmpty then none else some (.ofList rest) }
    else none

end Header

end TreeScheme
