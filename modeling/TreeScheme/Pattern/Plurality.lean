import TreeScheme.Pattern.Basic

/-!
# Which names capture lists

A name captures a list if it may be met more than once: it stands under a repetition, or more than
one leaf bears it. Everything else captures a single value. This is settled once for a pattern and
does not depend on how often a repetition happens to run.

The leaves are entered into a table one by one, from left to right: the first leaf of a name says
whether it stands under a repetition, and every further one makes the name plural.
-/

namespace TreeScheme

/-- The names of a pattern, each with whether it captures a list, in order of first occurrence. -/
abbrev Plurality := List (String × Bool)

namespace Plurality

/-- Enters one leaf. -/
def enter (id : String) (repeated : Bool) : Plurality → Plurality
  | [] => [(id, repeated)]
  | (key, plural) :: rest =>
    if key = id then (key, true) :: rest else (key, plural) :: enter id repeated rest

/-- The table of a pattern. -/
def ofPattern (pattern : Pattern) : Plurality :=
  (pattern.leaves false).foldl (fun table leaf => table.enter leaf.1 leaf.2) []

/-- Whether a name captures a list. -/
def isList (table : Plurality) (id : String) : Bool :=
  (table.lookup id).getD false

/-- The names in a table. -/
def ids (table : Plurality) : List String :=
  table.map Prod.fst

end Plurality

end TreeScheme
