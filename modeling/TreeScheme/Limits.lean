/-!
# Limits on matching

Definitions may call themselves, so a match is given a bound on how many calls may be open at once.
`Limits.read` takes the limits from a setting: a record that may name the bound, or a list whose
only element, if it has one, is the bound. Whatever a setting does not mention keeps its default.
-/

namespace TreeScheme

/-- Bounds that every match observes. -/
structure Limits where
  /-- How many definition calls may be open at once. -/
  maxRecursionDepth : Nat := 256
deriving DecidableEq, Repr

/-- A value as settings are written: a record of named values, a list, a whole number that is not
negative, or anything else. -/
inductive Setting where
  | record (entries : List (String × Setting))
  | items (values : List Setting)
  | whole (n : Nat)
  | other
deriving Inhabited

/-- The largest bound that can be set, the greatest number of 64 bits. -/
def Limits.largest : Nat := 18446744073709551615

/-- The name under which a record holds the bound. -/
def Limits.key : String := "max_recursion_depth"

/-- A bound must be a whole number within range. -/
def Limits.readDepth : Setting → Option Limits
  | .whole n => if n ≤ largest then some ⟨n⟩ else none
  | _ => none

/-- The limits that a setting gives, or nothing if it is no setting of limits. Entries of a record
under other names are of no concern. -/
def Limits.read : Setting → Option Limits
  | .record entries =>
    match entries.lookup key with
    | some value => readDepth value
    | none => some {}
  | .items [] => some {}
  | .items [value] => readDepth value
  | _ => none

end TreeScheme
