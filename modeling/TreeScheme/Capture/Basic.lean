/-!
# Captures

What a match recorded, as a tree: a lexeme leaves text, a definition leaves a context of its own,
and an id that may occur more than once leaves a list. A context also says how many bytes were
consumed and, for a definition with a case table, which case was chosen.

Captures are kept as a list of named values. `Captures.set` replaces the value of a name in place,
or files a new name before the first greater one, so that a list built by it stays in increasing
order of names; `Captures.erase` takes a name out again. On every list whatsoever, erasing a name
that was set anew, or setting an old value back, gives the former list.
-/

namespace TreeScheme

/-- Named values. -/
abbrev Captures (α : Type) := List (String × α)

namespace Captures

variable {α : Type}

/-- The value under a name. -/
def get? (name : String) : Captures α → Option α
  | [] => none
  | (key, value) :: rest => if key = name then some value else get? name rest

/-- Files a new name before the first greater one. -/
def file (name : String) (value : α) : Captures α → Captures α
  | [] => [(name, value)]
  | (key, old) :: rest =>
    if name < key then (name, value) :: (key, old) :: rest else (key, old) :: file name value rest

/-- Puts a value in place of the first one under a name. -/
def replace (name : String) (value : α) : Captures α → Captures α
  | [] => []
  | (key, old) :: rest =>
    if key = name then (key, value) :: rest else (key, old) :: replace name value rest

/-- Gives a name a value, whether or not it had one. -/
def set (name : String) (value : α) (captures : Captures α) : Captures α :=
  match captures.get? name with
  | some _ => captures.replace name value
  | none => captures.file name value

/-- Takes out the first value under a name. -/
def erase (name : String) : Captures α → Captures α
  | [] => []
  | (key, value) :: rest => if key = name then rest else (key, value) :: erase name rest

/-- A name that was just filed is found. -/
theorem get?_file {name : String} {captures : Captures α} (fresh : captures.get? name = none)
    (value : α) : (captures.file name value).get? name = some value := by
  induction captures with
  | nil => simp [file, get?]
  | cons entry rest ih =>
    obtain ⟨key, old⟩ := entry
    have differs : key ≠ name := fun h => by simp [get?, h] at fresh
    have later : get? name rest = none := by simpa [get?, differs] using fresh
    unfold file
    split
    · simp [get?]
    · simp [get?, differs, ih later]

/-- Erasing a name that was just filed gives the former captures. -/
theorem erase_file {name : String} {captures : Captures α} (fresh : captures.get? name = none)
    (value : α) : (captures.file name value).erase name = captures := by
  induction captures with
  | nil => simp [file, erase]
  | cons entry rest ih =>
    obtain ⟨key, old⟩ := entry
    have differs : key ≠ name := fun h => by simp [get?, h] at fresh
    have later : get? name rest = none := by simpa [get?, differs] using fresh
    unfold file
    split
    · simp [erase]
    · simp [erase, differs, ih later]

/-- A name that was replaced is found with its new value. -/
theorem get?_replace {name : String} {captures : Captures α} {old : α}
    (found : captures.get? name = some old) (value : α) :
    (captures.replace name value).get? name = some value := by
  induction captures with
  | nil => simp [get?] at found
  | cons entry rest ih =>
    obtain ⟨key, other⟩ := entry
    by_cases h : key = name
    · simp [replace, get?, h]
    · simp only [get?, h, if_false] at found
      simp [replace, get?, h, ih found]

/-- Putting the old value back gives the former captures. -/
theorem replace_replace {name : String} {captures : Captures α} {old : α}
    (found : captures.get? name = some old) (value : α) :
    (captures.replace name value).replace name old = captures := by
  induction captures with
  | nil => simp [get?] at found
  | cons entry rest ih =>
    obtain ⟨key, other⟩ := entry
    by_cases h : key = name
    · simp only [get?, h, if_true, Option.some.injEq] at found
      simp [replace, h, found]
    · simp only [get?, h, if_false] at found
      simp [replace, h, ih found]

end Captures

/-- What one run of a body recorded, over values of type `α`. -/
structure ContextOf (α : Type) where
  /-- The number of bytes consumed. -/
  length : Nat := 0
  /-- The case that was chosen, if the body has a case table and one was. -/
  caseId : Option String := none
  captures : List (String × α) := []
deriving DecidableEq

/-- A captured value. -/
inductive Value where
  /-- Text matched by a lexeme. -/
  | text (text : String)
  /-- What a definition recorded. -/
  | context (context : ContextOf Value)
  /-- The values of an id that may occur more than once, or the groups of one lexeme. -/
  | list (items : List Value)

/-- The structured result of a match. -/
abbrev Context := ContextOf Value

namespace Value

/-- The text of a text capture. -/
def text? : Value → Option String
  | text t => some t
  | _ => none

/-- The context that a definition recorded. -/
def context? : Value → Option Context
  | context c => some c
  | _ => none

/-- The items of a list. -/
def list? : Value → Option (List Value)
  | list items => some items
  | _ => none

/-- Whether two values are the same. -/
def same : Value → Value → Bool
  | text a, text b => a == b
  | context ⟨m, p, as⟩, context ⟨n, q, bs⟩ => m == n && p == q && sameCaptures as bs
  | list as, list bs => sameAll as bs
  | _, _ => false
where
  /-- Whether two lists hold the same values. -/
  sameAll : List Value → List Value → Bool
  | [], [] => true
  | a :: as, b :: bs => a.same b && sameAll as bs
  | _, _ => false
  /-- Whether two lists hold the same values under the same names. -/
  sameCaptures : List (String × Value) → List (String × Value) → Bool
  | [], [] => true
  | (i, a) :: as, (j, b) :: bs => i == j && a.same b && sameCaptures as bs
  | _, _ => false

mutual

/-- Sameness is equality. -/
theorem same_iff_eq (a b : Value) : a.same b = true ↔ a = b := by
  cases a <;> cases b <;> simp [same]
  · rename_i first second
    obtain ⟨m, p, as⟩ := first
    obtain ⟨n, q, bs⟩ := second
    simp [sameCaptures_iff_eq as bs, and_assoc]
  · exact sameAll_iff_eq _ _

/-- Sameness of lists is equality. -/
theorem sameAll_iff_eq (as bs : List Value) : same.sameAll as bs = true ↔ as = bs := by
  cases as <;> cases bs <;> simp [same.sameAll]
  rw [same_iff_eq, sameAll_iff_eq]

/-- Sameness of captures is equality. -/
theorem sameCaptures_iff_eq (as bs : List (String × Value)) :
    same.sameCaptures as bs = true ↔ as = bs := by
  cases as with
  | nil => cases bs <;> simp [same.sameCaptures]
  | cons first as =>
    obtain ⟨i, a⟩ := first
    cases bs with
    | nil => simp [same.sameCaptures]
    | cons second bs =>
      obtain ⟨j, b⟩ := second
      simp [same.sameCaptures, same_iff_eq a b, sameCaptures_iff_eq as bs]

end

instance : DecidableEq Value := fun a b => decidable_of_iff _ (same_iff_eq a b)

end Value

namespace Context

/-- The value captured under a name. -/
def get? (context : Context) (name : String) : Option Value :=
  Captures.get? name context.captures

/-- The text captured under a name, if it is text. -/
def text? (context : Context) (name : String) : Option String :=
  (context.get? name).bind Value.text?

/-- The context captured under a name, if it is one. -/
def context? (context : Context) (name : String) : Option Context :=
  (context.get? name).bind Value.context?

/-- The list captured under a name, if it is one. -/
def list? (context : Context) (name : String) : Option (List Value) :=
  (context.get? name).bind Value.list?

/-- The captured names. -/
def names (context : Context) : List String :=
  context.captures.map Prod.fst

/-- Whether nothing was captured and no case chosen. -/
def isEmpty (context : Context) : Bool :=
  context.captures.isEmpty && context.caseId.isNone

end Context

end TreeScheme
