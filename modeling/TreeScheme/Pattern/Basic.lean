/-!
# Pattern trees

A pattern says how a text is made of lexemes and definitions: one after another, one or another,
once or not, again and again. `Pattern.leaves` lists its names from left to right, each with whether
it may be met more than once because it stands under a repetition.
-/

namespace TreeScheme

/-- What an identifier stands for. -/
inductive Symbol where
  | lexeme
  | definition
deriving DecidableEq, Repr

/-- How often something occurs that is marked with a quantifier. -/
inductive Quantifier where
  /-- Once or not at all, written `?`. -/
  | optional
  /-- Any number of times, written `*`. -/
  | star
  /-- At least once, written `+`. -/
  | plus
deriving DecidableEq, Repr

/-- The sign of a quantifier. -/
def Quantifier.sign : Quantifier → Char
  | optional => '?'
  | star => '*'
  | plus => '+'

/-- Whether a quantifier lets its operand occur more than once. -/
def Quantifier.repeats : Quantifier → Bool
  | optional => false
  | star | plus => true

/-- A pattern tree. -/
inductive Pattern where
  /-- A name, and what it stands for. -/
  | leaf (symbol : Symbol) (id : String)
  /-- All items, one after another. -/
  | sequence (items : List Pattern)
  /-- The first alternative that matches. -/
  | choice (alternatives : List Pattern)
  | quantified (quantifier : Quantifier) (operand : Pattern)

namespace Pattern

/-- The names of a pattern from left to right, each with whether it stands under a repetition;
`repeated` says whether the pattern itself does. -/
def leaves (repeated : Bool) : Pattern → List (String × Bool)
  | leaf _ id => [(id, repeated)]
  | sequence items => leavesAll repeated items
  | choice alternatives => leavesAll repeated alternatives
  | quantified quantifier operand => operand.leaves (repeated || quantifier.repeats)
where
  /-- The names of several patterns. -/
  leavesAll (repeated : Bool) : List Pattern → List (String × Bool)
  | [] => []
  | pattern :: rest => pattern.leaves repeated ++ leavesAll repeated rest

/-- Whether two patterns are the same tree. -/
def same : Pattern → Pattern → Bool
  | leaf s a, leaf t b => s == t && a == b
  | sequence as, sequence bs => sameAll as bs
  | choice as, choice bs => sameAll as bs
  | quantified p a, quantified q b => p == q && a.same b
  | _, _ => false
where
  /-- Whether two lists hold the same trees. -/
  sameAll : List Pattern → List Pattern → Bool
  | [], [] => true
  | a :: as, b :: bs => a.same b && sameAll as bs
  | _, _ => false

mutual

/-- Sameness is equality. -/
theorem same_iff_eq (a b : Pattern) : a.same b = true ↔ a = b := by
  cases a <;> cases b <;> simp [same]
  · exact sameAll_iff_eq _ _
  · exact sameAll_iff_eq _ _
  · exact fun _ => same_iff_eq _ _

/-- Sameness of lists is equality. -/
theorem sameAll_iff_eq (as bs : List Pattern) : same.sameAll as bs = true ↔ as = bs := by
  cases as <;> cases bs <;> simp [same.sameAll]
  rw [same_iff_eq, sameAll_iff_eq]

end

instance : DecidableEq Pattern := fun a b => decidable_of_iff _ (same_iff_eq a b)

/-- A list of one item stands for the item; longer lists are kept together. -/
def collapse (wrap : List Pattern → Pattern) : List Pattern → Pattern
  | [only] => only
  | items => wrap items

end Pattern

end TreeScheme
