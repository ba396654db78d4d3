import TreeScheme.Text.Blank
import TreeScheme.Text.Bytes
import TreeScheme.Text.Pieces

/-!
# Names and alias lists

Lexemes, definitions, cases and tags are all named by words over one alphabet: the ASCII letters and
digits, `_` and `-`. An alias list such as `ID | ip|mask` gives several names to one thing. The
readers of expressions, of case tables and of schemes share the class of name characters defined
here.
-/

namespace TreeScheme

open Text (isBlank pieces seek trim)

/-- The characters of a name: ASCII letters and digits, `_` and `-`. -/
def isNameChar (c : Char) : Bool :=
  c.isAlphanum || c == '_' || c == '-'

/-- The characters of a lexeme name in a scheme: a name without lower-case letters. -/
def isUpperNameChar (c : Char) : Bool :=
  c.isUpper || c.isDigit || c == '_' || c == '-'

/-- Every character of a lexeme name is a character of a name. -/
theorem isNameChar_of_isUpperNameChar {c : Char} (h : isUpperNameChar c = true) :
    isNameChar c = true := by
  have letters : c.isAlphanum = (c.isUpper || c.isLower || c.isDigit) := rfl
  simp only [isUpperNameChar, isNameChar, letters, Bool.or_eq_true] at *
  rcases h with ((h | h) | h) | h <;> simp [h]

/-- The longest word of name characters that starts exactly at a byte offset, if the offset is a
character boundary and a name character follows it. -/
def nameAt (text : List Char) (offset : Nat) : Option (List Char) :=
  match seek text offset with
  | none => none
  | some cursor =>
    match cursor.rest.takeWhile isNameChar with
    | [] => none
    | c :: cs => some (c :: cs)

/-- The names of an alias list. Blanks around a name are dropped, and so are empty entries. -/
def aliases (list : String) : List String :=
  ((pieces '|' list.toList).map trim).filter (!·.isEmpty) |>.map String.ofList

/-- The first name of a list that is taken already, by `taken` or by an earlier name of the list. -/
def firstTaken (taken : List String) : List String → Option String
  | [] => none
  | name :: names => if taken.contains name then some name else firstTaken (name :: taken) names

/-- No name is taken exactly if the names differ from each other and from the taken ones. -/
theorem firstTaken_eq_none_iff (taken names : List String) :
    firstTaken taken names = none ↔ names.Nodup ∧ ∀ name ∈ names, name ∉ taken := by
  induction names generalizing taken with
  | nil => simp [firstTaken]
  | cons name names ih =>
    by_cases h : name ∈ taken
    · simp [firstTaken, h]
    · simp only [firstTaken, List.contains_iff_mem, h, if_false, ih, List.nodup_cons,
        List.mem_cons, not_or, forall_eq_or_imp, not_false_eq_true, true_and]
      constructor
      · rintro ⟨distinct, free⟩
        exact ⟨⟨fun mem => (free name mem).1 rfl, distinct⟩, fun other mem => (free other mem).2⟩
      · rintro ⟨⟨absent, distinct⟩, free⟩
        exact ⟨distinct, fun other mem => ⟨fun same => absent (same ▸ mem), free other mem⟩⟩

end TreeScheme
