/-!
# Validation modes

Validation either writes what it read from a node's arguments into the node, or only checks it. Each
mode has a name; a name is accepted in any ASCII case by `Mode.read`, and only as written by
`Mode.ofName?`.
-/

namespace TreeScheme

/-- What validation does with arguments that match. -/
inductive Mode where
  /-- Arguments are replaced by what was read from them. -/
  | annotate
  /-- Arguments are checked and left as they are. -/
  | validateOnly
deriving DecidableEq, Repr, Inhabited

namespace Mode

/-- The name of a mode. -/
def name : Mode → String
  | annotate => "annotate"
  | validateOnly => "validate_only"

/-- Every mode, the default first. -/
def all : List Mode := [annotate, validateOnly]

/-- Whether validation in this mode changes the tree. -/
def annotates : Mode → Bool
  | annotate => true
  | validateOnly => false

/-- The mode whose name a text is, letter for letter. -/
def ofName? (text : String) : Option Mode :=
  all.find? (·.name == text)

/-- The mode whose name a text is up to ASCII case. -/
def read (text : String) : Option Mode :=
  ofName? (text.map Char.toLower)

/-- What is said of a text that names no mode. -/
def unknownMessage : String := "Matching variant not found"

/-- A mode is found under its own name. -/
theorem ofName?_name (mode : Mode) : ofName? mode.name = some mode := by
  cases mode <;> decide

end Mode

end TreeScheme
