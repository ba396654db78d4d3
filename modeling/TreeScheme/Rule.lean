import TreeScheme.Matcher.Basic

/-!
# Rules

A rule accepts nodes by their tags and says what their arguments look like; the rules below it speak
of the children of the nodes it accepts. The rules of a scheme hang under two scopes, which are
rules without tags: the common one, whose rules hold at any depth, and the root one, whose rules
hold at the top of a document.
-/

namespace TreeScheme

/-- How a rule was declared. -/
inductive RuleKeyword where
  /-- A rule of the common scope, or one inside another rule. -/
  | rule
  /-- A rule of the root scope. -/
  | rootRule
  /-- A rule inside another one, written as `children`. -/
  | children
deriving DecidableEq, Repr

/-- The word of a keyword. -/
def RuleKeyword.text : RuleKeyword → String
  | rule => "rule"
  | rootRule => "root-rule"
  | children => "children"

/-- A rule. -/
structure Rule where
  keyword : RuleKeyword
  /-- The tags it accepts. -/
  tags : List String := []
  /-- What arguments look like, as written. -/
  arguments : Option String := none
  /-- What arguments look like, ready to run. -/
  matcher : Option Matcher := none
  children : List Rule := []
  /-- The row of the declaration; a scope has row 0. -/
  row : Nat := 0

namespace Rule

/-- A scope with some rules. -/
def scope (keyword : RuleKeyword) (children : List Rule) : Rule :=
  { keyword, children }

/-- Whether a rule accepts nodes with a tag. -/
def accepts (rule : Rule) (tag : String) : Bool :=
  rule.tags.contains tag

/-- The rules directly below this one that accept a tag. -/
def matching (rule : Rule) (tag : String) : List Rule :=
  rule.children.filter (·.accepts tag)

/-- What a rule says of arguments, or nothing if it takes any. -/
def check (rule : Rule) (text : String) : Option (Except MatchError Context) :=
  rule.matcher.map (·.evaluate text)

/-- The rule reached from this one by taking, again and again, the child with the next index. -/
def descend? (rule : Rule) : List Nat → Option Rule
  | [] => some rule
  | index :: path =>
    match rule.children[index]? with
    | none => none
    | some child => child.descend? path

/-- The lines of a rule and the rules below it, as they are written `depth` levels deep. -/
def lines (depth : Nat) : Rule → List String
  | { keyword, tags, arguments, children, .. } =>
    let head := "".pushn '\t' depth ++ keyword.text ++ " " ++ "|".intercalate tags
    let line := match arguments with
      | some text => head ++ " " ++ text
      | none => head
    line :: linesAll (depth + 1) children
where
  /-- The lines of several rules. -/
  linesAll (depth : Nat) : List Rule → List String
  | [] => []
  | rule :: rest => rule.lines depth ++ linesAll depth rest

end Rule

end TreeScheme
