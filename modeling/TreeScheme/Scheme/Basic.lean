import TreeScheme.Grammar.Basic
import TreeScheme.Node
import TreeScheme.Rule
import TreeScheme.Scheme.Error
import TreeScheme.Scheme.Header

/-!
# Schemes

A scheme says which trees are well formed: a grammar for the arguments of nodes, and rules that say
which tags may stand where. It is written as a tree of directives:

* `lex` gives names to a pattern;
* `def` names a definition, with `seq` and `case` below it;
* `rule` and `root-rule` accept tags, with `rule` and `children` below them.

Directives may stand in any order. They are read from top to bottom into a draft; only then are the
expressions in definitions and rules read, when all names are known. Rules whose arguments have the
same canonical text share one matcher, made for the first of them, common rules before root rules
and outer rules before inner ones.
-/

namespace TreeScheme

/-- A grammar, the common rules and the root rules. -/
structure Scheme where
  grammar : Grammar
  common : Rule
  root : Rule

namespace Scheme

/-- The tags of directives. -/
inductive Directive where
  | lex
  | definition
  | sequence
  | case
  | rule
  | rootRule
  | children
deriving DecidableEq, Repr

/-- The directive that a tag stands for. -/
def Directive.ofTag? : String → Option Directive
  | "lex" => some lex
  | "def" => some definition
  | "seq" => some sequence
  | "case" => some case
  | "rule" => some rule
  | "root-rule" => some rootRule
  | "children" => some children
  | _ => none

/-- Directives read so far. -/
structure Draft where
  builder : Builder := {}
  /-- The names of the definitions and the rows they were read from, the latest first. -/
  definitionRows : List (String × Nat) := []
  common : List Rule := []
  root : List Rule := []

/-- Puts a directive around an error of the grammar. -/
def within {α : Type} (tag : String) (row : Nat) : Except GrammarError α → Except SchemeError α
  | .ok a => .ok a
  | .error cause => .error (.grammar tag row cause)

/-- Refuses a node that is not expected where it stands. -/
def unexpected {α : Type} (node : Node) : Except SchemeError α :=
  .error (.unexpectedNode node.tag node.row)

/-- Takes the argument of a directive apart. -/
def header (isName : Char → Bool) (node : Node) : Except SchemeError Header :=
  match node.rawArgument? with
  | none => .error (.missingAliases node.tag node.row)
  | some text =>
    match Header.read isName text with
    | none => .error (.badAliases node.tag text node.row)
    | some header => .ok header

/-- Refuses the children of a directive that takes none. -/
def rejectChildren (node : Node) : Except SchemeError Unit :=
  match node.children with
  | [] => .ok ()
  | child :: _ => unexpected child

/-- Reads a lexeme. -/
def readLexeme (engine : Engine) (draft : Draft) (node : Node) : Except SchemeError Draft := do
  rejectChildren node
  let header ← header isUpperNameChar node
  match header.rest with
  | none => .error (.missingPattern node.row)
  | some pattern => do
    let builder ← within node.tag node.row (draft.builder.lex header.aliases pattern engine)
    return { draft with builder }

/-- Reads the sequences and cases of a definition. -/
def readEntries (draft : TreeScheme.Draft) : List Node → Except SchemeError TreeScheme.Draft
  | [] => .ok draft
  | node :: nodes => do
    rejectChildren node
    match Directive.ofTag? node.tag with
    | some .sequence => readEntries (draft.addSequence (node.rawArgument?.getD "")) nodes
    | some .case =>
      let header ← header isNameChar node
      readEntries (draft.addCase header.aliases (header.rest.getD "")) nodes
    | _ => unexpected node

/-- Whether a text is a name. -/
def isName (text : String) : Bool :=
  !text.isEmpty && text.toList.all isNameChar

/-- Reads a definition. -/
def readDefinition (draft : Draft) (node : Node) : Except SchemeError Draft :=
  let name := node.rawArgument?.getD ""
  if isName name then do
    within node.tag node.row (draft.builder.checkFresh name)
    let definition ← readEntries { name } node.children
    let builder ← within node.tag node.row (draft.builder.define definition)
    return { draft with
      builder
      definitionRows := (name, node.row) :: draft.definitionRows }
  else .error (.badName name node.row)

/-- The keyword of a directive below a rule. -/
def nestedKeyword (node : Node) : Except SchemeError RuleKeyword :=
  match Directive.ofTag? node.tag with
  | some .rule => .ok .rule
  | some .children => .ok .children
  | _ => unexpected node

/-- Reads a rule and the rules below it. Their arguments are kept as written. -/
def readRule (keyword : RuleKeyword) : Node → Except SchemeError Rule
  | { tag, argument, children, row } => do
    let header ← header isNameChar { tag, argument, children, row }
    let children ← readRules children
    return { keyword, tags := aliases header.aliases, arguments := header.rest, children, row }
where
  /-- Reads the rules below a rule. -/
  readRules : List Node → Except SchemeError (List Rule)
  | [] => .ok []
  | node :: nodes => do
    let keyword ← nestedKeyword node
    let rule ← readRule keyword node
    let rules ← readRules nodes
    return rule :: rules

/-- Reads one directive at the top of a scheme. -/
def readDirective (engine : Engine) (draft : Draft) (node : Node) : Except SchemeError Draft :=
  match Directive.ofTag? node.tag with
  | some .lex => readLexeme engine draft node
  | some .definition => readDefinition draft node
  | some .rule => do
    return { draft with common := draft.common ++ [← readRule .rule node] }
  | some .rootRule => do
    return { draft with root := draft.root ++ [← readRule .rootRule node] }
  | _ => unexpected node

/-- Reads directives one after another. -/
def readDirectives (engine : Engine) (draft : Draft) : List Node → Except SchemeError Draft
  | [] => .ok draft
  | node :: nodes => do readDirectives engine (← readDirective engine draft node) nodes

/-- Matchers that were made so far. -/
structure Shared where
  /-- The texts that were asked for, the latest first, each with the matcher it got. -/
  byText : List (String × Matcher) := []
  /-- The matchers, the latest first, one for each canonical text. -/
  byCanonical : List Matcher := []

/-- The matcher of a rule's arguments: the one of an equal text, else one made before for the same
canonical text, else a new one, which is put before the others. -/
def shareMatcher (grammar : Grammar) (shared : Shared) (text : String) :
    Except GrammarError (Matcher × Shared) :=
  match shared.byText.lookup text with
  | some matcher => .ok (matcher, shared)
  | none => do
    let expression ← grammar.read .full text
    match shared.byCanonical.find? (·.expression.canonical == expression.canonical) with
    | some matcher => return (matcher, { shared with byText := (text, matcher) :: shared.byText })
    | none =>
      let matcher ← grammar.compile expression
      return (matcher, ⟨(text, matcher) :: shared.byText, matcher :: shared.byCanonical⟩)

/-- Makes the arguments of one rule ready to run, if it has any. -/
def fillArguments (grammar : Grammar) (shared : Shared) (keyword : RuleKeyword) (row : Nat) :
    Option String → Except SchemeError (Option Matcher × Shared)
  | none => .ok (none, shared)
  | some text => do
    let (matcher, shared) ← within keyword.text row (shareMatcher grammar shared text)
    return (some matcher, shared)

/-- Makes the arguments of a rule, and of the rules below it, ready to run. -/
def fill (grammar : Grammar) (shared : Shared) :
    Rule → Except SchemeError (Rule × Shared)
  | { keyword, tags, arguments, children, row, .. } => do
    let (matcher, shared) ← fillArguments grammar shared keyword row arguments
    let (children, shared) ← fillAll shared children
    return ({ keyword, tags, arguments, matcher, children, row }, shared)
where
  /-- Makes the arguments of several rules ready to run. -/
  fillAll (shared : Shared) : List Rule → Except SchemeError (List Rule × Shared)
  | [] => .ok ([], shared)
  | rule :: rules => do
    let (rule, shared) ← fill grammar shared rule
    let (rules, shared) ← fillAll shared rules
    return (rule :: rules, shared)

/-- The row of the definition that an error of the grammar speaks of. -/
def errorRow (draft : Draft) : GrammarError → Nat
  | .inDefinition name _ => (draft.definitionRows.lookup name).getD 0
  | _ => 0

/-- Makes the grammar of a draft. -/
def buildGrammar (draft : Draft) : Except SchemeError Grammar :=
  match draft.builder.build with
  | .ok grammar => .ok grammar
  | .error cause => .error (.grammar "def" (errorRow draft cause) cause)

/-- Makes the scheme of a draft. -/
def finish (draft : Draft) : Except SchemeError Scheme := do
  let grammar ← buildGrammar draft
  let (common, shared) ← fill.fillAll grammar {} draft.common
  let (root, _) ← fill.fillAll grammar shared draft.root
  return { grammar, common := .scope .rule common, root := .scope .rootRule root }

/-- Reads a scheme from the nodes below a root. -/
def read (tree : Node) (limits : Limits := {}) (engine : Engine := Regex.engine) :
    Except SchemeError Scheme := do
  finish (← readDirectives engine { builder := { limits } } tree.children)

end Scheme

end TreeScheme
