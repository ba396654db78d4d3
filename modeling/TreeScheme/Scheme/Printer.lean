import TreeScheme.Scheme.Basic
import TreeScheme.Text.Blank

/-!
# The text of a scheme

A scheme is written as an outline: its lexemes, its definitions, its common rules and its root
rules, in this order. Alias lists are written without blanks, and the expressions in definitions
without blanks at their ends; everything else is written as it was read.
-/

namespace TreeScheme.Scheme

open Text (trim)

/-- The line of a lexeme. -/
def lexemeLine (declaration : LexemeDeclaration) : String :=
  "lex " ++ "|".intercalate declaration.aliases ++ " " ++ declaration.lexeme.pattern

/-- The line of a sequence or case: its head, and its expression if it has one. -/
def entryLine (head source : String) : String :=
  let body := trim source.toList
  if body.isEmpty then "\t" ++ head else "\t" ++ head ++ " " ++ String.ofList body

/-- The lines of a definition. -/
def definitionLines (definition : Definition) : List String :=
  ("def " ++ definition.name) ::
    (definition.sequences.map fun sequence => entryLine "seq" sequence.source) ++
    definition.cases.map fun case =>
      entryLine ("case " ++ "|".intercalate case.ids) case.expression.source

/-- The lines of a scheme. -/
def lines (scheme : Scheme) : List String :=
  scheme.grammar.lexemes.declarations.map lexemeLine ++
    scheme.grammar.definitions.flatMap definitionLines ++
    Rule.lines.linesAll 0 (scheme.common.children ++ scheme.root.children)

/-- The text of a scheme. -/
def text (scheme : Scheme) : String :=
  String.join (scheme.lines.map (· ++ "\n"))

end TreeScheme.Scheme
