import TreeScheme.Grammar.Error
import TreeScheme.Name
import TreeScheme.Pattern.Basic

/-!
# Tokens of pattern expressions

An expression is made of words of name characters, parentheses, quantifiers and bars; blanks only
separate. The simple flavor has no `*`, `+` and `|`. `Token.scan` gives the tokens of a text with
their byte offsets, and refuses the first character that belongs to none.
-/

namespace TreeScheme

open Text (isBlank)

/-- Which operators an expression may use. -/
inductive Flavor where
  /-- Lexemes, groups and `?`. -/
  | simple
  /-- All operators, and definitions. -/
  | full
deriving DecidableEq, Repr

/-- The kinds of tokens. -/
inductive TokenKind where
  | word (text : List Char)
  | openGroup
  | closeGroup
  | quantifier (quantifier : Quantifier)
  | bar
deriving DecidableEq, Repr

/-- A token and where it starts. -/
structure Token where
  kind : TokenKind
  offset : Nat
deriving DecidableEq, Repr

/-- The characters of a token. -/
def TokenKind.chars : TokenKind → List Char
  | word text => text
  | openGroup => ['(']
  | closeGroup => [')']
  | quantifier q => [q.sign]
  | bar => ['|']

/-- The token that a sign is in a flavor. -/
def TokenKind.ofSign? (flavor : Flavor) (c : Char) : Option TokenKind :=
  if c = '(' then some openGroup
  else if c = ')' then some closeGroup
  else if c = '?' then some (quantifier .optional)
  else
    match flavor with
    | .simple => none
    | .full =>
      if c = '*' then some (quantifier .star)
      else if c = '+' then some (quantifier .plus)
      else if c = '|' then some bar
      else none

namespace Token

/-- Puts a name character before tokens. It joins a word that starts right behind it. -/
def consNameChar (c : Char) (offset : Nat) : List Token → List Token
  | [] => [⟨.word [c], offset⟩]
  | ⟨.word text, start⟩ :: tokens =>
    if start = offset + c.utf8Size then ⟨.word (c :: text), offset⟩ :: tokens
    else ⟨.word [c], offset⟩ :: ⟨.word text, start⟩ :: tokens
  | token :: tokens => ⟨.word [c], offset⟩ :: token :: tokens

/-- The tokens of a text that starts at a byte offset. -/
def scan (flavor : Flavor) (offset : Nat) : List Char → Except GrammarError (List Token)
  | [] => .ok []
  | c :: cs =>
    let next := offset + c.utf8Size
    if isBlank c then scan flavor next cs
    else if isNameChar c then (scan flavor next cs).map (consNameChar c offset)
    else
      match TokenKind.ofSign? flavor c with
      | some kind => (scan flavor next cs).map (⟨kind, offset⟩ :: ·)
      | none => .error (.unexpectedCharacter c offset)

end Token

end TreeScheme
