import TreeScheme.Expression
import TreeScheme.Matcher.Step

/-!
# Matchers

A matcher is an expression made ready to run over texts: its step, the bodies of the grammar's
definitions, and the limit on open calls. It accepts a text only as a whole. If a definition was
called beyond the limit anywhere in the run, the outcome depends on the limit, and that is reported
whatever came of the run otherwise.
-/

namespace TreeScheme

open Text (byteSize quote)

/-- Why a text is not accepted. -/
inductive MatchError where
  /-- Nothing matches; `offset` is how far the matcher got. -/
  | noMatch (offset : Nat)
  /-- A match ends before the text does. -/
  | trailingInput (offset : Nat)
  /-- A definition was called, at `offset`, with `limit` calls open. -/
  | recursionLimit (limit offset : Nat)
deriving DecidableEq, Repr

namespace MatchError

/-- The wording of an error. -/
def message : MatchError → String
  | noMatch offset => s!"syntax error at offset {offset}"
  | trailingInput offset => s!"unexpected trailing input at offset {offset}"
  | recursionLimit limit offset => s!"recursion limit of {limit} exceeded at offset {offset}"

/-- The place that the error speaks of. -/
def offset : MatchError → Nat
  | noMatch offset | trailingInput offset | recursionLimit _ offset => offset

end MatchError

/-- An expression made ready to run. -/
structure Matcher where
  expression : Expression
  step : Step
  bodies : List Body
  /-- How many definition calls may be open at once. -/
  limit : Nat

namespace Matcher

/-- Runs over a text from its start. -/
def run (matcher : Matcher) (text : List Char) : Outcome × Progress :=
  matcher.step.run text (invoke matcher.bodies text matcher.limit) 0 {}

/-- What the run over a text says of the text as a whole. -/
def verdict (limit size : Nat) : Outcome × Progress → Except MatchError Context
  | (outcome, progress) =>
    match progress.limitHit, outcome with
    | some offset, _ => .error (.recursionLimit limit offset)
    | none, .failed offset => .error (.noMatch offset)
    | none, .matched stop =>
      if stop = size then .ok (progress.recorder.finish stop) else .error (.trailingInput stop)

/-- Matches a text as a whole. -/
def evaluate (matcher : Matcher) (text : String) : Except MatchError Context :=
  verdict matcher.limit (byteSize text.toList) (matcher.run text.toList)

/-- Whether a text matches as a whole. -/
def accepts (matcher : Matcher) (text : String) : Bool :=
  (matcher.evaluate text).isOk

/-- A short description: the canonical text and the limit. -/
def describe (matcher : Matcher) : String :=
  "CompiledExpression \x7b expression: " ++ quote matcher.expression.canonical ++
    ", limit: " ++ toString matcher.limit ++ ", .. \x7d"

end Matcher

end TreeScheme
