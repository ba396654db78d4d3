import TreeScheme.Regex.CharSet

/-!
# Sets named by a property

`\p{Lu}`, `\p{Letter}` or `\p{gc=Nd}` name the characters of a general category, of a major class of
categories, or one of three sets of their own: all characters, the assigned ones, and ASCII. Names
are compared without regard to case, blanks, `_` and `-`, and a leading `is` does not count.

Of all other properties only `White_Space` has a name here. Scripts and their extensions, blocks,
ages, the breaks of text and binary properties such as `Alphabetic` or `Lowercase` have none, so a
pattern that names one of them is refused.
-/

namespace TreeScheme.Regex

open Text (Category isBlank)

/-- The categories under each general category name, in the form that `normalized` gives. -/
def categoryNames : List (List String × List Category) := [
  (["c", "other"], [.cc, .cf, .cn, .co, .cs]),
  (["cc", "control", "cntrl"], [.cc]),
  (["cf", "format"], [.cf]),
  (["cn", "unassigned"], [.cn]),
  (["co", "privateuse"], [.co]),
  (["l", "letter"], [.ll, .lm, .lo, .lt, .lu]),
  (["lc", "casedletter"], [.ll, .lt, .lu]),
  (["ll", "lowercaseletter"], [.ll]),
  (["lm", "modifierletter"], [.lm]),
  (["lo", "otherletter"], [.lo]),
  (["lt", "titlecaseletter"], [.lt]),
  (["lu", "uppercaseletter"], [.lu]),
  (["m", "mark", "combiningmark"], [.mc, .me, .mn]),
  (["mc", "spacingmark"], [.mc]),
  (["me", "enclosingmark"], [.me]),
  (["mn", "nonspacingmark"], [.mn]),
  (["n", "number"], [.nd, .nl, .no]),
  (["nd", "decimalnumber", "digit"], [.nd]),
  (["nl", "letternumber"], [.nl]),
  (["no", "othernumber"], [.no]),
  (["p", "punctuation", "punct"], [.pc, .pd, .pe, .pf, .pi, .po, .ps]),
  (["pc", "connectorpunctuation"], [.pc]),
  (["pd", "dashpunctuation"], [.pd]),
  (["pe", "closepunctuation"], [.pe]),
  (["pf", "finalpunctuation"], [.pf]),
  (["pi", "initialpunctuation"], [.pi]),
  (["po", "otherpunctuation"], [.po]),
  (["ps", "openpunctuation"], [.ps]),
  (["s", "symbol"], [.sc, .sk, .sm, .so]),
  (["sc", "currencysymbol"], [.sc]),
  (["sk", "modifiersymbol"], [.sk]),
  (["sm", "mathsymbol"], [.sm]),
  (["so", "othersymbol"], [.so]),
  (["z", "separator"], [.zl, .zp, .zs]),
  (["zl", "lineseparator"], [.zl]),
  (["zp", "paragraphseparator"], [.zp]),
  (["zs", "spaceseparator"], [.zs])]

/-- The form in which property names are compared. -/
def normalized (name : List Char) : String :=
  let plain := (name.filter fun c => !(isBlank c || c == '_' || c == '-')).map Char.toLower
  match plain with
  | 'i' :: 's' :: rest => if rest = ['c'] then .ofList plain else .ofList rest
  | _ => .ofList plain

/-- The set under a general category name. -/
def categorySet? (name : String) : Option CharSet :=
  if name = "any" then some .all
  else if name = "assigned" then some (.compl (.categories [.cn]))
  else if name = "ascii" then some (.range '\x00' '\x7f')
  else (categoryNames.find? (·.1.contains name)).map fun entry => .categories entry.2

/-- The set under a property name. -/
def propertySet? (name : String) : Option CharSet :=
  if name = "whitespace" || name = "space" || name = "wspace" then some .blank
  else categorySet? name

/-- The set that the text in the braces of a property names: a name alone, or a property and a value
joined by `=`, `:` or, for the complement, `!=`. -/
def property? (text : List Char) : Option CharSet :=
  let before := text.takeWhile fun c => !(c == '=' || c == ':')
  match text.drop before.length with
  | [] => propertySet? (normalized text)
  | mark :: value =>
    let negated := mark == '=' && before.getLast? == some '!'
    let name := normalized (if negated then before.dropLast else before)
    if name = "gc" || name = "generalcategory" then
      (categorySet? (normalized value)).map (.negatedIf negated)
    else none

end TreeScheme.Regex
