/-!
# General categories

The thirty classes into which the character standard sorts the code points, under the standard's
own two-letter names. The major class is the first letter: `l` letters, `m` marks, `n` numbers,
`p` punctuation, `s` symbols, `z` separators and `c` the rest.
-/

namespace TreeScheme.Text

/-- A general category, named by its two-letter abbreviation. -/
inductive Category where
  | cc | cf | cn | co | cs
  | ll | lm | lo | lt | lu
  | mc | me | mn
  | nd | nl | no
  | pc | pd | pe | pf | pi | po | ps
  | sc | sk | sm | so
  | zl | zp | zs
deriving DecidableEq, Repr

end TreeScheme.Text
