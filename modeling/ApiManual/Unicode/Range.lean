/-!
# Ranges of code points

A character property is a list of ranges in ascending order.
-/

namespace ApiManual.Unicode

/-- The first and the last code point of a run. -/
abbrev Range := Nat × Nat

/-- Whether a character lies in one of the ranges, which are in ascending order, so
that the search ends at the first range that begins behind the character. -/
def Range.cover : List Range → Char → Bool
  | [], _ => false
  | (first, last) :: rest, c =>
    if c.toNat < first then false else c.toNat ≤ last || Range.cover rest c

end ApiManual.Unicode
