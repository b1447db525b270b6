/-
# Doubles as ranks

The non-negative doubles, in increasing order from zero to infinity, are counted by
the lower 63 bits of their words: the rank. A rank of a finite double has an exact
value, a natural number of units of `2 ^ -1074`, and every non-negative fraction
has a rank nearest to it. All exact work on doubles, such as rounding, remainders
and the search for short decimals, is done on ranks and natural numbers.
-/

namespace PostfixCalc

namespace Binary64

/-! ## Ranks -/

/-- The weight of the sign in the word of a double. -/
def signWeight : Nat := 1 <<< 63

/-- The number of ranks over which the doubles keep their distance: as many as lie
between a power of two and its double. -/
def binade : Nat := 1 <<< 52

/-- The place of the magnitude of a double among all non-negative doubles. -/
def rank (x : Float) : Nat := x.toBits.toNat % signWeight

/-- Whether the sign of a double is a minus; zero has both signs. -/
def isNegative (x : Float) : Bool := signWeight ≤ x.toBits.toNat

/-- The double of a given sign and rank. -/
def ofRank (negative : Bool) (r : Nat) : Float :=
  Float.ofBits (UInt64.ofNat (if negative then signWeight + r else r))

/-- The rank of infinity; all finite doubles lie below it, and above it no number. -/
def infinityRank : Nat := 2047 * binade

/-- The double that is no number. -/
def nan : Float := ofRank false (infinityRank + binade / 2)

/-! ## Exact values -/

/-- The number of units in one; a unit is the least positive double. -/
def unitsPerOne : Nat := 1 <<< 1074

/-- The gap between a rank and the next one, as an exponent of two: the ranks of the
first two binades are one unit apart, and each further binade doubles the gap. -/
def scale (r : Nat) : Nat := r / binade - 1

/-- The value of a rank counted in the gaps at that rank. -/
def significand (r : Nat) : Nat := if r < binade then r else binade + r % binade

/-- The exact value of a rank, in units. -/
def units (r : Nat) : Nat := significand r <<< scale r

/-- Whether the double of a finite rank is a whole number. -/
def isWhole (r : Nat) : Bool := units r % unitsPerOne == 0

/-! ## Rounding -/

/-- The whole number nearest to `num / den`; a half goes to the even neighbour. -/
def roundHalfEven (num den : Nat) : Nat :=
  let q := num / den
  let twice := 2 * (num % den)
  if twice < den ∨ twice = den ∧ q % 2 = 0 then q else q + 1

/-- The rank nearest to `num / den`; a half goes to the even neighbour, and all that
lies past the last finite rank goes to infinity. The gaps at the value have the
exponent `e`, so the value is first rounded to a multiple of `2 ^ e` units. -/
def nearestRank (num den : Nat) : Nat :=
  let e := (num * unitsPerOne / den).log2 - 52
  min infinityRank (e * binade + roundHalfEven (num * unitsPerOne) (den <<< e))

/-! ## Remainders -/

/-- The exact remainder of a division rounded toward zero: it has the sign of the
dividend and a magnitude below that of the divisor. -/
def remainder (x y : Float) : Float :=
  let r := rank x
  let d := rank y
  if infinityRank ≤ r ∨ d = 0 ∨ infinityRank < d then nan
  else if d = infinityRank then x
  else ofRank (isNegative x) (nearestRank (units r % units d) unitsPerOne)

end Binary64

end PostfixCalc
