/-
# Decimal fractions

Exact non-negative decimal fractions and their positional texts; the double nearest
to a decimal, and the decimal nearest to a double.
-/
import PostfixCalc.Binary64

namespace PostfixCalc

/-- The fraction `coefficient / 10 ^ places`. -/
structure Decimal where
  coefficient : Nat
  places : Nat
  deriving DecidableEq, Repr, Inhabited

namespace Decimal

/-- The power of ten below the fraction bar. -/
def denominator (d : Decimal) : Nat := Nat.pow 10 d.places

/-- The rank of the double nearest to a decimal. -/
def nearestRank (d : Decimal) : Nat :=
  Binary64.nearestRank d.coefficient d.denominator

/-- The decimal with the given number of places nearest to the double of rank `r`; a
half goes to the even neighbour. -/
def rounded (r places : Nat) : Decimal :=
  ⟨Binary64.roundHalfEven (Binary64.units r * Nat.pow 10 places) Binary64.unitsPerOne, places⟩

/-! ## Text -/

/-- The decimal digits of `n`, with zeros in front up to a given width. -/
def padded (width n : Nat) : List Char :=
  let digits := Nat.toDigits 10 n
  List.replicate (width - digits.length) '0' ++ digits

/-- The digits before and, if there are places, the point and the digits after it. -/
def chars (d : Decimal) : List Char :=
  if d.places = 0 then Nat.toDigits 10 d.coefficient
  else Nat.toDigits 10 (d.coefficient / d.denominator) ++
    '.' :: padded d.places (d.coefficient % d.denominator)

/-- The positional text of a decimal, all places written. -/
def text (d : Decimal) : String := String.ofList d.chars

end Decimal

end PostfixCalc
