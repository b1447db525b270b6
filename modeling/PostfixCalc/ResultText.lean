/-
# The text of a result

A whole number is shown as it is; any other result is rounded to the places of the
display, and the double nearest to the rounded value is shown by its shortest
decimal, so no zeros trail. Zero never has a sign. There is no exponent: very large
and very small results are written out.
-/
import PostfixCalc.Decimal.Shortest
import PostfixCalc.Precision

namespace PostfixCalc

/-! ## Display -/

/-- The rank that is shown for a finite rank: of whole numbers the rank itself, of all
others the rank nearest to the value rounded to the places of the display. -/
def displayRank (r : Nat) (p : Precision) : Nat :=
  if Binary64.isWhole r then r else (Decimal.rounded r p.places).nearestRank

/-- The text of a rank with a sign, which zero does not show. -/
def signedText (negative : Bool) (r : Nat) : String :=
  let digits := (Decimal.shortest r).text
  if negative && r != 0 then "-" ++ digits else digits

/-- The text of a result. -/
def resultText (x : Float) (p : Precision) : String :=
  let r := Binary64.rank x
  if Binary64.infinityRank < r then "NaN"
  else if r = Binary64.infinityRank then if Binary64.isNegative x then "-inf" else "inf"
  else signedText (Binary64.isNegative x) (displayRank r p)

end PostfixCalc
