/-
# Reading numerals

A numeral is an optional sign and then either digits with an optional point and an
optional decimal exponent, or one of the words for infinity and for no number, in
any case of letters. Its value is the nearest double. All else is no numeral, and
so are blanks around one.
-/
import PostfixCalc.Binary64

namespace PostfixCalc

/-- The digits of a numeral as one whole number, to be multiplied by a power of ten. -/
structure Numeral where
  coefficient : Nat
  exponent : Int
  deriving DecidableEq, Repr

namespace Numeral

/-! ## Digits -/

/-- The value of a row of decimal digits. -/
def digitsValue (ds : List Char) : Nat :=
  ds.foldl (fun n d => 10 * n + (d.toNat - '0'.toNat)) 0

/-- The value of the digits of an exponent. From `65536` on further digits are
dropped: at that size the numeral is zero or infinite, however they go on. -/
def exponentValue (ds : List Char) : Nat :=
  ds.foldl (fun n d => if n < 65536 then 10 * n + (d.toNat - '0'.toNat) else n) 0

/-! ## The grammar -/

/-- Splits an optional sign off; the flag says whether it is a minus. -/
def splitSign : List Char → Bool × List Char
  | '-' :: cs => (true, cs)
  | '+' :: cs => (false, cs)
  | cs => (false, cs)

/-- Reads what follows the digits of a numeral: nothing, or a whole exponent. -/
def readExponent? : List Char → Option Int
  | [] => some 0
  | c :: cs =>
    let (negative, ds) := splitSign cs
    if c.toLower = 'e' ∧ ds ≠ [] ∧ ds.all Char.isDigit then
      some (if negative then -exponentValue ds else exponentValue ds)
    else none

/-- Splits the digits after a point off, if there is a point. -/
def splitFraction : List Char → List Char × List Char
  | '.' :: cs => (cs.takeWhile Char.isDigit, cs.dropWhile Char.isDigit)
  | cs => ([], cs)

/-- Reads a numeral without sign that is written with digits, at least one of them. -/
def read? (cs : List Char) : Option Numeral :=
  let whole := cs.takeWhile Char.isDigit
  let (fraction, rest) := splitFraction (cs.dropWhile Char.isDigit)
  if whole = [] ∧ fraction = [] then none
  else (readExponent? rest).map fun e =>
    ⟨digitsValue (whole ++ fraction), e - fraction.length⟩

/-! ## Values -/

/-- The rank of the double nearest to a numeral. -/
def nearestRank (n : Numeral) : Nat :=
  Binary64.nearestRank (n.coefficient * Nat.pow 10 n.exponent.toNat)
    (Nat.pow 10 (-n.exponent).toNat)

/-- The rank that a text without sign stands for. -/
def readRank? (cs : List Char) : Option Nat :=
  let word := cs.map Char.toLower
  if word = "inf".toList ∨ word = "infinity".toList then some Binary64.infinityRank
  else (read? cs).map nearestRank

/-- The double that a text stands for, if it is a numeral. -/
def value? (text : String) : Option Float :=
  let (negative, cs) := splitSign text.toList
  if cs.map Char.toLower = "nan".toList then some Binary64.nan
  else (readRank? cs).map (Binary64.ofRank negative)

end Numeral

end PostfixCalc
