/-
# Numbers in records

A number is whole or decimal. A whole number may name its base in front of its digits
and its type behind them, and then has to fit the type. A decimal number may have a
fraction and an exponent, and may name its width. Underscores may part the digits.

The rules are those of the host's store; see `PostfixCalc.Record`.
-/
import PostfixCalc.Decimal.Numeral

namespace PostfixCalc

namespace Record

/-! ## Digits -/

/-- The value of a digit in any base up to sixteen. -/
def digitValue? (c : Char) : Option Nat :=
  let lower := c.toLower
  if lower.isDigit then some (lower.toNat - '0'.toNat)
  else if 'a' ≤ lower ∧ lower ≤ 'f' then some (10 + lower.toNat - 'a'.toNat)
  else none

/-- The characters that a row of digits is made of, whatever its base. -/
def isDigitChar (c : Char) : Bool := c == '_' || (digitValue? c).isSome

/-- The number that a row of digits writes in a base; it begins with a digit. -/
def readDigits? (base : Nat) (cs : List Char) : Option Nat :=
  if cs = [] ∨ cs.head? = some '_' then none
  else (cs.filter (· != '_')).foldlM (fun n c => do
    let d ← digitValue? c
    guard (d < base)
    return base * n + d) 0

/-! ## Types of whole numbers -/

/-- A type of whole numbers: with or without negative ones, and of a fixed width. -/
structure WholeType where
  signed : Bool
  bits : Nat
  deriving DecidableEq, Repr

namespace WholeType

/-- The types that a number may name. -/
def all : List WholeType :=
  [8, 16, 32, 64, 128].flatMap fun bits => [⟨true, bits⟩, ⟨false, bits⟩]

/-- The name of a type: a letter for its sign, and its width. -/
def name (t : WholeType) : List Char :=
  (if t.signed then 'i' else 'u') :: (Nat.repr t.bits).toList

/-- Whether a type holds the number of a given sign and magnitude. -/
def holds (t : WholeType) (negative : Bool) (magnitude : Nat) : Bool :=
  match t.signed, negative with
  | true, true => magnitude ≤ 1 <<< (t.bits - 1)
  | true, false => magnitude < 1 <<< (t.bits - 1)
  | false, true => magnitude = 0
  | false, false => magnitude < 1 <<< t.bits

end WholeType

/-! ## Whole numbers -/

/-- A whole number as it is written. -/
structure Whole where
  negative : Bool
  magnitude : Nat
  /-- The type that the number names. -/
  type? : Option WholeType
  deriving DecidableEq, Repr

namespace Whole

/-- Splits the mark of a base off the digits. -/
def splitBase : List Char → Nat × List Char
  | '0' :: 'x' :: cs => (16, cs)
  | '0' :: 'o' :: cs => (8, cs)
  | '0' :: 'b' :: cs => (2, cs)
  | cs => (10, cs)

/-- Reads what follows the digits: nothing, or the name of a type. Octal and
hexadecimal numbers name none. -/
def readType? (base : Nat) (cs : List Char) : Option (Option WholeType) :=
  if cs = [] then some none
  else if base = 2 ∨ base = 10 then
    (WholeType.all.find? fun t => t.name == cs).map some
  else none

/-- Reads a whole number. -/
def read? (word : List Char) : Option Whole := do
  let (negative, cs) := Numeral.splitSign word
  let (base, cs) := splitBase cs
  let magnitude ← readDigits? base (cs.takeWhile isDigitChar)
  let type? ← readType? base (cs.dropWhile isDigitChar)
  return ⟨negative, magnitude, type?⟩

/-- Whether a number fits the type that it names, or the widest one if it names none. -/
def fits (n : Whole) : Bool :=
  (n.type?.getD ⟨n.negative, 128⟩).holds n.negative n.magnitude

/-- The number as a natural number of a given width, if it names no other type. -/
def toNat? (n : Whole) (bits : Nat) : Option Nat :=
  let t : WholeType := ⟨false, bits⟩
  if n.type?.getD t = t ∧ t.holds n.negative n.magnitude then some n.magnitude else none

end Whole

/-! ## Decimal numbers -/

/-- The names of the widths of decimal numbers; the first one is not written. -/
def widthNames : List (List Char) := [[], ['f', '3', '2'], ['f', '6', '4']]

/-- The characters of a decimal number, its width apart. -/
def isDecimalChar (c : Char) : Bool := c.isDigit || "eE.+-_".toList.contains c

/-- Whether underscores stand only where they may: not before the first digit, and not
between a point and the next digit. -/
def underscoresFit : Bool → List Char → Bool
  | _, [] => true
  | allowed, '_' :: cs => allowed && underscoresFit allowed cs
  | allowed, c :: cs =>
    underscoresFit (c.isDigit || c == 'e' || c == 'E' || (allowed && c != '.')) cs

/-- Whether a word is infinity or no number, as they are written. -/
def isSpecial (word : List Char) : Bool :=
  ["inf", "NaN"].any fun name => widthNames.any fun width => word == name.toList ++ width

/-- Whether a word is a decimal number. -/
def isDecimal (word : List Char) : Bool :=
  let cs := word.takeWhile isDecimalChar
  let unsigned := (Numeral.splitSign word).2
  isSpecial unsigned ||
    (widthNames.contains (word.dropWhile isDecimalChar) && underscoresFit false cs &&
      (Numeral.read? (Numeral.splitSign (cs.filter (· != '_'))).2).isSome)

/-! ## Numbers -/

/-- Whether a word is a number. -/
def isNumber (word : List Char) : Bool :=
  (Whole.read? word).any Whole.fits || isDecimal word

end Record

end PostfixCalc
