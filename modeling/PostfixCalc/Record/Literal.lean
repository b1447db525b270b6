/-
# Quoted values in records

A text, a row of bytes, a character or a byte stands between quotation marks. Inside,
a backslash begins the name of a character: one letter, two digits of a byte, or the
digits of a code point in curly brackets.

The rules are those of the host's store; see `PostfixCalc.Record`.
-/
import PostfixCalc.Record.Number

namespace PostfixCalc

namespace Record

/-- The kinds of quoted values. -/
inductive Literal where
  | text
  | bytes
  | character
  | byte
  deriving DecidableEq, Repr

namespace Literal

/-- Whether a value is a single character or byte. -/
def isSingle (l : Literal) : Bool := l == character || l == byte

/-- Whether a value is made of bytes. -/
def isBinary (l : Literal) : Bool := l == bytes || l == byte

/-- The mark that ends a value. -/
def mark (l : Literal) : Char := if l.isSingle then '\'' else '"'

/-! ## Places -/

/-- Where the reading of a quoted value stands between two of its characters. -/
inductive Place where
  /-- Where a character or the end may come. -/
  | between
  /-- After the only character of a single value. -/
  | full
  /-- After a backslash. -/
  | escape
  /-- Among the two digits of a byte, after bytes of the same character. -/
  | byteDigits (before : List UInt8) (high? : Option Nat)
  /-- After bytes that are not yet a whole character. -/
  | incomplete (before : List UInt8)
  /-- After such bytes and a backslash. -/
  | incompleteEscape (before : List UInt8)
  /-- Where the digits of a code point have to be opened. -/
  | pointOpening
  /-- Among the digits of a code point. -/
  | pointDigits (count : Nat) (value : Nat)
  deriving DecidableEq, Repr

/-- The place after a whole character. -/
def afterCharacter (l : Literal) : Place := if l.isSingle then .full else .between

/-- Whether bytes are the encoding of a text. -/
def isEncoded (bs : List UInt8) : Bool := (String.fromUTF8? bs.toByteArray).isSome

/-- The place after the digits of a byte. In a text, bytes are read until they encode a
character, and at most four of them; a single character is named by one byte. -/
def afterByte? (l : Literal) (bs : List UInt8) : Option Place :=
  if l.isBinary || isEncoded bs then some l.afterCharacter
  else if l.isSingle || 4 ≤ bs.length then none
  else some (.incomplete bs)

/-- The place after the letter behind a backslash. A code point in a row of bytes stands
for its encoding; a single byte has no place for one. -/
def afterEscape? (l : Literal) (c : Char) : Option Place :=
  if "'\"\\nrt0".toList.contains c then some l.afterCharacter
  else if c = 'x' then some (.byteDigits [] none)
  else if c = 'u' ∧ l ≠ .byte then some .pointOpening
  else none

/-- The place after a character among the digits of a code point, of which there are
one to six. -/
def afterPointDigit? (l : Literal) (count value : Nat) (c : Char) : Option Place :=
  if c = '}' then
    if 0 < count ∧ value.isValidChar then some l.afterCharacter else none
  else if count < 6 then
    (digitValue? c).map fun d => .pointDigits (count + 1) (16 * value + d)
  else none

/-! ## Reading -/

/-- Whether a character ends the value at a place. -/
def endsAt (l : Literal) (place : Place) (c : Char) : Bool :=
  c == l.mark && (place == .full || (place == .between && !l.isSingle))

/-- The place after the next character, if the value goes on. -/
def advance? (l : Literal) (c : Char) : Place → Option Place
  | .between =>
    if c = '\\' then some .escape
    else if l = .byte ∧ 127 < c.toNat then none
    else some l.afterCharacter
  | .full => none
  | .escape => l.afterEscape? c
  | .byteDigits before none => (digitValue? c).map fun d => .byteDigits before (some d)
  | .byteDigits before (some high) => do
    let low ← digitValue? c
    l.afterByte? (before ++ [UInt8.ofNat (16 * high + low)])
  | .incomplete before => if c = '\\' then some (.incompleteEscape before) else none
  | .incompleteEscape before => if c = 'x' then some (.byteDigits before none) else none
  | .pointOpening => if c = '{' then some (.pointDigits 0 0) else none
  | .pointDigits count value => l.afterPointDigit? count value c

end Literal

end Record

end PostfixCalc
