/-
# Quoted texts

A text between double quotes, so written that no character is lost from sight: the
quote and the backslash follow a backslash, the usual controls have a letter each,
and every other unprintable character is written by its code point.
-/
import PostfixCalc.Text.Unprintable

namespace PostfixCalc

namespace Text

/-- A character as it is written between quotes. -/
def quotedChar (c : Char) : List Char :=
  match c with
  | '\x00' => ['\\', '0']
  | '\t' => ['\\', 't']
  | '\n' => ['\\', 'n']
  | '\r' => ['\\', 'r']
  | '"' => ['\\', '"']
  | '\\' => ['\\', '\\']
  | c => if isPrintable c then [c]
    else ['\\', 'u', '{'] ++ Nat.toDigits 16 c.toNat ++ ['}']

/-- A text between quotes. -/
def quoted (s : String) : String :=
  String.ofList (['"'] ++ s.toList.flatMap quotedChar ++ ['"'])

end Text

end PostfixCalc
