/-
# Scanning a text into tokens

A text is cut into runs: a run of digits and points is one number, a run of ASCII
letters is one name, and every other character stands alone. Each run then becomes
the token that it writes. A character that writes no token is skipped, but it still
separates the runs beside it, so scanning never fails and never glues.
-/
import PostfixCalc.Token

namespace PostfixCalc

namespace Token

/-! ## Runs -/

/-- Whether a character can belong to a number. -/
def isNumeral (c : Char) : Bool := c.isDigit || c == '.'

/-- Whether two neighbouring characters belong to one token. -/
def sameRun (a b : Char) : Bool :=
  (isNumeral a && isNumeral b) || (a.isAlpha && b.isAlpha)

/-- The token that a single character writes, numbers and names apart. -/
def ofSymbol? : Char → Option Token
  | '(' => some lparen
  | ')' => some rparen
  | ',' => some comma
  | c => (BinaryOp.ofChar? c).map fun op => operator (.binary op)

/-- The token that a run of characters writes. -/
def ofRun? : List Char → Option Token
  | [] => none
  | c :: cs =>
    if isNumeral c then some (number (String.ofList (c :: cs)))
    else if c.isAlpha then some (name (String.ofList (c :: cs)))
    else ofSymbol? c

/-! ## The scanner -/

/-- The tokens of a text, in reading order. -/
def scan (s : String) : List Token :=
  (s.toList.splitBy sameRun).filterMap ofRun?

end Token

end PostfixCalc
