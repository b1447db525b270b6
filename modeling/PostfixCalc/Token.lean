/-
# Tokens

The units of an expression, in reading order or in postfix order, and the trace
that shows a row of them: their texts, separated by single spaces.
-/
import PostfixCalc.Operator

namespace PostfixCalc

/-- A unit of an expression. Numbers and names carry their text as written; whether
it means anything is settled when the expression is evaluated. -/
inductive Token where
  | number (text : String)
  | name (text : String)
  | operator (op : Operator)
  | lparen
  | rparen
  | comma
  deriving DecidableEq, Repr, Inhabited

namespace Token

/-- The text that writes a token. -/
def text : Token → String
  | number text => text
  | name text => text
  | operator op => op.symbol
  | lparen => "("
  | rparen => ")"
  | comma => ","

/-- The texts of a row of tokens, separated by single spaces. -/
def trace (tokens : List Token) : String :=
  " ".intercalate (tokens.map text)

/-- A space stands between a token and the next one. -/
theorem trace_cons_cons (t u : Token) (us : List Token) :
    trace (t :: u :: us) = t.text ++ " " ++ trace (u :: us) :=
  String.intercalate_cons_cons

end Token

end PostfixCalc
