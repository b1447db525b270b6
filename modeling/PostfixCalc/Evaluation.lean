/-
# Evaluating a text

From a text to its value: alternative glyphs are folded to the plain operators, the
allow-list is enforced, and what remains is scanned, brought to postfix order and
evaluated. A success keeps the value, its text, and the traces of both orders; a
refusal is a cause.
-/
import PostfixCalc.Postfix.Machine
import PostfixCalc.Postfix.ShuntingYard
import PostfixCalc.ResultText
import PostfixCalc.Token.Scan

namespace PostfixCalc

/-! ## The allow-list -/

/-- Folds the glyphs that also write an operator, the letter `x` among them. -/
def plainChar : Char → Char
  | '×' | 'x' | 'X' => '*'
  | '÷' => '/'
  | '−' => '-'
  | c => c

/-- A text with its operators written in the plain way. -/
def plainText (s : String) : String := s.map plainChar

/-- The characters that an expression may hold: ASCII letters and digits, the point,
the operators, parentheses, the comma, and the space. -/
def isAllowed (c : Char) : Bool :=
  c.isAlphanum || ['.', '+', '-', '*', '/', '%', '^', '(', ')', ',', ' '].contains c

/-- Refuses the empty text, and else the first character that is not allowed. -/
def checkAllowed (s : String) : Except EvalError Unit :=
  if s.isEmpty then .error .emptyInput
  else match s.toList.find? fun c => !isAllowed c with
    | some c => .error (.forbiddenChar c)
    | none => .ok ()

/-! ## Evaluation -/

/-- The outcome of a successful evaluation. -/
structure Evaluation where
  value : Float
  text : String
  tokenTrace : String
  postfixTrace : String
  deriving Repr

/-- The tokens of a text that passes the allow-list. -/
def readTokens (s : String) : Except EvalError (List Token) := do
  checkAllowed (plainText s)
  return Token.scan (plainText s)

/-- Evaluates a row of tokens; a value that is not finite is refused. -/
def evaluateTokens (tokens : List Token) (p : Precision) : Except EvalError Evaluation := do
  let word := toPostfix tokens
  let value ← postfixValue word
  if value.isFinite then
    return ⟨value, resultText value p, Token.trace tokens, Token.trace word⟩
  else
    throw .notFinite

/-- Evaluates a text. -/
def evaluate (s : String) (p : Precision) : Except EvalError Evaluation := do
  evaluateTokens (← readTokens s) p

end PostfixCalc
