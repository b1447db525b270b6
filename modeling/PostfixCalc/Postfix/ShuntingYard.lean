/-
# From reading order to postfix order

The tokens of an expression pass once through a yard with two tracks. Operands go
straight to the output; operators, open parentheses and function names wait on the
pending track until what they apply to has left before them. Nothing is refused on
the way: a parenthesis without a partner and an unknown name come out as tokens,
and the evaluation of the result decides about them.
-/
import PostfixCalc.Vocabulary
import PostfixCalc.Token

namespace PostfixCalc

/-! ## The yard -/

/-- The state between two tokens of the expression. -/
structure Yard where
  /-- The tokens sent out, the latest first. -/
  output : List Token
  /-- The tokens that wait, the latest first. -/
  pending : List Token
  /-- Whether the next token should begin an operand: so at the start and after an
  open parenthesis, a comma, an operator or the name of a function. -/
  expectsOperand : Bool
  deriving Repr

namespace Yard

/-- The yard before the first token. -/
def start : Yard := ⟨[], [], true⟩

/-! ## Single moves -/

/-- Sends a token out. -/
def emit (y : Yard) (t : Token) : Yard := { y with output := t :: y.output }

/-- Lets a token wait. -/
def hold (y : Yard) (t : Token) : Yard := { y with pending := t :: y.pending }

/-- Sends out the waiting tokens, the latest first, for as long as they satisfy `p`. -/
def release (y : Yard) (p : Token → Bool) : Yard :=
  { y with
    output := (y.pending.takeWhile p).reverse ++ y.output
    pending := y.pending.dropWhile p }

/-- Sets what the next token is read as. -/
def expecting (y : Yard) (operand : Bool) : Yard := { y with expectsOperand := operand }

/-! ## The moves of each kind of token -/

/-- A constant is an operand; any other name waits for its argument. Names are
folded to lower case. -/
def passName (y : Yard) (name : String) : Yard :=
  match Constant.ofName? name with
  | some _ => (y.emit (.name name.toLower)).expecting false
  | none => (y.hold (.name name.toLower)).expecting true

/-- Whether a waiting token is an operator that goes before `op`. -/
def goesBefore (op : Operator) : Token → Bool
  | .operator earlier => earlier.goesBefore op
  | _ => false

/-- An operator in its usual place: all that goes before it leaves first. -/
def passInfix (y : Yard) (op : Operator) : Yard :=
  ((y.release (goesBefore op)).hold (.operator op)).expecting true

/-- Where an operand should begin, `-` changes the sign of what follows and lets
nothing leave, and `+` has no effect; any other operator is out of place there but
passes as usual. -/
def passOperator (y : Yard) (op : Operator) : Yard :=
  match y.expectsOperand, op with
  | true, .binary .sub => y.hold (.operator .neg)
  | true, .binary .add => y
  | _, _ => y.passInfix op

/-- Whether a token is not an open parenthesis. -/
def isInside (t : Token) : Bool := t != .lparen

/-- Takes the open parenthesis off the pending track, or, when there is none left,
sends out the closing one. -/
def matchParen (y : Yard) : Yard :=
  match y.pending with
  | .lparen :: rest => { y with pending := rest }
  | _ => y.emit .rparen

/-- Sends out a function name that waits right before a group just closed. -/
def applyFunction (y : Yard) : Yard :=
  match y.pending with
  | .name f :: rest =>
    if (Func.ofName? f).isSome then { y with pending := rest }.emit (.name f) else y
  | _ => y

/-- One token of the expression. -/
def pass (y : Yard) : Token → Yard
  | .number text => (y.emit (.number text)).expecting false
  | .name name => y.passName name
  | .operator op => y.passOperator op
  | .lparen => (y.hold .lparen).expecting true
  | .rparen => ((y.release isInside).matchParen.applyFunction).expecting false
  | .comma => (y.release isInside).expecting true

/-- A row of tokens, one after the other. -/
def passAll (y : Yard) (tokens : List Token) : Yard := tokens.foldl pass y

/-- What has left in order, followed by all that still waits. -/
def finish (y : Yard) : List Token := y.output.reverse ++ y.pending

/-- A release changes the track of tokens but not the order in which all of them
leave in the end. -/
@[simp] theorem finish_release (y : Yard) (p : Token → Bool) :
    (y.release p).finish = y.finish := by
  simp [release, finish, List.takeWhile_append_dropWhile]

/-- A row of tokens passes in two parts as it passes in one. -/
theorem passAll_append (y : Yard) (ts us : List Token) :
    y.passAll (ts ++ us) = (y.passAll ts).passAll us :=
  List.foldl_append

end Yard

/-! ## The conversion -/

/-- The tokens of an expression in postfix order. -/
def toPostfix (tokens : List Token) : List Token :=
  (Yard.start.passAll tokens).finish

end PostfixCalc
