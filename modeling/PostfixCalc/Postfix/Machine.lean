/-
# Evaluation in postfix order

A stack machine reads the tokens of a postfix word once, from left to right: an
operand is pushed, an operator or a function replaces its operands by its value.
The word has a value if exactly one is left at the end. Arithmetic is that of
doubles, so a division by zero is no error here.
-/
import PostfixCalc.Decimal.Numeral
import PostfixCalc.Token
import PostfixCalc.Vocabulary

namespace PostfixCalc

/-- The value of a binary operator at its left and right operand. -/
def BinaryOp.apply (op : BinaryOp) (x y : Float) : Float :=
  match op with
  | .add => x + y
  | .sub => x - y
  | .mul => x * y
  | .div => x / y
  | .rem => Binary64.remainder x y
  | .pow => x.pow y

/-! ## The stack -/

/-- The values computed so far, the latest first. -/
abbrev Stack := List Float

namespace Stack

/-- Takes `n` operands off a stack, in front of those taken before: the list comes
in the order of writing, since the last operand lies on top. -/
def pop : Nat → List Float → Stack → Except EvalError (List Float × Stack)
  | 0, args, stack => .ok (args, stack)
  | n + 1, args, x :: stack => pop n (x :: args) stack
  | _ + 1, _, [] => .error (.malformed .missingOperand)

/-- Replaces the operands of an operator by its value. -/
def operate (stack : Stack) : Operator → Except EvalError Stack
  | .neg =>
    match stack with
    | x :: rest => .ok (-x :: rest)
    | [] => .error (.malformed .missingOperand)
  | .binary op =>
    match stack with
    | y :: x :: rest => .ok (op.apply x y :: rest)
    | _ => .error (.malformed .missingOperand)

/-- Replaces the arguments of a function by its value. -/
def call (stack : Stack) (f : Func) : Except EvalError Stack := do
  let (args, rest) ← pop f.arity [] stack
  return (← f.apply args) :: rest

/-! ## The machine -/

/-- Reads one token. -/
def step (stack : Stack) : Token → Except EvalError Stack
  | .number text =>
    match Numeral.value? text with
    | some x => .ok (x :: stack)
    | none => .error (.invalidNumber text)
  | .operator op => stack.operate op
  | .name name =>
    match Constant.ofName? name, Func.ofName? name with
    | some c, _ => .ok (c.value :: stack)
    | none, some f => stack.call f
    | none, none => .error (.unknownFunction name)
  | .lparen | .rparen => .error (.malformed .unmatchedParenthesis)
  | .comma => .error (.malformed .strayComma)

/-- Reads a word, token by token. -/
def run (stack : Stack) (word : List Token) : Except EvalError Stack :=
  word.foldlM step stack

/-- The single value left on a stack. -/
def result : Stack → Except EvalError Float
  | [x] => .ok x
  | [] => .error (.malformed .noValue)
  | _ => .error (.malformed .extraOperands)

/-- A word is read in two parts as it is read in one. -/
theorem run_append (stack : Stack) (u v : List Token) :
    stack.run (u ++ v) = stack.run u >>= (·.run v) :=
  List.foldlM_append

end Stack

/-- The value of a word in postfix order. -/
def postfixValue (word : List Token) : Except EvalError Float := do
  (← Stack.run [] word).result

end PostfixCalc
