/-
# Expression trees

The shape of an expression once all grouping is settled, with its two readings: the
postfix word, in which every operand comes before what is applied to it, and the
value, computed from the values of the parts. No parentheses and no commas are left
in a tree, and a sign written in front of an operand is an operator of its own.

What the nodes of a tree mean is written out here in the operations on doubles, and
nothing is taken from the machine that reads postfix words, so that the value of a
tree can be held against what the machine computes.
-/
import PostfixCalc.Decimal.Numeral
import PostfixCalc.Token
import PostfixCalc.Vocabulary

namespace PostfixCalc

/-! ## Trees -/

/-- An expression tree. -/
inductive Expr where
  /-- A number, by its text. -/
  | number (text : String)
  | constant (c : Constant)
  | neg (x : Expr)
  | binary (op : BinaryOp) (x y : Expr)
  /-- A function of one argument. -/
  | call (f : UnaryFunc) (x : Expr)
  /-- The function for powers, with base and exponent. -/
  | callPow (x y : Expr)
  deriving DecidableEq, Repr, Inhabited

/-! ## What the nodes mean -/

/-- The double that a constant stands for. -/
def Constant.meaning : Constant → Float
  | .pi => Float.ofBits 0x400921fb54442d18
  | .e => Float.ofBits 0x4005bf0a8b145769

/-- The operation on doubles that a function of one argument stands for. -/
def UnaryFunc.meaning : UnaryFunc → Float → Float
  | .sin => Float.sin
  | .cos => Float.cos
  | .tan => Float.tan
  | .sqrt => Float.sqrt
  | .ln => Float.log
  | .log => Float.log10

/-- The operation on doubles that a binary operator stands for. -/
def BinaryOp.meaning : BinaryOp → Float → Float → Float
  | .add => (· + ·)
  | .sub => (· - ·)
  | .mul => (· * ·)
  | .div => (· / ·)
  | .rem => Binary64.remainder
  | .pow => Float.pow

/-! ## The two readings -/

namespace Expr

/-- The tokens of a tree in postfix order. -/
def postorder : Expr → List Token
  | number text => [.number text]
  | constant c => [.name c.name]
  | neg x => x.postorder ++ [.operator .neg]
  | binary op x y => x.postorder ++ y.postorder ++ [.operator (.binary op)]
  | call f x => x.postorder ++ [.name (Func.unary f).name]
  | callPow x y => x.postorder ++ y.postorder ++ [.name Func.pow.name]

/-- The value of a tree. Operands are evaluated from left to right, so of several
invalid numbers the first one is reported. -/
def value : Expr → Except EvalError Float
  | number text =>
    match Numeral.value? text with
    | some x => .ok x
    | none => .error (.invalidNumber text)
  | constant c => .ok c.meaning
  | neg x => do return -(← x.value)
  | binary op x y => do
    let a ← x.value
    let b ← y.value
    return op.meaning a b
  | call f x => do return f.meaning (← x.value)
  | callPow x y => do
    let a ← x.value
    let b ← y.value
    return a.pow b

end Expr

end PostfixCalc
