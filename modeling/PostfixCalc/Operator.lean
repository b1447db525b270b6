/-
# Arithmetic operators

The operators of an expression and the two data that decide how a row of them
groups: the precedence level and the side towards which equal levels associate.
`Operator.goesBefore` condenses both into the one question that a conversion to
postfix order has to ask.
-/

namespace PostfixCalc

/-! ## The operators -/

/-- The operators written between two operands. -/
inductive BinaryOp where
  | add
  | sub
  | mul
  | div
  | rem
  | pow
  deriving DecidableEq, Repr, Inhabited

/-- All operators: the binary ones and the change of sign. -/
inductive Operator where
  | binary (op : BinaryOp)
  | neg
  deriving DecidableEq, Repr, Inhabited

/-- The side towards which operators of one precedence level associate. -/
inductive Associativity where
  | left
  | right
  deriving DecidableEq, Repr, Inhabited

namespace BinaryOp

/-- The six binary operators, in order of precedence. -/
def all : List BinaryOp := [.add, .sub, .mul, .div, .rem, .pow]

/-- The character that writes a binary operator. -/
def symbol : BinaryOp → Char
  | .add => '+'
  | .sub => '-'
  | .mul => '*'
  | .div => '/'
  | .rem => '%'
  | .pow => '^'

/-- The binary operator that a character writes. -/
def ofChar? : Char → Option BinaryOp
  | '+' => some .add
  | '-' => some .sub
  | '*' => some .mul
  | '/' => some .div
  | '%' => some .rem
  | '^' => some .pow
  | _ => none

/-- Every binary operator is read back from its character. -/
@[simp] theorem ofChar?_symbol (op : BinaryOp) : ofChar? op.symbol = some op := by
  cases op <;> rfl

/-- Only the character of an operator is read as that operator. -/
theorem ofChar?_eq_some_iff {c : Char} {op : BinaryOp} :
    ofChar? c = some op ↔ c = op.symbol := by
  constructor
  · intro h
    unfold ofChar? at h
    split at h <;> cases h <;> rfl
  · rintro rfl
    exact ofChar?_symbol op

end BinaryOp

namespace Operator

/-- The text of an operator in a trace; the change of sign has a word of its own,
since `-` already stands for subtraction. -/
def symbol : Operator → String
  | .binary op => String.singleton op.symbol
  | .neg => "neg"

/-! ## Grouping -/

/-- How tightly an operator binds. -/
def precedence : Operator → Nat
  | .binary .add | .binary .sub => 1
  | .binary .mul | .binary .div | .binary .rem => 2
  | .binary .pow | .neg => 3

/-- Powers and changes of sign associate to the right, all else to the left. -/
def associativity : Operator → Associativity
  | .binary .pow | .neg => .right
  | _ => .left

/-- Whether `earlier`, still waiting for its right operand, takes the operand that
`later` follows: it binds tighter, or as tightly and `later` associates to the left. -/
def goesBefore (earlier later : Operator) : Bool :=
  match later.associativity with
  | .left => later.precedence ≤ earlier.precedence
  | .right => later.precedence < earlier.precedence

/-- An operator that does not go before a later one binds looser, or as tightly
and the later one associates to the right. -/
theorem goesBefore_eq_false_iff {earlier later : Operator} :
    earlier.goesBefore later = false ↔
      earlier.precedence < later.precedence ∨
        earlier.precedence = later.precedence ∧ later.associativity = .right := by
  unfold goesBefore
  cases later.associativity with
  | left => simp
  | right => simp; omega

end Operator

end PostfixCalc
