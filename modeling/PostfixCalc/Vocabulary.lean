/-
# Named functions and constants

The fixed vocabulary of an expression: seven functions and two constants, found by
name without regard to the case of ASCII letters. A name outside the vocabulary is
not refused here; whoever meets it decides.
-/
import PostfixCalc.EvalError

namespace PostfixCalc

/-! ## Functions -/

/-- The functions of one argument. -/
inductive UnaryFunc where
  | sin
  | cos
  | tan
  | sqrt
  | ln
  | log
  deriving DecidableEq, Repr, Inhabited

/-- All functions: those of one argument, and the power with base and exponent. -/
inductive Func where
  | unary (f : UnaryFunc)
  | pow
  deriving DecidableEq, Repr, Inhabited

/-- The name of a function of one argument, in lower case. -/
def UnaryFunc.name : UnaryFunc → String
  | .sin => "sin"
  | .cos => "cos"
  | .tan => "tan"
  | .sqrt => "sqrt"
  | .ln => "ln"
  | .log => "log"

/-- The value of a function of one argument. Angles are in radians, `ln` is the
natural and `log` the decimal logarithm. -/
def UnaryFunc.apply (f : UnaryFunc) (x : Float) : Float :=
  match f with
  | .sin => x.sin
  | .cos => x.cos
  | .tan => x.tan
  | .sqrt => x.sqrt
  | .ln => x.log
  | .log => x.log10

namespace Func

/-- All functions. -/
def all : List Func :=
  [.unary .sin, .unary .cos, .unary .tan, .unary .sqrt, .unary .ln, .unary .log, .pow]

/-- The name of a function, in lower case. -/
def name : Func → String
  | .unary f => f.name
  | .pow => "pow"

/-- The function of a given name, in any case of letters. -/
def ofName? (text : String) : Option Func :=
  all.find? fun f => f.name == text.toLower

/-- The number of arguments that a function takes. -/
def arity : Func → Nat
  | .unary _ => 1
  | .pow => 2

/-- The value of a function at its arguments, given in the order of writing. -/
def apply : Func → List Float → Except EvalError Float
  | .unary f, [x] => .ok (f.apply x)
  | .pow, [x, y] => .ok (x.pow y)
  | _, _ => .error (.malformed .wrongArgumentCount)

/-- A text names a function if it becomes the name in lower case. -/
theorem ofName?_eq_some_iff {text : String} {f : Func} :
    ofName? text = some f ↔ text.toLower = f.name := by
  constructor
  · intro h
    have found := List.find?_some h
    exact (beq_iff_eq.1 found).symm
  · intro h
    unfold ofName?
    rw [h]
    cases f with
    | unary f => cases f <;> decide
    | pow => decide

/-- The name of a function is in lower case. -/
theorem toLower_name (f : Func) : f.name.toLower = f.name := by
  rw [← String.toList_inj]
  refine String.toList_map.trans ?_
  cases f with
  | unary f => cases f <;> rfl
  | pow => rfl

/-- A function is found by its name. -/
@[simp] theorem ofName?_name (f : Func) : ofName? f.name = some f :=
  ofName?_eq_some_iff.2 f.toLower_name

end Func

/-! ## Constants -/

/-- The constants that an expression can name. -/
inductive Constant where
  | pi
  | e
  deriving DecidableEq, Repr, Inhabited

namespace Constant

/-- All constants. -/
def all : List Constant := [.pi, .e]

/-- The name of a constant, in lower case. -/
def name : Constant → String
  | .pi => "pi"
  | .e => "e"

/-- The constant of a given name, in any case of letters. -/
def ofName? (text : String) : Option Constant :=
  all.find? fun c => c.name == text.toLower

/-- The double nearest to a constant. -/
def value : Constant → Float
  | .pi => Float.ofBits 0x400921fb54442d18
  | .e => Float.ofBits 0x4005bf0a8b145769

/-- A text names a constant if it becomes the name in lower case. -/
theorem ofName?_eq_some_iff {text : String} {c : Constant} :
    ofName? text = some c ↔ text.toLower = c.name := by
  constructor
  · intro h
    have found := List.find?_some h
    exact (beq_iff_eq.1 found).symm
  · intro h
    unfold ofName?
    rw [h]
    cases c <;> decide

/-- The name of a constant is in lower case. -/
theorem toLower_name (c : Constant) : c.name.toLower = c.name := by
  rw [← String.toList_inj]
  refine String.toList_map.trans ?_
  cases c <;> rfl

/-- A constant is found by its name. -/
@[simp] theorem ofName?_name (c : Constant) : ofName? c.name = some c :=
  ofName?_eq_some_iff.2 c.toLower_name

/-- No function has the name of a constant. -/
@[simp] theorem ofName?_funcName (f : Func) : ofName? f.name = none := by
  unfold ofName?
  rw [f.toLower_name]
  cases f with
  | unary f => cases f <;> decide
  | pow => decide

end Constant

end PostfixCalc
