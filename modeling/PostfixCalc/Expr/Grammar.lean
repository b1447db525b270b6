/-
# The grammar of expressions

Which rows of tokens are expressions, and of which trees, stated without reference
to any procedure: sums of products of signed powers of atoms. Sums and products
group to the left, powers to the right. A sign binds looser than a power and tighter
than a product, so `-2^2` is the negative of a square while `2^-2` is a power.
-/
import PostfixCalc.Expr

namespace PostfixCalc

/-- The categories of expressions, from the loosest to the tightest. -/
inductive Category where
  | sum
  | product
  | signed
  | power
  | atom
  deriving DecidableEq, Repr

/-- `Derives k ts e` says that the tokens `ts`, in reading order, write the tree `e` as
an expression of category `k`. -/
inductive Derives : Category → List Token → Expr → Prop where
  /-- A product is a sum of one term. -/
  | product {ts e} : Derives .product ts e → Derives .sum ts e
  /-- A sum goes on with a plus or a minus and one more product. -/
  | sum {ts us x y op} : op = .add ∨ op = .sub → Derives .sum ts x → Derives .product us y →
      Derives .sum (ts ++ .operator (.binary op) :: us) (.binary op x y)
  /-- A signed operand is a product of one factor. -/
  | signed {ts e} : Derives .signed ts e → Derives .product ts e
  /-- A product goes on with one more signed operand. -/
  | factor {ts us x y op} : op = .mul ∨ op = .div ∨ op = .rem →
      Derives .product ts x → Derives .signed us y →
      Derives .product (ts ++ .operator (.binary op) :: us) (.binary op x y)
  /-- A minus in front changes the sign. -/
  | minus {ts e} : Derives .signed ts e →
      Derives .signed (.operator (.binary .sub) :: ts) (.neg e)
  /-- A plus in front changes nothing. -/
  | plus {ts e} : Derives .signed ts e →
      Derives .signed (.operator (.binary .add) :: ts) e
  /-- A power may stand without a sign. -/
  | power {ts e} : Derives .power ts e → Derives .signed ts e
  /-- An atom may stand without an exponent. -/
  | atom {ts e} : Derives .atom ts e → Derives .power ts e
  /-- An exponent is a signed operand, so powers group to the right. -/
  | exponent {ts us x y} : Derives .atom ts x → Derives .signed us y →
      Derives .power (ts ++ .operator (.binary .pow) :: us) (.binary .pow x y)
  /-- A number, whatever its text. -/
  | number (text) : Derives .atom [.number text] (.number text)
  /-- The name of a constant, in any case of letters. -/
  | constant {name c} : Constant.ofName? name = some c →
      Derives .atom [.name name] (.constant c)
  /-- The name of a function of one argument, and the argument in parentheses. -/
  | call {name f ts x} : Func.ofName? name = some (.unary f) → Derives .sum ts x →
      Derives .atom (.name name :: .lparen :: (ts ++ [.rparen])) (.call f x)
  /-- The name of the function for powers, and its arguments in parentheses. -/
  | callPow {name ts us x y} : Func.ofName? name = some .pow →
      Derives .sum ts x → Derives .sum us y →
      Derives .atom (.name name :: .lparen :: (ts ++ .comma :: (us ++ [.rparen])))
        (.callPow x y)
  /-- An expression in parentheses. -/
  | group {ts e} : Derives .sum ts e → Derives .atom (.lparen :: (ts ++ [.rparen])) e

end PostfixCalc
