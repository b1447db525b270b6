/-
# Shortest decimals

The shortest decimal of a double is the point of the coarsest decimal grid that
reads back as that double, and of two such points the nearer one. Only the two
neighbours of the double on a grid need a trial: if any point of the grid reads
back, then one of them does.
-/
import PostfixCalc.Decimal

namespace PostfixCalc

/-! ## Decimal grids -/

/-- The multiples of `step / 10 ^ places`. -/
structure Grid where
  step : Nat
  places : Nat
  deriving DecidableEq, Repr

namespace Grid

/-- The grids of all powers of ten between the largest and the least double, the
coarsest first. -/
def all : List Grid :=
  (List.range 309).reverse.map (fun k => ⟨Nat.pow 10 k, 0⟩) ++
    (List.range 1074).map (fun k => ⟨1, k + 1⟩)

/-- The `n`-th point of a grid. -/
def point (g : Grid) (n : Nat) : Decimal := ⟨n * g.step, g.places⟩

/-- The point of a grid that reads back as the double of rank `r`, if there is one;
of two such points the nearer one, and the upper one if they are equally near. -/
def shortest? (g : Grid) (r : Nat) : Option Decimal :=
  let num := Binary64.units r * Nat.pow 10 g.places
  let den := Binary64.unitsPerOne * g.step
  let below := g.point (num / den)
  let above := g.point (num / den + 1)
  if below.nearestRank = r then
    if den ≤ 2 * (num % den) ∧ above.nearestRank = r then some above else some below
  else if above.nearestRank = r then some above
  else none

end Grid

namespace Decimal

/-- All digits of the double of rank `r`. -/
def exact (r : Nat) : Decimal := ⟨Binary64.units r * Nat.pow 5 1074, 1074⟩

/-- The shortest decimal that reads back as the double of rank `r`. -/
def shortest (r : Nat) : Decimal :=
  (Grid.all.findSome? (·.shortest? r)).getD (exact r)

end Decimal

end PostfixCalc
