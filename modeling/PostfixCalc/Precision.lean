/-
# Display precision

The number of places to which a result that is no whole number is rounded. It is
bounded: past seventeen places a double has nothing more to show.
-/

namespace PostfixCalc

/-- The largest number of places. -/
def maxPlaces : Nat := 17

/-- A bounded number of decimal places. -/
structure Precision where
  places : Nat
  places_le : places ≤ maxPlaces
  deriving DecidableEq, Repr

namespace Precision

/-- The precision nearest to a wanted number of places. -/
def clamp (n : Nat) : Precision := ⟨min n maxPlaces, Nat.min_le_right n maxPlaces⟩

/-- Twelve places, unless something else is asked for. -/
instance : Inhabited Precision := ⟨clamp 12⟩

end Precision

end PostfixCalc
