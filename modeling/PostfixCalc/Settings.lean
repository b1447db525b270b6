/-
# Settings

What is kept from one run of the calculator to the next.
-/
import PostfixCalc.Precision

namespace PostfixCalc

/-- The settings of a calculator. -/
structure Settings where
  /-- The wanted number of places; whoever uses it bounds it. -/
  places : Nat := (default : Precision).places
  /-- Whether the traces of the last evaluation are shown. -/
  traceVisible : Bool := false
  deriving DecidableEq, Repr, Inhabited

end PostfixCalc
