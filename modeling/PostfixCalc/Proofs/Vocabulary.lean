/-
# Names in any case

Looking a name up does not depend on the case of its letters, and no name is found both
among the functions and among the constants.
-/
import Mathlib
import PostfixCalc.Vocabulary

namespace PostfixCalc

theorem toList_toLower (text : String) : text.toLower.toList = text.toList.map Char.toLower :=
  String.toList_map

/-- A text in lower case stays as it is. -/
theorem toLower_toLower (text : String) : text.toLower.toLower = text.toLower := by
  have hchar : Char.toLower ∘ Char.toLower = Char.toLower :=
    funext Char.toLower_toLower_eq_toLower
  refine String.map_map.trans ?_
  rw [hchar]
  rfl

/-- A function is found by its name in lower case if it is found at all. -/
theorem Func.ofName?_toLower (text : String) : ofName? text.toLower = ofName? text :=
  Option.ext fun f => by rw [ofName?_eq_some_iff, ofName?_eq_some_iff, toLower_toLower]

/-- A constant is found by its name in lower case if it is found at all. -/
theorem Constant.ofName?_toLower (text : String) : ofName? text.toLower = ofName? text :=
  Option.ext fun c => by rw [ofName?_eq_some_iff, ofName?_eq_some_iff, toLower_toLower]

/-- A name of a function is no name of a constant. -/
theorem Constant.ofName?_eq_none {text : String} {f : Func} (hf : Func.ofName? text = some f) :
    ofName? text = none := by
  rw [← ofName?_toLower, Func.ofName?_eq_some_iff.1 hf]
  exact ofName?_funcName f

end PostfixCalc
