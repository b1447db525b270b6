/-
# Keys

What a key does, the layout of the keypad, and the keys that typed characters stand
for.
-/

namespace PostfixCalc

/-- The keys of the calculator. -/
inductive Key where
  /-- Adds a text to the entry. -/
  | insert (text : String)
  /-- Empties the entry. -/
  | clear
  /-- Takes the last character off the entry. -/
  | delete
  /-- Adds the last answer to the entry. -/
  | answer
  /-- Replaces the entry by its value. -/
  | equals
  deriving DecidableEq, Repr, Inhabited

namespace Key

/-! ## Typed characters -/

/-- The characters that insert themselves. -/
def plainChars : List Char := "0123456789.+-*/^%()".toList

/-- The key that a typed character stands for: digits, operators and parentheses
insert themselves, a few letters a longer name, and `=` evaluates. -/
def ofChar? (c : Char) : Option Key :=
  if plainChars.contains c then some (.insert (String.singleton c))
  else match c with
    | '=' => some .equals
    | 'p' => some (.insert "pi")
    | 's' => some (.insert "sin(")
    | 'c' => some (.insert "cos(")
    | 't' => some (.insert "tan(")
    | 'l' => some (.insert "ln(")
    | _ => none

end Key

/-! ## The keypad -/

/-- A button of the keypad. -/
structure Button where
  label : String
  key : Key
  deriving DecidableEq, Repr

namespace Button

/-- A button that inserts its own label. -/
def plain (label : String) : Button := ⟨label, .insert label⟩

/-- A button that inserts the name on its label and opens the argument. -/
def function (label : String) : Button := ⟨label, .insert (label ++ "(")⟩

/-- An empty place of the keypad: there is nothing to click. -/
def blank : Button := ⟨"", .insert ""⟩

end Button

/-- The rows of the keypad, from top to bottom. Labels show the usual glyphs, while the
entry gets the plain characters. -/
def keypadRows : List (List Button) := [
  [⟨"C", .clear⟩, ⟨"DEL", .delete⟩, .plain "(", .plain ")", ⟨"÷", .insert "/"⟩],
  [.function "sin", .function "cos", .function "tan", .function "sqrt", ⟨"×", .insert "*"⟩],
  [.plain "7", .plain "8", .plain "9", .plain "^", ⟨"−", .insert "-"⟩],
  [.plain "4", .plain "5", .plain "6", .plain "%", .plain "+"],
  [.plain "1", .plain "2", .plain "3", .function "ln", .function "log"],
  [.plain "0", .plain ".", ⟨"π", .insert "pi"⟩, .plain "e", ⟨"ans", .answer⟩],
  [.function "pow", .plain ",", .blank, .blank, ⟨"=", .equals⟩]]

/-- The buttons of the keypad that can be clicked, in reading order. -/
def keypad : List Button := keypadRows.flatten.filter fun b => !b.label.isEmpty

end PostfixCalc
