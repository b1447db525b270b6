/-
# Causes of refusal

Every way in which an expression can be refused, as a cause; the wording of all of
them is in `EvalError.message`.
-/

namespace PostfixCalc

/-! ## Causes -/

/-- What is wrong with the shape of an expression. -/
inductive Malformation where
  /-- An operator or function finds too few operands. -/
  | missingOperand
  /-- Nothing was computed. -/
  | noValue
  /-- More than one value is left. -/
  | extraOperands
  /-- A parenthesis has no partner. -/
  | unmatchedParenthesis
  /-- A comma separates nothing. -/
  | strayComma
  /-- A function gets the wrong number of arguments. -/
  | wrongArgumentCount
  deriving DecidableEq, Repr

/-- Why an expression has no value. -/
inductive EvalError where
  | emptyInput
  | forbiddenChar (c : Char)
  | unknownFunction (name : String)
  | malformed (cause : Malformation)
  | invalidNumber (text : String)
  | notFinite
  deriving DecidableEq, Repr

/-! ## Wording -/

/-- The detail that follows the announcement of a malformed expression. -/
def Malformation.message : Malformation → String
  | .missingOperand => "opérande manquant"
  | .noValue => "pile vide"
  | .extraOperands => "opérandes en trop"
  | .unmatchedParenthesis => "parenthèses non appariées"
  | .strayComma => "virgule inattendue"
  | .wrongArgumentCount => "nombre d’arguments incorrect"

/-- The text that tells a cause to the user. -/
def EvalError.message : EvalError → String
  | .emptyInput => "entrée vide"
  | .forbiddenChar c => "caractère non autorisé: '" ++ String.singleton c ++ "'"
  | .unknownFunction name => "fonction inconnue: " ++ name
  | .malformed cause => "expression mal formée: " ++ cause.message
  | .invalidNumber text => "nombre invalide: " ++ text
  | .notFinite => "résultat non fini"

end PostfixCalc
