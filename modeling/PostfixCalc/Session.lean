/-
# Calculation sessions

A session remembers the text of the last success, for use in later expressions, and
the display precision. A refused expression leaves it as it was. The outcome of an
expression is available in full, as an optional text, or as a text in which one
marker stands for every refusal.
-/
import PostfixCalc.Evaluation

namespace PostfixCalc

/-- What is kept between two evaluations. -/
structure Session where
  /-- The text of the last success. -/
  lastText : Option String := none
  /-- The precision of results. -/
  precision : Precision := default
  deriving Repr, Inhabited

/-- The text that stands for every refusal. -/
def errorMarker : String := "Error"

namespace Session

/-- A new session with a wanted number of places. -/
def withPlaces (n : Nat) : Session := { precision := .clamp n }

/-- Changes the number of places, within bounds. -/
def setPlaces (s : Session) (n : Nat) : Session := { s with precision := .clamp n }

/-- The text inserted for the last answer: zero until there is one. -/
def answer (s : Session) : String := s.lastText.getD "0"

/-! ## Evaluation -/

/-- The session after an outcome: a success is remembered. -/
def remember (s : Session) : Except EvalError Evaluation → Session
  | .ok e => { s with lastText := some e.text }
  | .error _ => s

/-- Evaluates a text, with the full outcome. -/
def evaluate (s : Session) (text : String) : Except EvalError Evaluation × Session :=
  let outcome := PostfixCalc.evaluate text s.precision
  (outcome, s.remember outcome)

/-- Evaluates a text; a refusal gives no text and tells no cause. -/
def evaluateText? (s : Session) (text : String) : Option String × Session :=
  let (outcome, s') := s.evaluate text
  (outcome.toOption.map (·.text), s')

/-- Evaluates a text; the marker stands for a refusal. -/
def reply (s : Session) (text : String) : String × Session :=
  let (result, s') := s.evaluateText? text
  (result.getD errorMarker, s')

end Session

end PostfixCalc
