/-
# The calculator

A calculator has an entry line that keys edit, a session that evaluates it, and settings.
After a refusal the line shows the error marker until the next key, which starts from an
empty line again. The number of places is kept twice, by the session, which rounds with
it, and by the settings, which are stored.
-/
import PostfixCalc.Calculator.Key
import PostfixCalc.Session
import PostfixCalc.Settings

namespace PostfixCalc

/-! ## The entry line -/

namespace Entry

/-- The digits and points at the end of a line, the last one first. -/
def currentNumber (line : String) : List Char :=
  line.toList.reverse.takeWhile Token.isNumeral

/-- Whether a number that begins with a point needs a zero in front: so on an empty
line and after an operator or a parenthesis. -/
def needsZero (line : String) : Bool :=
  match line.toList.getLast? with
  | none => true
  | some c => ['+', '-', '*', '/', '%', '^', '(', ')'].contains c

/-- Adds a decimal point, unless the number at the end has one already. -/
def addPoint (line : String) : String :=
  if (currentNumber line).contains '.' then line
  else if needsZero line then line ++ "0."
  else line ++ "."

/-- Adds a text; a point alone goes through the guard of `addPoint`. -/
def insert (line text : String) : String :=
  if text = "." then addPoint line else line ++ text

/-- Takes off the last character. -/
def delete (line : String) : String := String.ofList line.toList.dropLast

end Entry

/-! ## The account of an evaluation -/

/-- What is told of an evaluation: the tokens in both orders, or why it was refused. -/
structure Account where
  tokenTrace : String := ""
  postfixTrace : String := ""
  error : String := ""
  deriving DecidableEq, Repr

/-- The account of an outcome. -/
def Account.ofOutcome : Except EvalError Evaluation → Account
  | .ok e => { tokenTrace := e.tokenTrace, postfixTrace := e.postfixTrace }
  | .error cause => { error := cause.message }

/-! ## The calculator -/

/-- The state of a calculator. -/
structure Calculator where
  /-- The text of the entry line. -/
  entry : String := ""
  /-- The session, with the last answer and the precision. -/
  session : Session := {}
  /-- Whether the entry line shows the marker of a refusal. -/
  hasFailed : Bool := false
  /-- The account of the last evaluation. -/
  account : Account := {}
  /-- The settings in force. -/
  settings : Settings := {}

namespace Calculator

/-- A new calculator with given settings, the number of places within bounds. -/
def withSettings (s : Settings) : Calculator :=
  let settings := { s with places := min s.places maxPlaces }
  { session := .withPlaces settings.places, settings := settings }

/-- The text of the display: zero for an empty entry. -/
def display (c : Calculator) : String :=
  if c.entry.isEmpty then "0" else c.entry

/-! ## Keys -/

/-- Empties the entry line, which also ends a refusal. -/
def clear (c : Calculator) : Calculator := { c with entry := "", hasFailed := false }

/-- Ends a refusal, if there is one. -/
def leaveFailure (c : Calculator) : Calculator := if c.hasFailed then c.clear else c

/-- Takes off the last character; the marker of a refusal goes as a whole. -/
def delete (c : Calculator) : Calculator :=
  if c.hasFailed then c.clear else { c with entry := Entry.delete c.entry }

/-- Adds a text to the entry. -/
def insert (c : Calculator) (text : String) : Calculator :=
  let c := c.leaveFailure
  { c with entry := Entry.insert c.entry text }

/-- Adds the last answer to the entry. -/
def insertAnswer (c : Calculator) : Calculator :=
  let c := c.leaveFailure
  { c with entry := c.entry ++ c.session.answer }

/-- The outcome of evaluating the entry, and the session afterwards; an empty entry and
the error marker are not evaluated. -/
def evaluation? (c : Calculator) : Option (Except EvalError Evaluation × Session) :=
  if c.entry.isEmpty || c.hasFailed then none else some (c.session.evaluate c.entry)

/-- Evaluates the entry, if it can be, and shows the result or the error marker in its
place. -/
def equals (c : Calculator) : Calculator :=
  match c.evaluation? with
  | none => c
  | some (outcome, session) =>
    let c := { c with session := session, account := .ofOutcome outcome }
    match outcome with
    | .ok e => { c with entry := e.text }
    | .error _ => { c with entry := errorMarker, hasFailed := true }

/-- The effect of a key. -/
def press (c : Calculator) : Key → Calculator
  | .insert text => c.insert text
  | .clear => c.clear
  | .delete => c.delete
  | .answer => c.insertAnswer
  | .equals => c.equals

/-- The effect of a typed character; most characters have none. -/
def typeChar (c : Calculator) (ch : Char) : Calculator :=
  match Key.ofChar? ch with
  | some key => c.press key
  | none => c

/-- The effect of a typed text, character by character. -/
def typeText (c : Calculator) (text : String) : Calculator :=
  text.toList.foldl typeChar c

/-! ## Settings -/

/-- Changes the number of places of the session, within bounds, and that of the settings
with it. -/
def setPlaces (c : Calculator) (n : Nat) : Calculator :=
  let session := c.session.setPlaces n
  { c with
    session := session
    settings := { c.settings with places := session.precision.places } }

/-- Shows the traces if they are hidden, and hides them if they are shown. -/
def toggleTrace (c : Calculator) : Calculator :=
  { c with settings := { c.settings with traceVisible := !c.settings.traceVisible } }

end Calculator

/-- The number in the field for the places, which holds 32 bits. -/
def Screen.placesField (c : Calculator) : UInt32 := UInt32.ofNat c.settings.places

end PostfixCalc
