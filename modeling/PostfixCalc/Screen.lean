/-
# The screen

The calculator as its user meets it: buttons to click, a keyboard, a field for the
number of places, a check box for the traces, and the texts that are on screen. The
keyboard works unless a button has the focus.

The screen is there to run the calculator, and no theorem is built on it. Where the focus
of the keyboard is, and when it is lost, is up to the toolkit of the host, and so is the
notation in which settings are stored; the calculator itself knows neither.
-/
import PostfixCalc.Calculator
import PostfixCalc.Settings.Stored

namespace PostfixCalc

/-! ## Keyboard events -/

/-- The keys of the keyboard that have a meaning of their own. -/
inductive ControlKey where
  | enter
  | backspace
  | escape
  | other
  deriving DecidableEq, Repr

/-- What a keyboard can report. -/
inductive KeyboardEvent where
  | typed (text : String)
  | pressed (key : ControlKey)
  | released (key : ControlKey)
  | pasted (text : String)
  deriving DecidableEq, Repr

/-- The calculator key that a control key stands for. -/
def ControlKey.key? : ControlKey → Option Key
  | .enter => some .equals
  | .backspace => some .delete
  | .escape => some .clear
  | .other => none

/-- The effect of a keyboard event on the calculator. -/
def Calculator.handle (c : Calculator) : KeyboardEvent → Calculator
  | .typed text => c.typeText text
  | .pressed key => (key.key?.map c.press).getD c
  | .released _ => c
  | .pasted _ => c

/-! ## The screen -/

/-- The state of the screen. -/
structure Screen where
  calculator : Calculator := {}
  /-- Whether a button has the focus of the keyboard, of which the toolkit keeps account. -/
  buttonFocused : Bool := false

namespace Screen

/-- The name under which settings are stored. -/
def settingsKey : String := "calculatrice_rpn/reglages"

/-- The screen at the start, with the settings of the last run if there are any. -/
def start (stored : Option String) : Screen :=
  { calculator := .withSettings ((stored.bind Settings.ofStored?).getD default) }

/-- What the screen stores, by name. -/
def saved (s : Screen) : List (String × String) :=
  [(settingsKey, s.calculator.settings.stored)]

/-! ## Actions -/

/-- Clicks the button of a given label; the focus stays where it is. -/
def click (s : Screen) (label : String) : Screen :=
  match keypad.find? (·.label == label) with
  | some button => { s with calculator := s.calculator.press button.key }
  | none => s

/-- Gives the focus to a button. -/
def focusButton (s : Screen) : Screen := { s with buttonFocused := true }

/-- Clicks the check box for the traces. -/
def clickTraceBox (s : Screen) : Screen := { s with calculator := s.calculator.toggleTrace }

/-- Sets the field for the number of places, which bounds it on both sides. -/
def enterPlaces (s : Screen) (n : Int) : Screen :=
  { s with calculator := s.calculator.setPlaces n.toNat }

/-- The keyboard events between two drawings of the screen. A press of the escape key
among them takes the focus off the button before any of them is handled: a rule of the
toolkit, not of the calculator. -/
def keyboard (s : Screen) (events : List KeyboardEvent) : Screen :=
  if s.buttonFocused && !events.contains (.pressed .escape) then s
  else { calculator := events.foldl Calculator.handle s.calculator, buttonFocused := false }

/-! ## What is on screen -/

/-- The panel that explains the last evaluation. -/
def accountPanel (a : Account) : List String :=
  if a.error.isEmpty then ["Jetons :", a.tokenTrace, "RPN :", a.postfixTrace]
  else ["Erreur :", a.error]

/-- The texts on screen, from top to bottom; empty ones are not seen. -/
def texts (s : Screen) : List String :=
  let c := s.calculator
  let panel := if c.settings.traceVisible then accountPanel c.account else []
  (["Calculatrice RPN", c.display, "Décimales :"] ++ panel).filter fun text => !text.isEmpty

end Screen

end PostfixCalc
