/-
# The journal

What an evaluation reports beside its outcome: once a text has passed the
allow-list, its tokens in both orders, and then, depending on who asked, the result
or the refusal.
-/
import PostfixCalc.Calculator
import PostfixCalc.Text.Quoted

namespace PostfixCalc

/-! ## Lines -/

/-- How much a line of the journal matters. -/
inductive JournalLevel where
  | debug
  | info
  deriving DecidableEq, Repr

/-- A line of the journal. -/
structure JournalLine where
  level : JournalLevel
  message : String
  deriving DecidableEq, Repr

/-- The word for a level. -/
def JournalLevel.label : JournalLevel → String
  | .debug => "DEBUG"
  | .info => "INFO"

/-- The text of a line. -/
def JournalLine.text (l : JournalLine) : String := l.level.label ++ " " ++ l.message

/-! ## What is reported -/

/-- The tokens of a text in both orders; of a text that may not be read, nothing. -/
def traceLines (s : String) : List JournalLine :=
  match readTokens s with
  | .ok tokens => [
      ⟨.debug, "jetons: " ++ Token.trace tokens⟩,
      ⟨.debug, "rpn: " ++ Token.trace (toPostfix tokens)⟩]
  | .error _ => []

/-- The lines that a reply of a session leaves: a refusal is reported with its text. -/
def Session.replyLines (s : Session) (text : String) : List JournalLine :=
  traceLines text ++
    match (s.evaluate text).1 with
    | .ok _ => []
    | .error e => [
        ⟨.debug, "évaluation refusée (" ++ Text.quoted text ++ "): " ++ e.message⟩]

/-- The lines that an evaluation of the entry leaves: the entry with its outcome. An
entry that is not evaluated leaves none. -/
def Calculator.equalsLines (c : Calculator) : List JournalLine :=
  match c.evaluation? with
  | none => []
  | some (.ok e, _) => traceLines c.entry ++ [⟨.info, c.entry ++ " = " ++ e.text⟩]
  | some (.error e, _) => traceLines c.entry ++ [⟨.info, c.entry ++ " : " ++ e.message⟩]

end PostfixCalc
