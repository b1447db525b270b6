/-
# Stored settings

Settings are stored as a record. It is read leniently: fields come in any order, may
be missing, and unknown ones are passed over. A text that is no such record holds no
settings.

The names of the fields and their usual values are the calculator's, the notation around
them is that of the host's store (see `PostfixCalc.Record`). Only the screen reads and
writes stored settings; the theorems take the settings as they are.
-/
import PostfixCalc.Record
import PostfixCalc.Settings

namespace PostfixCalc

namespace Settings

/-! ## Names -/

/-- The name of the record. It may be left out, and is not written. -/
def recordName : String := "Reglages"

/-- The name of the field for the number of places. -/
def placesField : String := "decimales"

/-- The name of the field for the visibility of the traces. -/
def traceField : String := "demarche_visible"

/-- The stored text of a truth value. -/
def truthText : Bool → String
  | true => "true"
  | false => "false"

/-! ## Writing -/

/-- The stored text of settings. -/
def stored (s : Settings) : String :=
  "(" ++ placesField ++ ":" ++ Nat.repr s.places ++ "," ++
    traceField ++ ":" ++ truthText s.traceVisible ++ ")"

/-! ## Reading -/

/-- A number of places: a whole number of 64 bits. -/
def readPlaces? : List Record.Lexeme → Option Nat
  | [.number word] => do (← Record.Whole.read? word).toNat? 64
  | _ => none

/-- A truth value. -/
def readTruth? : List Record.Lexeme → Option Bool
  | [.name text false] => [true, false].find? fun b => truthText b == text
  | _ => none

/-- The settings that a record holds. Missing fields have their usual values. -/
def ofRecord? (r : Record) : Option Settings := do
  let usual : Settings := {}
  guard (r.name?.all (· == recordName))
  let places? ← r.optional? placesField readPlaces?
  let traceVisible? ← r.optional? traceField readTruth?
  return ⟨places?.getD usual.places, traceVisible?.getD usual.traceVisible⟩

/-- The settings that a text stores. -/
def ofStored? (s : String) : Option Settings := do
  ofRecord? (← Record.ofText? s)

end Settings

end PostfixCalc
