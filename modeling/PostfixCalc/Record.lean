/-
# Records

A record is a row of named fields between round brackets, with or without a name in
front. Lines that turn switches on may come before it, and nothing may come after it.

The notation is not the calculator's. It belongs to the store of the host, whose reader
decides what is a record, and the modules under `Record` follow that reader so that the
calculator can be started on any stored text. No theorem is built on them.
-/
import PostfixCalc.Record.Value

namespace PostfixCalc

/-- A record: the name in front of it, and its fields in their order, each with the
units of its value. -/
structure Record where
  name? : Option String
  fields : List (String × List Record.Lexeme)
  deriving DecidableEq, Repr

namespace Record

/-! ## Switches -/

/-- The switch that wants a name in front of every record. -/
def namingSwitch : String := "explicit_struct_names"

/-- The switch that lets the value of an option leave out its brackets. -/
def unwrappingSwitch : String := "unwrap_variant_newtypes"

/-- The switch that lets an option leave out its brackets. -/
def baringSwitch : String := "implicit_some"

/-- The names of the switches. The first one changes no value of a field. -/
def switches : List String :=
  ["unwrap_newtypes", baringSwitch, unwrappingSwitch, namingSwitch]

/-- How options are written when some switches are on. -/
def optionStyle (on : List String) : OptionStyle :=
  ⟨on.contains unwrappingSwitch, on.contains baringSwitch⟩

/-- The switch that an item of a line of switches names. -/
def switch? : List Lexeme → Option String
  | [.name text _] => if switches.contains text then some text else none
  | _ => none

/-- The switches that a line turns on, at least one of them. The line is given between
its hash and its last bracket. -/
def switchesOf? : List Lexeme → Option (List String)
  | .bang :: .opening .square :: .name text false :: .opening .round :: ls => do
    let names ← (items (← body? .round ls)).mapM switch?
    guard (text = "enable" ∧ names ≠ [])
    return names
  | _ => none

/-- Whether a unit ends a line of switches. -/
def endsLine (l : Lexeme) : Bool := l == .closing .square

/-- The switches that are turned on in front of a record, and what follows them. -/
def splitSwitches? (ls : List Lexeme) : Option (List String × List Lexeme) :=
  match ls with
  | .hash :: line => do
    let names ← switchesOf? (line.takeWhile fun l => !endsLine l)
    let (more, rest) ← splitSwitches? (line.dropWhile fun l => !endsLine l).tail
    return (names ++ more, rest)
  | _ => some ([], ls)
termination_by ls.length
decreasing_by
  have := (List.dropWhile_suffix (l := line) fun l => !endsLine l).length_le
  simp only [List.length_tail, List.length_cons]
  omega

/-! ## Reading -/

/-- The levels that the groups in the value of a field may take. -/
def fieldLevels : Nat := 126

/-- The field that an item of a record writes. -/
def field? (style : OptionStyle) (item : List Lexeme) : Option (String × List Lexeme) :=
  match splitOutside .colon 0 item with
  | [[.name text _], value] =>
    if isValue style fieldLevels value then some (text, value) else none
  | _ => none

/-- The fields of a record in its brackets. -/
def fields? (style : OptionStyle) : List Lexeme → Option (List (String × List Lexeme))
  | .opening .round :: ls => do (items (← body? .round ls)).mapM (field? style)
  | _ => none

/-- The record that a row of units writes. -/
def ofLexemes? (ls : List Lexeme) : Option Record := do
  let (on, ls) ← splitSwitches? ls
  let style := optionStyle on
  match ls with
  | .name text _ :: ls => return ⟨some text, ← fields? style ls⟩
  | ls =>
    guard (!on.contains namingSwitch)
    return ⟨none, ← fields? style ls⟩

/-- The record that a text writes. -/
def ofText? (s : String) : Option Record := do
  ofLexemes? (← Lexeme.scan? .outside s.toList)

/-! ## Fields -/

/-- The values of the fields of a name. -/
def values (r : Record) (name : String) : List (List Lexeme) :=
  (r.fields.filter fun field => field.1 == name).map Prod.snd

/-- Reads a field that a record may leave out but not repeat. -/
def optional? {α : Type} (r : Record) (name : String) (read : List Lexeme → Option α) :
    Option (Option α) :=
  match r.values name with
  | [] => some none
  | [value] => (read value).map some
  | _ => none

end Record

end PostfixCalc
