/-
# Values in records

A value is a number, a quoted value, a name, or a group: a list between square
brackets, a map between curly ones, a tuple or a record between round ones, with or
without a name in front. Commas part the items of a group, and one may follow the last.

The rules are those of the host's store; see `PostfixCalc.Record`.
-/
import PostfixCalc.Record.Lexeme

namespace PostfixCalc

namespace Record

/-! ## Cutting a row of units -/

/-- The number of groups that are open after a unit. -/
def Lexeme.depthAfter (depth : Nat) : Lexeme → Nat
  | .opening _ => depth + 1
  | .closing _ => depth - 1
  | _ => depth

/-- The pieces of a row of units between the marks that stand outside all groups, when
so many groups are open in front of the row. -/
def splitOutside (mark : Lexeme) (depth : Nat) : List Lexeme → List (List Lexeme)
  | [] => [[]]
  | l :: ls =>
    if l = mark ∧ depth = 0 then [] :: splitOutside mark 0 ls
    else (splitOutside mark (l.depthAfter depth) ls).modifyHead (l :: ·)

/-- The items of a group; a comma may follow the last one. -/
def items (body : List Lexeme) : List (List Lexeme) :=
  let pieces := splitOutside .comma 0 body
  if pieces.getLast? = some [] then pieces.dropLast else pieces

/-- The units of a group in front of its closing bracket, which ends the row. -/
def body? (b : Bracket) (ls : List Lexeme) : Option (List Lexeme) :=
  if ls.getLast? = some (.closing b) then some ls.dropLast else none

/-! ## Outlines -/

/-- The names that are values of their own: they stand in front of no group. -/
def wordNames : List String :=
  ["true", "false", "None", "inf", "inff32", "inff64", "NaN", "NaNf32", "NaNf64"]

/-- The name of an option, in front of the one value that it holds in round brackets. -/
def optionName : String := "Some"

/-- Which brackets an option may leave out. -/
structure OptionStyle where
  /-- Whether the value may leave out its own: then the name of the option stands in
  front of a group like any other name. -/
  unwrapped : Bool
  /-- Whether the option may leave out its own: then its name stands in front of any
  value that does not begin with a round bracket. -/
  bare : Bool
  deriving DecidableEq, Repr

/-- What a row of units is as a value. -/
inductive Outline where
  | single (l : Lexeme)
  /-- A pair of round brackets with nothing in front and nothing inside. -/
  | unit
  | group (b : Bracket) (body : List Lexeme)
  /-- An option, by the units in its brackets. -/
  | option (body : List Lexeme)
  /-- An option without brackets, by the units of its value. -/
  | bareOption (value : List Lexeme)
  deriving DecidableEq, Repr

/-- The outline of a row of units. -/
def outline? (style : OptionStyle) : List Lexeme → Option Outline
  | [l] => some (.single l)
  | [.opening .round, .closing .round] => some .unit
  | .opening b :: ls => (body? b ls).map (.group b)
  | .name text raw :: .opening .round :: ls =>
    if raw then (body? .round ls).map (.group .round)
    else if text = optionName ∧ !style.unwrapped then (body? .round ls).map .option
    else if wordNames.contains text then none
    else (body? .round ls).map (.group .round)
  | .name text false :: ls =>
    if text = optionName ∧ style.bare then some (.bareOption ls) else none
  | _ => none

/-- Whether a single unit is a value. -/
def Lexeme.isValue : Lexeme → Bool
  | .name text raw => raw || text != optionName
  | .number word => isNumber word
  | .quoted => true
  | _ => false

/-! ## Values -/

/-- Whether a row of units is a value whose groups take at most so many levels: an
option takes one, any other group one for itself and one for its items. -/
def isValue (style : OptionStyle) (levels : Nat) (ls : List Lexeme) : Bool :=
  match levels, outline? style ls with
  | _, some (.single l) => l.isValue
  | _, some .unit => true
  | n + 1, some (.bareOption value) => isValue style n value
  | n + 1, some (.option body) =>
    match items body with
    | [value] => isValue style n value
    | _ => false
  | 1, some (.group _ body) => body.isEmpty
  | n + 2, some (.group .square body) => (items body).all (isValue style n)
  | n + 2, some (.group .curly body) => (items body).all fun item =>
    match splitOutside .colon 0 item with
    | [key, value] => isValue style n key && isValue style n value
    | _ => false
  | n + 2, some (.group .round body) =>
    (items body).all (isValue style n) || (items body).all fun item =>
      match splitOutside .colon 0 item with
      | [[.name _ _], value] => isValue style n value
      | _ => false
  | _, _ => false

end Record

end PostfixCalc
