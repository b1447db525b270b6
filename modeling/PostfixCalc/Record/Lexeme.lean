/-
# The units of records

A text is cut into names, numbers, quoted values, brackets and marks. Blanks and
comments separate units and have no other meaning. A comment runs to the end of its
line, or between marks that may be nested.

The rules are those of the host's store; see `PostfixCalc.Record`.
-/
import PostfixCalc.Record.Literal
import PostfixCalc.Text.Identifier

namespace PostfixCalc

namespace Record

/-! ## Units -/

/-- The kinds of brackets. -/
inductive Bracket where
  | round
  | square
  | curly
  deriving DecidableEq, Repr

/-- A unit of a text. -/
inductive Lexeme where
  /-- A name; a raw one is marked as such and never a word of the notation. -/
  | name (text : String) (raw : Bool)
  /-- A word that begins like a number. -/
  | number (word : List Char)
  | quoted
  | opening (b : Bracket)
  | closing (b : Bracket)
  | colon
  | comma
  | hash
  | bang
  deriving DecidableEq, Repr

namespace Lexeme

/-- The blanks that may stand between two units: tabs, line and page breaks, the
space, and the marks of direction. -/
def isBlank (c : Char) : Bool :=
  ('\t' ≤ c && c ≤ '\r') || c == ' ' || c == '\u0085' || c == '\u200e' || c == '\u200f' ||
    c == '\u2028' || c == '\u2029'

/-- The marks that stand in raw names and numbers alike. -/
def isSignOrPoint (c : Char) : Bool := c == '+' || c == '-' || c == '.'

/-- The characters that begin a number. -/
def isNumberStart (c : Char) : Bool := c.isDigit || isSignOrPoint c

/-- The characters of a number. -/
def isNumberPart (c : Char) : Bool := c.isAlphanum || c == '_' || isSignOrPoint c

/-- The characters of a raw name. -/
def isRawPart (c : Char) : Bool := Text.isNamePart c || isSignOrPoint c

/-- The unit that a mark of punctuation writes. -/
def ofPunctuation? : Char → Option Lexeme
  | '(' => some (opening .round)
  | ')' => some (closing .round)
  | '[' => some (opening .square)
  | ']' => some (closing .square)
  | '{' => some (opening .curly)
  | '}' => some (closing .curly)
  | ':' => some colon
  | ',' => some comma
  | '#' => some hash
  | '!' => some bang
  | _ => none

/-! ## The scan -/

/-- Where a scan stands between two characters. Characters of a unit so far are kept
with the last one first. -/
inductive Position where
  /-- Between two units. -/
  | outside
  /-- After a slash. -/
  | slash
  | lineComment
  /-- In a comment between marks, so many times nested, with the last character of it
  that no mark has used. -/
  | blockComment (depth : Nat) (last : Char)
  | inName (reversed : List Char)
  | inNumber (reversed : List Char)
  /-- After the mark of a raw name, which may also begin a raw text. -/
  | rawMark
  | inRawName (reversed : List Char)
  /-- In the hashes in front of a raw text. -/
  | hashes (count : Nat)
  /-- In a raw text that ends with a quotation mark and so many hashes; after a
  quotation mark, with the number of hashes since. -/
  | inRawText (count : Nat) (since? : Option Nat)
  | inLiteral (l : Literal) (place : Literal.Place)

namespace Position

/-- The position after a character that begins a unit, and the unit it completes. -/
def start? (c : Char) : Option (Position × List Lexeme) :=
  if isBlank c then some (.outside, [])
  else if c = '/' then some (.slash, [])
  else if isNumberStart c then some (.inNumber [c], [])
  else if Text.isNameStart c then some (.inName [c], [])
  else if c = '"' then some (.inLiteral .text .between, [])
  else if c = '\'' then some (.inLiteral .character .between, [])
  else (ofPunctuation? c).map fun l => (.outside, [l])

/-- The position after a character that ends a unit, and the units completed. -/
def startAfter? (l : Lexeme) (c : Char) : Option (Position × List Lexeme) :=
  (start? c).map fun (position, ls) => (position, l :: ls)

/-- The position after a character that ends a name. Some names are the marks of raw
names, raw texts and bytes. -/
def afterName? (reversed : List Char) (c : Char) : Option (Position × List Lexeme) :=
  match reversed, c with
  | ['r'], '#' => some (.rawMark, [])
  | ['r'], '"' => some (.inRawText 0 none, [])
  | ['r', 'b'], '#' => some (.hashes 1, [])
  | ['r', 'b'], '"' => some (.inRawText 0 none, [])
  | ['b'], '"' => some (.inLiteral .bytes .between, [])
  | ['b'], '\'' => some (.inLiteral .byte .between, [])
  | _, _ => startAfter? (.name (String.ofList reversed.reverse) false) c

/-- The position after a character of a comment between marks. -/
def inBlock (depth : Nat) (last c : Char) : Position :=
  if last = '/' ∧ c = '*' then .blockComment (depth + 1) ' '
  else if last = '*' ∧ c = '/' then
    if depth = 0 then .outside else .blockComment (depth - 1) ' '
  else .blockComment depth c

/-- The position after a character of a raw text, and the unit it completes. -/
def inRaw (count : Nat) (since? : Option Nat) (c : Char) : Position × List Lexeme :=
  let since? := if c = '"' then some 0 else if c = '#' then since?.map (· + 1) else none
  if since? = some count then (.outside, [quoted]) else (.inRawText count since?, [])

/-- The position after the next character, and the units it completes. -/
def advance? (c : Char) : Position → Option (Position × List Lexeme)
  | .outside => start? c
  | .slash =>
    if c = '/' then some (.lineComment, [])
    else if c = '*' then some (.blockComment 0 ' ', [])
    else none
  | .lineComment => some (if c = '\n' then .outside else .lineComment, [])
  | .blockComment depth last => some (inBlock depth last c, [])
  | .inName cs => if Text.isNamePart c then some (.inName (c :: cs), []) else afterName? cs c
  | .inNumber cs =>
    if isNumberPart c then some (.inNumber (c :: cs), [])
    else startAfter? (.number cs.reverse) c
  | .rawMark =>
    if c = '"' then some (.inRawText 1 none, [])
    else if c = '#' then some (.hashes 2, [])
    else if isRawPart c then some (.inRawName [c], [])
    else none
  | .inRawName cs =>
    if isRawPart c then some (.inRawName (c :: cs), [])
    else startAfter? (.name (String.ofList cs.reverse) true) c
  | .hashes count =>
    if c = '"' then some (.inRawText count none, [])
    else if c = '#' then some (.hashes (count + 1), [])
    else none
  | .inRawText count since? => some (inRaw count since? c)
  | .inLiteral l place =>
    if l.endsAt place c then some (.outside, [quoted])
    else (l.advance? c place).map fun next => (.inLiteral l next, [])

/-- The units that the end of a text completes, if the text may end at a position. -/
def finish? : Position → Option (List Lexeme)
  | .outside => some []
  | .lineComment => some []
  | .inName cs => some [.name (String.ofList cs.reverse) false]
  | .inNumber cs => some [.number cs.reverse]
  | .inRawName cs => some [.name (String.ofList cs.reverse) true]
  | _ => none

end Position

/-- The units of a text from a position on. -/
def scan? : Position → List Char → Option (List Lexeme)
  | position, [] => position.finish?
  | position, c :: cs => do
    let (next, ls) ← position.advance? c
    return ls ++ (← scan? next cs)

end Lexeme

end Record

end PostfixCalc
