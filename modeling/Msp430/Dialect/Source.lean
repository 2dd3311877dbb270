import Msp430.Dialect.Complaint
import Msp430.Numeral.Reader
import Msp430.ObjectCode
import Msp430.SymbolTable
import Msp430.Text.Blank
import Msp430.Text.Fields
import Msp430.Text.Lines

/-!
Source texts of the dialects.  Every statement takes two bytes, so one reading
of the text gives each statement its address and each label its value.  A label
is whatever stands before the first colon of a line.  The dialects differ in the
encoder that the statements are then given to.
-/

namespace Msp430
namespace Dialect

/-- A statement at its address. -/
structure Statement where
  command : String
  operands : List String
  address : Int
  deriving Repr, DecidableEq

/-- What the reading of a text has found so far. -/
structure Listing where
  symbols : SymbolTable
  counter : Int
  statements : List Statement
  complaints : List Complaint
  deriving Repr, DecidableEq

namespace Listing

def empty : Listing :=
  { symbols := SymbolTable.empty, counter := 0, statements := [], complaints := [] }

def complain (listing : Listing) (complaint : Complaint) : Listing :=
  { listing with complaints := listing.complaints ++ [complaint] }

/-- Bind a label to the counter; only its first definition counts. -/
def define (listing : Listing) (label : String) : Listing :=
  if listing.symbols.contains label then listing.complain (.duplicateLabel label)
  else { listing with symbols := listing.symbols.insert label listing.counter }

/-- `START` moves the counter; without an operand it goes to zero. -/
def startAt (listing : Listing) (operand : String) : Listing :=
  if operand = "" then { listing with counter := 0 }
  else
    match Numeral.hex? operand with
    | some address => { listing with counter := address }
    | none => listing.complain .badStart

/-- The operands of a field: its parts between commas, trimmed, without the
empty ones. -/
def operandsOf (field : List Char) : List String :=
  ((field.splitOn ',').map (fun part => String.ofList (Text.trim part))).filter
    (fun operand => operand != "")

/-- Give a statement its address. -/
def add (listing : Listing) (command : String) (field : List Char) : Listing :=
  { listing with
    counter := listing.counter + 2
    statements := listing.statements ++
      [{ command := command, operands := operandsOf field, address := listing.counter }] }

/-- Read the part of a line after its label.  The flag says whether reading
ends here. -/
def readStatement (listing : Listing) (text : List Char) : Listing × Bool :=
  match Text.firstWord text with
  | ([], _) => (listing, false)
  | (word, field) =>
      let command := String.ofList word
      if command = "START" then (listing.startAt (String.ofList field), false)
      else if command = "END" then
        ({ listing with symbols := listing.symbols.insert "END" listing.counter }, true)
      else (listing.add command field, false)

/-- Read a line without its comment. -/
def readLine (listing : Listing) (line : List Char) : Listing × Bool :=
  match Text.cut? ':' line with
  | some sides =>
      (listing.define (String.ofList (Text.trim sides.1))).readStatement sides.2
  | none => listing.readStatement line

/-- Read lines up to `END`. -/
def readLines (listing : Listing) : List (List Char) → Listing
  | [] => listing
  | line :: others =>
      match listing.readLine line with
      | (next, true) => next
      | (next, false) => next.readLines others

end Listing

/-- A text cannot be cut at a comment mark that is not there. -/
inductive Fault where
  | noCommentMark
  deriving Repr, DecidableEq

def Fault.message : Fault → String
  | .noCommentMark => "empty separator"

/-- Read a whole text.  Without a comment mark only a text without lines can be
read. -/
def readSource (commentMark : Option Char) (source : String) : Except Fault Listing :=
  match commentMark, Text.lines source.toList with
  | some mark, lines => .ok (Listing.empty.readLines (lines.map (Text.before mark)))
  | none, [] => .ok Listing.empty
  | none, _ => .error .noCommentMark

/-- The outcome of assembling a text. -/
structure Assembly where
  object : List String
  errors : List String
  symbols : SymbolTable
  deriving Repr, DecidableEq

/-- The words of a statement, or what is wrong with it. -/
abbrev Encoder :=
  Statement → Except Complaint (List ObjectWord)

/-- Encode statements, collecting words and complaints in order. -/
def Encoder.encodeAll (encoder : Encoder) :
    List Statement → List ObjectWord × List Complaint
  | [] => ([], [])
  | statement :: others =>
      let (words, complaints) := encoder.encodeAll others
      match encoder statement with
      | .ok found => (found ++ words, complaints)
      | .error complaint => (words, complaint :: complaints)

/-- Assemble what was read, with an encoder that knows the symbols. -/
def Listing.assemble (listing : Listing) (encoder : SymbolTable → Encoder) : Assembly :=
  let (words, complaints) := (encoder listing.symbols).encodeAll listing.statements
  { object := words.map ObjectWord.line
    errors := (listing.complaints ++ complaints).map Complaint.message
    symbols := listing.symbols }

end Dialect
end Msp430
