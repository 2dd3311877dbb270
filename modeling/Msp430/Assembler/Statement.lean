import Msp430.Text.Blank
import Msp430.Text.Fields
import Msp430.Text.Lines

/-!
Statements.  A line is cut at its first semicolon and read as words.  A first
word that ends in a colon is a label; the next word is the operation and the
remaining words, joined by single spaces, are the operand field.
-/

namespace Msp430
namespace Assembler

structure Statement where
  label : Option String
  opcode : String
  operand : Option String
  deriving Repr, DecidableEq

namespace Statement

/-- Words as one field; no words are no field. -/
def field? : List String → Option String
  | [] => none
  | words => some (String.intercalate " " words)

/-- Read a statement from its first word and the others.  A label of colons
only is recorded as empty and does not separate the operation from it; a label
with nothing after it stands for its own operation. -/
def ofWords (first : String) (others : List String) : Statement :=
  if first.toList.getLast? = some ':' then
    let name := String.ofList (Text.trimBy (fun c => c == ':') first.toList)
    if name = "" then
      { label := some "", opcode := first, operand := field? others }
    else
      match others with
      | [] => { label := some name, opcode := first, operand := none }
      | opcode :: operands =>
          { label := some name, opcode := opcode, operand := field? operands }
  else
    { label := none, opcode := first, operand := field? others }

/-- The words of a line before its comment. -/
def wordsOf (line : List Char) : List String :=
  (Text.words (Text.before ';' line)).map String.ofList

/-- A line without words is no statement. -/
def ofLine? (line : List Char) : Option Statement :=
  match wordsOf line with
  | [] => none
  | first :: others => some (ofWords first others)

/-- The symbol that a statement defines: its label unless that is empty. -/
def symbol? (statement : Statement) : Option String :=
  statement.label.filter (fun name => name != "")

/-- The statements of a source text. -/
def all (source : String) : List Statement :=
  (Text.lines source.toList).filterMap ofLine?

end Statement
end Assembler
end Msp430
