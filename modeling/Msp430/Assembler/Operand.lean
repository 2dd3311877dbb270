import Msp430.Register
import Msp430.Text.Blank
import Msp430.Text.Fields

/-!
Operands as they are written.  The operand field of a statement has one or two
components; the first character of a component, or its shape, gives the
addressing mode.
-/

namespace Msp430
namespace Assembler

inductive Mode where
  | register
  | indexed
  | symbolic
  | absolute
  | indirect
  | indirectIncrement
  | immediate
  deriving Repr, DecidableEq

namespace Mode

/-- The two source mode bits of an instruction word. -/
def field : Mode → Nat
  | .register => 0
  | .indexed => 1
  | .symbolic => 1
  | .absolute => 1
  | .indirect => 2
  | .indirectIncrement => 3
  | .immediate => 3

/-- Immediate and absolute operands bring a word of their own. -/
def takesWord : Mode → Bool
  | .immediate => true
  | .absolute => true
  | _ => false

def title : Mode → String
  | .register => "REGISTER"
  | .indexed => "INDEXED"
  | .symbolic => "SYMBOLIC"
  | .absolute => "ABSOLUTE"
  | .indirect => "INDIRECT"
  | .indirectIncrement => "INDIRECT_INC"
  | .immediate => "IMMEDIATE"

end Mode

/-- One component: its mode and the text the mode applies to. -/
structure Operand where
  mode : Mode
  text : String
  deriving Repr, DecidableEq

namespace Operand

/-- Classify a component.  An empty one has no mode. -/
def ofText? (text : String) : Option Operand :=
  match text.toList with
  | [] => none
  | '#' :: rest => some { mode := .immediate, text := String.ofList rest }
  | '&' :: rest => some { mode := .absolute, text := String.ofList rest }
  | '@' :: rest =>
      if rest.getLast? = some '+' then
        some { mode := .indirectIncrement, text := String.ofList rest.dropLast }
      else
        some { mode := .indirect, text := String.ofList rest }
  | characters =>
      if (Register.ofName? text).isSome then some { mode := .register, text := text }
      else if characters.contains '(' && characters.contains ')' then
        some { mode := .indexed, text := text }
      else
        some { mode := .symbolic, text := text }

/-- Classify a component that may be absent. -/
def read? (component : Option String) : Option Operand :=
  component.bind ofText?

/-- The bytes that a component adds to its statement. -/
def extraBytes (operand : Option Operand) : Int :=
  match operand with
  | some written => if written.mode.takesWord then 2 else 0
  | none => 0

end Operand

/-- The source and destination components of an operand field.  Without a comma
the whole field is the source as it stands. -/
def components : Option String → Option String × Option String
  | none => (none, none)
  | some field =>
      match Text.cut? ',' field.toList with
      | none => (some field, none)
      | some sides =>
          (some (String.ofList (Text.trim sides.1)),
            some (String.ofList (Text.trim sides.2)))

end Assembler
end Msp430
