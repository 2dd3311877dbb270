import Msp430.Assembler.Operation
import Msp430.Assembler.State
import Msp430.Assembler.Statement

/-!
Layout: the statements of a text are placed one after the other.  Labels are
bound to the location counter, and the counter moves past each statement.
Layout stops at `END` or at the first fault.
-/

namespace Msp430
namespace Assembler

/-- Whether placement goes on after a statement. -/
inductive Flow where
  | running
  | ended
  | failed (fault : Fault)
  deriving Repr, DecidableEq

structure Progress where
  state : State
  flow : Flow
  deriving Repr, DecidableEq

namespace State

/-- `START` sets the start address and the counter; without an operand both
are zero. -/
def startAt (state : State) : Option String → Progress
  | none => { state := { state with start := 0, counter := 0 }, flow := .running }
  | some text =>
      match Numeral.hex? text with
      | some address =>
          { state := { state with start := address, counter := address }
            flow := .running }
      | none => { state := state, flow := .failed (.badNumeral text) }

/-- `END` fixes the program length. -/
def finish (state : State) : Progress :=
  { state := { state with length := state.counter - state.start }, flow := .ended }

/-- Move the counter past a statement and keep the statement. -/
def reserve (state : State) (statement : Statement) (bytes : Int) : State :=
  { state with counter := state.counter + bytes }.keep
    { label := statement.label
      opcode := statement.opcode
      operand := statement.operand
      location := state.counter + bytes }

/-- Place a statement whose label has been dealt with.  An unknown operation is
recorded and kept without room. -/
def perform (state : State) (statement : Statement) : Progress :=
  if statement.opcode = "START" then state.startAt statement.operand
  else if statement.opcode = "END" then state.finish
  else
    match Operation.ofName? statement.opcode with
    | some operation =>
        { state := state.reserve statement (operation.reserved statement.operand)
          flow := .running }
    | none =>
        { state := (state.record (.unknownInstruction statement.opcode)).reserve statement 0
          flow := .running }

/-- Place one statement.  A statement whose label is bound already is skipped
but for its diagnostic. -/
def place (state : State) (statement : Statement) : Progress :=
  match statement.symbol? with
  | none => state.perform statement
  | some name =>
      if state.symbols.contains name then
        { state := state.record (.duplicateSymbol name), flow := .running }
      else
        (state.bind name state.counter).perform statement

/-- Place statements up to the first that stops placement. -/
def placeAll (state : State) : List Statement → Progress
  | [] => { state := state, flow := .running }
  | statement :: others =>
      match state.place statement with
      | { state := next, flow := .running } => next.placeAll others
      | stopped => stopped

/-- Lay out a source text. -/
def layout (state : State) (source : String) : Progress :=
  state.placeAll (Statement.all source)

end State

/-- The fault that stopped placement. -/
def Progress.fault? (progress : Progress) : Option Fault :=
  match progress.flow with
  | .failed fault => some fault
  | _ => none

end Assembler
end Msp430
