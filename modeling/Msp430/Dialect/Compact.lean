import Msp430.Dialect.Source
import Msp430.Register

/-!
The compact dialect: one word for every statement, into which the low bits of
the operand are packed.  The destination is written first.
-/

namespace Msp430
namespace Dialect
namespace Compact

inductive Arity where
  | two
  | one
  | zero
  deriving Repr, DecidableEq

/-- A command: the top four bits of its word and the operands it takes. -/
structure Command where
  nibble : Nat
  arity : Arity
  deriving Repr, DecidableEq

/-- What the compact dialect leaves open. -/
structure Settings where
  commentMark : Option Char
  daddArity : Arity
  deriving Repr, DecidableEq

def command? (settings : Settings) : String → Option Command
  | "MOV" => some { nibble := 0x1, arity := .two }
  | "ADD" => some { nibble := 0x2, arity := .two }
  | "SUB" => some { nibble := 0x3, arity := .two }
  | "CMP" => some { nibble := 0x4, arity := .two }
  | "JMP" => some { nibble := 0x5, arity := .one }
  | "JZ" => some { nibble := 0x6, arity := .one }
  | "JNZ" => some { nibble := 0x7, arity := .one }
  | "CALL" => some { nibble := 0x8, arity := .one }
  | "RET" => some { nibble := 0x9, arity := .zero }
  | "PUSH" => some { nibble := 0xa, arity := .one }
  | "POP" => some { nibble := 0xb, arity := .one }
  | "AND" => some { nibble := 0xc, arity := .two }
  | "OR" => some { nibble := 0xd, arity := .two }
  | "XOR" => some { nibble := 0xe, arity := .two }
  | "BIT" => some { nibble := 0xf, arity := .two }
  | "SWPB" => some { nibble := 0xd, arity := .one }
  | "DADD" => some { nibble := 0xd, arity := settings.daddArity }
  | "RRA" => some { nibble := 0xd, arity := .one }
  | "SXT" => some { nibble := 0xd, arity := .one }
  | _ => none

/-- An operand's mode bits and its number. -/
structure Value where
  mode : Nat
  number : Int
  deriving Repr, DecidableEq

/-- A number after `#`, a register, or a symbol. -/
def value (symbols : SymbolTable) (text : String) : Except Complaint Value :=
  match text.toList with
  | '#' :: rest =>
      match Numeral.hex? (String.ofList rest) with
      | some number => .ok { mode := 3, number := number }
      | none => .error (.badImmediate text)
  | _ =>
      match Register.ofName? text with
      | some register => .ok { mode := 0, number := (register.val : Int) }
      | none =>
          match symbols.find? text with
          | some number => .ok { mode := 4, number := number }
          | none => .error (.unknownOperand text)

/-- The word of a statement. -/
def encode (settings : Settings) (symbols : SymbolTable) (statement : Statement) :
    Except Complaint Int :=
  match command? settings statement.command with
  | none => .error (.unknownCommand statement.command)
  | some command =>
      match command.arity, statement.operands with
      | .two, [destination, source] =>
          match Register.ofName? destination with
          | none => .error (.destinationNoRegister destination)
          | some register =>
              match value symbols source with
              | .error complaint => .error complaint
              | .ok found =>
                  .ok (command.nibble * 4096 + register.val * 256 + found.mode * 16 +
                    found.number % 16)
      | .two, _ => .error (.needsTwoOperands statement.command)
      | .one, [operand] =>
          match value symbols operand with
          | .error complaint => .error complaint
          | .ok found =>
              .ok (command.nibble * 4096 + found.mode * 256 + found.number % 256)
      | .one, _ => .error (.needsOneOperand statement.command)
      | .zero, [] => .ok (command.nibble * 4096)
      | .zero, _ => .error (.takesNoOperand statement.command)

/-- The word of a statement at its address. -/
def encoder (settings : Settings) (symbols : SymbolTable) : Encoder :=
  fun statement =>
    (encode settings symbols statement).map
      (fun code => [{ address := statement.address, code := code }])

/-- Assemble a text. -/
def assemble (settings : Settings) (source : String) : Except Fault Assembly :=
  match readSource settings.commentMark source with
  | .error fault => .error fault
  | .ok listing => .ok (listing.assemble (encoder settings))

/-- `DADD` with a single operand. -/
def unary : Settings :=
  { commentMark := some ';', daddArity := .one }

/-- `DADD` with two operands. -/
def binary : Settings :=
  { commentMark := some ';', daddArity := .two }

/-- No comment mark at all. -/
def unmarked : Settings :=
  { commentMark := none, daddArity := .two }

end Compact
end Dialect
end Msp430
