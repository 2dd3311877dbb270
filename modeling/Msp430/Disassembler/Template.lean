import Msp430.Disassembler.Fault
import Msp430.Numeral.Writer
import Msp430.Register

/-!
Operand templates.  The mode bits and the register of an operand decide what is
printed for it and whether a further word of the instruction is put in.
-/

namespace Msp430
namespace Disassembler

/-- How the number of an operand is written. -/
inductive NumberFormat where
  | hex (width : Nat)
  | decimal
  deriving Repr, DecidableEq

namespace NumberFormat

def write : NumberFormat → Nat → String
  | .hex width, number => Numeral.hexField width number
  | .decimal, number => Numeral.decimal number

/-- The format as it stands in an unfilled template. -/
def spelling : NumberFormat → String
  | .hex width => Text.zeroFill 2 (Numeral.decimal width) ++ "x"
  | .decimal => "s"

end NumberFormat

inductive Template where
  | fixed (text : String)
  | number (opening : String) (format : NumberFormat) (closing : String)
  deriving Repr, DecidableEq

namespace Template

/-- Whether a word has to be put in. -/
def needsWord : Template → Bool
  | .fixed _ => false
  | .number _ _ _ => true

/-- The text with a number put in. -/
def fill (number : Nat) : Template → String
  | .fixed text => text
  | .number opening format closing => opening ++ format.write number ++ closing

/-- The unfilled template, its gap marked with a name. -/
def spelled (gap : String) : Template → String
  | .fixed text => text
  | .number opening format closing =>
      opening ++ "%(" ++ gap ++ ")" ++ format.spelling ++ closing

end Template

/-- The four source modes. -/
inductive SourceMode where
  | direct
  | indexed
  | indirect
  | increment
  deriving Repr, DecidableEq

/-- The mode of two bits. -/
def SourceMode.ofField? : Nat → Option SourceMode
  | 0 => some .direct
  | 1 => some .indexed
  | 2 => some .indirect
  | 3 => some .increment
  | _ => none

/-- What is printed for a source.  Registers 2 and 3 stand for constants in the
modes in which they are of no other use. -/
def sourceTemplate (byteWide : Bool) (mode : SourceMode) (register : Register) : Template :=
  match register.val, mode with
  | 2, .indirect => .fixed "#4"
  | 2, .increment => .fixed "#8"
  | 3, .direct => .fixed "#0"
  | 3, .indexed => .fixed "#1"
  | 3, .indirect => .fixed "#2"
  | 3, .increment => .fixed (if byteWide then "#0xff" else "#0xffff")
  | _, .direct => .fixed register.shown
  | 0, .indexed => .number "0x" (.hex 4) ""
  | 2, .indexed => .number "&0x" (.hex 4) ""
  | _, .indexed => .number "0x" (.hex 4) ("(" ++ register.shown ++ ")")
  | _, .indirect => .fixed ("@" ++ register.shown)
  | 0, .increment => .number "#0x" (.hex (if byteWide then 2 else 4)) ""
  | _, .increment => .fixed ("@" ++ register.shown ++ "+")

/-- An indexed source is read from memory. -/
def sourceCycles (mode : SourceMode) (register : Register) : Nat :=
  if mode = .indexed ∧ register.val ≠ 3 then 1 else 0

/-- What is printed for a destination. -/
def destinationTemplate (indexed : Bool) (register : Register) : Template :=
  if indexed then
    match register.val with
    | 0 => .number "0x" (.hex 4) ""
    | 2 => .number "&0x" (.hex 4) ""
    | _ => .number "" .decimal ("(" ++ register.shown ++ ")")
  else .fixed register.shown

/-- A memory destination is read and written; a new program counter costs one
cycle unless the source was indexed. -/
def destinationCycles (indexed : Bool) (register : Register) (source : Option SourceMode) :
    Nat :=
  if indexed then 2
  else if register.val = 0 ∧ source ≠ some .indexed then 1
  else 0

/-- Both operands of an instruction as its fields describe them. -/
structure OperandFields where
  byteWide : Bool
  source : Option (Nat × Register)
  destination : Option (Bool × Register)
  deriving Repr, DecidableEq

/-- The templates and the cycles of the operands that are there. -/
structure OperandPlan where
  source : Option Template
  destination : Option Template
  cycles : Nat
  deriving Repr, DecidableEq

/-- The mode of a source field of any width. -/
def sourceMode (field : Nat) (register : Register) : Except Fault SourceMode :=
  match SourceMode.ofField? field with
  | some mode => .ok mode
  | none =>
      if register.val = 2 ∨ register.val = 3 then .error .noSuchConstant
      else .error .badAddressingMode

/-- The destination half of a plan. -/
def OperandFields.withDestination (fields : OperandFields) (source : Option Template)
    (mode : Option SourceMode) (cycles : Nat) : OperandPlan :=
  match fields.destination with
  | none => { source := source, destination := none, cycles := cycles }
  | some (indexed, register) =>
      { source := source
        destination := some (destinationTemplate indexed register)
        cycles := cycles + destinationCycles indexed register mode }

/-- Plan the operands of an instruction. -/
def OperandFields.plan (fields : OperandFields) : Except Fault OperandPlan :=
  match fields.source with
  | none => .ok (fields.withDestination none none 0)
  | some (field, register) =>
      match sourceMode field register with
      | .error fault => .error fault
      | .ok mode =>
          .ok (fields.withDestination (some (sourceTemplate fields.byteWide mode register))
            (some mode) (sourceCycles mode register))

end Disassembler
end Msp430
