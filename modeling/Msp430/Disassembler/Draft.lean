import Msp430.Disassembler.Instruction
import Msp430.Disassembler.Template

/-!
What an instruction word announces: a jump, an instruction whose operands may
still need words, or an extension of the word that follows.
-/

namespace Msp430
namespace Disassembler

/-- An instruction before its operand words are read.  `cycles` counts beyond one
for each word; the high parts are put above the operand words. -/
structure Draft where
  name : String
  size : String
  source : Option Template
  destination : Option Template
  sourceHigh : Nat
  destinationHigh : Nat
  operandsShown : Bool
  cycles : Nat
  deriving Repr, DecidableEq

inductive Announcement where
  | jump (name : String) (offset : Int)
  | instruction (draft : Draft)
  | extension
  deriving Repr, DecidableEq

namespace Draft

/-- A draft without extension. -/
def ofTemplates (name : String) (source destination : Option Template) (cycles : Nat) :
    Draft :=
  { name := name
    size := ""
    source := source
    destination := destination
    sourceHigh := 0
    destinationHigh := 0
    operandsShown := true
    cycles := cycles }

/-- A word that is no instruction. -/
def illegal (opcode : Nat) : Draft :=
  ofTemplates ("illegal-insn-0x" ++ Numeral.hexField 4 opcode) none none 0

end Draft

/-- The register in the four bits from `shift` on. -/
def registerAt (opcode shift : Nat) : Register :=
  ⟨opcode / Nat.pow 2 shift % 16, Nat.mod_lt _ (by decide)⟩

/-- The source mode in bits four and five. -/
def modeOf (opcode : Nat) : SourceMode :=
  (SourceMode.ofField? (opcode / 16 % 4)).getD .direct

/-- The width of an operation: bit six of an extension word, or one without
extension, and bit six of the instruction. -/
def sizeName (extension : Option Nat) (byteWide : Bool) : String :=
  let long := match extension with
    | some word => word / 64 % 2 == 0
    | none => false
  match long, byteWide with
  | false, true => ".b"
  | false, false => ""
  | true, true => ".a"
  | true, false => ".illegal"

/-- Operations with an extension word have a name in `x`. -/
def extendedName (extension : Option Nat) (name : String) : String :=
  if extension.isSome then name ++ "x" else name

/-- The repetitions an extension word asks of a register operation. -/
def repetitionCycles (extension : Option Nat) (registersOnly : Bool) : Nat :=
  match extension with
  | some word => if registersOnly then 1 + word % 16 else 0
  | none => 0

/-- The single-operand operations and the cycles they add. -/
def singleOperation : Nat → String × Nat
  | 0 => ("rrc", 0)
  | 1 => ("swpb", 0)
  | 2 => ("rra", 0)
  | 3 => ("sxt", 0)
  | 4 => ("push", 1)
  | 5 => ("call", 1)
  | _ => ("reti", 3)

/-- The cycles of a single operand by mode.  Constants from registers 2 and 3
count apart. -/
def singleOperandCycles (name : String) (mode : SourceMode) (register : Register) : Nat :=
  if register.val = 2 ∨ register.val = 3 then
    if name = "push" then 1 else if name = "call" then 3 else 0
  else
    match mode with
    | .direct =>
        (if register.val = 0 then 1 else 0) +
          (if name = "push" ∨ name = "call" then 2 else 0)
    | .indexed => 1
    | .indirect => 1
    | .increment => 1 + (if name = "call" then 1 else 0)

/-- An instruction with one operand.  A return from interrupt reads the operand
its bits announce and does not show it. -/
def singleDraft (extension : Option Nat) (opcode : Nat) : Draft :=
  let byteWide := opcode / 64 % 2 == 1
  let mode := modeOf opcode
  let register := registerAt opcode 0
  let (operation, added) := singleOperation (opcode / 128 % 32)
  let name := extendedName extension operation
  { name := name
    size := sizeName extension byteWide
    source := none
    destination := some (sourceTemplate byteWide mode register)
    sourceHigh := 0
    destinationHigh := 0
    operandsShown := name != "reti"
    cycles := sourceCycles mode register + added +
      repetitionCycles extension (mode == .direct) +
      singleOperandCycles name mode register }

/-- The two-operand operations. -/
def dualOperation : Nat → String
  | 4 => "mov"
  | 5 => "add"
  | 6 => "addc"
  | 7 => "subc"
  | 8 => "sub"
  | 9 => "cmp"
  | 10 => "dadd"
  | 11 => "bit"
  | 12 => "bic"
  | 13 => "bis"
  | 14 => "xor"
  | _ => "and"

/-- An instruction with two operands. -/
def dualDraft (extension : Option Nat) (opcode : Nat) : Draft :=
  let byteWide := opcode / 64 % 2 == 1
  let indexed := opcode / 128 % 2 == 1
  let mode := modeOf opcode
  let source := registerAt opcode 8
  let destination := registerAt opcode 0
  let registersOnly := mode == .direct && !indexed
  let high := if registersOnly then none else extension
  { name := extendedName extension (dualOperation (opcode / 4096))
    size := sizeName extension byteWide
    source := some (sourceTemplate byteWide mode source)
    destination := some (destinationTemplate indexed destination)
    sourceHigh := high.elim 0 (fun word => word / 128 % 16)
    destinationHigh := high.elim 0 (fun word => word % 16)
    operandsShown := true
    cycles := sourceCycles mode source + destinationCycles indexed destination (some mode) +
      repetitionCycles extension registersOnly }

/-- The jumps by condition. -/
def jumpName : Nat → String
  | 0 => "jnz"
  | 1 => "jz"
  | 2 => "jnc"
  | 3 => "jc"
  | 4 => "jn"
  | 5 => "jge"
  | 6 => "jl"
  | _ => "jmp"

/-- The offset of a jump word in bytes: its low ten bits, with sign, doubled. -/
def jumpDistance (opcode : Nat) : Int :=
  let field : Int := (opcode % 1024 : Nat)
  if field < 512 then 2 * field else 2 * field - 2048

/-- Rotations of several places. -/
def rotation : Nat → String
  | 0 => "rrcm"
  | 1 => "rram"
  | 2 => "rlam"
  | _ => "rrum"

/-- A template for a number of twenty bits. -/
def addressTemplate (opening : String) : Template :=
  .number opening (.hex 8) ""

/-- Instructions on twenty-bit addresses, whose top four bits are zero. -/
def addressDraft (opcode : Nat) : Draft :=
  let first := registerAt opcode 8
  let second := registerAt opcode 0
  let toCounter := if second.val = 0 then 2 else 0
  let immediate (name : String) (cycles : Nat) : Draft :=
    { Draft.ofTemplates name (some (addressTemplate "#0x")) (some (.fixed second.shown)) cycles
      with sourceHigh := first.val }
  let registers (name : String) (cycles : Nat) : Draft :=
    Draft.ofTemplates name (some (.fixed first.shown)) (some (.fixed second.shown)) cycles
  let rotate (size : String) : Draft :=
    let places := opcode / 1024 % 4
    Draft.ofTemplates (rotation (opcode / 256 % 4) ++ size)
      (some (.fixed ("#" ++ Numeral.decimal places))) (some (.fixed second.shown))
      (toCounter + places)
  match opcode / 16 % 16 with
  | 0 =>
      Draft.ofTemplates "mova" (some (.fixed ("@" ++ first.shown)))
        (some (.fixed second.shown)) toCounter
  | 1 =>
      Draft.ofTemplates "mova" (some (.fixed ("@" ++ first.shown ++ "+")))
        (some (.fixed second.shown)) toCounter
  | 2 =>
      { Draft.ofTemplates "mova" (some (addressTemplate "&0x")) (some (.fixed second.shown))
          toCounter
        with sourceHigh := first.val }
  | 3 =>
      Draft.ofTemplates "mova" (some (.number "0x" (.hex 4) ("(" ++ first.shown ++ ")")))
        (some (.fixed second.shown)) toCounter
  | 4 => rotate ".a"
  | 5 => rotate ".w"
  | 6 =>
      { Draft.ofTemplates "mova" (some (.fixed first.shown)) (some (addressTemplate "&0x"))
          toCounter
        with destinationHigh := second.val }
  | 7 =>
      Draft.ofTemplates "mova" (some (.fixed first.shown))
        (some (.number "" (.hex 4) ("(" ++ second.shown ++ ")"))) 0
  | 8 => immediate "mova" toCounter
  | 9 => immediate "cmpa" 0
  | 10 => immediate "adda" toCounter
  | 11 => immediate "suba" toCounter
  | 12 => registers "mova" toCounter
  | 13 => registers "cmpa" 0
  | 14 => registers "adda" toCounter
  | _ => registers "suba" toCounter

/-- Calls to twenty-bit addresses, and a return from interrupt. -/
def callDraft (opcode : Nat) : Draft :=
  let register := registerAt opcode 0
  let call (operand : Template) : Draft := Draft.ofTemplates "calla" none (some operand) 0
  let farCall (opening : String) : Draft :=
    { call (addressTemplate opening) with destinationHigh := register.val }
  if opcode = 0x1300 then Draft.ofTemplates "reti" none none 0
  else
    match opcode / 16 % 16 with
    | 4 => call (.fixed register.shown)
    | 5 => call (.number "0x" (.hex 4) ("(" ++ register.shown ++ ")"))
    | 6 => call (.fixed ("@" ++ register.shown))
    | 7 => call (.fixed ("@" ++ register.shown ++ "+"))
    | 8 => farCall "&0x"
    | 9 => farCall "0x"
    | 11 => farCall "#0x"
    | _ => Draft.illegal opcode

/-- Several registers to or from the stack. -/
def stackDraft (opcode : Nat) : Draft :=
  let name := match opcode / 256 % 16 with
    | 4 => "pushm.a"
    | 5 => "pushm.w"
    | 6 => "pop.a"
    | _ => "pop.w"
  Draft.ofTemplates name (some (.fixed ("#" ++ Numeral.decimal (opcode / 16 % 16 : Nat))))
    (some (.fixed (registerAt opcode 0).shown)) 0

/-- Read an instruction word.  `wide` admits the instructions on twenty-bit
addresses and extension words. -/
def announce (wide : Bool) (extension : Option Nat) (opcode : Nat) : Announcement :=
  if 0x4000 ≤ opcode then .instruction (dualDraft extension opcode)
  else if 0x2000 ≤ opcode then
    .jump (jumpName (opcode / 1024 % 8)) (jumpDistance opcode)
  else if 0x1000 ≤ opcode ∧ opcode < 0x1380 then .instruction (singleDraft extension opcode)
  else if wide = false then .instruction (Draft.illegal opcode)
  else if opcode < 0x1000 then .instruction (addressDraft opcode)
  else if opcode < 0x1400 then .instruction (callDraft opcode)
  else if opcode < 0x1800 then .instruction (stackDraft opcode)
  else .extension

end Disassembler
end Msp430
