import Msp430.Disassembler.Peripherals
import Msp430.Text.Columns

/-!
Instructions as they are shown.  Some combinations of operation and operands
have a name of their own; they are shown under it, without the operand that the
name implies.
-/

namespace Msp430
namespace Disassembler

structure Instruction where
  name : String
  size : String
  source : Option String
  destination : Option String
  deriving Repr, DecidableEq

namespace Instruction

/-- A name of its own for an operation with these operands, and the destination
that is still shown. -/
def ownName? (name : String) (source destination : Option String) :
    Option (String × Option String) :=
  match name with
  | "add" => additive ""
  | "addx" => additive "x"
  | "addc" => carrying ""
  | "addcx" => carrying "x"
  | "dadd" => bySource "#0" "dadc"
  | "daddx" => bySource "#0" "dadcx"
  | "sub" => subtractive ""
  | "subx" => subtractive "x"
  | "subc" => bySource "#0" "sbc"
  | "subcx" => bySource "#0" "sbcx"
  | "xor" => bySource "#-1" "inv"
  | "xorx" => bySource "#-1" "invx"
  | "mov" => moving ""
  | "movx" => moving "x"
  | "bic" => status "dint" "clrc" "clrn" "clrz"
  | "bis" => status "eint" "setc" "setn" "setz"
  | "cmp" => bySource "#0" "tst"
  | "cmpx" => bySource "#0" "tstx"
  | "suba" => bySource "#2" "decda"
  | "adda" => bySource "#2" "incda"
  | "cmpa" => bySource "#0" "tsta"
  | "mova" =>
      if source = some "#0" then some ("clra", destination)
      else if source = some "@SP+" ∧ destination = some "PC" then some ("reta", none)
      else if destination = some "PC" then some ("bra", source)
      else none
  | _ => none
where
  /-- One source gives the name. -/
  bySource (implied own : String) : Option (String × Option String) :=
    if source = some implied then some (own, destination) else none
  /-- Additions of one and two and of an operand to itself. -/
  additive (suffix : String) : Option (String × Option String) :=
    if source = some "#1" then some ("inc" ++ suffix, destination)
    else if source = some "#2" then some ("incd" ++ suffix, destination)
    else if source = destination then some ("rla" ++ suffix, destination)
    else none
  /-- Additions with carry of zero and of an operand to itself. -/
  carrying (suffix : String) : Option (String × Option String) :=
    if source = some "#0" then some ("adc" ++ suffix, destination)
    else if source = destination then some ("rlc" ++ suffix, destination)
    else none
  /-- Subtractions of one and two. -/
  subtractive (suffix : String) : Option (String × Option String) :=
    if source = some "#1" then some ("dec" ++ suffix, destination)
    else if source = some "#2" then some ("decd" ++ suffix, destination)
    else none
  /-- Moves of zero, from the stack, and to the program counter. -/
  moving (suffix : String) : Option (String × Option String) :=
    if source = some "#0" then
      if destination = some "R3" then some ("nop", none)
      else some ("clr" ++ suffix, destination)
    else if source = some "@SP+" then
      if destination = some "PC" then some ("ret" ++ suffix, none)
      else some ("pop" ++ suffix, destination)
    else if destination = some "PC" then some ("br", source)
    else none
  /-- Single bits of the status register. -/
  status (interrupt carry negative zero : String) : Option (String × Option String) :=
    if destination = some "SR" then
      if source = some "#8" then some (interrupt, none)
      else if source = some "#1" then some (carry, none)
      else if source = some "#4" then some (negative, none)
      else if source = some "#2" then some (zero, none)
      else none
    else none

/-- Show an instruction under its own name, if it has one. -/
def underOwnName (instruction : Instruction) : Instruction :=
  match ownName? instruction.name instruction.source instruction.destination with
  | some (name, destination) =>
      { instruction with name := name, source := none, destination := destination }
  | none => instruction

/-- Name an operand's address unless the operand is absent or empty. -/
def nameOperand (table : Peripherals) (operand : Option String) :
    Except Fault (Option String) :=
  match operand with
  | none => .ok none
  | some "" => .ok (some "")
  | some text => (table.nameAddress text).map some

/-- Put in the names of peripheral registers: first the destination, then the
source, then the bits that the source sets in the destination. -/
def withNames (table : Peripherals) (instruction : Instruction) :
    Except Fault Instruction :=
  match nameOperand table instruction.destination with
  | .error fault => .error fault
  | .ok destination =>
      match nameOperand table instruction.source with
      | .error fault => .error fault
      | .ok none => .ok { instruction with destination := destination }
      | .ok (some "") => .ok { instruction with destination := destination }
      | .ok (some source) =>
          match destination with
          | none => .error .noDestination
          | some target =>
              match table.nameImmediate source target with
              | .error fault => .error fault
              | .ok named =>
                  .ok { instruction with source := some named, destination := destination }

/-- An instruction as it is shown. -/
def make (table : Option Peripherals) (name size : String)
    (source destination : Option String) : Except Fault Instruction :=
  let plain : Instruction :=
    { name := name, size := size, source := source, destination := destination }
  match table with
  | none => .ok plain.underOwnName
  | some peripherals => plain.underOwnName.withNames peripherals

/-- The column of the mnemonic. -/
def mnemonicWidth : Nat := 7

/-- The text of an instruction. -/
def text (instruction : Instruction) : String :=
  match instruction.source, instruction.destination with
  | some source, some destination =>
      Text.padRight mnemonicWidth (instruction.name ++ instruction.size) ++ " " ++ source ++
        ", " ++ destination
  | none, some destination =>
      Text.padRight mnemonicWidth (instruction.name ++ instruction.size) ++ " " ++ destination
  | _, none => Text.padRight mnemonicWidth instruction.name

/-- Whether an instruction goes to a known address. -/
def jumps (instruction : Instruction) : Except Fault Bool :=
  if instruction.name = "call" ∨ instruction.destination = some "PC" then
    match instruction.destination with
    | none => .error .noDestination
    | some destination =>
        match destination.toList with
        | [] => .error .emptyDestination
        | first :: _ => .ok (first == '#')
  else .ok false

/-- Where a call or branch goes, `next` being the address a relative destination
counts from. -/
def target (instruction : Instruction) (next : Int) : Except Fault Int :=
  if instruction.name = "call" ∨ instruction.name = "br" then
    match instruction.destination with
    | none => .error .noDestination
    | some destination =>
        match destination.toList with
        | [] => .error .emptyDestination
        | '#' :: rest => literal (String.ofList rest)
        | _ => (literal destination).map (fun distance => next + distance)
  else .error .notBranching

/-- The text with a label for the target. -/
def labelled (instruction : Instruction) (label : String) : Except Fault String :=
  match instruction.jumps with
  | .error fault => .error fault
  | .ok false => .error .notJumping
  | .ok true =>
      match instruction.source, instruction.destination.map String.toList with
      | none, some ('#' :: _) =>
          .ok (Text.padRight mnemonicWidth instruction.name ++ " #" ++ label)
      | _, _ => .error .notDestinationOnly

/-- Whether execution does not go on after an instruction. -/
def endsBlock (instruction : Instruction) : Bool :=
  instruction.name = "ret" || instruction.name = "reti" || instruction.name = "br" ||
    instruction.name = "bra"

end Instruction

/-- A decoded instruction; a relative jump keeps its offset in bytes. -/
inductive Decoded where
  | plain (instruction : Instruction)
  | jump (name : String) (offset : Int)
  deriving Repr, DecidableEq

namespace Decoded

/-- A jump as it is shown.  It has no operands but may have a name of its own. -/
def makeJump (name : String) (offset : Int) : Decoded :=
  .jump ((Instruction.ownName? name none none).elim name Prod.fst) offset

def name : Decoded → String
  | .plain instruction => instruction.name
  | .jump name _ => name

def source : Decoded → Option String
  | .plain instruction => instruction.source
  | .jump _ _ => none

def destination : Decoded → Option String
  | .plain instruction => instruction.destination
  | .jump _ _ => none

def text : Decoded → String
  | .plain instruction => instruction.text
  | .jump name offset =>
      Text.padRight Instruction.mnemonicWidth name ++ " " ++ Numeral.signedDecimal offset

def jumps : Decoded → Except Fault Bool
  | .plain instruction => instruction.jumps
  | .jump _ _ => .ok true

def target (decoded : Decoded) (next : Int) : Except Fault Int :=
  match decoded with
  | .plain instruction => instruction.target next
  | .jump _ offset => .ok (next + offset)

def labelled (decoded : Decoded) (label : String) : Except Fault String :=
  match decoded with
  | .plain instruction => instruction.labelled label
  | .jump name _ => .ok (Text.padRight Instruction.mnemonicWidth name ++ " " ++ label)

def endsBlock : Decoded → Bool
  | .plain instruction => instruction.endsBlock
  | .jump name _ => name = "jmp"

end Decoded
end Disassembler
end Msp430
