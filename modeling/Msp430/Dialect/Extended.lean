import Msp430.Dialect.Source
import Msp430.Register

/-!
The extended dialect: immediate and symbolic operands bring a word of their own,
and jumps hold a checked relative offset.  Addresses are still two bytes apart,
whatever a statement brings along.
-/

namespace Msp430
namespace Dialect
namespace Extended

inductive Command where
  | dual (nibble : Nat)
  | single (nibble : Nat)
  | jump (condition : Nat)
  | bare (nibble : Nat)
  deriving Repr, DecidableEq

def command? : String → Option Command
  | "MOV" => some (.dual 0x4)
  | "ADD" => some (.dual 0x5)
  | "SUB" => some (.dual 0x6)
  | "CMP" => some (.dual 0x7)
  | "AND" => some (.dual 0x8)
  | "OR" => some (.dual 0x9)
  | "XOR" => some (.dual 0xa)
  | "DADD" => some (.dual 0xb)
  | "BIT" => some (.dual 0xc)
  | "PUSH" => some (.single 0x1)
  | "POP" => some (.single 0x2)
  | "SWPB" => some (.single 0x3)
  | "RRA" => some (.single 0x4)
  | "SXT" => some (.single 0x5)
  | "JMP" => some (.jump 0)
  | "JZ" => some (.jump 1)
  | "JNZ" => some (.jump 2)
  | "CALL" => some (.jump 3)
  | "RET" => some (.bare 0x0)
  | _ => none

/-- An operand: register bits, mode bits and the words it brings along. -/
structure Operand where
  register : Nat
  mode : Nat
  words : List Int
  deriving Repr, DecidableEq

/-- A number after `#`, a register, or a symbol; `unknown` is the complaint
about anything else. -/
def operand (symbols : SymbolTable) (unknown : Complaint) (text : String) :
    Except Complaint Operand :=
  match text.toList with
  | '#' :: rest =>
      match Numeral.hex? (String.ofList rest) with
      | some number => .ok { register := 3, mode := 3, words := [number % 65536] }
      | none => .error (.badImmediate text)
  | _ =>
      match Register.ofFullName? text with
      | some register => .ok { register := register.val, mode := 0, words := [] }
      | none =>
          match symbols.find? text with
          | some number => .ok { register := 0, mode := 1, words := [number % 65536] }
          | none => .error unknown

/-- The address a jump goes to: a symbol's, else a number. -/
def target? (symbols : SymbolTable) (text : String) : Option Int :=
  match symbols.find? text with
  | some address => some address
  | none => Numeral.hex? text

/-- A jump word, unless its offset in words does not fit ten bits. -/
def jump (symbols : SymbolTable) (command : String) (condition : Nat) (text : String)
    (address : Int) : Except Complaint Int :=
  match target? symbols text with
  | none => .error (.badTarget command text)
  | some target =>
      let offset := (target - (address + 2)) / 2
      if offset < -512 ∨ 511 < offset then .error (.offsetOutOfRange command offset)
      else .ok (0x2000 + condition * 1024 + offset % 1024)

/-- The words of a statement. -/
def encode (symbols : SymbolTable) (statement : Statement) : Except Complaint (List Int) :=
  let name := statement.command
  match command? name with
  | none => .error (.unsupportedCommand name)
  | some (.dual nibble) =>
      match statement.operands with
      | [destination, source] =>
          match Register.ofFullName? destination with
          | none => .error (.commandDestinationNoRegister name destination)
          | some register =>
              match operand symbols (.commandUnknownSource name source) source with
              | .error complaint => .error complaint
              | .ok found =>
                  .ok (((nibble * 4096 + found.register * 256 + register.val * 16 +
                    found.mode * 4 : Nat) : Int) :: found.words)
      | _ => .error (.needsTwoOperands name)
  | some (.single nibble) =>
      match statement.operands with
      | [text] =>
          match operand symbols (.commandUnknownOperand name text) text with
          | .error complaint => .error complaint
          | .ok found =>
              .ok (((nibble * 4096 + found.register * 256 + found.mode * 16 : Nat) : Int) ::
                found.words)
      | _ => .error (.needsOneOperand name)
  | some (.jump condition) =>
      match statement.operands with
      | [text] => (jump symbols name condition text statement.address).map (fun word => [word])
      | _ => .error (.needsTarget name)
  | some (.bare nibble) =>
      match statement.operands with
      | [] => .ok [(nibble * 4096 : Nat)]
      | _ => .error (.takesNoOperand name)

/-- Words at an address and the even addresses after it. -/
def locate (address : Int) : List Int → List ObjectWord
  | [] => []
  | code :: others => { address := address, code := code } :: locate (address + 2) others

/-- The words of a statement from its address on. -/
def encoder (symbols : SymbolTable) : Encoder :=
  fun statement => (encode symbols statement).map (locate statement.address)

/-- Assemble a text.  A semicolon opens a comment. -/
def assemble (source : String) : Assembly :=
  (Listing.empty.readLines ((Text.lines source.toList).map (Text.before ';'))).assemble encoder

/-- A program to show the dialect with. -/
def sample : String :=
  "\n        START 0x4400\n        LOOP: MOV R5, #0x3A\n              ADD R5, COUNT\n" ++
  "              JZ ENDLOOP\n              JMP LOOP\n        COUNT: .DATA 0x0005\n" ++
  "        ENDLOOP: RET\n        END\n    "

/-- What is printed after assembling a program: its errors or its words. -/
def printed (assembly : Assembly) : String :=
  if assembly.errors.isEmpty then "Makine kodu:\n" ++ Text.unlines assembly.object
  else "Derleme hataları:\n" ++ Text.unlines assembly.errors

end Extended
end Dialect
end Msp430
