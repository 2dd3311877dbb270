import Msp430.Assembler.Operation
import Msp430.Numeral.Writer
import Msp430.Text.Lines

/-!
Programs to load the assembler with: two fixed ones and some that grow with a
size.
-/

namespace Msp430
namespace Workload

/-- The text of a number in names and operands. -/
def number (value : Nat) : String :=
  Numeral.decimal value

def register (value : Nat) : String :=
  "R" ++ number (value % 16)

/-- The lines of a correct program that uses every operation, without its end and without
most of its comments.  The tag stands behind each label. -/
def sampleLines (tag : String) : List String :=
  ["START 1000",
   "; Format I — two-operand instructions, every addressing mode",
   "MOV   R2, R3",
   "ADD   #1234, R4",
   "ADDC  R1, R2",
   "SUBC  R3, R4",
   "SUB   &5678, R5",
   "CMP   @R6, R7",
   "DADD  R8, R9",
   "BIT   R1, R2",
   "BIC   R3, R4",
   "XOR   0x20(R10), R11",
   "BIS   DATA1" ++ tag ++ ", R12",
   "AND   @R13+, R14",
   "MOV   R1, &00AA",
   "MOV   R1, DATA1" ++ tag,
   "ADD   R1, @R2+",
   "RRC   R15",
   "SWPB  R0",
   "RRA   R1",
   "SXT   R2",
   "PUSH  R3",
   "CALL  SUBRTN" ++ tag,
   "RET",
   "JNE   LAB2" ++ tag,
   "JEQ   LAB3" ++ tag,
   "JNC   LAB4" ++ tag,
   "JC    LAB5" ++ tag,
   "JN    LAB6" ++ tag,
   "JGE   LAB7" ++ tag,
   "JL    LAB8" ++ tag,
   "JMP   LAB9" ++ tag,
   "DATA1" ++ tag ++ ": .DATA 0x55",
   "LAB2" ++ tag ++ ": MOV  R2, R3",
   "LAB3" ++ tag ++ ": ADD  R4, R5",
   "LAB4" ++ tag ++ ": SUB  R6, R7",
   "LAB5" ++ tag ++ ": CMP  R8, R9",
   "LAB6" ++ tag ++ ": DADD R10, R11",
   "LAB7" ++ tag ++ ": BIT  R12, R13",
   "LAB8" ++ tag ++ ": BIC  R14, R15",
   "LAB9" ++ tag ++ ": BIS  R0, R1",
   "SUBRTN" ++ tag ++ ": RET",
   ".ORG  0x2000",
   ".CODE",
   ""]

/-- A correct program, its labels tagged. -/
def taggedSample (tag : String) : String :=
  Text.unlines (sampleLines tag ++ ["END"])

def sample : String :=
  taggedSample ""

/-- A program with one fault of each kind. -/
def faulty : String :=
  Text.unlines
    ["START 2000", "DUP: MOV R1, R2", "DUP: MOV R1, R2", "FOO R1, R2",
     "MOV UNKNOWN, ALSO_UNKNOWN", "ADD R1,", "MOV R1", "END"]

/-- The sample followed by `size` more statements of one word. -/
def extendedSample (size : Nat) : String :=
  Text.unlines
    (sampleLines "" ++
      (List.range size).map (fun index =>
        "MOV   " ++ register index ++ ", " ++ register (index + 5)) ++
      ["END"])

/-- One line, its addressing mode chosen by the line's number. -/
def addressingLine (index : Nat) : String :=
  let source := register index
  let destination := register (index + 3)
  let value := "00" ++ Numeral.upperHex (index % 16 : Nat) ++
    Numeral.upperHex ((index + 3) % 16 : Nat)
  match index % 8 with
  | 0 => "MOV " ++ source ++ ", " ++ destination
  | 1 => "ADD #" ++ value ++ ", " ++ destination
  | 2 => "SUB &" ++ value ++ ", " ++ destination
  | 3 => "CMP @" ++ source ++ ", " ++ destination
  | 4 => "AND @" ++ source ++ "+, " ++ destination
  | 5 => "XOR 0x" ++ value ++ "(" ++ source ++ "), " ++ destination
  | 6 => "BIC " ++ source ++ ", " ++ destination
  | _ => "BIS " ++ source ++ ", @" ++ destination ++ "+"

/-- `size` lines over all addressing modes. -/
def addressingProgram (size : Nat) : String :=
  String.intercalate "\n" (["START 3000"] ++ (List.range size).map addressingLine ++ ["END"])

/-- The label with a number. -/
def labelName (index : Nat) : String :=
  "L" ++ number index

/-- The jumps in turn. -/
def jumpMnemonic (index : Nat) : String :=
  match index % 8 with
  | 0 => "JNE"
  | 1 => "JEQ"
  | 2 => "JNC"
  | 3 => "JC"
  | 4 => "JN"
  | 5 => "JGE"
  | 6 => "JL"
  | _ => "JMP"

/-- `size` labelled statements and a jump to each of them. -/
def jumpProgram (size : Nat) : String :=
  String.intercalate "\n"
    (["START 4000"] ++
      (List.range size).map (fun index =>
        labelName index ++ ": MOV " ++ register index ++ ", " ++ register (index + 1)) ++
      (List.range size).map (fun index => jumpMnemonic index ++ " " ++ labelName index) ++
      ["END"])

/-- Six faulty lines: a label defined twice, an unknown operation, and operands
that stand for nothing. -/
def faultyGroup (index : Nat) : List String :=
  ["DUP" ++ number index ++ ": MOV R1, R2",
   "DUP" ++ number index ++ ": MOV R1, R2",
   "FOO" ++ number index ++ " R1, R2",
   "MOV UNK" ++ number index ++ ", ALSO" ++ number index,
   "ADD R1,",
   "MOV R1"]

/-- `size` groups of faulty lines. -/
def faultyProgram (size : Nat) : String :=
  String.intercalate "\n" (["START 2000"] ++ (List.range size).flatMap faultyGroup ++ ["END"])

end Workload
end Msp430
