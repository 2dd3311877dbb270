import Msp430.Assembler.Operand

/-!
Operations: the mnemonics the assembler knows and the bits they stand for.
The directives `START` and `END` are not among them.
-/

namespace Msp430
namespace Assembler

/-- Operations with a source and a destination. -/
inductive Dual where
  | mov
  | add
  | sub
  | cmp
  | dadd
  | bit
  | bic
  | bis
  | xor
  | and
  deriving Repr, DecidableEq

/-- The four operation bits of an instruction word. -/
def Dual.field : Dual → Nat
  | .mov => 0x4
  | .add => 0x5
  | .sub => 0x8
  | .cmp => 0x9
  | .dadd => 0xa
  | .bit => 0xb
  | .bic => 0xc
  | .bis => 0xd
  | .xor => 0xe
  | .and => 0xf

/-- Operations with one operand. -/
inductive Single where
  | rrc
  | swpb
  | rra
  | sxt
  | push
  | call
  deriving Repr, DecidableEq

def Single.word : Single → Nat
  | .rrc => 0x1000
  | .swpb => 0x1080
  | .rra => 0x1100
  | .sxt => 0x1180
  | .push => 0x1200
  | .call => 0x1280

/-- Jumps by condition. -/
inductive Jump where
  | jne
  | jeq
  | jnc
  | jc
  | jn
  | jge
  | jl
  | jmp
  deriving Repr, DecidableEq

/-- The jump word with a zero offset. -/
def Jump.word : Jump → Nat
  | .jne => 0x2000
  | .jeq => 0x2400
  | .jnc => 0x2800
  | .jc => 0x2c00
  | .jn => 0x3000
  | .jge => 0x3400
  | .jl => 0x3800
  | .jmp => 0x3c00

/-- An operation either has a code or, like `RET` and the data directives,
only reserves one word. -/
inductive Operation where
  | dual (operation : Dual)
  | single (operation : Single)
  | jump (operation : Jump)
  | reserving
  deriving Repr, DecidableEq

namespace Operation

def ofName? : String → Option Operation
  | "MOV" => some (.dual .mov)
  | "ADD" => some (.dual .add)
  | "SUB" => some (.dual .sub)
  | "CMP" => some (.dual .cmp)
  | "DADD" => some (.dual .dadd)
  | "BIT" => some (.dual .bit)
  | "BIC" => some (.dual .bic)
  | "BIS" => some (.dual .bis)
  | "XOR" => some (.dual .xor)
  | "AND" => some (.dual .and)
  | "RRC" => some (.single .rrc)
  | "SWPB" => some (.single .swpb)
  | "RRA" => some (.single .rra)
  | "SXT" => some (.single .sxt)
  | "PUSH" => some (.single .push)
  | "CALL" => some (.single .call)
  | "JNE" => some (.jump .jne)
  | "JEQ" => some (.jump .jeq)
  | "JNC" => some (.jump .jnc)
  | "JC" => some (.jump .jc)
  | "JN" => some (.jump .jn)
  | "JGE" => some (.jump .jge)
  | "JL" => some (.jump .jl)
  | "JMP" => some (.jump .jmp)
  | "ADDC" => some .reserving
  | "SUBC" => some .reserving
  | "RET" => some .reserving
  | ".DATA" => some .reserving
  | ".CODE" => some .reserving
  | ".ORG" => some .reserving
  | _ => none

/-- The bytes that a statement reserves. -/
def reserved : Operation → Option String → Int
  | .dual _, operand =>
      2 + Operand.extraBytes (Operand.read? (components operand).1) +
        Operand.extraBytes (Operand.read? (components operand).2)
  | _, _ => 2

end Operation
end Assembler
end Msp430
