/-!
The sixteen registers of the processor and the names they go by.
-/

namespace Msp430

abbrev Register := Fin 16

namespace Register

/-- The registers by number, `R0` to `R15`. -/
def ofNumberedName? : String → Option Register
  | "R0" => some 0
  | "R1" => some 1
  | "R2" => some 2
  | "R3" => some 3
  | "R4" => some 4
  | "R5" => some 5
  | "R6" => some 6
  | "R7" => some 7
  | "R8" => some 8
  | "R9" => some 9
  | "R10" => some 10
  | "R11" => some 11
  | "R12" => some 12
  | "R13" => some 13
  | "R14" => some 14
  | "R15" => some 15
  | _ => none

/-- The numbered names and `SP` for the stack pointer. -/
def ofName? (name : String) : Option Register :=
  if name = "SP" then some 1 else ofNumberedName? name

/-- All names of the special registers beside the numbered ones. -/
def ofFullName? : String → Option Register
  | "PC" => some 0
  | "SP" => some 1
  | "SR" => some 2
  | "CG" => some 3
  | name => ofNumberedName? name

/-- The name under which disassembly shows a register. -/
def shown (register : Register) : String :=
  match register.val with
  | 0 => "PC"
  | 1 => "SP"
  | 2 => "SR"
  | number => "R" ++ String.ofList (Nat.toDigits 10 number)

end Register
end Msp430
