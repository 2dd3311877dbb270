import Msp430.Proofs.Jumps
import Msp430.Proofs.Contributions

/-!
Jumps of the extended dialect.  The distance to the target, in words and rounded down, is
checked before it is cut to ten bits, so disassembly finds the same distance again.  Main
statement: a jump whose target is known becomes one word that goes there, to the byte
before if the target is odd, or it is one error.
-/

namespace Msp430
namespace Dialect
namespace Extended

open Disassembler (Decoded Decodes Setup jumpCode jumpDistance jumpName decodes_jumpCode)

def jumpCommands : List String :=
  ["JMP", "JZ", "JNZ", "CALL"]

theorem exists_condition {command : String} (jumps : command ∈ jumpCommands) :
    ∃ condition, condition < 4 ∧ command? command = some (.jump condition) := by
  simp only [jumpCommands, List.mem_cons, List.not_mem_nil, or_false] at jumps
  rcases jumps with rfl | rfl | rfl | rfl
  · exact ⟨0, by omega, rfl⟩
  · exact ⟨1, by omega, rfl⟩
  · exact ⟨2, by omega, rfl⟩
  · exact ⟨3, by omega, rfl⟩

/-- A symbol, or else a number. -/
def Resolves (symbols : SymbolTable) (text : String) (target : Int) : Prop :=
  symbols.find? text = some target ∨
    symbols.find? text = none ∧ Numeral.hex? text = some target

theorem target?_of_resolves {symbols : SymbolTable} {text : String} {target : Int}
    (resolves : Resolves symbols text target) : target? symbols text = some target := by
  unfold target?
  rcases resolves with bound | ⟨free, read⟩
  · rw [bound]
  · rw [free]
    exact read

/-! ### The ten bits -/

/-- The words between the end of a jump and its target, rounded down. -/
def offset (address target : Int) : Int :=
  (target - address - 2) / 2

/-- The offsets that ten bits with a sign can hold. -/
def FitsTenBits (number : Int) : Prop :=
  -512 ≤ number ∧ number ≤ 511

/-- Nothing is lost by the cut to ten bits. -/
theorem jumpDistance_of_fits {number : Int} (fits : FitsTenBits number) (condition : Nat) :
    jumpDistance (jumpCode condition (number % 1024).toNat) = 2 * number := by
  obtain ⟨⟨least, most⟩, turns, distance⟩ :=
    Assembler.jumpDistance_inReach condition number
  obtain ⟨low, high⟩ := fits
  omega

theorem two_mul_offset (address target : Int) :
    address + 2 + 2 * offset address target =
      if (target - address) % 2 = 0 then target else target - 1 := by
  unfold offset
  split
  · omega
  · omega

/-- The jump word goes to its target when it is disassembled. -/
theorem decodes_of_fits {condition : Nat} (known : condition < 4) {address target : Int}
    (fits : FitsTenBits (offset address target)) (setup : Setup) :
    ∃ name distance,
      Decodes setup [jumpCode condition (offset address target % 1024).toNat]
        (.jump name distance) ∧
      (Decoded.jump name distance).target (address + 2) =
        .ok (if (target - address) % 2 = 0 then target else target - 1) := by
  have bounded : (offset address target % 1024).toNat < 1024 := by
    omega
  have decodes := decodes_jumpCode setup (by omega : condition < 8) bounded
  rw [jumpDistance_of_fits fits] at decodes
  refine ⟨_, _, decodes, ?_⟩
  rw [← two_mul_offset]
  rfl

/-! ### Statements -/

section Jump

variable {symbols : SymbolTable} {statement : Statement} {text : String} {condition : Nat}
  {target : Int} (known : command? statement.command = some (.jump condition))
  (alone : statement.operands = [text]) (resolves : Resolves symbols text target)

include known alone resolves

theorem encode_jump :
    encode symbols statement =
      if offset statement.address target < -512 ∨ 511 < offset statement.address target then
        .error (.offsetOutOfRange statement.command (offset statement.address target))
      else
        .ok [(jumpCode condition (offset statement.address target % 1024).toNat : Nat)] := by
  have apart : target - (statement.address + 2) = target - statement.address - 2 := by
    omega
  have code : 0x2000 + (condition : Int) * 1024 + offset statement.address target % 1024 =
      (jumpCode condition (offset statement.address target % 1024).toNat : Nat) := by
    unfold jumpCode
    omega
  unfold encode jump
  simp only [known, alone, target?_of_resolves resolves, apart]
  change Except.map _ (if offset statement.address target < -512 ∨
    511 < offset statement.address target then _ else _) = _
  split
  · rfl
  · exact congrArg (fun word => Except.ok [word]) code

theorem contribution_of_fits (fits : FitsTenBits (offset statement.address target)) :
    (encoder symbols).contribution statement =
      { object := [Numeral.hex statement.address ++ ": " ++ Numeral.hex
          (jumpCode condition (offset statement.address target % 1024).toNat : Nat)]
        errors := [] } := by
  have inside : ¬ (offset statement.address target < -512 ∨
      511 < offset statement.address target) := by
    obtain ⟨least, most⟩ := fits
    omega
  have encoded := encode_jump known alone resolves
  rw [if_neg inside] at encoded
  unfold Encoder.contribution Encoder.words Encoder.complaints encoder
  rw [encoded]
  rfl

theorem contribution_of_outside (outside : ¬ FitsTenBits (offset statement.address target)) :
    (encoder symbols).contribution statement =
      { object := []
        errors := [(Complaint.offsetOutOfRange statement.command
          (offset statement.address target)).message] } := by
  have far : offset statement.address target < -512 ∨ 511 < offset statement.address target := by
    unfold FitsTenBits at outside
    omega
  have encoded := encode_jump known alone resolves
  rw [if_pos far] at encoded
  unfold Encoder.contribution Encoder.words Encoder.complaints encoder
  rw [encoded]
  rfl

end Jump

/-- A jump with a known target contributes one word or one error to the assembly of a text.
It is a word exactly if the distance fits ten bits, and the word, disassembled, goes to the
target, or to the byte before an odd one. -/
theorem jumps_exact_or_rejected (source : String) :
    (assemble source).Collects (Line.allComplaints [] (Line.all source))
        ((Line.statements 0 (Line.all source)).map
          (encoder (assemble source).symbols).contribution) ∧
      ∀ statement ∈ Line.statements 0 (Line.all source), statement.command ∈ jumpCommands →
        ∀ text target, statement.operands = [text] →
          Resolves (assemble source).symbols text target →
          (FitsTenBits (offset statement.address target) →
            ∃ word : Nat, 0x2000 ≤ word ∧ word ≤ 0x2fff ∧
              (encoder (assemble source).symbols).contribution statement =
                { object := [Numeral.hex statement.address ++ ": " ++ Numeral.hex word]
                  errors := [] } ∧
              ∀ setup, ∃ name distance, Decodes setup [word] (.jump name distance) ∧
                (Decoded.jump name distance).target (statement.address + 2) =
                  .ok (if (target - statement.address) % 2 = 0 then target else target - 1)) ∧
          (¬ FitsTenBits (offset statement.address target) →
            (encoder (assemble source).symbols).contribution statement =
              { object := []
                errors := [(Complaint.offsetOutOfRange statement.command
                  (offset statement.address target)).message] }) := by
  refine ⟨collects_assemble source, ?_⟩
  intro statement _listed jumps text target alone resolves
  obtain ⟨condition, small, known⟩ := exists_condition jumps
  constructor
  · intro fits
    refine ⟨jumpCode condition (offset statement.address target % 1024).toNat, ?_, ?_,
      contribution_of_fits known alone resolves fits, decodes_of_fits small fits⟩
    · unfold jumpCode
      omega
    · unfold jumpCode
      omega
  · intro outside
    exact contribution_of_outside known alone resolves outside

/-- A jump back to an odd target, and a call that is too far away. -/
theorem jumps_exact_or_rejected_odd :
    let source := "START 0x200\nA: JMP A\nJZ 0x1FF\nCALL 0x5000\nEND"
    let branch : Statement := { command := "JZ", operands := ["0x1FF"], address := 0x202 }
    let call : Statement := { command := "CALL", operands := ["0x5000"], address := 0x204 }
    branch ∈ Line.statements 0 (Line.all source) ∧
      call ∈ Line.statements 0 (Line.all source) ∧
      (∃ word : Nat, (encoder (assemble source).symbols).contribution branch =
          { object := [Numeral.hex 0x202 ++ ": " ++ Numeral.hex word], errors := [] } ∧
        ∀ setup, ∃ name distance, Decodes setup [word] (.jump name distance) ∧
          (Decoded.jump name distance).target 0x204 = .ok 0x1FE) ∧
      (encoder (assemble source).symbols).contribution call =
        { object := []
          errors := [(Complaint.offsetOutOfRange "CALL" 0x26FD).message] } := by
  intro source branch call
  have branchListed : branch ∈ Line.statements 0 (Line.all source) := by
    decide
  have callListed : call ∈ Line.statements 0 (Line.all source) := by
    decide
  have branchResolves : Resolves (assemble source).symbols "0x1FF" 0x1FF :=
    Or.inr ⟨by decide, by decide⟩
  have callResolves : Resolves (assemble source).symbols "0x5000" 0x5000 :=
    Or.inr ⟨by decide, by decide⟩
  obtain ⟨_, jumps⟩ := jumps_exact_or_rejected source
  obtain ⟨exact, _⟩ := jumps branch branchListed (by decide) _ _ rfl branchResolves
  obtain ⟨_, rejected⟩ := jumps call callListed (by decide) _ _ rfl callResolves
  obtain ⟨word, _, _, contributed, decodes⟩ := exact ⟨by decide, by decide⟩
  exact ⟨branchListed, callListed, ⟨word, contributed, decodes⟩,
    rejected (fun fits => absurd fits.2 (by decide))⟩

end Extended
end Dialect
end Msp430
