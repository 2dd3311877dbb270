import Msp430.Proofs.Agreement
import Msp430.Proofs.Operands

/-!
Jumps.  The ten bits of a jump word hold the distance to the target modulo 2048
bytes, and disassembly takes the distance from the window around the jump.  Main
statements: a jump goes where it should exactly when the distance lies in that
window, and assembly reports neither a distance outside nor a missing target.
-/

namespace Msp430
namespace Assembler

open Disassembler

/-! ### From the target to the word and back -/

/-- The address a jump is to go to.  An undefined target counts as zero. -/
def Entry.target (symbols : SymbolTable) (entry : Entry) : Int :=
  (entry.operand.bind symbols.find?).getD 0

/-- The even distances that ten bits with a sign can hold. -/
def InReach (distance : Int) : Prop :=
  -1024 ≤ distance ∧ distance ≤ 1022

theorem Entry.emit_of_jump {entry : Entry} {operation : Jump}
    (opcode : entry.opcode = operation.name) (symbols : SymbolTable) :
    entry.emit symbols =
      Emission.word entry.location
        (jumpCode operation.condition
          (jumpOffset (entry.target symbols) entry.location % 1024).toNat : Nat) := by
  unfold Entry.emit
  rw [opcode, operation.ofName?_name]
  simp only [jumpWord_eq]
  rfl

/-- Disassembly takes the distance that lies in reach out of those with the same ten
bits. -/
theorem jumpDistance_inReach (condition : Nat) (offset : Int) :
    InReach (jumpDistance (jumpCode condition (offset % 1024).toNat)) ∧
      ∃ turns : Int,
        jumpDistance (jumpCode condition (offset % 1024).toNat) = 2 * offset + 2048 * turns := by
  have bounded : (offset % 1024).toNat < 1024 := by
    omega
  rw [jumpDistance_jumpCode bounded]
  by_cases positive : (offset % 1024).toNat < 512
  · rw [if_pos positive]
    refine ⟨⟨by omega, by omega⟩, -(offset / 1024), ?_⟩
    omega
  · rw [if_neg positive]
    refine ⟨⟨by omega, by omega⟩, -(offset / 1024) - 1, ?_⟩
    omega

/-- A jump is one word.  Disassembly shows it with its condition and a distance in
reach, which differs from the distance to the target, rounded down to whole words, by
turns of 2048. -/
theorem Entry.decodes_of_jump {entry : Entry} {operation : Jump}
    (opcode : entry.opcode = operation.name) (symbols : SymbolTable) (setup : Setup) :
    ∃ (word : Nat) (distance turns : Int),
      entry.emit symbols = Emission.word entry.location word ∧
        0x2000 ≤ word ∧ word ≤ 0x3fff ∧
        Decodes setup [word] (.jump operation.mnemonic distance) ∧
        InReach distance ∧
        distance =
          2 * ((entry.target symbols - (entry.location + 2)) / 2) + 2048 * turns := by
  have known := operation.condition_lt
  have bounded : (jumpOffset (entry.target symbols) entry.location % 1024).toNat < 1024 := by
    omega
  have decodes := decodes_jumpCode setup known bounded
  rw [operation.makeJump_condition] at decodes
  obtain ⟨inReach, turns, distance⟩ := jumpDistance_inReach operation.condition
    (jumpOffset (entry.target symbols) entry.location)
  refine ⟨_, _, turns, Entry.emit_of_jump opcode symbols, ?_, ?_, decodes, inReach, distance⟩
  · unfold jumpCode
    omega
  · unfold jumpCode
    omega

theorem State.encode_of_word {state : State} {entry : Entry} {address code : Int}
    (only : state.entries = [entry])
    (emitted : entry.emit state.symbols = Emission.word address code) :
    state.encode =
      ({ state with object := state.object ++ [{ address := address, code := code }] }, none) := by
  unfold State.encode State.absorb
  simp only [only, emitAll, emitted, Emission.word, Emission.append, Emission.nothing,
    List.append_nil]

/-- A jump is encoded as one jump word.  The disassembled jump has its condition and
goes to the target, or to the byte before an odd one, exactly when that is in reach,
and otherwise misses it by turns of 2048. -/
theorem jump_reaches_iff {entry : Entry} {operation : Jump}
    (opcode : entry.opcode = operation.name) (symbols : SymbolTable) (setup : Setup) :
    let next := entry.location + 2
    let target := (entry.operand.bind symbols.find?).getD 0
    let rounded := next + 2 * ((target - next) / 2)
    rounded = (if (target - entry.location) % 2 = 0 then target else target - 1) ∧
      ∃ (word : Nat) (offset reached : Int),
        entry.emit symbols = Emission.word entry.location word ∧
          (∀ state : State, state.symbols = symbols → state.entries = [entry] →
            state.encode =
              ({ state with
                object := state.object ++ [{ address := entry.location, code := word }] },
                none)) ∧
          0x2000 ≤ word ∧ word ≤ 0x3fff ∧
          Decodes setup [word] (.jump operation.mnemonic offset) ∧
          (Decoded.jump operation.mnemonic offset).target next = .ok reached ∧
          (reached = rounded ↔ -1024 ≤ rounded - next ∧ rounded - next ≤ 1022) ∧
          (¬ (-1024 ≤ rounded - next ∧ rounded - next ≤ 1022) →
            ∃ turns : Int, turns ≠ 0 ∧ reached = rounded + 2048 * turns) := by
  intro next target rounded
  obtain ⟨word, offset, turns, emitted, low, high, decodes, ⟨above, below⟩, distance⟩ :=
    Entry.decodes_of_jump opcode symbols setup
  change offset = 2 * ((target - next) / 2) + 2048 * turns at distance
  have missed : next + offset = rounded + 2048 * turns := by
    omega
  refine ⟨?_, word, offset, next + offset, emitted, ?_, low, high, decodes, rfl, ?_, ?_⟩
  · split <;> omega
  · intro state table only
    rw [← table] at emitted
    exact State.encode_of_word only emitted
  · constructor
    · intro reached
      omega
    · intro window
      omega
  · intro outside
    refine ⟨turns, ?_, missed⟩
    intro unturned
    rw [unturned] at missed
    apply outside
    omega

/-- A jump over 2045 bytes goes back by five instead. -/
theorem jump_reaches_iff_far :
    let entry : Entry :=
      { label := none, opcode := "JGE", operand := some "L", location := -3 }
    let symbols : SymbolTable := { bindings := [("L", 2044)] }
    entry.opcode = Jump.jge.name ∧
      ∃ (word : Nat) (offset : Int),
        entry.emit symbols = Emission.word (-3) word ∧
          Decodes plain [word] (.jump "jge" offset) ∧
          ∃ turns : Int, turns ≠ 0 ∧ -1 + offset = 2043 + 2048 * turns := by
  intro entry symbols
  have opcode : entry.opcode = Jump.jge.name := rfl
  obtain ⟨_, word, offset, reached, emitted, _, _, _, decodes, target, _, missed⟩ :=
    jump_reaches_iff opcode symbols plain
  have value : (entry.operand.bind symbols.find?).getD 0 = 2044 := by
    decide
  rw [value] at missed
  obtain ⟨turns, turned, distance⟩ := missed (by decide)
  refine ⟨opcode, word, offset, emitted, decodes, turns, turned, ?_⟩
  have same : -3 + 2 + offset = reached := Except.ok.inj target
  change reached = -3 + 2 + 2 * ((2044 - (-3 + 2)) / 2) + 2048 * turns at distance
  omega

/-! ### Programs without their targets -/

/-- The operand of a statement, less that of a jump. -/
def targetless (opcode : String) (operand : Option String) : Option String :=
  match Operation.ofName? opcode with
  | some (.jump _) => none
  | _ => operand

abbrev Statement.withoutTarget (statement : Statement) : Statement :=
  statement.mapOperand targetless

abbrev Entry.withoutTarget (entry : Entry) : Entry :=
  entry.mapOperand targetless

theorem targetless_of_not_jump {opcode : String}
    (ordinary : ∀ operation, Operation.ofName? opcode ≠ some (.jump operation))
    (operand : Option String) : targetless opcode operand = operand := by
  unfold targetless
  split
  · rename_i operation known
    exact absurd known (ordinary operation)
  · rfl

theorem Entry.withoutTarget_operand_of_jump {entry : Entry} {operation : Jump}
    (known : Operation.ofName? entry.opcode = some (.jump operation)) :
    entry.withoutTarget.operand = none := by
  change targetless entry.opcode entry.operand = none
  unfold targetless
  rw [known]

theorem unnoticed_targetless : Unnoticed targetless where
  start _ := rfl
  reserved {opcode operation} known operand := by
    unfold targetless
    rw [known]
    cases operation <;> rfl

theorem Entry.emit_withoutTarget (symbols : SymbolTable) (entry : Entry) :
    (entry.withoutTarget.emit symbols).diagnostics = (entry.emit symbols).diagnostics ∧
      (entry.withoutTarget.emit symbols).fault = (entry.emit symbols).fault := by
  have opcode : entry.withoutTarget.opcode = entry.opcode := rfl
  by_cases jump : ∃ operation, Operation.ofName? entry.opcode = some (.jump operation)
  · obtain ⟨operation, known⟩ := jump
    unfold Entry.emit
    rw [opcode, known]
    exact ⟨rfl, rfl⟩
  · have operand : entry.withoutTarget.operand = entry.operand :=
      targetless_of_not_jump (fun operation known => jump ⟨operation, known⟩) entry.operand
    unfold Entry.emit
    rw [opcode, operand]
    exact ⟨rfl, rfl⟩

theorem emitAll_withoutTargets (symbols : SymbolTable) (entries : List Entry) :
    (emitAll symbols (entries.map Entry.withoutTarget)).diagnostics =
        (emitAll symbols entries).diagnostics ∧
      (emitAll symbols (entries.map Entry.withoutTarget)).fault =
        (emitAll symbols entries).fault := by
  induction entries with
  | nil => exact ⟨rfl, rfl⟩
  | cons entry others inductionHypothesis =>
      obtain ⟨diagnostics, sameFault⟩ := entry.emit_withoutTarget symbols
      obtain ⟨later, laterFault⟩ := inductionHypothesis
      rw [List.map_cons, emitAll, emitAll]
      simp only [sameFault]
      cases (entry.emit symbols).fault with
      | some fault => exact ⟨diagnostics, sameFault⟩
      | none =>
          unfold Emission.append
          simp only [diagnostics, later, laterFault, and_self]

/-- The targets of jumps leave no trace in what is recorded: a program and the same
program without them stop at the same place and have the same diagnostics.  Every jump
that is kept is encoded without a diagnostic.  One whose target is undefined becomes
the word it would be without a target, and one whose target is out of reach goes
elsewhere. -/
theorem jump_targets_unreported (source : String) :
    let progress := State.fresh.layout source
    let erased := State.fresh.placeAll ((Statement.all source).map Statement.withoutTarget)
    let placed := progress.state
    progress.flow = erased.flow ∧
      placed.encode.1.diagnostics = erased.state.encode.1.diagnostics ∧
      placed.encode.2 = erased.state.encode.2 ∧
      ∀ entry ∈ placed.entries, ∀ operation : Jump, entry.opcode = operation.name →
        entry.statement.reports = [] ∧
          ∃ (word : Nat) (offset : Int),
            entry.emit placed.symbols = Emission.word entry.location word ∧
              Decodes plain [word] (.jump operation.mnemonic offset) ∧
              (entry.operand.bind placed.symbols.find? = none →
                entry.withoutTarget.emit placed.symbols = Emission.word entry.location word) ∧
              ∀ target, entry.operand.bind placed.symbols.find? = some target →
                ¬ InReach (target - (entry.location + 2)) →
                  entry.location + 2 + offset ≠ target := by
  intro progress erased placed
  have same : erased = progress.mapOperands targetless :=
    State.fresh.placeAll_mapOperands unnoticed_targetless (Statement.all source)
  rw [same]
  obtain ⟨diagnostics, fault⟩ := emitAll_withoutTargets placed.symbols placed.entries
  refine ⟨rfl, ?_, fault.symm, ?_⟩
  · change placed.diagnostics ++ (emitAll placed.symbols placed.entries).diagnostics =
      placed.diagnostics ++
        (emitAll placed.symbols (placed.entries.map Entry.withoutTarget)).diagnostics
    rw [diagnostics]
  · intro entry _member operation opcode
    have known : Operation.ofName? entry.statement.opcode = some (.jump operation) := by
      change Operation.ofName? entry.opcode = _
      rw [opcode, operation.ofName?_name]
    obtain ⟨word, offset, turns, emitted, _low, _high, decodes, ⟨above, below⟩, distance⟩ :=
      Entry.decodes_of_jump opcode placed.symbols plain
    refine ⟨?_, word, offset, emitted, decodes, ?_, ?_⟩
    · unfold Statement.reports
      rw [known]
    · intro undefined
      have value : entry.withoutTarget.target placed.symbols = entry.target placed.symbols := by
        unfold Entry.target
        rw [undefined, entry.withoutTarget_operand_of_jump known]
        rfl
      have opcodeKept : entry.withoutTarget.opcode = operation.name := opcode
      rw [Entry.emit_of_jump opcodeKept, value]
      exact (Entry.emit_of_jump opcode placed.symbols).symm.trans emitted
    · intro target found outside
      have value : entry.target placed.symbols = target := by
        unfold Entry.target
        rw [found]
        rfl
      rw [value] at distance
      intro reached
      apply outside
      unfold InReach
      omega

/-- A label on `START` that is out of reach, and a label that is missing. -/
theorem jump_targets_unreported_missed :
    let placed := (State.fresh.layout "L: START 1000\nJMP L\nJNE NOWHERE\nEND").state
    placed.encode.1.diagnostics = [] ∧
      placed.encode.2 = none ∧
      placed.symbols.find? "NOWHERE" = none ∧
      placed.symbols.find? "L" = some 0 ∧
      ∃ entry ∈ placed.entries, entry.operand = some "L" ∧
        ∃ (word : Nat) (offset : Int),
          entry.emit placed.symbols = Emission.word entry.location word ∧
            Decodes plain [word] (.jump "jmp" offset) ∧
            entry.location + 2 + offset ≠ 0 := by
  intro placed
  obtain ⟨_, diagnostics, completed, jumps⟩ :=
    jump_targets_unreported "L: START 1000\nJMP L\nJNE NOWHERE\nEND"
  have member : { label := none, opcode := "JMP", operand := some "L", location := 0x1002 } ∈
      placed.entries := by
    decide
  obtain ⟨_, word, offset, emitted, decodes, _, missed⟩ := jumps _ member .jmp rfl
  refine ⟨diagnostics.trans (by decide), completed.trans (by decide), by decide, by decide,
    _, member, rfl, word, offset, emitted, decodes, missed 0 (by decide) ?_⟩
  unfold InReach
  decide

end Assembler
end Msp430
