import Msp430.Proofs.Agreement
import Msp430.Proofs.Calls

/-!
Lengths of two-operand instructions.  The assembler adds a word for an operand by
the mode it is written in, the disassembler by the mode bits and the register field
that come of it.  Main statement: exactly when both count the same.
-/

namespace Msp430

open Assembler Disassembler

namespace Disassembler

/-! ### Words read for an operand -/

theorem needsWord_sourceTemplate (byteWide : Bool) (mode : SourceMode) (register : Register) :
    (sourceTemplate byteWide mode register).needsWord =
      decide (mode = .indexed ∧ register.val ≠ 3 ∨ mode = .increment ∧ register.val = 0) := by
  revert register
  cases byteWide <;> cases mode <;> decide

theorem needsWord_destinationTemplate (indexed : Bool) (register : Register) :
    (destinationTemplate indexed register).needsWord = indexed := by
  revert register
  cases indexed <;> decide

theorem furtherWords_dual {opcode : Nat} (dual : 0x4000 ≤ opcode) (wide : Bool) :
    (announce wide none opcode).furtherWords =
      (if modeOf opcode = .indexed ∧ opcode / 256 % 16 ≠ 3 ∨
          modeOf opcode = .increment ∧ opcode / 256 % 16 = 0 then 1 else 0) +
        opcode / 128 % 2 := by
  have source := needsWord_sourceTemplate (opcode / 64 % 2 == 1) (modeOf opcode)
    (registerAt opcode 8)
  have destination := needsWord_destinationTemplate (opcode / 128 % 2 == 1)
    (registerAt opcode 0)
  have bit : (if (opcode / 128 % 2 == 1) = true then 1 else 0) = opcode / 128 % 2 := by
    by_cases one : opcode / 128 % 2 = 1
    · simp [one]
    · simp [one]
      omega
  unfold announce
  rw [if_pos dual]
  change (if (sourceTemplate _ _ _).needsWord = true then 1 else 0) +
    (if (destinationTemplate _ _).needsWord = true then 1 else 0) = _
  rw [source, destination, bit]
  simp only [decide_eq_true_eq]
  rfl

theorem decode_first_item {setup : Setup} (unnamed : setup.names = none) {word : Nat}
    (whole : announce setup.wide none word ≠ .extension) {stream : List Nat}
    (enough : (announce setup.wide none word).furtherWords ≤ stream.length) (start : Int) :
    ∃ item later, (decode setup start (word :: stream)).items = item :: later ∧
      item.words =
        (word :: stream).take ((announce setup.wide none word).furtherWords + 1) := by
  have uses := call_fresh_uses unnamed whole stream
  have same : decode setup start (word :: stream) =
      (Reading.fresh.call setup (word :: stream)).decoding setup start :=
    decodeFrom_eq_call setup start Reading.fresh (word :: stream)
  rw [same]
  cases call : Reading.fresh.call setup (word :: stream) with
  | returned decoded trace rest =>
      rw [call] at uses
      exact ⟨_, _, rfl, uses.2.1⟩
  | cutShort trace =>
      rw [call] at uses
      have few := uses.1
      rw [List.length_cons] at few
      omega
  | failed fault trace =>
      rw [call] at uses
      exact uses.elim

end Disassembler

namespace Assembler

/-! ### Fields of an encoded word -/

theorem Mode.field_lt (mode : Mode) : mode.field < 4 := by
  cases mode <;> decide

theorem destinationField_le_one (destination : Option Operand) :
    destinationField destination ≤ 1 := by
  unfold destinationField
  split <;> decide

/-- Whether disassembly reads a word for a source that is written in a mode and
stands for a number. -/
def Mode.Reads : Mode → Int → Prop
  | .register, _ => False
  | .indexed, value => value % 16 ≠ 3
  | .symbolic, value => value % 16 ≠ 3
  | .absolute, value => value % 16 ≠ 3
  | .indirect, _ => False
  | .indirectIncrement, value => value % 16 = 0
  | .immediate, value => value % 16 = 0

section DualWord

variable (operation : Dual) (source : Operand) (destination : Option Operand)
  (sourceValue destinationValue : Int)

/-- An encoded word as the disassembler reads it. -/
theorem exists_dualWord_eq :
    ∃ word : Nat,
      dualWord operation source destination sourceValue destinationValue = word ∧
        0x4000 ≤ word ∧
        ((word / 256 % 16 : Nat) : Int) = sourceValue % 16 ∧
        word / 128 % 2 = destinationField destination ∧
        word / 16 % 4 = source.mode.field := by
  have operationLow := operation.four_le_field
  have modeBound := source.mode.field_lt
  have bitBound := destinationField_le_one destination
  refine ⟨(dualWord operation source destination sourceValue destinationValue).toNat,
    ?_, ?_, ?_, ?_, ?_⟩
  all_goals
    unfold dualWord
    omega

end DualWord

private theorem reads_iff {source : Operand} {word : Nat} {value : Int}
    (register : ((word / 256 % 16 : Nat) : Int) = value % 16)
    (modeBits : word / 16 % 4 = source.mode.field) :
    (modeOf word = .indexed ∧ word / 256 % 16 ≠ 3 ∨
        modeOf word = .increment ∧ word / 256 % 16 = 0) ↔
      source.mode.Reads value := by
  unfold modeOf
  rw [modeBits]
  cases source.mode <;> simp [Mode.field, Mode.Reads, SourceMode.ofField?] <;> omega

/-- An instruction word has one word behind it for a source that is read, and one for
a destination that is no register. -/
theorem furtherWords_encoded {source : Operand} {destination : Option Operand} {word : Nat}
    {value : Int} (dual : 0x4000 ≤ word)
    (register : ((word / 256 % 16 : Nat) : Int) = value % 16)
    (bit : word / 128 % 2 = destinationField destination)
    (modeBits : word / 16 % 4 = source.mode.field) (wide : Bool) :
    ∃ reads,
      (source.mode.Reads value ∧ reads = 1 ∨ ¬ source.mode.Reads value ∧ reads = 0) ∧
        (announce wide none word).furtherWords = reads + destinationField destination := by
  have reads := reads_iff register modeBits
  have count := furtherWords_dual dual wide
  rw [bit] at count
  by_cases read : source.mode.Reads value
  · rw [if_pos (reads.mpr read)] at count
    exact ⟨1, .inl ⟨read, rfl⟩, count⟩
  · rw [if_neg (fun fields => read (reads.mp fields))] at count
    exact ⟨0, .inr ⟨read, rfl⟩, count⟩

/-! ### Words brought by an operand -/

/-- A destination that brings the word that is read for it, or for which none is
read. -/
def DestinationMatched (destination : Option Operand) : Prop :=
  destination.map Operand.mode ∈ [some .register, some .immediate, some .absolute]

theorem extraBytes_destination (destination : Option Operand) :
    DestinationMatched destination ∧
        Operand.extraBytes destination = 2 * destinationField destination ∨
      ¬ DestinationMatched destination ∧ Operand.extraBytes destination = 0 ∧
        destinationField destination = 1 := by
  unfold DestinationMatched destinationField Operand.extraBytes
  cases destination with
  | none => simp
  | some written =>
      cases mode : written.mode <;> simp [mode, Mode.takesWord]

/-- The operands together bring as many words as are read for them: each as many as
are read for it, or the source one that is not read, in place of the one that is read
for the destination. -/
def Balanced (source : Operand) (value : Int) (destination : Option Operand) : Prop :=
  (source.mode.takesWord = true ↔ source.mode.Reads value) ∧ DestinationMatched destination ∨
    source.mode.takesWord = true ∧ ¬ source.mode.Reads value ∧
      ¬ DestinationMatched destination

theorem balanced_iff {source : Operand} {value : Int} {destination : Option Operand}
    {sourceWords destinationWords : List ObjectWord} {location : Int} {reads : Nat}
    (counted : source.mode.Reads value ∧ reads = 1 ∨ ¬ source.mode.Reads value ∧ reads = 0)
    (first : operandWords location (some source) = .ok sourceWords)
    (second : operandWords location destination = .ok destinationWords) :
    reads + destinationField destination = sourceWords.length + destinationWords.length ↔
      Balanced source value destination := by
  have brought : source.mode.takesWord = true ∧ sourceWords.length = 1 ∨
      ¬ source.mode.takesWord = true ∧ sourceWords.length = 0 := by
    have room := (operandWords_addresses first).2
    change (if source.mode.takesWord = true then 2 else 0) = _ at room
    by_cases takes : source.mode.takesWord = true
    · rw [if_pos takes] at room
      exact .inl ⟨takes, by omega⟩
    · rw [if_neg takes] at room
      exact .inr ⟨takes, by omega⟩
  have destinationRoom := (operandWords_addresses second).2
  unfold Balanced
  rcases extraBytes_destination destination with ⟨matched, room⟩ | ⟨unmatched, room, field⟩
  · -- The destination counts the same on both sides.
    simp only [matched, not_true_eq_false, and_true, and_false, or_false]
    rcases counted with ⟨read, one⟩ | ⟨unread, zero⟩ <;>
      rcases brought with ⟨takes, length⟩ | ⟨without, length⟩
    · exact iff_of_true (by omega) (iff_of_true takes read)
    · exact iff_of_false (by omega) (fun same => without (same.mpr read))
    · exact iff_of_false (by omega) (fun same => unread (same.mp takes))
    · exact iff_of_true (by omega) (iff_of_false without unread)
  · -- A word is read for the destination and none is brought.
    simp only [unmatched, not_false_eq_true, and_true, and_false, false_or]
    rcases counted with ⟨read, one⟩ | ⟨unread, zero⟩ <;>
      rcases brought with ⟨takes, length⟩ | ⟨without, length⟩
    · exact iff_of_false (by omega) (fun both => both.2 read)
    · exact iff_of_false (by omega) (fun both => both.2 read)
    · exact iff_of_true (by omega) ⟨takes, unread⟩
    · exact iff_of_false (by omega) (fun both => without both.1)

/-- The instruction word that a two-operand entry emits is decoded, whatever words
follow, and the words used for it are as many as the entry emits exactly when the
operands are balanced. -/
theorem dual_length_eq_iff {entry : Entry} {operation : Dual} {symbols : SymbolTable}
    (opcode : entry.opcode = operation.name)
    (completed : (entry.emit symbols).fault = none) :
    ∃ (source : Operand) (word : Nat) (operands : List ObjectWord),
      Operand.read? (components entry.operand).1 = some source ∧
        entry.words symbols = { address := entry.location, code := word } :: operands ∧
        ∀ (start : Int) (stream : List Nat), 2 ≤ stream.length →
          ∃ item later,
            (decode plain start (word :: stream)).items = item :: later ∧
              item.words <+: word :: stream ∧
              (item.words.length = (entry.words symbols).length ↔
                Balanced source ((resolve? symbols (some source)).getD 0)
                  (Operand.read? (components entry.operand).2)) := by
  have known : Operation.ofName? entry.opcode = some (.dual operation) := by
    rw [opcode, operation.ofName?_name]
  have emits : entry.emit symbols =
      emitDual symbols operation entry.operand entry.location := by
    unfold Entry.emit
    rw [known]
  rw [emits] at completed
  obtain ⟨source, sourceWords, destinationWords, read, first, second, words⟩ :=
    emitDual_completed completed
  obtain ⟨word, code, dual, register, bit, modeBits⟩ := exists_dualWord_eq operation source
    (Operand.read? (components entry.operand).2) ((resolve? symbols (some source)).getD 0)
    ((resolve? symbols (Operand.read? (components entry.operand).2)).getD 0)
  rw [code, ← emits] at words
  change entry.words symbols = _ at words
  refine ⟨source, word, sourceWords ++ destinationWords, read, words, ?_⟩
  intro start stream enough
  have unnamed : plain.names = none := rfl
  have bound := (announce false none word).furtherWords_le_two
  obtain ⟨item, later, items, used⟩ := decode_first_item unnamed
    (announce_narrow_ne_extension none word) (Nat.le_trans bound enough) start
  refine ⟨item, later, items, used ▸ List.take_prefix _ _, ?_⟩
  have taken : item.words.length = (announce false none word).furtherWords + 1 := by
    rw [used, List.length_take, List.length_cons]
    change min ((announce false none word).furtherWords + 1) (stream.length + 1) = _
    omega
  obtain ⟨reads, counted, further⟩ := furtherWords_encoded dual register bit modeBits false
  rw [← balanced_iff counted first second, taken, further, words, List.length_cons,
    List.length_append]
  omega

/-- A symbolic source emits one word and is read as two. -/
theorem dual_length_eq_iff_symbolic :
    let entry : Entry :=
      { label := none, opcode := "MOV", operand := some "FOO, R5", location := 0 }
    let symbols : SymbolTable := { bindings := [("FOO", 0x100)] }
    entry.opcode = Dual.mov.name ∧
      (entry.emit symbols).fault = none ∧
      (entry.words symbols).length = 1 ∧
      ∃ word : Nat, (entry.words symbols).map ObjectWord.code = [(word : Int)] ∧
        ∀ (start : Int) (stream : List Nat), 2 ≤ stream.length →
          ∃ item later,
            (decode plain start (word :: stream)).items = item :: later ∧
              item.words.length ≠ 1 := by
  intro entry symbols
  have opcode : entry.opcode = Dual.mov.name := rfl
  have completed : (entry.emit symbols).fault = none := by
    decide
  have single : (entry.words symbols).length = 1 := by
    decide
  obtain ⟨source, word, operands, read, words, decoded⟩ := dual_length_eq_iff opcode completed
  have symbolic : Operand.read? (components entry.operand).1 =
      some { mode := .symbolic, text := "FOO" } := by
    decide
  rw [symbolic] at read
  cases read
  have value : (resolve? symbols (some { mode := .symbolic, text := "FOO" })).getD 0 = 0x100 := by
    decide
  refine ⟨opcode, completed, single, word, ?_, ?_⟩
  · rw [words, List.length_cons, Nat.add_eq_right, List.length_eq_zero_iff] at single
    rw [words, single]
    rfl
  · intro start stream enough
    obtain ⟨item, later, items, _, balanced⟩ := decoded start stream enough
    rw [single, value] at balanced
    refine ⟨item, later, items, ?_⟩
    intro one
    rcases balanced.mp one with ⟨same, _⟩ | ⟨takes, _⟩
    · exact absurd (same.mpr (by decide : (0x100 : Int) % 16 ≠ 3)) (by decide)
    · exact absurd takes (by decide)

end Assembler
end Msp430
