import Msp430.Proofs.Drafts
import Msp430.Proofs.Numerals

/-!
Extension words and the numbers of operands.  An extension word has four bits for either
operand that belong above the operand's own word.  Main statement: with two operands both
numbers have these bits, with one operand its number is shown without them.
-/

namespace Msp430
namespace Disassembler

/-- A word with further bits above its own sixteen. -/
def above (high word : Nat) : Nat :=
  (high <<< 16) ||| word

theorem above_eq (high : Nat) {word : Nat} (bounded : word < 65536) :
    above high word = high * 65536 + word := by
  unfold above
  rw [← Nat.shiftLeft_add_eq_or_of_lt bounded, Nat.shiftLeft_eq]

theorem and_fifteen (number : Nat) : number &&& 0xf = number % 16 :=
  Nat.and_two_pow_sub_one_eq_mod number 4

/-- The instruction of an extension word, an instruction word with one or two operands and
its operand words, before a name of its own is put in: the source has the upper four bits of
the extension word above its own word, the last operand has `high` there. -/
def extendedInstruction (extension opcode high : Nat) (operands : List Nat) : Instruction :=
  let byteWide := opcode / 64 % 2 == 1
  let last := above high (operands.getLastD 0)
  if 0x4000 ≤ opcode then
    { name := dualOperation (opcode / 4096) ++ "x"
      size := sizeName (some extension) byteWide
      source := some ((sourceTemplate byteWide (modeOf opcode) (registerAt opcode 8)).fill
        (above ((extension >>> 7) &&& 0xf) (operands.headD 0)))
      destination := some
        ((destinationTemplate (opcode / 128 % 2 == 1) (registerAt opcode 0)).fill last) }
  else
    { name := (singleOperation (opcode / 128 % 32)).1 ++ "x"
      size := sizeName (some extension) byteWide
      source := none
      destination := some
        ((sourceTemplate byteWide (modeOf opcode) (registerAt opcode 0)).fill last) }

/-! ### Numbers in templates -/

namespace Template

theorem fill_of_fixed {template : Template} (fixed : template.needsWord = false)
    (first second : Nat) : template.fill first = template.fill second := by
  cases template with
  | fixed text => simp only [fill]
  | number opening format closing => cases fixed

theorem fill_inj {template : Template} (needs : template.needsWord = true)
    {first second : Nat} (same : template.fill first = template.fill second) :
    first = second := by
  cases template with
  | fixed text => cases needs
  | number opening format closing =>
      have written : format.write first = format.write second := by
        have spelled := congrArg String.toList same
        simp only [fill, String.toList_append, List.append_assoc] at spelled
        exact String.toList_inj.mp (List.append_cancel_right (List.append_cancel_left spelled))
      cases format with
      | hex width =>
          change Numeral.hexField width first = Numeral.hexField width second at written
          rw [Numeral.hexField_natCast, Numeral.hexField_natCast] at written
          exact Numeral.zeroFill_digits_inj (Nat.le_refl 16) (by decide) written
      | decimal =>
          change Numeral.decimal first = Numeral.decimal second at written
          rw [Numeral.decimal_natCast, Numeral.decimal_natCast] at written
          exact Numeral.zeroFill_digits_inj (by decide : 10 ≤ 16) (by decide)
            (congrArg (Text.zeroFill 0) written)

end Template

theorem needsWord_of_direct : ∀ (byteWide : Bool) (register : Register),
    (sourceTemplate byteWide .direct register).needsWord = false := by
  decide

/-! ### Two operands -/

theorem dualDraft_high {extension opcode : Nat}
    (memory : (modeOf opcode == .direct && !(opcode / 128 % 2 == 1)) = false) :
    (dualDraft (some extension) opcode).sourceHigh = (extension >>> 7) &&& 0xf ∧
      (dualDraft (some extension) opcode).destinationHigh = extension &&& 0xf := by
  rw [and_fifteen, and_fifteen, Nat.shiftRight_eq_div_pow]
  unfold dualDraft
  simp only [memory]
  exact ⟨rfl, rfl⟩

theorem lt_of_operand {operands : List Nat} (bounded : ∀ word ∈ operands, word < 65536) :
    operands.headD 0 < 65536 ∧ operands.getLastD 0 < 65536 := by
  cases operands with
  | nil => exact ⟨by decide, by decide⟩
  | cons word others =>
      refine ⟨bounded word List.mem_cons_self, bounded _ ?_⟩
      rw [List.getLastD_cons]
      exact List.getLastD_mem_cons

theorem dualDraft_texts (extension opcode : Nat) {operands : List Nat}
    (bounded : ∀ word ∈ operands, word < 65536) :
    (dualDraft (some extension) opcode).sourceText operands =
        some ((sourceTemplate (opcode / 64 % 2 == 1) (modeOf opcode) (registerAt opcode 8)).fill
          (above ((extension >>> 7) &&& 0xf) (operands.headD 0))) ∧
      (dualDraft (some extension) opcode).destinationText operands =
        some ((destinationTemplate (opcode / 128 % 2 == 1) (registerAt opcode 0)).fill
          (above (extension &&& 0xf) (operands.getLastD 0))) := by
  obtain ⟨first, last⟩ := lt_of_operand bounded
  rw [above_eq _ first, above_eq _ last]
  unfold Draft.sourceText Draft.destinationText
  cases registers : modeOf opcode == .direct && !(opcode / 128 % 2 == 1) with
  | false =>
      obtain ⟨sourceHigh, destinationHigh⟩ := @dualDraft_high extension opcode registers
      rw [sourceHigh, destinationHigh]
      exact ⟨rfl, rfl⟩
  | true =>
      -- The four bits have another meaning here, and no operand has a number.
      rw [Bool.and_eq_true, beq_iff_eq, Bool.not_eq_true'] at registers
      have source := needsWord_of_direct (opcode / 64 % 2 == 1) (registerAt opcode 8)
      have destination :
          (destinationTemplate (opcode / 128 % 2 == 1) (registerAt opcode 0)).needsWord =
            false := by
        rw [registers.2]
        rfl
      rw [← registers.1] at source
      exact ⟨congrArg some (Template.fill_of_fixed source _ _),
        congrArg some (Template.fill_of_fixed destination _ _)⟩

theorem dualDraft_filled {extension opcode : Nat} (dual : 0x4000 ≤ opcode)
    {operands : List Nat} (bounded : ∀ word ∈ operands, word < 65536) :
    (dualDraft (some extension) opcode).filled operands =
      extendedInstruction extension opcode (extension &&& 0xf) operands := by
  obtain ⟨source, destination⟩ := dualDraft_texts extension opcode bounded
  unfold Draft.filled Draft.instruction extendedInstruction
  rw [source, destination, if_pos dual]
  rfl

/-! ### One operand -/

theorem singleOperation_extended (code : Nat) :
    ((singleOperation code).1 ++ "x" != "reti") = true ∧
      ∀ source destination,
        Instruction.ownName? ((singleOperation code).1 ++ "x") source destination = none := by
  unfold singleOperation
  split <;> exact ⟨rfl, fun _ _ => rfl⟩

/-- The high part that an instruction with one operand is given is always zero. -/
theorem singleDraft_filled {extension opcode : Nat} (single : ¬ 0x4000 ≤ opcode)
    {operands : List Nat} (bounded : ∀ word ∈ operands, word < 65536) :
    (singleDraft (some extension) opcode).filled operands =
      extendedInstruction extension opcode 0 operands := by
  have shown : (singleDraft (some extension) opcode).operandsShown = true :=
    (singleOperation_extended _).1
  have destination : (singleDraft (some extension) opcode).destinationText operands =
      some ((sourceTemplate (opcode / 64 % 2 == 1) (modeOf opcode) (registerAt opcode 0)).fill
        (above 0 (operands.getLastD 0))) := by
    rw [above_eq 0 (lt_of_operand bounded).2]
    rfl
  unfold Draft.filled Draft.instruction extendedInstruction
  rw [shown, destination, if_neg single]
  rfl

theorem extendedInstruction_own {extension opcode high : Nat} (single : ¬ 0x4000 ≤ opcode)
    (operands : List Nat) :
    (extendedInstruction extension opcode high operands).underOwnName =
      extendedInstruction extension opcode high operands := by
  have unnamed := (singleOperation_extended (opcode / 128 % 32)).2
  unfold extendedInstruction
  rw [if_neg single]
  unfold Instruction.underOwnName
  rw [unnamed]

/-- The number of a single operand tells its high part. -/
theorem extendedInstruction_eq_iff {extension opcode high : Nat} (single : ¬ 0x4000 ≤ opcode)
    {operands : List Nat}
    (counted : operands.length = (singleDraft (some extension) opcode).furtherWords)
    (bounded : ∀ word ∈ operands, word < 65536) :
    extendedInstruction extension opcode 0 operands =
        extendedInstruction extension opcode high operands ↔
      operands = [] ∨ high = 0 := by
  let template := sourceTemplate (opcode / 64 % 2 == 1) (modeOf opcode) (registerAt opcode 0)
  have last := (lt_of_operand bounded).2
  have filled : extendedInstruction extension opcode 0 operands =
        extendedInstruction extension opcode high operands ↔
      template.fill (above 0 (operands.getLastD 0)) =
        template.fill (above high (operands.getLastD 0)) := by
    unfold extendedInstruction
    rw [if_neg single, if_neg single]
    simp only [Instruction.mk.injEq, true_and, Option.some.injEq]
    exact Iff.rfl
  have asked : operands.length = 0 + if template.needsWord then 1 else 0 := counted
  rw [filled]
  cases needs : template.needsWord with
  | false =>
      have empty : operands = [] := by
        rw [needs] at asked
        exact List.length_eq_zero_iff.mp asked
      exact iff_of_true (Template.fill_of_fixed needs _ _) (Or.inl empty)
  | true =>
      have present : operands ≠ [] := by
        rw [needs] at asked
        exact List.ne_nil_of_length_eq_add_one asked
      constructor
      · intro same
        have numbers := Template.fill_inj needs same
        rw [above_eq 0 last, above_eq high last] at numbers
        exact Or.inr (by omega)
      · rintro (empty | zero)
        · exact absurd empty present
        · rw [zero]

/-- Decoded with an extension word, an instruction with two operands has its four bits above
each of its operand words.  An instruction with one operand shows the word alone, which is
the number with these bits only where there is no operand word or the bits are zero. -/
theorem extended_numbers_iff {extension opcode : Nat} (marked : Extends true extension)
    (operation : 0x4000 ≤ opcode ∨ 0x1000 ≤ opcode ∧ opcode < 0x1380) {operands : List Nat}
    (counted : operands.length = (announce true (some extension) opcode).furtherWords)
    (bounded : ∀ word ∈ operands, word < 65536) :
    Decodes (bare true) (extension :: opcode :: operands)
        (.plain (extendedInstruction extension opcode
          (if 0x4000 ≤ opcode then extension &&& 0xf else 0) operands).underOwnName) ∧
      (Decodes (bare true) (extension :: opcode :: operands)
          (.plain (extendedInstruction extension opcode (extension &&& 0xf)
            operands).underOwnName) ↔
        0x4000 ≤ opcode ∨ operands = [] ∨ extension &&& 0xf = 0) := by
  have extensions : ∀ word ∈ [extension], Extends (bare true).wide word := by
    rw [List.forall_mem_singleton]
    exact marked
  by_cases dual : 0x4000 ≤ opcode
  · have announced : announce true (some extension) opcode =
        .instruction (dualDraft (some extension) opcode) := if_pos dual
    rw [announced] at counted
    have decodes := decodes_of_announced rfl extensions announced counted
    rw [dualDraft_filled dual bounded] at decodes
    rw [if_pos dual]
    exact ⟨decodes, iff_of_true decodes (Or.inl dual)⟩
  · have range := operation.resolve_left dual
    have announced : announce true (some extension) opcode =
        .instruction (singleDraft (some extension) opcode) := by
      unfold announce
      rw [if_neg dual, if_neg (by omega), if_pos range]
    rw [announced] at counted
    have decodes := decodes_of_announced rfl extensions announced counted
    rw [singleDraft_filled dual bounded, extendedInstruction_own dual] at decodes
    rw [if_neg dual, extendedInstruction_own dual, extendedInstruction_own dual]
    refine ⟨decodes, ?_⟩
    rw [or_iff_right dual, ← extendedInstruction_eq_iff dual counted bounded]
    constructor
    · intro claimed
      exact Decoded.plain.inj (decodes.unique claimed)
    · intro same
      rw [← same]
      exact decodes

/-- A push from an address of seventeen bits shows the address without its highest one. -/
theorem extended_numbers_iff_push :
    Extends true 0x1841 ∧
      Decodes (bare true) [0x1841, 0x1212, 0x1234]
        (.plain
          { name := "pushx", size := "", source := none, destination := some "&0x1234" }) ∧
      ¬ Decodes (bare true) [0x1841, 0x1212, 0x1234]
        (.plain
          { name := "pushx", size := "", source := none, destination := some "&0x11234" }) := by
  have marked : Extends true 0x1841 := by
    decide
  have bounded : ∀ word ∈ [0x1234], word < 65536 := by
    decide
  have shown : (extendedInstruction 0x1841 0x1212 0 [0x1234]).underOwnName =
        { name := "pushx", size := "", source := none, destination := some "&0x1234" } ∧
      (extendedInstruction 0x1841 0x1212 (0x1841 &&& 0xf) [0x1234]).underOwnName =
        { name := "pushx", size := "", source := none, destination := some "&0x11234" } := by
    decide
  obtain ⟨decodes, claimed⟩ :=
    extended_numbers_iff marked (by decide : 0x4000 ≤ 0x1212 ∨ _) (by decide) bounded
  rw [if_neg (by decide), shown.1] at decodes
  rw [shown.2] at claimed
  exact ⟨marked, decodes, fun high => absurd (claimed.mp high) (by decide)⟩

end Disassembler
end Msp430
