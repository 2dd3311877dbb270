import Msp430.Proofs.Calls

/-!
The two instruction sets.  Twenty-bit instructions and extension words are put on words
that are otherwise no instructions, so the two decoders read a stream alike until the
narrow one meets an instruction word it has to call illegal.  Main statement: a stream
without such a word is decoded the same with and without the wide instructions.
-/

namespace Msp430
namespace Disassembler

/-- An instruction under the name that is given to words which are none. -/
def Decoded.Illegal (decoded : Decoded) : Prop :=
  "illegal-insn-".toList <+: decoded.name.toList

instance (decoded : Decoded) : Decidable decoded.Illegal :=
  inferInstanceAs (Decidable ("illegal-insn-".toList <+: decoded.name.toList))

theorem announce_wide_or_illegal (extension : Option Nat) (opcode : Nat) :
    announce true extension opcode = announce false extension opcode ∨
      announce false extension opcode = .instruction (Draft.illegal opcode) := by
  unfold announce
  by_cases dual : 0x4000 ≤ opcode
  · rw [if_pos dual, if_pos dual]
    exact Or.inl rfl
  · rw [if_neg dual, if_neg dual]
    by_cases jump : 0x2000 ≤ opcode
    · rw [if_pos jump, if_pos jump]
      exact Or.inl rfl
    · rw [if_neg jump, if_neg jump]
      by_cases single : 0x1000 ≤ opcode ∧ opcode < 0x1380
      · rw [if_pos single, if_pos single]
        exact Or.inl rfl
      · rw [if_neg single, if_neg single, if_pos rfl]
        exact Or.inr rfl

/-! ### Illegal words -/

private theorem illegal_name_ne {opcode : Nat} {name : String}
    (other : name.toList.take 2 ≠ ['i', 'l']) :
    "illegal-insn-0x" ++ Numeral.hexField 4 opcode ≠ name := by
  intro same
  apply other
  rw [← same, String.toList_append]
  rfl

theorem ownName?_illegal (opcode : Nat) (source destination : Option String) :
    Instruction.ownName? (Draft.illegal opcode).name source destination = none := by
  change Instruction.ownName? ("illegal-insn-0x" ++ Numeral.hexField 4 opcode) source
    destination = none
  unfold Instruction.ownName?
  split
  case h_23 => rfl
  all_goals
    rename_i same
    exact absurd same (illegal_name_ne (by decide))

/-- A word that is no instruction is read as one at once. -/
theorem openSource_illegal (wide : Bool) (opcode : Nat) (trace : Trace) :
    ∃ decoded, (Draft.illegal opcode).openSource (bare wide) trace = .finished decoded trace ∧
      decoded.Illegal := by
  let shown : Instruction :=
    { name := (Draft.illegal opcode).name
      size := ""
      source := none
      destination := none }
  refine ⟨.plain shown, ?_, ?_⟩
  · have same : shown.underOwnName = shown := by
      unfold Instruction.underOwnName
      rw [ownName?_illegal]
    change Step.finished (.plain shown.underOwnName) trace = _
    rw [same]
  · change "illegal-insn-".toList <+: ("illegal-insn-0x" ++ Numeral.hexField 4 opcode).toList
    rw [String.toList_append]
    exact ⟨'0' :: 'x' :: (Numeral.hexField 4 opcode).toList, rfl⟩

/-! ### From one word to a stream -/

theorem Reading.feed_wide_or_illegal (reading : Reading) (word : Nat) :
    reading.feed (bare true) word = reading.feed (bare false) word ∨
      ∃ decoded trace, reading.feed (bare false) word = .finished decoded trace ∧
        decoded.Illegal := by
  unfold Reading.feed
  cases reading.expected with
  | source draft => exact Or.inl rfl
  | destination draft source => exact Or.inl rfl
  | opcode extension =>
      simp only
      rcases announce_wide_or_illegal extension word with same | illegal
      · have alike : announce (bare true).wide extension word =
            announce (bare false).wide extension word := same
        rw [alike]
        exact Or.inl rfl
      · have announced : announce (bare false).wide extension word =
            .instruction (Draft.illegal word) := illegal
        obtain ⟨decoded, finished, named⟩ := openSource_illegal false word
          ((reading.trace.use word).spend (Draft.illegal word).cycles)
        rw [announced]
        exact Or.inr ⟨decoded, _, finished, named⟩

theorem decodeFrom_wide_eq {first : Int} {reading : Reading} {stream : List Nat}
    (legal : ∀ item ∈ (decodeFrom (bare false) first reading stream).items,
      ¬ item.decoded.Illegal) :
    decodeFrom (bare true) first reading stream =
      decodeFrom (bare false) first reading stream := by
  induction stream generalizing first reading with
  | nil => rfl
  | cons word others inductionHypothesis =>
      rw [decodeFrom] at legal
      rw [decodeFrom, decodeFrom]
      rcases reading.feed_wide_or_illegal word with same | ⟨decoded, trace, finished, named⟩
      · rw [same]
        cases fed : reading.feed (bare false) word with
        | goOn next =>
            rw [fed] at legal
            exact inductionHypothesis legal
        | failed fault trace => rfl
        | finished decoded trace =>
            rw [fed] at legal
            have later := inductionHypothesis (List.forall_mem_cons.mp legal).2
            simp only [later]
      · rw [finished] at legal
        exact absurd named (List.forall_mem_cons.mp legal).1

/-- Where decoding without wide instructions calls no word illegal, decoding with them
gives the same instructions and the same state at the end. -/
theorem decode_wide_eq_narrow (start : Int) (data : List UInt8)
    (legal : ∀ item ∈ (decode (bare false) start (words (data.map UInt8.toNat))).items,
      ¬ item.decoded.Illegal) :
    decode (bare true) start (words (data.map UInt8.toNat)) =
      decode (bare false) start (words (data.map UInt8.toNat)) :=
  decodeFrom_wide_eq legal

/-- Operand words may be of any kind: here they are those of a twenty-bit move and of an
extension word.  The last instruction misses its number. -/
theorem decode_wide_eq_narrow_operands :
    let data : List UInt8 :=
      [0xb0, 0x12, 0x00, 0x01, 0x92, 0x42, 0x40, 0x18, 0x07, 0x00, 0xff, 0x3f, 0x36, 0x40]
    let narrow := decode (bare false) 0xf000 (words (data.map UInt8.toNat))
    (∀ item ∈ narrow.items, ¬ item.decoded.Illegal) ∧
      narrow.items.map (fun item => item.decoded.text) =
        ["call    #0x0100", "mov     &0x1840, &0x0007", "jmp     -2"] ∧
      decode (bare true) 0xf000 (words (data.map UInt8.toNat)) = narrow := by
  intro data narrow
  have legal : ∀ item ∈ narrow.items, ¬ item.decoded.Illegal := by
    decide +kernel
  exact ⟨legal, by decide +kernel, decode_wide_eq_narrow 0xf000 data legal⟩

end Disassembler
end Msp430
