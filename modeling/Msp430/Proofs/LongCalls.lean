import Msp430.Proofs.Drafts

/-!
Calls to twenty-bit addresses.  Words of such calls begin with `0x13`, and those of the
modes below eight look like a single-operand word, which is tried first.  Main statement: a
call is decoded exactly in the modes from eight on; below them a return from interrupt is
read in its place, with the operand word that its own fields ask for.
-/

namespace Msp430
namespace Disassembler

def callModes : List Nat :=
  [4, 5, 6, 7, 8, 9, 11]

def callWord (mode : Nat) (register : Register) : Nat :=
  0x1300 + 16 * mode + register.val

theorem callModes_range : ∀ mode ∈ callModes, 4 ≤ mode ∧ mode < 12 := by
  decide

theorem callWord_mode {mode : Nat} (bounded : mode < 12) (register : Register) :
    callWord mode register / 16 % 16 = mode := by
  have field := register.isLt
  unfold callWord
  omega

/-! ### Which words are tried first -/

theorem announce_callWord_low {mode : Nat} (low : mode < 8) (register : Register) :
    announce true none (callWord mode register) =
      .instruction (singleDraft none (callWord mode register)) := by
  have field := register.isLt
  have range : 0x1000 ≤ callWord mode register ∧ callWord mode register < 0x1380 := by
    unfold callWord
    omega
  unfold announce
  rw [if_neg (by omega), if_neg (by omega), if_pos range]

theorem announce_callWord_high {mode : Nat} (high : 8 ≤ mode) (bounded : mode < 12)
    (register : Register) :
    announce true none (callWord mode register) =
      .instruction (callDraft (callWord mode register)) := by
  have field := register.isLt
  have range : 0x1380 ≤ callWord mode register ∧ callWord mode register < 0x1400 := by
    unfold callWord
    omega
  unfold announce
  rw [if_neg (by omega), if_neg (by omega), if_neg (by omega), if_neg Bool.noConfusion,
    if_neg (by omega), if_pos range.2]

/-! ### What they are drafts of -/

/-- A return from interrupt is shown without operands, whatever it reads. -/
theorem filled_return {opcode : Nat} (code : opcode / 128 % 32 = 6) (operands : List Nat) :
    (singleDraft none opcode).filled operands =
      { name := "reti", size := "", source := none, destination := none } := by
  have name : (singleDraft none opcode).name = "reti" := by
    unfold singleDraft
    rw [code]
    rfl
  have hidden : (singleDraft none opcode).operandsShown = false := by
    change ((singleDraft none opcode).name != "reti") = false
    rw [name]
    decide
  unfold Draft.filled Draft.instruction
  rw [hidden, name]
  rfl

theorem callDraft_callWord {mode : Nat} (listed : mode ∈ callModes) (register : Register) :
    (callDraft (callWord mode register)).name = "calla" ∧
      (callDraft (callWord mode register)).operandsShown = true ∧
      (8 ≤ mode → (callDraft (callWord mode register)).furtherWords = 1) := by
  obtain ⟨least, bounded⟩ := callModes_range mode listed
  have other : callWord mode register ≠ 0x1300 := by
    unfold callWord
    omega
  unfold callDraft
  rw [if_neg other, callWord_mode bounded register]
  simp only [callModes, List.mem_cons, List.not_mem_nil, or_false] at listed
  rcases listed with rfl | rfl | rfl | rfl | rfl | rfl | rfl
  · exact ⟨rfl, rfl, fun high => absurd high (by decide)⟩
  · exact ⟨rfl, rfl, fun high => absurd high (by decide)⟩
  · exact ⟨rfl, rfl, fun high => absurd high (by decide)⟩
  · exact ⟨rfl, rfl, fun high => absurd high (by decide)⟩
  · exact ⟨rfl, rfl, fun _ => rfl⟩
  · exact ⟨rfl, rfl, fun _ => rfl⟩
  · exact ⟨rfl, rfl, fun _ => rfl⟩

theorem filled_call {mode : Nat} (listed : mode ∈ callModes) (register : Register)
    (operands : List Nat) :
    ((callDraft (callWord mode register)).filled operands).name = "calla" ∧
      ((callDraft (callWord mode register)).filled operands).underOwnName =
        (callDraft (callWord mode register)).filled operands := by
  obtain ⟨name, shown, _⟩ := callDraft_callWord listed register
  unfold Draft.filled Draft.instruction
  rw [shown, if_pos rfl, name]
  exact ⟨rfl, rfl⟩

/-! ### The first instruction of a stream -/

theorem first_of_low_call {mode : Nat} (least : 4 ≤ mode) (low : mode < 8)
    (register : Register) (start : Int) (following : List Nat) :
    (decode (bare true) start (callWord mode register :: following)).items.head?.map
        (fun item => (item.decoded, item.words)) =
      if (singleDraft none (callWord mode register)).furtherWords ≤ following.length then
        some (.plain { name := "reti", size := "", source := none, destination := none },
          callWord mode register ::
            following.take (singleDraft none (callWord mode register)).furtherWords)
      else none := by
  have code : callWord mode register / 128 % 32 = 6 := by
    have field := register.isLt
    unfold callWord
    omega
  rw [first_of_announced rfl (announce_callWord_low low register), filled_return code]
  rfl

theorem first_of_high_call {mode : Nat} (listed : mode ∈ callModes) (high : 8 ≤ mode)
    (register : Register) (start : Int) (following : List Nat) :
    (decode (bare true) start (callWord mode register :: following)).items.head?.map
        (fun item => (item.decoded, item.words)) =
      if following = [] then none
      else
        some (.plain ((callDraft (callWord mode register)).filled (following.take 1)),
          callWord mode register :: following.take 1) := by
  obtain ⟨least, bounded⟩ := callModes_range mode listed
  rw [first_of_announced rfl (announce_callWord_high high bounded register),
    (callDraft_callWord listed register).2.2 high, (filled_call listed register _).2]
  cases following with
  | nil => rfl
  | cons next rest =>
      have enough : 1 ≤ (next :: rest).length := Nat.le_add_left 1 rest.length
      rw [if_pos enough, if_neg (List.cons_ne_nil next rest)]

/-- In every mode there is a call that could be read from the word and the one behind it, and
it is read exactly in the modes from eight on, if there is a word behind it.  In the modes
below eight a return from interrupt is read, with a second word where its fields ask for
one. -/
theorem calla_reached_iff {mode : Nat} (listed : mode ∈ callModes) (register : Register)
    (start : Int) (following : List Nat) :
    let call := (callDraft (callWord mode register)).filled (following.take 1)
    let items := (decode (bare true) start (callWord mode register :: following)).items
    call.name = "calla" ∧
      (items.head?.map Item.decoded = some (.plain call) ↔ 8 ≤ mode ∧ following ≠ []) ∧
      (mode < 8 → items.head?.map (fun item => (item.decoded, item.words)) =
        if (singleDraft none (callWord mode register)).furtherWords ≤ following.length then
          some (.plain { name := "reti", size := "", source := none, destination := none },
            callWord mode register ::
              following.take (singleDraft none (callWord mode register)).furtherWords)
        else none) := by
  intro call items
  obtain ⟨least, bounded⟩ := callModes_range mode listed
  have name := (filled_call listed register (following.take 1)).1
  refine ⟨name, ?_, fun low => first_of_low_call least low register start following⟩
  have decoded : items.head?.map Item.decoded =
      (items.head?.map (fun item => (item.decoded, item.words))).map Prod.fst := by
    rw [Option.map_map]
    rfl
  rw [decoded]
  by_cases high : 8 ≤ mode
  · rw [first_of_high_call listed high register start following]
    by_cases empty : following = []
    · rw [if_pos empty]
      exact iff_of_false nofun (fun present => present.2 empty)
    · rw [if_neg empty]
      exact iff_of_true rfl ⟨high, empty⟩
  · rw [first_of_low_call least (Nat.lt_of_not_le high) register start following]
    refine iff_of_false ?_ (fun present => high present.1)
    split
    · intro same
      have shown := congrArg Instruction.name (Decoded.plain.inj (Option.some.inj same))
      exact absurd (shown.trans name) (by decide)
    · exact nofun

/-- A call of an address in a register is read as a return from interrupt. -/
theorem calla_reached_iff_register :
    4 ∈ callModes ∧
      ((callDraft 0x134a).filled []).text = "calla   R10" ∧
      (decode (bare true) 0x200 [0x134a]).items.head?.map Item.decoded ≠
        some (.plain ((callDraft 0x134a).filled [])) := by
  have listed : 4 ∈ callModes := by
    decide
  obtain ⟨_, reached, _⟩ := calla_reached_iff listed ⟨10, by decide⟩ 0x200 []
  exact ⟨listed, by decide, fun same => absurd (reached.mp same).1 (by decide)⟩

end Disassembler
end Msp430
