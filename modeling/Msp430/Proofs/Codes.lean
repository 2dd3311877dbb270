import Msp430.Proofs.Failures
import Msp430.Proofs.Lengths
import Msp430.Proofs.Numerals

/-!
Widths of codes.  Instruction words are put together from fields and have sixteen bits,
whatever the values of their operands are; the word of an immediate or absolute operand is
the number as it is written, of any size and sign.  Main statement: all codes of a program
have sixteen bits exactly if all numbers do that encoding comes to, and a code has sixteen
bits exactly if its columns in a listing show the same word.
-/

namespace Msp430

def FitsWord (code : Int) : Prop :=
  0 ≤ code ∧ code ≤ 0xffff

/-! ### Columns -/

/-- The hexadecimal columns of a word, at the console and in the window, and its binary
column are read as the same number, and the binary one has sixteen digits. -/
def ObjectWord.Legible (word : ObjectWord) : Prop :=
  (Numeral.wordBits word.code).length = 16 ∧
    ∃ number : Nat,
      Numeral.natural? 2 (Numeral.wordBits word.code).toList = some number ∧
        Numeral.natural? 16 (Numeral.upperHex word.code).toList = some number ∧
        Numeral.hex? (Numeral.hex word.code) = some (number : Int)

namespace Numeral

open Text

theorem wordBits_natCast (number : Nat) :
    wordBits (number : Int) = zeroFill 16 (digits 2 number) := by
  unfold wordBits
  rw [if_neg (by omega), Int.natAbs_natCast, String.empty_append]

theorem upperHex_natCast (number : Nat) :
    upperHex (number : Int) = (digits 16 number).map Char.toUpper := by
  unfold upperHex sign
  rw [if_neg (by omega), Int.natAbs_natCast, String.empty_append]

theorem length_wordBits_natCast (number : Nat) :
    (wordBits (number : Int)).length = 16 ↔ number ≤ 0xffff := by
  have few := Nat.length_toDigits_le_iff (b := 2) (n := number) (k := 16) (by decide) (by decide)
  have length : (wordBits (number : Int)).length =
      16 - (Nat.toDigits 2 number).length + (Nat.toDigits 2 number).length := by
    rw [wordBits_natCast, zeroFill, String.length_append, String.length_ofList,
      List.length_replicate, digits, String.length_ofList]
  rw [length]
  omega

end Numeral

theorem ObjectWord.legible_iff (word : ObjectWord) : word.Legible ↔ FitsWord word.code := by
  constructor
  · rintro ⟨length, number, _bits, _capitals, reads⟩
    rw [Numeral.hex?_hex, Option.some.injEq] at reads
    rw [reads, Numeral.length_wordBits_natCast] at length
    unfold FitsWord
    omega
  · rintro ⟨low, high⟩
    obtain ⟨number, same⟩ := Int.eq_ofNat_of_zero_le low
    unfold Legible
    rw [same, Numeral.length_wordBits_natCast, Numeral.wordBits_natCast, Numeral.upperHex_natCast]
    exact ⟨by omega, number, Numeral.natural?_zeroFill (by decide) (by decide) 16 number,
      Numeral.natural?_capitals number, Numeral.hex?_hex number⟩

namespace Assembler

/-! ### Instruction words -/

theorem dualWord_fits (operation : Dual) (source : Operand) (destination : Option Operand)
    (sourceValue destinationValue : Int) :
    FitsWord (dualWord operation source destination sourceValue destinationValue) := by
  have operationBound := operation.field_lt
  have modeBound := source.mode.field_lt
  have bitBound := destinationField_le_one destination
  unfold FitsWord dualWord
  omega

theorem Single.word_fits (operation : Single) : FitsWord operation.word := by
  unfold FitsWord
  cases operation <;> decide

theorem jumpWord_fits (symbols : SymbolTable) (operation : Jump) (operand : Option String)
    (location : Int) : FitsWord (jumpWord symbols operation operand location) := by
  have bound : operation.word ≤ 0x3c00 := by
    cases operation <;> decide
  simp only [FitsWord, jumpWord]
  omega

/-! ### Words of one entry -/

theorem Extension.mem_iff {location : Int} {component : Option String}
    {words : List ObjectWord} (extension : Extension location component words)
    (word : ObjectWord) :
    word ∈ words ↔ word.address = location + 2 ∧
      ∃ literal, Marked component literal ∧ Numeral.hex? literal = some word.code := by
  cases extension with
  | absent plain =>
      refine ⟨nofun, ?_⟩
      rintro ⟨_, literal, marked, _⟩
      exact absurd marked (plain literal)
  | @present rest value marked reads =>
      rw [List.mem_singleton]
      constructor
      · intro same
        rw [same]
        exact ⟨rfl, rest, marked, reads⟩
      · rintro ⟨address, literal, other, code⟩
        rw [other.inj marked, reads, Option.some.injEq] at code
        cases word
        cases address
        cases code
        rfl

namespace Entry

/-- A number that encoding the entry comes to: behind the mark of its source, or behind that
of its destination if the source is in order. -/
def Writes (entry : Entry) (literal : String) : Prop :=
  entry.opcode ∈ dualNames ∧
    (Marked entry.sourceText literal ∨
      ¬ Lacking entry.sourceText ∧ ¬ Unreadable entry.sourceText ∧
        Marked entry.destinationText literal)

variable {entry : Entry} {symbols : SymbolTable}

theorem instruction?_fits {word : ObjectWord}
    (instruction : entry.instruction? symbols = some word) : FitsWord word.code := by
  unfold instruction? at instruction
  split at instruction
  · rw [← Option.some.inj instruction]
    exact dualWord_fits _ _ _ _ _
  · cases instruction

theorem present_of_instruction? {word : ObjectWord}
    (instruction : entry.instruction? symbols = some word) : ¬ Lacking entry.sourceText := by
  unfold instruction? at instruction
  split at instruction
  · next source _ read =>
      rw [← lacking_iff]
      exact fun lacking => Option.some_ne_none source (read.symm.trans lacking)
  · cases instruction

/-- An entry with two operands that is not broken: its instruction word and what its operands
bring. -/
theorem exists_words_of_sound {operation : Dual}
    (known : Operation.ofName? entry.opcode = some (.dual operation))
    (completed : (entry.emit symbols).fault = none) :
    ∃ first sourceWords destinationWords, entry.instruction? symbols = some first ∧
      Extension entry.location entry.sourceText sourceWords ∧
      Extension entry.location entry.destinationText destinationWords ∧
      entry.words symbols = first :: (sourceWords ++ destinationWords) := by
  have emitted : entry.emit symbols =
      emitDual symbols operation entry.operand entry.location := by
    rw [emit, known]
  rw [emitted] at completed
  obtain ⟨source, sourceWords, destinationWords, read, first, second, words⟩ :=
    emitDual_completed completed
  rcases operandWords_of_read read entry.location with
    ⟨_, _, _, failed⟩ | ⟨_, extended, encoded⟩
  · cases failed.symm.trans first
  · rcases operandWords_of_read (Eq.refl entry.destination?) entry.location with
      ⟨_, _, _, failed⟩ | ⟨_, extended', encoded'⟩
    · cases failed.symm.trans second
    · rw [Except.ok.inj (encoded.symm.trans first)] at extended
      rw [Except.ok.inj (encoded'.symm.trans second)] at extended'
      refine ⟨_, sourceWords, destinationWords, ?_, extended, extended',
        (congrArg Emission.words emitted).trans words⟩
      unfold instruction? source?
      rw [known, read]
      rfl

theorem fits_or_writes_of_dual {operation : Dual}
    (known : Operation.ofName? entry.opcode = some (.dual operation)) {word : ObjectWord}
    (member : word ∈ entry.words symbols) :
    FitsWord word.code ∨
      word.address = entry.location + 2 ∧
        ∃ literal, entry.Writes literal ∧ Numeral.hex? literal = some word.code := by
  have dual : entry.opcode ∈ dualNames := (Operation.mem_dualNames_iff _).mpr ⟨operation, known⟩
  have fromSource {extension : List ObjectWord}
      (extended : Extension entry.location entry.sourceText extension)
      (further : word ∈ extension) :
      word.address = entry.location + 2 ∧
        ∃ literal, entry.Writes literal ∧ Numeral.hex? literal = some word.code := by
    obtain ⟨address, literal, marked, reads⟩ := (extended.mem_iff word).mp further
    exact ⟨address, literal, ⟨dual, Or.inl marked⟩, reads⟩
  rcases emit_dual_cases symbols known with ⟨fault, _faulty, breaks⟩ | ⟨completed, _sound⟩
  · change entry.Breaks symbols fault (entry.words symbols) at breaks
    generalize entry.words symbols = words at breaks member
    cases breaks with
    | missing _ lacking => cases member
    | source instruction marked unread =>
        rw [List.mem_singleton.mp member]
        exact Or.inl (instruction?_fits instruction)
    | destination instruction extended marked unread =>
        rcases List.mem_cons.mp member with first | further
        · rw [first]
          exact Or.inl (instruction?_fits instruction)
        · exact Or.inr (fromSource extended further)
  · obtain ⟨first, sourceWords, destinationWords, instruction, extended, extended', words⟩ :=
      exists_words_of_sound known completed
    rw [words, List.mem_cons, List.mem_append] at member
    rcases member with same | further | further
    · rw [same]
      exact Or.inl (instruction?_fits instruction)
    · exact Or.inr (fromSource extended further)
    · obtain ⟨address, literal, marked, reads⟩ := (extended'.mem_iff word).mp further
      have behind := And.intro extended.readable marked
      exact Or.inr ⟨address, literal,
        ⟨dual, Or.inr ⟨present_of_instruction? instruction, behind⟩⟩, reads⟩

/-- The words of an entry have sixteen bits or are numbers that it writes. -/
theorem fits_or_writes {word : ObjectWord} (member : word ∈ entry.words symbols) :
    FitsWord word.code ∨
      word.address = entry.location + 2 ∧
        ∃ literal, entry.Writes literal ∧ Numeral.hex? literal = some word.code := by
  cases known : Operation.ofName? entry.opcode with
  | none =>
      rw [(words_of_unknown known).1] at member
      cases member
  | some operation =>
      cases operation with
      | dual operation => exact fits_or_writes_of_dual known member
      | single operation =>
          unfold words emit at member
          rw [known] at member
          rw [List.mem_singleton.mp member]
          exact Or.inl operation.word_fits
      | jump operation =>
          unfold words emit at member
          rw [known] at member
          rw [List.mem_singleton.mp member]
          exact Or.inl (jumpWord_fits symbols operation _ _)
      | reserving =>
          rw [(words_of_reserving known).1] at member
          cases member

/-- Every number that an entry writes is among its words. -/
theorem mem_words_of_writes {literal : String} {value : Int} (writes : entry.Writes literal)
    (reads : Numeral.hex? literal = some value) :
    { address := entry.location + 2, code := value } ∈ entry.words symbols := by
  obtain ⟨dual, behind⟩ := writes
  obtain ⟨operation, known⟩ := (Operation.mem_dualNames_iff _).mp dual
  have read {component : Option String} {rest : String} (marked : Marked component literal)
      (other : Marked component rest) : Numeral.hex? rest ≠ none := by
    rw [other.inj marked, reads]
    exact Option.some_ne_none value
  rcases emit_dual_cases symbols known with ⟨fault, _faulty, breaks⟩ | ⟨completed, _sound⟩
  · change entry.Breaks symbols fault (entry.words symbols) at breaks
    generalize entry.words symbols = words at breaks
    cases breaks with
    | missing _ lacking =>
        rcases behind with marked | ⟨present, _, _⟩
        · exact absurd marked (lacking.unmarked literal)
        · exact absurd lacking present
    | source instruction other unread =>
        rcases behind with marked | ⟨_, readable, _⟩
        · exact absurd unread (read marked other)
        · exact absurd ⟨_, other, unread⟩ readable
    | destination instruction extended other unread =>
        rcases behind with marked | ⟨_, _, marked⟩
        · exact List.mem_cons_of_mem _ ((extended.mem_iff _).mpr ⟨rfl, literal, marked, reads⟩)
        · exact absurd unread (read marked other)
  · obtain ⟨first, sourceWords, destinationWords, instruction, extended, extended', words⟩ :=
      exists_words_of_sound known completed
    rw [words, List.mem_cons, List.mem_append]
    rcases behind with marked | ⟨_, _, marked⟩
    · exact Or.inr (Or.inl ((extended.mem_iff _).mpr ⟨rfl, literal, marked, reads⟩))
    · exact Or.inr (Or.inr ((extended'.mem_iff _).mpr ⟨rfl, literal, marked, reads⟩))

end Entry

/-! ### All words -/

/-- Encoding comes to an entry if none in front of it is broken. -/
def Reached (entries : List Entry) (entry : Entry) : Prop :=
  ∃ earlier later, entries = earlier ++ entry :: later ∧
    ∀ other ∈ earlier, ¬ other.IsBroken

theorem reached_cons_iff (first : Entry) (others : List Entry) (entry : Entry) :
    Reached (first :: others) entry ↔
      entry = first ∨ ¬ first.IsBroken ∧ Reached others entry := by
  constructor
  · rintro ⟨earlier, later, divided, sound⟩
    cases earlier with
    | nil => exact Or.inl (List.cons.inj divided).1.symm
    | cons other front =>
        obtain ⟨same, rest⟩ := List.cons.inj divided
        obtain ⟨whole, soundFront⟩ := List.forall_mem_cons.mp sound
        exact Or.inr ⟨same ▸ whole, front, later, rest, soundFront⟩
  · rintro (same | ⟨whole, earlier, later, divided, sound⟩)
    · exact ⟨[], others, by rw [same]; rfl, nofun⟩
    · exact ⟨first :: earlier, later, by rw [divided]; rfl, List.forall_mem_cons.mpr ⟨whole, sound⟩⟩

theorem mem_emitAll_words_iff (symbols : SymbolTable) (entries : List Entry)
    (word : ObjectWord) :
    word ∈ (emitAll symbols entries).words ↔
      ∃ entry, Reached entries entry ∧ word ∈ entry.words symbols := by
  induction entries with
  | nil =>
      refine ⟨nofun, ?_⟩
      rintro ⟨_, ⟨earlier, later, divided, _⟩, _⟩
      exact absurd divided.symm (by simp)
  | cons first others inductionHypothesis =>
      simp only [reached_cons_iff, or_and_right, exists_or, exists_eq_left]
      by_cases broken : first.IsBroken
      · obtain ⟨fault, faulty, _⟩ := Entry.emit_of_broken symbols broken
        rw [emitAll, faulty]
        simp only [broken, not_true_eq_false, false_and, exists_false, or_false]
        rfl
      · rw [emitAll, Entry.emit_of_sound symbols broken]
        simp only [broken, not_false_eq_true, true_and, ← inductionHypothesis]
        exact List.mem_append

namespace State

theorem mem_encode_object_iff (state : State) (word : ObjectWord) :
    word ∈ state.encode.1.object ↔
      word ∈ state.object ∨
        ∃ entry, Reached state.entries entry ∧ word ∈ entry.words state.symbols := by
  rw [← mem_emitAll_words_iff]
  exact List.mem_append

/-- From a state whose codes have sixteen bits, those of a program have exactly if the
numbers do that encoding comes to.  Any other code is such a number, and it is told from the
listing: the columns of a word agree exactly if it has sixteen bits. -/
theorem codes_fit_iff (state : State) (clean : ∀ word ∈ state.object, FitsWord word.code)
    (source : String) :
    ((∀ word ∈ (state.layout source).state.encode.1.object, FitsWord word.code) ↔
        ∀ entry literal value, Reached (state.layout source).state.entries entry →
          entry.Writes literal → Numeral.hex? literal = some value → FitsWord value) ∧
      ∀ word ∈ (state.layout source).state.encode.1.object,
        (word.Legible ↔ FitsWord word.code) ∧
          (¬ FitsWord word.code →
            ∃ entry literal, Reached (state.layout source).state.entries entry ∧
              entry.Writes literal ∧ word.address = entry.location + 2 ∧
              Numeral.hex? literal = some word.code) := by
  have kept : (state.layout source).state.object = state.object :=
    placeAll_object (Statement.all source)
  generalize (state.layout source).state = placed at kept ⊢
  have unfit : ∀ word ∈ placed.encode.1.object, ¬ FitsWord word.code →
      ∃ entry literal, Reached placed.entries entry ∧ entry.Writes literal ∧
        word.address = entry.location + 2 ∧ Numeral.hex? literal = some word.code := by
    intro word member wide
    rw [mem_encode_object_iff, kept] at member
    rcases member with old | ⟨entry, reached, emitted⟩
    · exact absurd (clean word old) wide
    · rcases entry.fits_or_writes emitted with fits | ⟨address, literal, writes, reads⟩
      · exact absurd fits wide
      · exact ⟨entry, literal, reached, writes, address, reads⟩
  refine ⟨⟨?_, ?_⟩, fun word member => ⟨word.legible_iff, unfit word member⟩⟩
  · intro fits entry literal value reached writes reads
    apply fits { address := entry.location + 2, code := value }
    rw [mem_encode_object_iff]
    exact Or.inr ⟨entry, reached, entry.mem_words_of_writes writes reads⟩
  · intro numbers word member
    refine Classical.byContradiction (fun wide => ?_)
    obtain ⟨entry, literal, reached, writes, _, reads⟩ := unfit word member wide
    exact wide (numbers entry literal word.code reached writes reads)

/-- A number of seventeen bits and a negative one in front of an entry that is broken. -/
theorem codes_fit_iff_wide :
    let source := "MOV #12345, R5\nADD &-1, R6\nSUB , R7\nMOV #10000, R8"
    let encoded := (fresh.layout source).state.encode
    (∀ word ∈ fresh.object, FitsWord word.code) ∧
      ¬ (∀ word ∈ encoded.1.object, FitsWord word.code) ∧
      (∃ word ∈ encoded.1.object, word.code = -1 ∧ ¬ word.Legible) ∧
      encoded.1.object.map ObjectWord.code = [0x4035, 0x12345, 0x5016, -1] ∧
      encoded.2 = some .missingSource := by
  intro source encoded
  have clean : ∀ word ∈ fresh.object, FitsWord word.code := nofun
  obtain ⟨fits, legible⟩ := codes_fit_iff fresh clean source
  have negative : { address := 10, code := -1 } ∈ encoded.1.object := by
    decide
  refine ⟨clean, ?_, ⟨_, negative, rfl, ?_⟩, by decide, by decide⟩
  · intro narrow
    have reached : Reached (fresh.layout source).state.entries
        { label := none, opcode := "MOV", operand := some "#12345, R5", location := 4 } :=
      ⟨[], (fresh.layout source).state.entries.tail, by decide, nofun⟩
    have bound := fits.mp narrow _ "12345" 0x12345 reached
      ⟨by decide, Or.inl (Or.inl (by decide))⟩ (by decide)
    exact absurd bound.2 (by decide)
  · intro shown
    exact absurd ((legible _ negative).1.mp shown).1 (by decide)

end State
end Assembler
end Msp430
