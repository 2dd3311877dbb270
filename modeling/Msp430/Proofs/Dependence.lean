import Msp430.Proofs.Failures
import Msp430.Proofs.Lengths

/-!
What an entry with two operands takes from the symbols.  The values of its operands go into
the two register fields of its instruction word, four bits of each, and the words behind
that word are the same under all tables.  A number behind its mark is looked up as if it
were a name.  Main statement: a number and a register are encoded alike under two tables
exactly if these agree in the low four bits at the text of the number, where no binding
counts as zero.
-/

namespace Msp430
namespace Assembler

theorem dualWord_eq_iff (operation : Dual) (source : Operand) (destination : Option Operand)
    (sourceValue sourceOther destinationValue destinationOther : Int) :
    dualWord operation source destination sourceValue destinationValue =
        dualWord operation source destination sourceOther destinationOther ↔
      sourceValue % 16 = sourceOther % 16 ∧ destinationValue % 16 = destinationOther % 16 := by
  unfold dualWord
  omega

/-- The source value fills a field that is empty without it. -/
theorem dualWord_eq_add (operation : Dual) (source : Operand) (destination : Option Operand)
    (sourceValue destinationValue : Int) :
    dualWord operation source destination 0 destinationValue / 256 % 16 = 0 ∧
      dualWord operation source destination sourceValue destinationValue =
        dualWord operation source destination 0 destinationValue + sourceValue % 16 * 256 := by
  have modeBound := source.mode.field_lt
  have bitBound := destinationField_le_one destination
  unfold dualWord
  constructor
  · omega
  · omega

theorem resolve?_of_number {literal : String} {value : Int}
    (reads : Numeral.hex? literal = some value) {written : Operand}
    (text : written.text = literal) (symbols : SymbolTable) :
    resolve? symbols (some written) = symbols.find? literal := by
  unfold resolve?
  rw [Option.bind_some, text, Register.ofName?_of_reads reads]

theorem resolve?_of_register {name : String} {register : Register}
    (named : Register.ofName? name = some register) (mode : Mode) (symbols : SymbolTable) :
    resolve? symbols (some { mode := mode, text := name }) = some (register.val : Int) := by
  unfold resolve?
  rw [Option.bind_some, named]

namespace Entry

variable {entry : Entry}

section Dual

variable {operation : Dual} {source : Operand}
  (known : Operation.ofName? entry.opcode = some (.dual operation))
  (read : entry.source? = some source)

include known read

/-- Only the instruction word knows the symbols. -/
theorem exists_words_eq_cons :
    ∃ others : List ObjectWord, ∀ symbols : SymbolTable,
      entry.words symbols =
        { address := entry.location
          code := dualWord operation source entry.destination?
            ((resolve? symbols (some source)).getD 0)
            ((resolve? symbols entry.destination?).getD 0) } :: others := by
  unfold source? at read
  unfold words emit destination?
  rw [known]
  simp only [emitDual, read]
  cases operandWords entry.location (some source) with
  | error fault => exact ⟨[], fun _symbols => rfl⟩
  | ok sourceWords =>
      cases operandWords entry.location (Operand.read? (components entry.operand).2) with
      | error fault => exact ⟨sourceWords, fun _symbols => rfl⟩
      | ok destinationWords => exact ⟨sourceWords ++ destinationWords, fun _symbols => rfl⟩

theorem words_eq_iff (first second : SymbolTable) :
    entry.words first = entry.words second ↔
      (resolve? first (some source)).getD 0 % 16 = (resolve? second (some source)).getD 0 % 16 ∧
        (resolve? first entry.destination?).getD 0 % 16 =
          (resolve? second entry.destination?).getD 0 % 16 := by
  obtain ⟨others, words⟩ := exists_words_eq_cons known read
  rw [words first, words second, List.cons_eq_cons, ObjectWord.mk.injEq,
    dualWord_eq_iff operation]
  exact ⟨fun same => same.1.2, fun same => ⟨⟨rfl, same⟩, rfl⟩⟩

end Dual

/-- The operand behind a mark that asks for a word. -/
theorem source?_of_marked {literal : String} (marked : Marked entry.sourceText literal) :
    ∃ source, entry.source? = some source ∧ source.mode.takesWord = true ∧
      source.text = literal := by
  have shape := shape_read? entry.sourceText
  change Shape entry.sourceText entry.source? at shape
  generalize entry.source? = operand at shape
  cases shape with
  | lacking lacking => exact absurd marked (lacking.unmarked literal)
  | marked takes other => exact ⟨_, rfl, takes, other.inj marked⟩
  | plain takes present unmarked => exact absurd marked (unmarked literal)

theorem destination?_of_register {name : String} {register : Register}
    (destination : entry.destinationText = some name)
    (named : Register.ofName? name = some register) :
    entry.destination? = some { mode := .register, text := name } := by
  unfold destinationText at destination
  unfold destination?
  rw [destination]
  exact Operand.ofText?_register named

theorem emit_of_number {operation : Dual} {source : Operand} {name : String} {value : Int}
    (known : Operation.ofName? entry.opcode = some (.dual operation))
    (read : entry.source? = some source) (takes : source.mode.takesWord = true)
    (reads : Numeral.hex? source.text = some value)
    (destination : entry.destination? = some { mode := .register, text := name })
    (symbols : SymbolTable) :
    (entry.emit symbols).fault = none ∧
      entry.words symbols =
        [{ address := entry.location
           code := dualWord operation source entry.destination?
             ((resolve? symbols (some source)).getD 0)
             ((resolve? symbols entry.destination?).getD 0) },
          { address := entry.location + 2, code := value }] := by
  have sourceWords : operandWords entry.location (some source) =
      .ok [{ address := entry.location + 2, code := value }] := by
    rw [operandWords, takes, if_pos rfl, reads]
  have destinationWords : operandWords entry.location entry.destination? = .ok [] := by
    rw [destination]
    rfl
  unfold source? at read
  unfold destination? at destinationWords ⊢
  unfold words emit
  rw [known]
  simp only [emitDual, read, sourceWords, destinationWords]
  exact ⟨trivial, rfl⟩

/-- A number behind `#` or `&` and a register are encoded as an instruction word and the
number.  The value bound to the text of the number comes into the source field of the
instruction word, which is empty without it, so two tables give the same words exactly if
the values they bind to that text have the same low four bits. -/
theorem number_words_eq_iff {literal name : String} {value : Int} {register : Register}
    (dual : entry.opcode ∈ dualNames) (marked : Marked entry.sourceText literal)
    (reads : Numeral.hex? literal = some value) (destination : entry.destinationText = some name)
    (named : Register.ofName? name = some register) :
    (∃ empty : Int, empty / 256 % 16 = 0 ∧ ∀ symbols : SymbolTable,
      (entry.emit symbols).fault = none ∧
        entry.words symbols =
          [{ address := entry.location
             code := empty + (symbols.find? literal).getD 0 % 16 * 256 },
            { address := entry.location + 2, code := value }]) ∧
      ∀ first second : SymbolTable,
        entry.words first = entry.words second ↔
          (first.find? literal).getD 0 % 16 = (second.find? literal).getD 0 % 16 := by
  obtain ⟨operation, known⟩ := (Operation.mem_dualNames_iff entry.opcode).mp dual
  obtain ⟨source, read, takes, text⟩ := source?_of_marked marked
  have target := destination?_of_register destination named
  have sourceValue := resolve?_of_number reads text
  have targetValue := resolve?_of_register named .register
  rw [← text] at reads
  constructor
  · refine ⟨dualWord operation source entry.destination? 0 register.val,
      (dualWord_eq_add operation source entry.destination? 0 register.val).1, fun symbols => ?_⟩
    obtain ⟨unfaulty, words⟩ := emit_of_number known read takes reads target symbols
    refine ⟨unfaulty, ?_⟩
    rw [words, sourceValue, target, targetValue, Option.getD_some,
      (dualWord_eq_add operation source _ _ _).2]
  · intro first second
    rw [words_eq_iff known read, sourceValue, sourceValue, target, targetValue, targetValue]
    exact and_iff_left rfl

/-- A label that is spelled like a number changes the instruction with that number. -/
theorem number_words_eq_iff_bound :
    let entry : Entry :=
      { label := none, opcode := "MOV", operand := some "#10, R6", location := 4 }
    let bound : SymbolTable := { bindings := [("10", 5)] }
    (entry.opcode ∈ dualNames ∧ Marked entry.sourceText "10" ∧ Numeral.hex? "10" = some 16 ∧
        entry.destinationText = some "R6" ∧ Register.ofName? "R6" = some ⟨6, by decide⟩) ∧
      entry.words SymbolTable.empty ≠ entry.words bound ∧
      entry.words SymbolTable.empty =
        [{ address := 4, code := 0x4036 }, { address := 6, code := 0x10 }] ∧
      entry.words bound = [{ address := 4, code := 0x4536 }, { address := 6, code := 0x10 }] := by
  intro entry bound
  have dual : entry.opcode ∈ dualNames := by
    decide
  have marked : Marked entry.sourceText "10" := Or.inl (by decide)
  have reads : Numeral.hex? "10" = some 16 := by
    decide
  have destination : entry.destinationText = some "R6" := by
    decide
  have named : Register.ofName? "R6" = some ⟨6, by decide⟩ := by
    decide
  have apart := (number_words_eq_iff dual marked reads destination named).2 SymbolTable.empty bound
  exact ⟨⟨dual, marked, reads, destination, named⟩,
    fun same => absurd (apart.mp same) (by decide), by decide, by decide⟩

end Entry
end Assembler
end Msp430
