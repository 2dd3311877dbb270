import Msp430.Assembler.Encoding
import Msp430.Proofs.Placement

/-!
What an entry emits when it can be encoded.  An entry with a code emits its
instruction word at its location and one word for each immediate or absolute
operand, all of these at the address two above; the bytes reserved for it are two
for each word.  All other entries emit nothing.
-/

namespace Msp430
namespace Assembler

/-- The words of an entry. -/
def Entry.words (symbols : SymbolTable) (entry : Entry) : List ObjectWord :=
  (entry.emit symbols).words

/-- Operations that only reserve a word, by name. -/
def reservingNames : List String :=
  ["ADDC", "SUBC", "RET", ".DATA", ".CODE", ".ORG"]

/-- Operations with a code, by name: two operands, one operand, jumps. -/
def codedNames : List String :=
  ["MOV", "ADD", "SUB", "CMP", "AND", "XOR", "BIC", "BIS", "BIT", "DADD",
    "RRC", "SWPB", "RRA", "SXT", "PUSH", "CALL",
    "JNE", "JEQ", "JNC", "JC", "JN", "JGE", "JL", "JMP"]

/-! ### Names of operations -/

private theorem coded_of_mem :
    ∀ name ∈ codedNames, (Operation.ofName? name).any (fun operation => operation != .reserving) =
      true := by
  decide

private theorem reserving_of_mem :
    ∀ name ∈ reservingNames, Operation.ofName? name = some .reserving := by
  decide

private theorem mem_of_known {name : String} {operation : Operation}
    (known : Operation.ofName? name = some operation) :
    name ∈ codedNames ∨ name ∈ reservingNames := by
  unfold Operation.ofName? at known
  split at known
  case h_31 => cases known
  all_goals decide

theorem Operation.exists_of_mem_codedNames {name : String} (member : name ∈ codedNames) :
    ∃ operation, ofName? name = some operation ∧ operation ≠ .reserving := by
  have found := coded_of_mem name member
  cases known : ofName? name with
  | none =>
      rw [known] at found
      cases found
  | some operation =>
      rw [known] at found
      exact ⟨operation, rfl, by simpa using found⟩

/-- The operations that only reserve are the named ones. -/
theorem Operation.ofName?_reserving_iff (name : String) :
    ofName? name = some .reserving ↔ name ∈ reservingNames := by
  constructor
  · intro known
    rcases mem_of_known known with coded | reserving
    · obtain ⟨operation, same, different⟩ := exists_of_mem_codedNames coded
      rw [known] at same
      exact absurd (Option.some.inj same).symm different
    · exact reserving
  · exact reserving_of_mem name

/-- The operations with a code are the named ones. -/
theorem Operation.mem_codedNames {name : String} {operation : Operation}
    (known : ofName? name = some operation) (coded : operation ≠ .reserving) :
    name ∈ codedNames := by
  rcases mem_of_known known with member | member
  · exact member
  · rw [reserving_of_mem name member] at known
    exact absurd (Option.some.inj known).symm coded

/-! ### One entry -/

/-- An operand that can be encoded brings at most one word, two above the
location, and reserves two bytes for it. -/
theorem operandWords_addresses {location : Int} {operand : Option Operand}
    {words : List ObjectWord} (encoded : operandWords location operand = .ok words) :
    words.map ObjectWord.address = List.replicate words.length (location + 2) ∧
      Operand.extraBytes operand = 2 * words.length := by
  cases operand with
  | none =>
      cases encoded
      exact ⟨rfl, rfl⟩
  | some written =>
      unfold operandWords at encoded
      unfold Operand.extraBytes
      cases takes : written.mode.takesWord with
      | false =>
          simp only [takes, Bool.false_eq_true, if_false, Except.ok.injEq] at encoded
          subst words
          exact ⟨rfl, by simp only [takes]; rfl⟩
      | true =>
          simp only [takes, if_true] at encoded
          cases reads : Numeral.hex? written.text with
          | none =>
              rw [reads] at encoded
              cases encoded
          | some value =>
              rw [reads] at encoded
              cases encoded
              exact ⟨rfl, by simp only [takes]; rfl⟩

/-- A two-operand statement without fault has a source; it emits its instruction word
and behind it what its operands bring. -/
theorem emitDual_completed {symbols : SymbolTable} {operation : Dual} {operand : Option String}
    {location : Int}
    (completed : (emitDual symbols operation operand location).fault = none) :
    ∃ source sourceWords destinationWords,
      Operand.read? (components operand).1 = some source ∧
        operandWords location (some source) = .ok sourceWords ∧
        operandWords location (Operand.read? (components operand).2) = .ok destinationWords ∧
        (emitDual symbols operation operand location).words =
          { address := location
            code := dualWord operation source (Operand.read? (components operand).2)
              ((resolve? symbols (some source)).getD 0)
              ((resolve? symbols (Operand.read? (components operand).2)).getD 0) } ::
            (sourceWords ++ destinationWords) := by
  unfold emitDual at completed ⊢
  cases source : Operand.read? (components operand).1 with
  | none =>
      simp only [source] at completed
      cases completed
  | some written =>
      cases first : operandWords location (some written) with
      | error fault =>
          simp only [source, first] at completed
          cases completed
      | ok sourceWords =>
          cases second : operandWords location (Operand.read? (components operand).2) with
          | error fault =>
              simp only [source, first, second] at completed
              cases completed
          | ok destinationWords =>
              refine ⟨written, sourceWords, destinationWords, rfl, first, rfl, ?_⟩
              simp only [first, second]

/-- Where these words stand, and the bytes reserved for them. -/
theorem emitDual_addresses {symbols : SymbolTable} {operation : Dual} {operand : Option String}
    {location : Int}
    (completed : (emitDual symbols operation operand location).fault = none) :
    ∃ count : Nat,
      (emitDual symbols operation operand location).words.map ObjectWord.address =
          location :: List.replicate count (location + 2) ∧
        (Operation.dual operation).reserved operand = 2 * (count + 1) := by
  obtain ⟨source, sourceWords, destinationWords, read, first, second, words⟩ :=
    emitDual_completed completed
  obtain ⟨firstAt, firstRoom⟩ := operandWords_addresses first
  obtain ⟨secondAt, secondRoom⟩ := operandWords_addresses second
  refine ⟨sourceWords.length + destinationWords.length, ?_, ?_⟩
  · rw [words, List.map_cons, List.map_append, firstAt, secondAt,
      List.replicate_append_replicate]
  · simp only [Operation.reserved, read, firstRoom, secondRoom]
    omega

namespace Entry

variable {symbols : SymbolTable} {entry : Entry}

/-- An entry with a code: its instruction word, then its operand words. -/
theorem words_addresses {operation : Operation}
    (known : Operation.ofName? entry.opcode = some operation)
    (coded : operation ≠ .reserving) (completed : (entry.emit symbols).fault = none) :
    ∃ count : Nat,
      (entry.words symbols).map ObjectWord.address =
          entry.location :: List.replicate count (entry.location + 2) ∧
        (entry.words symbols).length = count + 1 ∧
        entry.room = 2 * (count + 1) := by
  have placed : ∃ count : Nat,
      (entry.words symbols).map ObjectWord.address =
          entry.location :: List.replicate count (entry.location + 2) ∧
        entry.room = 2 * (count + 1) := by
    have room : entry.room = operation.reserved entry.operand := Statement.room_of_known known
    rw [room]
    unfold words
    unfold emit at completed ⊢
    rw [known] at completed ⊢
    cases operation with
    | dual operation => exact emitDual_addresses completed
    | single operation => exact ⟨0, rfl, rfl⟩
    | jump operation => exact ⟨0, rfl, rfl⟩
    | reserving => exact absurd rfl coded
  obtain ⟨count, addresses, room⟩ := placed
  have counted := congrArg List.length addresses
  rw [List.length_map, List.length_cons, List.length_replicate] at counted
  exact ⟨count, addresses, counted, room⟩

theorem words_of_reserving (known : Operation.ofName? entry.opcode = some .reserving) :
    entry.words symbols = [] ∧ entry.room = 2 := by
  have room : entry.room = Operation.reserving.reserved entry.operand :=
    Statement.room_of_known known
  refine ⟨?_, room⟩
  unfold words emit
  rw [known]
  rfl

theorem words_of_unknown (unknown : Operation.ofName? entry.opcode = none) :
    entry.words symbols = [] ∧ entry.room = 0 := by
  have room : entry.room = 0 := Statement.room_of_unknown unknown
  refine ⟨?_, room⟩
  unfold words emit
  rw [unknown]
  rfl

/-- The bytes reserved for an entry with a code are two for each of its words. -/
theorem room_eq_two_mul_words {operation : Operation}
    (known : Operation.ofName? entry.opcode = some operation)
    (coded : operation ≠ .reserving) (completed : (entry.emit symbols).fault = none) :
    entry.room = 2 * (entry.words symbols).length := by
  obtain ⟨count, _, counted, room⟩ := words_addresses known coded completed
  rw [room, counted]
  omega

end Entry

/-! ### All entries -/

/-- Encoding that meets no fault emits the words of every entry in order. -/
theorem emitAll_completed {symbols : SymbolTable} {entries : List Entry}
    (completed : (emitAll symbols entries).fault = none) :
    (emitAll symbols entries).words = entries.flatMap (Entry.words symbols) ∧
      ∀ entry ∈ entries, (entry.emit symbols).fault = none := by
  induction entries with
  | nil =>
      refine ⟨rfl, ?_⟩
      intro entry member
      cases member
  | cons entry others inductionHypothesis =>
      unfold emitAll at completed ⊢
      cases faulty : (entry.emit symbols).fault with
      | some fault =>
          simp only [faulty] at completed
          cases completed
      | none =>
          simp only [faulty] at completed ⊢
          obtain ⟨wordsEq, unfaulty⟩ := inductionHypothesis completed
          constructor
          · unfold Emission.append
            rw [wordsEq, List.flatMap_cons]
            rfl
          · intro other member
            rcases List.mem_cons.mp member with same | later
            · rw [same]
              exact faulty
            · exact unfaulty other later

theorem emitAll_fault_eq_none {symbols : SymbolTable} {entries : List Entry}
    (unfaulty : ∀ entry ∈ entries, (entry.emit symbols).fault = none) :
    (emitAll symbols entries).fault = none := by
  induction entries with
  | nil => rfl
  | cons entry others inductionHypothesis =>
      have first := unfaulty entry List.mem_cons_self
      unfold emitAll
      simp only [first]
      exact inductionHypothesis
        (fun other member => unfaulty other (List.mem_cons_of_mem entry member))

/-- A change of entries that emission does not notice. -/
theorem emitAll_map {symbols : SymbolTable} {change : Entry → Entry}
    (same : ∀ entry, (change entry).emit symbols = entry.emit symbols) (entries : List Entry) :
    emitAll symbols (entries.map change) = emitAll symbols entries := by
  induction entries with
  | nil => rfl
  | cons entry others inductionHypothesis =>
      rw [List.map_cons, emitAll, emitAll, same entry, inductionHypothesis]

theorem emitAll_append_congr {symbols : SymbolTable} {first second : List Entry}
    (same : emitAll symbols first = emitAll symbols second) (earlier : List Entry) :
    emitAll symbols (earlier ++ first) = emitAll symbols (earlier ++ second) := by
  induction earlier with
  | nil => exact same
  | cons entry others inductionHypothesis =>
      rw [List.cons_append, List.cons_append, emitAll, emitAll, inductionHypothesis]

/-- Encoding a state without fault. -/
theorem State.encode_completed {placed encoded : State}
    (completed : placed.encode = (encoded, none)) :
    encoded.object = placed.object ++ placed.entries.flatMap (Entry.words placed.symbols) ∧
      ∀ entry ∈ placed.entries, (entry.emit placed.symbols).fault = none := by
  have parts := Prod.mk.inj completed
  obtain ⟨wordsEq, unfaulty⟩ := emitAll_completed parts.2
  refine ⟨?_, unfaulty⟩
  rw [← parts.1, ← wordsEq]
  rfl

end Assembler
end Msp430
