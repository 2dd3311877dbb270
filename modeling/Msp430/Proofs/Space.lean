import Msp430.Proofs.Locations

/-!
Space.  The bytes that layout reserves and the words that encoding emits are
counted by different definitions; they agree entry by entry but for the operations
that only reserve, and so over the whole program.
-/

namespace Msp430
namespace Assembler

/-- Entries with the bytes between each and what lies before it. -/
def reservations (base : Int) : List Entry → List (Entry × Int)
  | [] => []
  | entry :: others => (entry, entry.location - base) :: reservations entry.location others

/-- In consecutive entries these bytes are the room of the entry. -/
theorem reservations_eq {base final : Int} {entries : List Entry}
    (placed : Consecutive base entries final) :
    reservations base entries = entries.map (fun entry => (entry, entry.room)) := by
  induction entries generalizing base with
  | nil => rfl
  | cons entry others inductionHypothesis =>
      have distance : entry.location - base = entry.room := by
        have location := placed.1
        omega
      unfold reservations
      rw [distance, inductionHypothesis placed.2, List.map_cons]

/-- The operations that only reserve, as a test on entries. -/
def Entry.reserves (entry : Entry) : Bool :=
  decide (entry.opcode ∈ reservingNames)

/-- Room and words of one entry. -/
theorem Entry.room_eq {symbols : SymbolTable} {entry : Entry}
    (unfaulty : (entry.emit symbols).fault = none) :
    entry.room =
      2 * (entry.words symbols).length + 2 * ((if entry.reserves then 1 else 0 : Nat) : Int) := by
  unfold Entry.reserves
  cases found : Operation.ofName? entry.opcode with
  | none =>
      obtain ⟨nothing, room⟩ : entry.words symbols = [] ∧ entry.room = 0 :=
        Entry.words_of_unknown found
      have absent : entry.opcode ∉ reservingNames := by
        intro member
        rw [(Operation.ofName?_reserving_iff entry.opcode).mpr member] at found
        cases found
      simp [nothing, room, absent]
  | some operation =>
      by_cases coded : operation = .reserving
      · subst operation
        obtain ⟨nothing, room⟩ : entry.words symbols = [] ∧ entry.room = 2 :=
          Entry.words_of_reserving found
        have member := (Operation.ofName?_reserving_iff entry.opcode).mp found
        simp [nothing, room, member]
      · have room := Entry.room_eq_two_mul_words found coded unfaulty
        have absent : entry.opcode ∉ reservingNames := by
          intro member
          rw [(Operation.ofName?_reserving_iff entry.opcode).mpr member] at found
          exact coded (Option.some.inj found).symm
        simp [room, absent]

/-- Room and words of all entries. -/
theorem totalRoom_eq {symbols : SymbolTable} {entries : List Entry}
    (unfaulty : ∀ entry ∈ entries, (entry.emit symbols).fault = none) :
    totalRoom entries =
      2 * (entries.flatMap (Entry.words symbols)).length +
        2 * entries.countP Entry.reserves := by
  induction entries with
  | nil => rfl
  | cons entry others inductionHypothesis =>
      have first := Entry.room_eq (unfaulty entry List.mem_cons_self)
      have later := inductionHypothesis
        (fun other member => unfaulty other (List.mem_cons_of_mem entry member))
      rw [totalRoom, List.flatMap_cons, List.length_append,
        List.countP_cons, first, later]
      push_cast
      omega

/-- The length of a program that reaches `END` is twice its object words and twice
its statements that only reserve.  Entry by entry, an operation with a code has two
bytes for each word, one that only reserves has two bytes and no word, and any
other has neither. -/
theorem length_eq_words_add_reserved {source : String} {placed encoded : State}
    (assembled : Assembles source placed encoded)
    (ended : (State.fresh.layout source).flow = .ended)
    (startFirst : ∀ statement ∈ (Statement.all source).tail, statement.opcode ≠ "START") :
    placed.length = placed.counter - placed.start ∧
      placed.length =
        2 * encoded.object.length + 2 * placed.entries.countP Entry.reserves ∧
      encoded.object = placed.entries.flatMap (Entry.words placed.symbols) ∧
      ∀ entry bytes, (entry, bytes) ∈ reservations placed.start placed.entries →
        (entry.opcode ∈ codedNames →
          bytes = 2 * (entry.words placed.symbols).length) ∧
        (entry.opcode ∈ reservingNames →
          bytes = 2 ∧ entry.words placed.symbols = []) ∧
        (entry.opcode ∉ codedNames → entry.opcode ∉ reservingNames →
          bytes = 0 ∧ entry.words placed.symbols = []) := by
  have filled := assembled.filled startFirst
  have distance : placed.length = placed.counter - placed.start := by
    rw [← assembled.laidOut]
    exact State.placeAll_ended_length (Statement.all source) ended
  refine ⟨distance, ?_, assembled.object_eq, ?_⟩
  · have moved := filled.final_eq
    rw [totalRoom_eq assembled.unfaulty, ← assembled.object_eq] at moved
    omega
  · intro entry bytes member
    rw [reservations_eq filled] at member
    obtain ⟨same, present, pair⟩ := List.mem_map.mp member
    obtain ⟨entryEq, bytesEq⟩ := Prod.mk.inj pair
    subst same bytes
    refine ⟨?_, ?_, ?_⟩
    · intro coded
      obtain ⟨operation, known, emits⟩ := Operation.exists_of_mem_codedNames coded
      exact Entry.room_eq_two_mul_words known emits (assembled.unfaulty entry present)
    · intro reserving
      have known := (Operation.ofName?_reserving_iff entry.opcode).mpr reserving
      exact (Entry.words_of_reserving known).symm
    · intro notCoded notReserving
      cases found : Operation.ofName? entry.opcode with
      | none => exact (Entry.words_of_unknown found).symm
      | some operation =>
          by_cases reserving : operation = .reserving
          · subst operation
            exact absurd ((Operation.ofName?_reserving_iff entry.opcode).mp found) notReserving
          · exact absurd (Operation.mem_codedNames found reserving) notCoded

/-- A program with operand words, a reserving statement, a skipped statement and an
unknown operation. -/
theorem length_eq_words_add_reserved_mixed :
    let source := "START 100\nL: MOV #12, &200\nL: RET\nRET\nFOO 1\nJMP L\nEND"
    let placed := (State.fresh.layout source).state
    Assembles source placed placed.encode.1 ∧
      (State.fresh.layout source).flow = .ended ∧
      (∀ statement ∈ (Statement.all source).tail, statement.opcode ≠ "START") ∧
      placed.length = 2 * 4 + 2 * 1 := by
  intro source placed
  have assembled : Assembles source placed placed.encode.1 :=
    Assembles.ofSource (by decide) (by decide)
  have ended : (State.fresh.layout source).flow = .ended := by decide
  have startFirst : ∀ statement ∈ (Statement.all source).tail, statement.opcode ≠ "START" := by
    decide
  have words : placed.encode.1.object.length = 4 := by decide
  have reserved : placed.entries.countP Entry.reserves = 1 := by decide
  have total := (length_eq_words_add_reserved assembled ended startFirst).2.1
  rw [words, reserved] at total
  exact ⟨assembled, ended, startFirst, total⟩

end Assembler
end Msp430
