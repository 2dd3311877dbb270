import Msp430.Proofs.Emission

/-!
Operands that are not read.  A change of operands that leaves the operand of `START` and the
room of every statement as they are commutes with layout.  The operand of an operation that
has one can be changed in this way, and encoding does not read it either.  Main statement:
programs that differ in such operands only are assembled alike, so that two of their
instructions have the same code exactly if they have the same operation.
-/

namespace Msp430
namespace Assembler

/-! ### Changes of operands -/

section Change

variable (change : String → Option String → Option String)

def Statement.mapOperand (statement : Statement) : Statement :=
  { statement with operand := change statement.opcode statement.operand }

def Entry.mapOperand (entry : Entry) : Entry :=
  { entry with operand := change entry.opcode entry.operand }

def State.mapOperands (state : State) : State :=
  { state with entries := state.entries.map (Entry.mapOperand change) }

def Progress.mapOperands (progress : Progress) : Progress :=
  { progress with state := progress.state.mapOperands change }

/-- A change that layout does not notice. -/
structure Unnoticed : Prop where
  start : ∀ operand, change "START" operand = operand
  reserved : ∀ {opcode : String} {operation : Operation},
    Operation.ofName? opcode = some operation → ∀ operand,
      operation.reserved (change opcode operand) = operation.reserved operand

end Change

theorem Statement.room_mapOperand {change : String → Option String → Option String}
    (unnoticed : Unnoticed change) (statement : Statement) :
    (statement.mapOperand change).room = statement.room := by
  have opcode : (statement.mapOperand change).opcode = statement.opcode := rfl
  unfold room
  rw [opcode]
  cases known : Operation.ofName? statement.opcode with
  | none => rfl
  | some operation => exact unnoticed.reserved known statement.operand

namespace State

variable {change : String → Option String → Option String} (state : State)
  (statement : Statement)

theorem startAt_mapOperands (operand : Option String) :
    (state.mapOperands change).startAt operand = (state.startAt operand).mapOperands change := by
  cases operand with
  | none => rfl
  | some text =>
      simp only [startAt]
      cases Numeral.hex? text <;> rfl

theorem reserve_mapOperands (bytes : Int) :
    (state.mapOperands change).reserve (statement.mapOperand change) bytes =
      (state.reserve statement bytes).mapOperands change := by
  unfold reserve keep mapOperands
  simp only [List.map_append, List.map_cons, List.map_nil]
  rfl

variable (unnoticed : Unnoticed change)

include unnoticed

theorem perform_mapOperands :
    (state.mapOperands change).perform (statement.mapOperand change) =
      (state.perform statement).mapOperands change := by
  have opcode : (statement.mapOperand change).opcode = statement.opcode := rfl
  by_cases start : statement.opcode = "START"
  · have operand : (statement.mapOperand change).operand = statement.operand := by
      simp only [Statement.mapOperand, start, unnoticed.start]
    rw [perform_start start, perform_start (opcode.trans start), operand]
    exact state.startAt_mapOperands statement.operand
  · by_cases final : statement.opcode = "END"
    · rw [perform_end final, perform_end (opcode.trans final)]
      rfl
    · have changed : (state.mapOperands change).perform (statement.mapOperand change) = _ :=
        perform_other start final
      rw [changed, perform_other start final, statement.room_mapOperand unnoticed,
        reserve_mapOperands]
      rfl

theorem place_mapOperands :
    (state.mapOperands change).place (statement.mapOperand change) =
      (state.place statement).mapOperands change := by
  have label : (statement.mapOperand change).symbol? = statement.symbol? := rfl
  have symbols : (state.mapOperands change).symbols = state.symbols := rfl
  unfold place
  rw [label, symbols]
  cases statement.symbol? with
  | none => exact state.perform_mapOperands statement unnoticed
  | some name =>
      by_cases bound : state.symbols.contains name = true
      · simp only [bound, if_true]
        rfl
      · simp only [bound, Bool.false_eq_true, if_false]
        exact (state.bind name state.counter).perform_mapOperands statement unnoticed

theorem placeAll_mapOperands (statements : List Statement) :
    (state.mapOperands change).placeAll (statements.map (Statement.mapOperand change)) =
      (state.placeAll statements).mapOperands change := by
  induction statements generalizing state with
  | nil => rfl
  | cons statement others inductionHypothesis =>
      have first := state.place_mapOperands statement unnoticed
      rw [List.map_cons, placeAll, placeAll, first]
      cases state.place statement with
      | mk next flow =>
          cases flow with
          | running => exact inductionHypothesis next
          | ended => rfl
          | failed fault => rfl

end State

/-! ### Operations with one operand -/

def Single.name : Single → String
  | .rrc => "RRC"
  | .swpb => "SWPB"
  | .rra => "RRA"
  | .sxt => "SXT"
  | .push => "PUSH"
  | .call => "CALL"

theorem Single.ofName?_name (operation : Single) :
    Operation.ofName? operation.name = some (.single operation) := by
  cases operation <;> rfl

theorem Single.word_inj {first second : Single} (same : first.word = second.word) :
    first = second := by
  cases first <;> cases second <;> simp_all [word]

/-- The operand of a statement, unless its operation has one operand. -/
def bareOperand (opcode : String) (operand : Option String) : Option String :=
  match Operation.ofName? opcode with
  | some (.single _) => none
  | _ => operand

abbrev Statement.bare (statement : Statement) : Statement :=
  statement.mapOperand bareOperand

abbrev State.bare (state : State) : State :=
  state.mapOperands bareOperand

theorem unnoticed_bareOperand : Unnoticed bareOperand where
  start _ := rfl
  reserved {opcode operation} known operand := by
    unfold bareOperand
    rw [known]
    cases operation <;> rfl

theorem Entry.emit_bare (symbols : SymbolTable) (entry : Entry) :
    (entry.mapOperand bareOperand).emit symbols = entry.emit symbols := by
  unfold emit mapOperand bareOperand
  cases known : Operation.ofName? entry.opcode with
  | none => rfl
  | some operation => cases operation <;> rfl

theorem State.encode_bare (state : State) :
    state.bare.encode = (state.encode.1.bare, state.encode.2) := by
  have emission := emitAll_map (fun entry => entry.emit_bare state.symbols) state.entries
  unfold encode absorb bare mapOperands
  simp only [emission]

theorem Entry.words_of_single {entry : Entry} {operation : Single}
    (opcode : entry.opcode = operation.name) (symbols : SymbolTable) :
    entry.words symbols = [{ address := entry.location, code := operation.word }] := by
  unfold words emit
  rw [opcode, operation.ofName?_name]
  rfl

/-- Two instructions with one operand, whatever it is, have the same code exactly if they
have the same operation.  A program whose statements differ from those of another in such
operands only leaves the same memory after layout and encoding, but for the operands that
its entries record, and ends in the same way. -/
theorem State.single_operands_unread (state : State) (source : String) :
    (∀ one ∈ (state.layout source).state.entries, ∀ other ∈ (state.layout source).state.entries,
      ∀ operation operation' : Single,
        one.opcode = operation.name → other.opcode = operation'.name →
          ((one.words (state.layout source).state.symbols).map ObjectWord.code =
              (other.words (state.layout source).state.symbols).map ObjectWord.code ↔
            operation = operation')) ∧
      ∀ changed : String,
        (Statement.all changed).map Statement.bare = (Statement.all source).map Statement.bare →
          (state.layout changed).flow = (state.layout source).flow ∧
            (state.layout changed).state.encode.1.bare =
              (state.layout source).state.encode.1.bare ∧
            (state.layout changed).state.encode.1.object =
              (state.layout source).state.encode.1.object ∧
            (state.layout changed).state.encode.2 = (state.layout source).state.encode.2 := by
  constructor
  · intro one _kept other _kept' operation operation' opcode opcode'
    rw [one.words_of_single opcode, other.words_of_single opcode']
    constructor
    · intro same
      exact Single.word_inj (Int.ofNat.inj (List.singleton_inj.mp same))
    · intro same
      rw [same]
      rfl
  · intro changed alike
    have laid : ∀ text, state.bare.placeAll ((Statement.all text).map Statement.bare) =
        (state.layout text).mapOperands bareOperand :=
      fun text => state.placeAll_mapOperands unnoticed_bareOperand (Statement.all text)
    have same : (state.layout changed).mapOperands bareOperand =
        (state.layout source).mapOperands bareOperand := by
      rw [← laid, alike, laid]
    obtain ⟨states, flows⟩ := Progress.mk.inj same
    have encoded := congrArg State.encode states
    rw [encode_bare, encode_bare] at encoded
    obtain ⟨memories, faults⟩ := Prod.mk.inj encoded
    have objects := congrArg State.object memories
    exact ⟨flows, memories, objects, faults⟩

/-- Calls of two labels and pushes of two registers, and the same program with other
operands and with none. -/
theorem State.single_operands_unread_labels :
    let source := "L: CALL M\nM: CALL L\nPUSH R4\nPUSH R5\nEND"
    let changed := "L: CALL\nM: CALL #10\nPUSH SP\nPUSH @R6+ ; back\nEND"
    (Statement.all changed).map Statement.bare = (Statement.all source).map Statement.bare ∧
      (fresh.layout source).state.symbols.find? "L" ≠
        (fresh.layout source).state.symbols.find? "M" ∧
      (fresh.layout source).state.encode.1.object.map ObjectWord.code =
        [0x1280, 0x1280, 0x1200, 0x1200] ∧
      (fresh.layout changed).state.encode.1.object =
        (fresh.layout source).state.encode.1.object ∧
      ∃ one ∈ (fresh.layout source).state.entries,
        ∃ other ∈ (fresh.layout source).state.entries,
          one.operand = some "R4" ∧ other.operand = some "R5" ∧
            (one.words (fresh.layout source).state.symbols).map ObjectWord.code =
              (other.words (fresh.layout source).state.symbols).map ObjectWord.code := by
  intro source changed
  obtain ⟨codes, unread⟩ := fresh.single_operands_unread source
  have alike : (Statement.all changed).map Statement.bare =
      (Statement.all source).map Statement.bare := by
    decide
  have first : { label := none, opcode := "PUSH", operand := some "R4", location := 6 } ∈
      (fresh.layout source).state.entries := by
    decide
  have second : { label := none, opcode := "PUSH", operand := some "R5", location := 8 } ∈
      (fresh.layout source).state.entries := by
    decide
  exact ⟨alike, by decide, by decide, (unread changed alike).2.2.1, _, first, _, second, rfl, rfl,
    (codes _ first _ second .push .push rfl rfl).mpr rfl⟩

end Assembler
end Msp430
