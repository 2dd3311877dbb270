import Msp430.Assembler.Layout
import Msp430.Proofs.SymbolTable

/-!
What placing a statement can do.  `State.Places` lists the outcomes, each with
its conditions and the state it leaves; `placeAll_preserves` carries a property
of states through a whole run.  Facts about layout are proved from these two and
do not look into the definitions again.
-/

namespace Msp430
namespace Assembler

/-- The statement that an entry records. -/
def Entry.statement (entry : Entry) : Statement :=
  { label := entry.label
    opcode := entry.opcode
    operand := entry.operand }

/-- The bytes that a statement reserves.  An unknown operation reserves none. -/
def Statement.room (statement : Statement) : Int :=
  match Operation.ofName? statement.opcode with
  | some operation => operation.reserved statement.operand
  | none => 0

def Entry.room (entry : Entry) : Int :=
  entry.statement.room

/-- What is recorded about the operation of a statement. -/
def Statement.reports (statement : Statement) : List Diagnostic :=
  match Operation.ofName? statement.opcode with
  | some _ => []
  | none => [.unknownInstruction statement.opcode]

/-- The address that the operand of `START` gives. -/
def startAddress? : Option String → Option Int
  | none => some 0
  | some text => Numeral.hex? text

theorem Statement.room_of_known {statement : Statement} {operation : Operation}
    (known : Operation.ofName? statement.opcode = some operation) :
    statement.room = operation.reserved statement.operand := by
  unfold Statement.room
  rw [known]

theorem Statement.room_of_unknown {statement : Statement}
    (unknown : Operation.ofName? statement.opcode = none) : statement.room = 0 := by
  unfold Statement.room
  rw [unknown]

namespace State

/-- The state in which the label of a statement is bound to the counter. -/
def labelled (state : State) (statement : Statement) : State :=
  match statement.symbol? with
  | none => state
  | some name => state.bind name state.counter

/-- A statement without a label, or with one that is not bound yet. -/
def Admits (state : State) (statement : Statement) : Prop :=
  ∀ name, statement.symbol? = some name → state.symbols.find? name = none

theorem admits_or_bound (state : State) (statement : Statement) :
    state.Admits statement ∨
      ∃ name value, statement.symbol? = some name ∧ state.symbols.find? name = some value := by
  unfold Admits
  cases statement.symbol? with
  | none =>
      exact Or.inl (fun name label => by cases label)
  | some name =>
      cases bound : state.symbols.find? name with
      | none =>
          refine Or.inl (fun other same => ?_)
          cases same
          exact bound
      | some value =>
          exact Or.inr ⟨name, value, rfl, bound⟩

/-! ### Binding the label changes the symbols only -/

section Labelled

variable (state : State) (statement : Statement)

@[simp] theorem labelled_counter : (state.labelled statement).counter = state.counter := by
  unfold labelled
  cases statement.symbol? <;> rfl

@[simp] theorem labelled_start : (state.labelled statement).start = state.start := by
  unfold labelled
  cases statement.symbol? <;> rfl

@[simp] theorem labelled_entries : (state.labelled statement).entries = state.entries := by
  unfold labelled
  cases statement.symbol? <;> rfl

@[simp] theorem labelled_object : (state.labelled statement).object = state.object := by
  unfold labelled
  cases statement.symbol? <;> rfl

@[simp] theorem labelled_diagnostics :
    (state.labelled statement).diagnostics = state.diagnostics := by
  unfold labelled
  cases statement.symbol? <;> rfl

theorem labelled_find? (name : String) :
    (state.labelled statement).symbols.find? name =
      if statement.symbol? = some name then some state.counter
      else state.symbols.find? name := by
  unfold labelled
  cases label : statement.symbol? with
  | none =>
      simp
  | some bound =>
      change (state.symbols.insert bound state.counter).find? name = _
      rw [SymbolTable.find?_insert]
      by_cases same : name = bound
      · subst name
        simp
      · have different : ¬ bound = name := fun equal => same equal.symm
        simp [same, different]

end Labelled

/-- A label that a statement may bind leaves every bound name as it is. -/
theorem labelled_find?_of_bound {state : State} {statement : Statement}
    (admitted : state.Admits statement) {name : String} {value : Int}
    (bound : state.symbols.find? name = some value) :
    (state.labelled statement).symbols.find? name = some value := by
  rw [labelled_find?, if_neg, bound]
  intro label
  rw [admitted name label] at bound
  cases bound

/-! ### One statement -/

/-- The outcomes of placing one statement. -/
inductive Places (state : State) (statement : Statement) : Progress → Prop where
  | skipped (name : String) (value : Int)
      (label : statement.symbol? = some name)
      (bound : state.symbols.find? name = some value) :
      Places state statement
        { state := state.record (.duplicateSymbol name), flow := .running }
  | started (address : Int)
      (admitted : state.Admits statement)
      (opcode : statement.opcode = "START")
      (reads : startAddress? statement.operand = some address) :
      Places state statement
        { state := { state.labelled statement with start := address, counter := address }
          flow := .running }
  | refused (text : String)
      (admitted : state.Admits statement)
      (opcode : statement.opcode = "START")
      (operand : statement.operand = some text)
      (unread : Numeral.hex? text = none) :
      Places state statement
        { state := state.labelled statement, flow := .failed (.badNumeral text) }
  | ended
      (admitted : state.Admits statement)
      (opcode : statement.opcode = "END") :
      Places state statement (state.labelled statement).finish
  | kept
      (admitted : state.Admits statement)
      (notStart : statement.opcode ≠ "START")
      (notEnd : statement.opcode ≠ "END") :
      Places state statement
        { state :=
            { (state.labelled statement).reserve statement statement.room with
              diagnostics := state.diagnostics ++ statement.reports }
          flow := .running }

/-- A statement that is not skipped is performed with its label bound. -/
theorem place_of_admitted {state : State} {statement : Statement}
    (admitted : state.Admits statement) :
    state.place statement = (state.labelled statement).perform statement := by
  unfold place labelled
  cases label : statement.symbol? with
  | none => rfl
  | some name =>
      have absent : state.symbols.contains name = false :=
        (state.symbols.contains_eq_false_iff name).mpr (admitted name label)
      simp only [absent, Bool.false_eq_true, if_false]

theorem place_of_bound {state : State} {statement : Statement} {name : String} {value : Int}
    (label : statement.symbol? = some name)
    (bound : state.symbols.find? name = some value) :
    state.place statement =
      { state := state.record (.duplicateSymbol name), flow := .running } := by
  unfold place SymbolTable.contains
  rw [label]
  simp only [bound, Option.isSome_some, if_true]

theorem perform_start {state : State} {statement : Statement}
    (opcode : statement.opcode = "START") :
    state.perform statement = state.startAt statement.operand := by
  unfold perform
  rw [if_pos opcode]

theorem perform_end {state : State} {statement : Statement}
    (opcode : statement.opcode = "END") : state.perform statement = state.finish := by
  unfold perform
  rw [opcode, if_neg (by decide), if_pos rfl]

theorem perform_other {state : State} {statement : Statement}
    (notStart : statement.opcode ≠ "START") (notEnd : statement.opcode ≠ "END") :
    state.perform statement =
      { state :=
          { state.reserve statement statement.room with
            diagnostics := state.diagnostics ++ statement.reports }
        flow := .running } := by
  unfold perform Statement.room Statement.reports
  rw [if_neg notStart, if_neg notEnd]
  cases Operation.ofName? statement.opcode with
  | some operation =>
      simp only [List.append_nil]
      rfl
  | none => rfl

private theorem places_start {state : State} {statement : Statement}
    (admitted : state.Admits statement) (opcode : statement.opcode = "START") :
    state.Places statement ((state.labelled statement).startAt statement.operand) := by
  cases operand : statement.operand with
  | none =>
      exact .started 0 admitted opcode (by rw [operand]; rfl)
  | some text =>
      cases reads : Numeral.hex? text with
      | none =>
          simp only [startAt, reads]
          exact .refused text admitted opcode operand reads
      | some address =>
          simp only [startAt, reads]
          exact .started address admitted opcode (by rw [operand]; exact reads)

/-- Every placement is one of the outcomes. -/
theorem places_place (state : State) (statement : Statement) :
    state.Places statement (state.place statement) := by
  rcases state.admits_or_bound statement with admitted | ⟨name, value, label, bound⟩
  · rw [place_of_admitted admitted]
    by_cases start : statement.opcode = "START"
    · rw [perform_start start]
      exact places_start admitted start
    · by_cases final : statement.opcode = "END"
      · rw [perform_end final]
        exact .ended admitted final
      · rw [perform_other start final, labelled_diagnostics]
        exact .kept admitted start final
  · rw [place_of_bound label bound]
    exact .skipped name value label bound

/-! ### A run of statements -/

/-- A run goes on after a statement or stops at it. -/
theorem placeAll_cons_cases (state : State) (statement : Statement)
    (others : List Statement) :
    ((state.place statement).flow = .running ∧
      state.placeAll (statement :: others) = (state.place statement).state.placeAll others) ∨
    ((state.place statement).flow ≠ .running ∧
      state.placeAll (statement :: others) = state.place statement) := by
  rw [placeAll]
  cases state.place statement with
  | mk next flow =>
      cases flow with
      | running => exact Or.inl ⟨rfl, rfl⟩
      | ended => exact Or.inr ⟨Flow.noConfusion, rfl⟩
      | failed fault => exact Or.inr ⟨Flow.noConfusion, rfl⟩

theorem placeAll_cons_of_running {state : State} {statement : Statement}
    (running : (state.place statement).flow = .running) (others : List Statement) :
    state.placeAll (statement :: others) = (state.place statement).state.placeAll others := by
  rcases state.placeAll_cons_cases statement others with
    ⟨_running, continued⟩ | ⟨stopped, _final⟩
  · exact continued
  · exact absurd running stopped

theorem placeAll_singleton (state : State) (statement : Statement) :
    state.placeAll [statement] = state.place statement := by
  rw [placeAll]
  cases state.place statement with
  | mk next flow => cases flow <;> rfl

/-- What holds after the first statement and through the others holds after a run. -/
theorem placeAll_cons_preserves {motive : State → Prop} {state : State}
    {statement : Statement} {others : List Statement}
    (first : motive (state.place statement).state)
    (rest : ∀ next : State, motive next → motive (next.placeAll others).state) :
    motive (state.placeAll (statement :: others)).state := by
  rcases state.placeAll_cons_cases statement others with
    ⟨_running, continued⟩ | ⟨_stopped, final⟩
  · rw [continued]
    exact rest _ first
  · rw [final]
    exact first

/-- What every outcome preserves holds after a run. -/
theorem placeAll_preserves {motive : State → Prop} (statements : List Statement)
    (step : ∀ (state : State) (statement : Statement) (progress : Progress),
      statement ∈ statements → state.Places statement progress →
        motive state → motive progress.state)
    (state : State) (initial : motive state) :
    motive (state.placeAll statements).state := by
  induction statements generalizing state with
  | nil => exact initial
  | cons statement others inductionHypothesis =>
      apply placeAll_cons_preserves
      · exact step state statement _ List.mem_cons_self (state.places_place statement) initial
      · exact inductionHypothesis
          (fun earlier later progress member =>
            step earlier later progress (List.mem_cons_of_mem statement member))

end State
end Assembler
end Msp430
