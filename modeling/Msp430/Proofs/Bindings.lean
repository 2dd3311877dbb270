import Mathlib.Data.List.Basic
import Msp430.Proofs.Emission
import Msp430.Proofs.Joining
import Msp430.Proofs.Locations

/-!
What layout adds to the symbols and to the diagnostics.  A statement that a run comes to
is looked at behind the statements in front of it: these decide whether its label is
defined already, and the counter that they leave is the value of a new label.  A run comes to
all statements up to the first that ends it, which is told from the statements alone.  Main
statement: the symbols and the diagnostics grow by one list each, in the order of the
statements, and the object code does not change.
-/

namespace Msp430
namespace Assembler

/-- A statement with those in front of it. -/
structure Visit where
  front : List Statement
  statement : Statement
  deriving Repr, DecidableEq

namespace Visit

def first (statement : Statement) : Visit :=
  { front := [], statement := statement }

def behind (first : Statement) (visit : Visit) : Visit :=
  { visit with front := first :: visit.front }

/-- The statements of a run in order, each with those in front of it. -/
def all : List Statement → List Visit
  | [] => []
  | statement :: others =>
      first statement :: (all others).map (behind statement)

/-- The visits up to the first that passes a test, and with it. -/
def upTo (test : Visit → Bool) : List Visit → List Visit
  | [] => []
  | visit :: others => if test visit then [visit] else visit :: upTo test others

theorem upTo_map (test : Visit → Bool) (change : Visit → Visit) (visits : List Visit) :
    upTo test (visits.map change) = (upTo (test ∘ change) visits).map change := by
  induction visits with
  | nil => rfl
  | cons visit others inductionHypothesis =>
      rw [List.map_cons, upTo, upTo, inductionHypothesis, Function.comp_apply]
      cases test (change visit) <;> rfl

end Visit

def operationNames : List String :=
  codedNames ++ reservingNames

theorem Operation.ofName?_eq_none_iff (name : String) :
    ofName? name = none ↔ name ∉ operationNames := by
  unfold operationNames
  rw [List.mem_append]
  constructor
  · rintro unknown (coded | reserving)
    · obtain ⟨operation, known, _⟩ := exists_of_mem_codedNames coded
      rw [unknown] at known
      cases known
    · rw [(ofName?_reserving_iff name).mpr reserving] at unknown
      cases unknown
  · intro absent
    cases known : ofName? name with
    | none => rfl
    | some operation =>
        by_cases reserving : operation = .reserving
        · rw [reserving] at known
          exact absurd (Or.inr ((ofName?_reserving_iff name).mp known)) absent
        · exact absurd (Or.inl (mem_codedNames known reserving)) absent

namespace State

/-- A name is defined at the beginning, or as the label of a statement in front. -/
def defined (state : State) (front : List Statement) (name : String) : Bool :=
  state.symbols.contains name || front.any (fun earlier => earlier.symbol? == some name)

/-- The first definition of a label, with the counter that the statements in front leave. -/
def definition? (state : State) (visit : Visit) : Option (String × Int) :=
  (visit.statement.symbol?.filter (fun name => !state.defined visit.front name)).map
    (fun name => (name, (state.placeAll visit.front).state.counter))

/-- What is recorded about a statement: that its label is defined already, or else that
its operation has no known name. -/
def note? (state : State) (visit : Visit) : Option Diagnostic :=
  match visit.statement.symbol?.filter (state.defined visit.front) with
  | some name => some (.duplicateSymbol name)
  | none =>
      if visit.statement.opcode ∈ "START" :: "END" :: operationNames then none
      else some (.unknownInstruction visit.statement.opcode)

/-- What ends a run at a statement: `END`, or a `START` with an operand that does not read.
Neither does if its label is defined already. -/
def stop? (state : State) (visit : Visit) : Option Flow :=
  if (visit.statement.symbol?.filter (state.defined visit.front)).isSome then none
  else if visit.statement.opcode = "END" then some .ended
  else if visit.statement.opcode = "START" then
    (visit.statement.operand.filter (fun text => (Numeral.hex? text).isNone)).map
      (fun text => .failed (.badNumeral text))
  else none

/-- The statements that a run comes to: those up to the first that ends it, or all. -/
def reached (state : State) (statements : List Statement) : List Visit :=
  Visit.upTo (fun visit => (state.stop? visit).isSome) (Visit.all statements)

/-! ### One statement -/

variable {state : State} {statement : Statement}

theorem Admits.contains (admitted : state.Admits statement) {name : String}
    (label : statement.symbol? = some name) : state.symbols.contains name = false :=
  (state.symbols.contains_eq_false_iff name).mpr (admitted name label)

theorem Admits.repeated (admitted : state.Admits statement) :
    statement.symbol?.filter (state.defined []) = none := by
  cases label : statement.symbol? with
  | none => rfl
  | some name =>
      rw [Option.filter_some, defined, admitted.contains label]
      rfl

theorem labelled_bindings (admitted : state.Admits statement) :
    (state.labelled statement).symbols.bindings =
      state.symbols.bindings ++
        (state.definition? (.first statement)).toList := by
  unfold labelled definition? Visit.first
  cases label : statement.symbol? with
  | none => exact (List.append_nil _).symm
  | some name =>
      have absent := admitted.contains label
      rw [Option.filter_some, defined, absent]
      change (state.symbols.insert name state.counter).bindings = _
      rw [SymbolTable.insert_of_absent absent]
      rfl

theorem defined_of_bound {name : String} {value : Int}
    (bound : state.symbols.find? name = some value) : state.defined [] name = true := by
  unfold defined SymbolTable.contains
  rw [bound]
  rfl

theorem note?_of_bound {name : String} {value : Int} (label : statement.symbol? = some name)
    (bound : state.symbols.find? name = some value) :
    state.note? (.first statement) = some (.duplicateSymbol name) ∧
      state.definition? (.first statement) = none := by
  unfold note? definition? Visit.first
  rw [label, Option.filter_some, Option.filter_some, defined_of_bound bound]
  exact ⟨rfl, rfl⟩

theorem note?_of_admitted (admitted : state.Admits statement) :
    (state.note? (.first statement)).toList =
      if statement.opcode = "START" ∨ statement.opcode = "END" then []
      else statement.reports := by
  unfold note? Statement.reports Visit.first
  simp only [admitted.repeated, List.mem_cons, ← or_assoc]
  by_cases directive : statement.opcode = "START" ∨ statement.opcode = "END"
  · rw [if_pos (Or.inl directive), if_pos directive]
    rfl
  · rw [if_neg directive]
    cases known : Operation.ofName? statement.opcode with
    | none =>
        have unnamed := (Operation.ofName?_eq_none_iff _).mp known
        rw [if_neg (not_or.mpr ⟨directive, unnamed⟩)]
        rfl
    | some operation =>
        have named : statement.opcode ∈ operationNames := by
          refine Decidable.byContradiction (fun absent => ?_)
          rw [(Operation.ofName?_eq_none_iff _).mpr absent] at known
          cases known
        rw [if_pos (Or.inr named)]
        rfl

theorem Places.adds {progress : Progress} (placed : state.Places statement progress) :
    progress.state.symbols.bindings =
        state.symbols.bindings ++
          (state.definition? (.first statement)).toList ∧
      progress.state.diagnostics =
        state.diagnostics ++ (state.note? (.first statement)).toList := by
  cases placed with
  | skipped name value label bound =>
      obtain ⟨noted, undefined⟩ := note?_of_bound label bound
      rw [noted, undefined]
      exact ⟨(List.append_nil _).symm, rfl⟩
  | started address admitted opcode reads =>
      rw [note?_of_admitted admitted, if_pos (Or.inl opcode), List.append_nil]
      exact ⟨labelled_bindings admitted, labelled_diagnostics state statement⟩
  | refused text admitted opcode operand unread =>
      rw [note?_of_admitted admitted, if_pos (Or.inl opcode), List.append_nil]
      exact ⟨labelled_bindings admitted, labelled_diagnostics state statement⟩
  | ended admitted opcode =>
      rw [note?_of_admitted admitted, if_pos (Or.inr opcode), List.append_nil]
      exact ⟨labelled_bindings admitted, labelled_diagnostics state statement⟩
  | kept admitted notStart notEnd =>
      rw [note?_of_admitted admitted, if_neg (not_or.mpr ⟨notStart, notEnd⟩)]
      exact ⟨labelled_bindings admitted, rfl⟩

/-- Placement ends where the run is to end, and in the same way. -/
theorem Places.stops {progress : Progress} (placed : state.Places statement progress) :
    state.stop? (.first statement) =
      if progress.flow = .running then none else some progress.flow := by
  unfold stop? Visit.first
  cases placed with
  | skipped name value label bound =>
      rw [label, Option.filter_some, defined_of_bound bound]
      rfl
  | started address admitted opcode reads =>
      rw [admitted.repeated]
      simp only [opcode]
      cases operand : statement.operand with
      | none => rfl
      | some text =>
          rw [operand] at reads
          change Numeral.hex? text = some address at reads
          rw [Option.filter_some, reads]
          rfl
  | refused text admitted opcode operand unread =>
      rw [admitted.repeated, operand, Option.filter_some, unread]
      simp only [opcode]
      rfl
  | ended admitted opcode =>
      rw [admitted.repeated]
      simp only [opcode]
      rfl
  | kept admitted notStart notEnd =>
      rw [admitted.repeated]
      simp only [notStart, notEnd]
      rfl

theorem labelled_contains (name : String) :
    (state.labelled statement).symbols.contains name =
      (state.symbols.contains name || statement.symbol? == some name) := by
  unfold SymbolTable.contains
  rw [labelled_find?]
  by_cases same : statement.symbol? = some name
  · rw [if_pos same, same, beq_self_eq_true, Bool.or_true]
    rfl
  · rw [if_neg same, beq_eq_false_iff_ne.mpr same, Bool.or_false]

theorem Places.contains {progress : Progress} (placed : state.Places statement progress)
    (name : String) :
    progress.state.symbols.contains name =
      (state.symbols.contains name || statement.symbol? == some name) := by
  cases placed with
  | skipped repeated value label bound =>
      change state.symbols.contains name = _
      rw [label]
      by_cases same : repeated = name
      · have present : state.symbols.contains name = true := by
          unfold SymbolTable.contains
          rw [← same, bound]
          rfl
        rw [present, Bool.true_or]
      · have other : some repeated ≠ some name := fun equal => same (Option.some.inj equal)
        rw [beq_eq_false_iff_ne.mpr other, Bool.or_false]
  | started address admitted opcode reads => exact labelled_contains name
  | refused text admitted opcode operand unread => exact labelled_contains name
  | ended admitted opcode => exact labelled_contains name
  | kept admitted notStart notEnd => exact labelled_contains name

/-! ### A run -/

theorem defined_cons (front : List Statement) (name : String) :
    (state.place statement).state.defined front name =
      state.defined (statement :: front) name := by
  unfold defined
  rw [(state.places_place statement).contains name, List.any_cons, Bool.or_assoc]

/-- Behind a statement that is run through, a visit finds what it would find behind that
statement and its own. -/
theorem visit_behind (running : (state.place statement).flow = .running) (visit : Visit) :
    (state.place statement).state.definition? visit =
        state.definition? (visit.behind statement) ∧
      (state.place statement).state.note? visit = state.note? (visit.behind statement) ∧
      (state.place statement).state.stop? visit = state.stop? (visit.behind statement) := by
  have known : (state.place statement).state.defined visit.front =
      state.defined (statement :: visit.front) := by
    funext name
    exact defined_cons visit.front name
  unfold definition? note? stop?
  rw [known, ← placeAll_cons_of_running running]
  exact ⟨rfl, rfl, rfl⟩

theorem reached_of_running (running : (state.place statement).flow = .running)
    (others : List Statement) :
    state.reached (statement :: others) =
      .first statement ::
        ((state.place statement).state.reached others).map (Visit.behind statement) := by
  have stops := (state.places_place statement).stops
  rw [if_pos running] at stops
  have same : (fun visit => (state.stop? visit).isSome) ∘ Visit.behind statement =
      fun visit => ((state.place statement).state.stop? visit).isSome := by
    funext visit
    rw [Function.comp_apply, (visit_behind running visit).2.2]
  unfold reached
  rw [Visit.all, Visit.upTo, stops, Visit.upTo_map, same]
  rfl

theorem reached_of_stopped (stopped : (state.place statement).flow ≠ .running)
    (others : List Statement) : state.reached (statement :: others) = [.first statement] := by
  have stops := (state.places_place statement).stops
  rw [if_neg stopped] at stops
  unfold reached
  rw [Visit.all, Visit.upTo, stops]
  rfl

/-- What a run over the statements that it reaches leaves in the end. -/
structure Accounts (state : State) (visits : List Visit) (progress : Progress) : Prop where
  flow : progress.flow = (visits.getLast?.bind state.stop?).getD .running
  symbols : progress.state.symbols.bindings =
    state.symbols.bindings ++ visits.filterMap state.definition?
  diagnostics : progress.state.diagnostics =
    state.diagnostics ++ visits.filterMap state.note?
  object : progress.state.object = state.object
  skipped : ∀ visit ∈ visits, ∀ name, visit.statement.symbol? = some name →
    state.defined visit.front name = true →
      state.placeAll (visit.front ++ [visit.statement]) =
        { state := (state.placeAll visit.front).state.record (.duplicateSymbol name)
          flow := .running }

theorem place_skipped {name : String} (label : statement.symbol? = some name)
    (repeated : state.defined [] name = true) :
    state.placeAll [statement] =
      { state := state.record (.duplicateSymbol name), flow := .running } := by
  unfold defined at repeated
  rw [List.any_nil, Bool.or_false] at repeated
  obtain ⟨value, bound⟩ := Option.isSome_iff_exists.mp repeated
  rw [placeAll_singleton, place_of_bound label bound]

/-- The account of the later statements, told from the state in front of the first. -/
theorem Accounts.cons {visits : List Visit} {progress : Progress}
    (running : (state.place statement).flow = .running)
    (later : (state.place statement).state.Accounts visits progress) :
    state.Accounts (.first statement :: visits.map (Visit.behind statement)) progress := by
  obtain ⟨bindings, diagnostics⟩ := (state.places_place statement).adds
  have goesOn := (state.places_place statement).stops
  rw [if_pos running] at goesOn
  have behind (visit : Visit) := visit_behind running visit
  constructor
  · rw [later.flow, List.getLast?_cons, List.getLast?_map]
    cases visits.getLast? with
    | none => exact (congrArg (Option.getD · Flow.running) goesOn).symm
    | some visit => exact congrArg (Option.getD · Flow.running) (behind visit).2.2
  · rw [later.symbols, bindings]
    simp only [List.filterMap_eq_flatMap_toList, behind, List.flatMap_cons, List.flatMap_map,
      List.append_assoc]
  · rw [later.diagnostics, diagnostics]
    simp only [List.filterMap_eq_flatMap_toList, behind, List.flatMap_cons, List.flatMap_map,
      List.append_assoc]
  · exact later.object.trans (state.places_place statement).object_eq
  · rw [List.forall_mem_cons, List.forall_mem_map]
    refine ⟨fun name label repeated => place_skipped label repeated,
      fun visit member name label repeated => ?_⟩
    have skipped := later.skipped visit member name label ((defined_cons _ _).trans repeated)
    rw [← placeAll_cons_of_running running, ← placeAll_cons_of_running running] at skipped
    exact skipped

theorem Accounts.single (stopped : (state.place statement).flow ≠ .running) :
    state.Accounts [.first statement] (state.place statement) := by
  obtain ⟨bindings, diagnostics⟩ := (state.places_place statement).adds
  have stops := (state.places_place statement).stops
  rw [if_neg stopped] at stops
  constructor
  · exact (congrArg (Option.getD · Flow.running) stops).symm
  · rw [bindings, List.filterMap_eq_flatMap_toList, List.flatMap_singleton]
  · rw [diagnostics, List.filterMap_eq_flatMap_toList, List.flatMap_singleton]
  · exact (state.places_place statement).object_eq
  · exact List.forall_mem_singleton.mpr (fun _name label repeated => place_skipped label repeated)

theorem accounts_placeAll (state : State) (statements : List Statement) :
    state.Accounts (state.reached statements) (state.placeAll statements) := by
  induction statements generalizing state with
  | nil => exact ⟨rfl, (List.append_nil _).symm, (List.append_nil _).symm, rfl, nofun⟩
  | cons statement others inductionHypothesis =>
      rcases state.placeAll_cons_cases statement others with
        ⟨running, continued⟩ | ⟨stopped, final⟩
      · rw [continued, reached_of_running running]
        exact .cons running (inductionHypothesis _)
      · rw [final, reached_of_stopped stopped]
        exact .single stopped

/-- Layout of a text.  It comes to the statements up to the first that ends it.  The names
that are bound stay in front with their values; behind them stand the labels of the statements
that are reached, each where it is first defined.  For each of these statements one diagnostic
is recorded at most, and one whose label is defined already does nothing else. -/
theorem layout_accounts (state : State) (source : String) :
    state.Accounts (state.reached (Statement.all source)) (state.layout source) :=
  accounts_placeAll state (Statement.all source)

/-- The second `START` and the first `END` are skipped for their labels; in the other text a
`START` that does not read ends the run behind its label. -/
theorem layout_accounts_skipped :
    let ended := fresh.layout "A: RET\nA: START 10\nB: FOO\nA: END\nC: END\nD: RET"
    let failed := fresh.layout "A: FOO\nB: START zz\nC: END"
    (ended.flow = .ended ∧
      ended.state.symbols.bindings = [("A", 0), ("B", 2), ("C", 2)] ∧
      ended.state.diagnostics =
        [.duplicateSymbol "A", .unknownInstruction "FOO", .duplicateSymbol "A"]) ∧
    failed.flow = .failed (.badNumeral "zz") ∧
      failed.state.symbols.bindings = [("A", 0), ("B", 0)] ∧
      failed.state.diagnostics = [.unknownInstruction "FOO"] := by
  intro ended failed
  have first := layout_accounts fresh "A: RET\nA: START 10\nB: FOO\nA: END\nC: END\nD: RET"
  have second := layout_accounts fresh "A: FOO\nB: START zz\nC: END"
  exact ⟨⟨first.flow.trans (by decide), first.symbols.trans (by decide),
    first.diagnostics.trans (by decide)⟩, second.flow.trans (by decide),
    second.symbols.trans (by decide), second.diagnostics.trans (by decide)⟩

end State
end Assembler
end Msp430
