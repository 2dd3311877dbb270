import Msp430.Proofs.Locations
import Msp430.Workbench.Session

/-!
Attempts to assemble a text, at the console and in the window.  `State.Attempts` lists
the four ways in which one can end.  Diagnostics are looked at between layout and
encoding and not again, and whether an entry can be encoded does not depend on the
symbols.  Main statement: object code is delivered in spite of undefined operands, and
of no other diagnostic.
-/

namespace Msp430
namespace Assembler

/-! ### What encoding an entry meets -/

/-- An operand that is to bring a word and is no number. -/
def Operand.fault? : Option Operand → Option Fault
  | none => none
  | some written =>
      if written.mode.takesWord && (Numeral.hex? written.text).isNone then
        some (.badNumeral written.text)
      else none

theorem operandWords_cases (location : Int) (operand : Option Operand) :
    (∃ fault, Operand.fault? operand = some fault ∧
      operandWords location operand = .error fault) ∨
    (Operand.fault? operand = none ∧ ∃ words, operandWords location operand = .ok words) := by
  cases operand with
  | none => exact Or.inr ⟨rfl, [], rfl⟩
  | some written =>
      simp only [Operand.fault?, operandWords]
      cases written.mode.takesWord with
      | false => exact Or.inr ⟨rfl, [], rfl⟩
      | true =>
          cases Numeral.hex? written.text with
          | some value => exact Or.inr ⟨rfl, _, rfl⟩
          | none => exact Or.inl ⟨_, rfl, rfl⟩

namespace Entry

def source? (entry : Entry) : Option Operand :=
  Operand.read? (components entry.operand).1

def destination? (entry : Entry) : Option Operand :=
  Operand.read? (components entry.operand).2

/-- The fault at which encoding an entry ends, whatever the symbols are. -/
def fault? (entry : Entry) : Option Fault :=
  match Operation.ofName? entry.opcode with
  | some (.dual _) =>
      if entry.source?.isNone then some .missingSource
      else (Operand.fault? entry.source?).or (Operand.fault? entry.destination?)
  | _ => none

/-- The diagnostics of operands that are neither registers nor symbols. -/
def undefined (symbols : SymbolTable) (entry : Entry) : List Diagnostic :=
  match Operation.ofName? entry.opcode with
  | some (.dual _) => undefinedOperands symbols entry.source? entry.destination?
  | _ => []

/-- Both operands of a two-operand entry stand for numbers. -/
def Resolved (symbols : SymbolTable) (entry : Entry) : Prop :=
  ∀ operation, Operation.ofName? entry.opcode = some (.dual operation) →
    (resolve? symbols entry.source?).isSome ∧ (resolve? symbols entry.destination?).isSome

theorem emitDual_meets (symbols : SymbolTable) (operation : Dual) (entry : Entry) :
    (emitDual symbols operation entry.operand entry.location).diagnostics =
        undefinedOperands symbols entry.source? entry.destination? ∧
      (emitDual symbols operation entry.operand entry.location).fault =
        if entry.source?.isNone then some .missingSource
        else (Operand.fault? entry.source?).or (Operand.fault? entry.destination?) := by
  have first : Operand.read? (components entry.operand).1 = entry.source? := rfl
  have second : Operand.read? (components entry.operand).2 = entry.destination? := rfl
  simp only [emitDual, first, second]
  cases entry.source? with
  | none => exact ⟨rfl, rfl⟩
  | some written =>
      rcases operandWords_cases entry.location (some written) with
        ⟨fault, faulty, failed⟩ | ⟨sound, sourceWords, encoded⟩
      · simp only [failed, faulty]
        exact ⟨trivial, rfl⟩
      · rcases operandWords_cases entry.location entry.destination? with
          ⟨fault, faulty, failed⟩ | ⟨sound', destinationWords, encoded'⟩
        · simp only [encoded, sound, failed, faulty]
          exact ⟨trivial, rfl⟩
        · simp only [encoded, sound, encoded', sound']
          exact ⟨trivial, rfl⟩

theorem emit_diagnostics (symbols : SymbolTable) (entry : Entry) :
    (entry.emit symbols).diagnostics = entry.undefined symbols := by
  unfold emit undefined
  cases Operation.ofName? entry.opcode with
  | none => rfl
  | some operation =>
      cases operation with
      | dual operation => exact (emitDual_meets symbols operation entry).1
      | single operation => rfl
      | jump operation => rfl
      | reserving => rfl

theorem emit_fault (symbols : SymbolTable) (entry : Entry) :
    (entry.emit symbols).fault = entry.fault? := by
  unfold emit fault?
  cases Operation.ofName? entry.opcode with
  | none => rfl
  | some operation =>
      cases operation with
      | dual operation => exact (emitDual_meets symbols operation entry).2
      | single operation => rfl
      | jump operation => rfl
      | reserving => rfl

theorem undefined_eq_nil_iff (symbols : SymbolTable) (entry : Entry) :
    entry.undefined symbols = [] ↔ entry.Resolved symbols := by
  unfold undefined Resolved undefinedOperands
  split
  · rename_i operation known
    rw [known, List.append_eq_nil_iff]
    simp [Option.ne_none_iff_isSome]
  · rename_i other
    exact ⟨fun _empty operation known => absurd known (other operation), fun _resolved => rfl⟩

end Entry

theorem emitAll_fault (symbols : SymbolTable) (entries : List Entry) :
    (emitAll symbols entries).fault = entries.findSome? Entry.fault? := by
  induction entries with
  | nil => rfl
  | cons entry others inductionHypothesis =>
      rw [emitAll, List.findSome?_cons, ← entry.emit_fault symbols]
      cases faulty : (entry.emit symbols).fault with
      | some fault => exact faulty
      | none => exact inductionHypothesis

theorem emitAll_diagnostics {symbols : SymbolTable} {entries : List Entry}
    (sound : ∀ entry ∈ entries, entry.fault? = none) :
    (emitAll symbols entries).diagnostics = entries.flatMap (Entry.undefined symbols) := by
  induction entries with
  | nil => rfl
  | cons entry others inductionHypothesis =>
      obtain ⟨first, later⟩ := List.forall_mem_cons.mp sound
      rw [emitAll, entry.emit_fault symbols, first, List.flatMap_cons,
        ← entry.emit_diagnostics symbols, ← inductionHypothesis later]
      rfl

section Encode

variable (state : State)

@[simp] theorem State.encode_symbols : state.encode.1.symbols = state.symbols := rfl

@[simp] theorem State.encode_entries : state.encode.1.entries = state.entries := rfl

@[simp] theorem State.encode_counter : state.encode.1.counter = state.counter := rfl

@[simp] theorem State.encode_start : state.encode.1.start = state.start := rfl

@[simp] theorem State.encode_length : state.encode.1.length = state.length := rfl

@[simp] theorem State.encode_diagnostics :
    state.encode.1.diagnostics =
      state.diagnostics ++ (emitAll state.symbols state.entries).diagnostics := rfl

end Encode

/-! ### How an attempt ends -/

/-- An attempt ends in layout with a fault, after layout with diagnostics, in encoding
with a fault, or with all words there. -/
inductive Attempt where
  | unplaced (final : State) (fault : Fault)
  | rejected (final : State)
  | unencoded (final : State) (fault : Fault)
  | encoded (final : State)
  deriving Repr, DecidableEq

def Attempt.final : Attempt → State
  | .unplaced final _ => final
  | .rejected final => final
  | .unencoded final _ => final
  | .encoded final => final

def Attempt.fault? : Attempt → Option Fault
  | .unplaced _ fault => some fault
  | .rejected _ => none
  | .unencoded _ fault => some fault
  | .encoded _ => none

/-- Only words that are all there are saved. -/
def Attempt.files : Attempt → List File
  | .encoded final =>
      [{ name := objectFileName, content := ObjectWord.file final.object }]
  | _ => []

/-- The four ways in which an attempt can end, each with its conditions. -/
inductive State.Attempts (state : State) (source : String) : Attempt → Prop where
  | unplaced {fault : Fault}
      (stopped : (state.layout source).fault? = some fault) :
      Attempts state source (.unplaced (state.layout source).state fault)
  | rejected
      (placed : (state.layout source).fault? = none)
      (found : (state.layout source).state.diagnostics ≠ []) :
      Attempts state source (.rejected (state.layout source).state)
  | unencoded {fault : Fault}
      (placed : (state.layout source).fault? = none)
      (clean : (state.layout source).state.diagnostics = [])
      (stopped : (state.layout source).state.entries.findSome? Entry.fault? = some fault) :
      Attempts state source (.unencoded (state.layout source).state.encode.1 fault)
  | encoded
      (placed : (state.layout source).fault? = none)
      (clean : (state.layout source).state.diagnostics = [])
      (sound : ∀ entry ∈ (state.layout source).state.entries, entry.fault? = none) :
      Attempts state source (.encoded (state.layout source).state.encode.1)

namespace State

variable (state : State) (source : String)

def attempt : Attempt :=
  let placed := state.layout source
  match placed.fault? with
  | some fault => .unplaced placed.state fault
  | none =>
      if placed.state.diagnostics.isEmpty then
        match placed.state.encode with
        | (encoded, some fault) => .unencoded encoded fault
        | (encoded, none) => .encoded encoded
      else .rejected placed.state

theorem attempts_attempt : state.Attempts source (state.attempt source) := by
  unfold attempt
  cases stopped : (state.layout source).fault? with
  | some fault =>
      simp only [stopped]
      exact .unplaced stopped
  | none =>
      by_cases clean : (state.layout source).state.diagnostics = []
      · have meets := emitAll_fault (state.layout source).state.symbols
          (state.layout source).state.entries
        simp only [stopped, clean, List.isEmpty_nil, if_true, encode]
        cases faulty : (emitAll (state.layout source).state.symbols
            (state.layout source).state.entries).fault with
        | some fault => exact .unencoded stopped clean (meets.symm.trans faulty)
        | none =>
            exact .encoded stopped clean
              (List.findSome?_eq_none_iff.mp (meets.symm.trans faulty))
      · have found : (state.layout source).state.diagnostics.isEmpty = false := by
          simpa using clean
        simp only [stopped, found, Bool.false_eq_true, if_false]
        exact .rejected stopped clean

end State

theorem State.save_objectFile (state : State) :
    state.save objectFileName =
      { state := state
        fault := none
        printed := "Machine code saved to " ++ objectFileName ++ "\n"
        files := (Attempt.encoded state).files } := by
  unfold State.save
  rw [if_pos (by decide)]
  rfl

theorem Console.assemble_attempt (state : State) (source : String) :
    let report := Console.assemble state source
    let attempt := state.attempt source
    report.state = attempt.final ∧ report.fault = attempt.fault? ∧
      report.files = attempt.files := by
  simp only [Console.assemble, State.attempt]
  cases (state.layout source).fault? with
  | some fault => exact ⟨rfl, rfl, rfl⟩
  | none =>
      cases (state.layout source).state.diagnostics.isEmpty with
      | false => exact ⟨rfl, rfl, rfl⟩
      | true =>
          simp only [if_true, Console.deliver]
          cases (state.layout source).state.encode with
          | mk encoded fault? =>
              cases fault? with
              | some fault => exact ⟨rfl, rfl, rfl⟩
              | none =>
                  dsimp only
                  rw [State.save_objectFile]
                  exact ⟨rfl, rfl, rfl⟩

end Assembler

namespace Workbench

open Assembler

/-- What the window answers. -/
def answer : Attempt → Answer
  | .rejected final =>
      { code := ""
        errors := String.intercalate "\n" (final.diagnostics.map Diagnostic.message) }
  | .encoded final => { code := codeText final.object, errors := "" }
  | _ => { code := "", errors := "" }

theorem assembleText_attempt (state : State) (source : String) :
    let assembled := assembleText state source
    let attempt := state.attempt source
    assembled.1.state = attempt.final ∧ assembled.1.fault = attempt.fault? ∧
      assembled.1.files = attempt.files ∧ assembled.2 = answer attempt := by
  simp only [assembleText, State.attempt]
  cases (state.layout source).fault? with
  | some fault => exact ⟨rfl, rfl, rfl, rfl⟩
  | none =>
      cases (state.layout source).state.diagnostics.isEmpty with
      | false => exact ⟨rfl, rfl, rfl, rfl⟩
      | true =>
          cases (state.layout source).state.encode with
          | mk encoded fault? =>
              cases fault? with
              | some fault => exact ⟨rfl, rfl, rfl, rfl⟩
              | none =>
                  dsimp only
                  rw [State.save_objectFile]
                  exact ⟨rfl, rfl, rfl, rfl⟩

theorem wordLine_ne_empty (word : ObjectWord) : wordLine word ≠ "" := by
  unfold wordLine
  simp [String.append_eq_empty_iff]

theorem codeText_eq_empty_iff (object : List ObjectWord) : codeText object = "" ↔ object = [] := by
  unfold codeText
  constructor
  · intro empty
    match object with
    | [] => rfl
    | [word] =>
        rw [List.map_cons, List.map_nil, String.intercalate_singleton] at empty
        exact absurd empty (wordLine_ne_empty word)
    | word :: next :: others =>
        rw [List.map_cons, List.map_cons, String.intercalate_cons_cons,
          String.append_eq_empty_iff, String.append_eq_empty_iff] at empty
        exact absurd empty.1.1 (wordLine_ne_empty word)
  · intro empty
    rw [empty]
    rfl

end Workbench

namespace Assembler

open Workbench (Session)

/-! ### Object code that is delivered -/

/-- Layout finds nothing to complain about, and every entry can be encoded. -/
def Progress.Deliverable (progress : Progress) : Prop :=
  progress.fault? = none ∧ progress.state.diagnostics = [] ∧
    ∀ entry ∈ progress.state.entries, entry.fault? = none

/-- The diagnostics are those of the operands that are neither registers nor symbols,
entry by entry, so there are none exactly if all operands stand for numbers. -/
structure State.OnlyUndefined (state : State) : Prop where
  diagnostics : state.diagnostics = state.entries.flatMap (Entry.undefined state.symbols)
  empty_iff : state.diagnostics = [] ↔ ∀ entry ∈ state.entries, entry.Resolved state.symbols

theorem State.onlyUndefined_of_eq {state : State}
    (same : state.diagnostics = state.entries.flatMap (Entry.undefined state.symbols)) :
    state.OnlyUndefined := by
  refine ⟨same, ?_⟩
  rw [same, List.flatMap_eq_nil_iff]
  exact forall₂_congr (fun entry _member => entry.undefined_eq_nil_iff state.symbols)

namespace Attempt

theorem files_ne_nil_iff (attempt : Attempt) :
    attempt.files ≠ [] ↔ ∃ final, attempt = .encoded final := by
  cases attempt <;> simp [files]

theorem answer_code_ne_empty_iff (attempt : Attempt) :
    (Workbench.answer attempt).code ≠ "" ↔
      (∃ final, attempt = .encoded final) ∧ attempt.final.object ≠ [] := by
  cases attempt with
  | encoded encoded => simp [Workbench.answer, Workbench.codeText_eq_empty_iff, final]
  | _ => simp [Workbench.answer]

end Attempt

namespace State

variable {state : State} {source : String}

theorem attempt_encoded_iff :
    (∃ final, state.attempt source = .encoded final) ↔ (state.layout source).Deliverable := by
  have attempts := state.attempts_attempt source
  generalize state.attempt source = attempt at attempts ⊢
  constructor
  · rintro ⟨final, rfl⟩
    cases attempts with
    | encoded placed clean sound => exact ⟨placed, clean, sound⟩
  · rintro ⟨placed, clean, sound⟩
    cases attempts with
    | unplaced stopped =>
        rw [placed] at stopped
        cases stopped
    | rejected placed found => exact absurd clean found
    | unencoded placed clean stopped =>
        rw [List.findSome?_eq_none_iff.mpr sound] at stopped
        cases stopped
    | encoded placed clean sound => exact ⟨_, rfl⟩

theorem attempt_encoded_onlyUndefined {final : State}
    (encoded : state.attempt source = .encoded final) : final.OnlyUndefined := by
  have attempts := state.attempts_attempt source
  rw [encoded] at attempts
  cases attempts with
  | encoded placed clean sound =>
      apply onlyUndefined_of_eq
      rw [encode_diagnostics, encode_entries, encode_symbols, clean, emitAll_diagnostics sound,
        List.nil_append]

end State

theorem Console.run_of_program {input : String} {program : List Char}
    (typed : program? (Text.feedLines input.toList) = some program) (state : State) :
    (run state input).state = (state.attempt (String.ofList program)).final ∧
      (run state input).files = (state.attempt (String.ofList program)).files := by
  obtain ⟨final, _fault, files⟩ := assemble_attempt state (String.ofList program)
  have assembled : run state input =
      (assemble state (String.ofList program)).after invitation := by
    unfold run
    rw [typed]
  rw [assembled]
  dsimp only [Report.after]
  exact ⟨final, files⟩

theorem Console.run_files_ne_nil_iff (state : State) (input : String) :
    (run state input).files ≠ [] ↔
      ∃ program, program? (Text.feedLines input.toList) = some program ∧
        ∃ final, state.attempt (String.ofList program) = .encoded final := by
  cases typed : program? (Text.feedLines input.toList) with
  | none =>
      have files : (run state input).files = [] := by
        unfold run
        rw [typed]
        rfl
      simp [files]
  | some program =>
      rw [(run_of_program typed state).2, Attempt.files_ne_nil_iff]
      simp

/-- Object code leaves the console and the window exactly if layout is not stopped and
finds nothing to record, and no entry stops encoding.  What encoding then records is not
looked at. -/
theorem delivered_onlyUndefined (state : State) (input : String) (session : Session)
    (source : String) :
    ((Console.run state input).files ≠ [] ↔
        ∃ program, Console.program? (Text.feedLines input.toList) = some program ∧
          (state.layout (String.ofList program)).Deliverable) ∧
      ((Console.run state input).files ≠ [] → (Console.run state input).state.OnlyUndefined) ∧
      ((session.assemble source).2.code ≠ "" ↔
        (session.assembler.layout source).Deliverable ∧
          (session.assemble source).1.session.assembler.object ≠ []) ∧
      ((session.assemble source).2.code ≠ "" →
        (session.assemble source).1.session.assembler.OnlyUndefined) := by
  obtain ⟨reached, _fault, _files, answered⟩ :=
    Workbench.assembleText_attempt session.assembler source
  have final : (session.assemble source).1.session.assembler =
      (session.assembler.attempt source).final := reached
  have code : (session.assemble source).2 =
      Workbench.answer (session.assembler.attempt source) := answered
  refine ⟨?_, ?_, ?_, ?_⟩
  · rw [Console.run_files_ne_nil_iff]
    simp only [State.attempt_encoded_iff]
  · intro written
    obtain ⟨program, typed, encoded, attempt⟩ :=
      (Console.run_files_ne_nil_iff state input).mp written
    rw [(Console.run_of_program typed state).1, attempt]
    exact State.attempt_encoded_onlyUndefined attempt
  · rw [final, code, Attempt.answer_code_ne_empty_iff, State.attempt_encoded_iff]
  · intro shown
    rw [code, Attempt.answer_code_ne_empty_iff] at shown
    obtain ⟨⟨encoded, attempt⟩, _object⟩ := shown
    rw [final, attempt]
    exact State.attempt_encoded_onlyUndefined attempt

/-- An undefined source is recorded, and the word is saved all the same. -/
theorem delivered_onlyUndefined_source :
    let report := Console.run State.fresh "MOV FOO, R5\nEND\n"
    report.files = [{ name := "output.hex", content := "0x2: 0x4015\n" }] ∧
      report.state.diagnostics = [.undefinedSource (some "FOO")] ∧
      ¬ ∀ entry ∈ report.state.entries, entry.Resolved report.state.symbols := by
  intro report
  have files : report.files = [{ name := "output.hex", content := "0x2: 0x4015\n" }] := by
    decide
  have written : report.files ≠ [] := by
    rw [files]
    exact List.cons_ne_nil _ _
  have only : report.state.OnlyUndefined :=
    (delivered_onlyUndefined State.fresh "MOV FOO, R5\nEND\n" Session.fresh "").2.1 written
  have recorded : report.state.diagnostics = [.undefinedSource (some "FOO")] :=
    only.diagnostics.trans (by decide)
  refine ⟨files, recorded, ?_⟩
  rw [← only.empty_iff, recorded]
  exact List.cons_ne_nil _ _

end Assembler
end Msp430
