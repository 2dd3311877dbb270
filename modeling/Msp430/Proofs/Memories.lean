import Msp430.Proofs.Numerals
import Msp430.Proofs.Sessions

/-!
What a session remembers.  The assemble button empties the symbols and keeps the
location counter, the entries, the object code and the diagnostics of all earlier
texts.  Main statement: a session answers every text as a fresh one does exactly if
these four are as good as fresh; start address and length never matter.
-/

namespace Msp430
namespace Assembler

/-! ### Entries that encoding passes over -/

theorem Entry.emit_of_uncoded {entry : Entry} (uncoded : entry.opcode ∉ codedNames)
    (symbols : SymbolTable) : entry.emit symbols = Emission.nothing := by
  unfold emit
  cases known : Operation.ofName? entry.opcode with
  | none => rfl
  | some operation =>
      have reserving : operation = .reserving := by
        apply Classical.byContradiction
        intro coded
        exact uncoded (Operation.mem_codedNames known coded)
      rw [reserving]

theorem emitAll_append_uncoded {earlier : List Entry}
    (uncoded : ∀ entry ∈ earlier, entry.opcode ∉ codedNames) (symbols : SymbolTable)
    (entries : List Entry) : emitAll symbols (earlier ++ entries) = emitAll symbols entries := by
  induction earlier with
  | nil => rfl
  | cons entry others inductionHypothesis =>
      obtain ⟨first, later⟩ := List.forall_mem_cons.mp uncoded
      rw [List.cons_append, emitAll, Entry.emit_of_uncoded first, inductionHypothesis later]
      rfl

/-- An entry with a code emits a word unless it stops encoding. -/
theorem Entry.uncoded_of_no_words {entry : Entry} {symbols : SymbolTable}
    (completed : (entry.emit symbols).fault = none) (silent : entry.words symbols = []) :
    entry.opcode ∉ codedNames := by
  intro coded
  obtain ⟨operation, known, different⟩ := Operation.exists_of_mem_codedNames coded
  obtain ⟨count, _addresses, counted, _room⟩ := words_addresses known different completed
  rw [silent] at counted
  cases counted

/-! ### Layout behind what is left over -/

namespace State

/-- `later` is `state` behind what is left of an older state.  Start addresses and
lengths are not compared. -/
structure Echoes (old later state : State) : Prop where
  symbols : later.symbols = state.symbols
  counter : later.counter = state.counter
  entries : later.entries = old.entries ++ state.entries
  object : later.object = old.object ++ state.object
  diagnostics : later.diagnostics = old.diagnostics ++ state.diagnostics

namespace Echoes

variable {old later state : State}

theorem record (echoes : old.Echoes later state) (diagnostic : Diagnostic) :
    old.Echoes (later.record diagnostic) (state.record diagnostic) where
  symbols := echoes.symbols
  counter := echoes.counter
  entries := echoes.entries
  object := echoes.object
  diagnostics := by
    unfold State.record
    rw [echoes.diagnostics, List.append_assoc]

theorem bind (echoes : old.Echoes later state) (name : String) :
    old.Echoes (later.bind name later.counter) (state.bind name state.counter) where
  symbols := by
    unfold State.bind
    rw [echoes.symbols, echoes.counter]
  counter := echoes.counter
  entries := echoes.entries
  object := echoes.object
  diagnostics := echoes.diagnostics

theorem reserve (echoes : old.Echoes later state) (statement : Statement) (bytes : Int) :
    old.Echoes (later.reserve statement bytes) (state.reserve statement bytes) where
  symbols := echoes.symbols
  counter := congrArg (fun counter => counter + bytes) echoes.counter
  entries := by
    unfold State.reserve keep
    rw [echoes.entries, echoes.counter, List.append_assoc]
  object := echoes.object
  diagnostics := echoes.diagnostics

theorem startAt (echoes : old.Echoes later state) (operand : Option String) :
    old.Echoes (later.startAt operand).state (state.startAt operand).state ∧
      (later.startAt operand).flow = (state.startAt operand).flow := by
  have moved : ∀ address : Int,
      old.Echoes { later with start := address, counter := address }
        { state with start := address, counter := address } :=
    fun _address =>
      ⟨echoes.symbols, rfl, echoes.entries, echoes.object, echoes.diagnostics⟩
  cases operand with
  | none => exact ⟨moved 0, rfl⟩
  | some text =>
      simp only [State.startAt]
      cases Numeral.hex? text with
      | none => exact ⟨echoes, rfl⟩
      | some address => exact ⟨moved address, rfl⟩

theorem finish (echoes : old.Echoes later state) :
    old.Echoes later.finish.state state.finish.state :=
  ⟨echoes.symbols, echoes.counter, echoes.entries, echoes.object, echoes.diagnostics⟩

theorem perform (echoes : old.Echoes later state) (statement : Statement) :
    old.Echoes (later.perform statement).state (state.perform statement).state ∧
      (later.perform statement).flow = (state.perform statement).flow := by
  unfold State.perform
  by_cases start : statement.opcode = "START"
  · rw [if_pos start, if_pos start]
    exact echoes.startAt statement.operand
  · rw [if_neg start, if_neg start]
    by_cases final : statement.opcode = "END"
    · rw [if_pos final, if_pos final]
      exact ⟨echoes.finish, rfl⟩
    · rw [if_neg final, if_neg final]
      cases Operation.ofName? statement.opcode with
      | some operation => exact ⟨echoes.reserve statement _, rfl⟩
      | none => exact ⟨(echoes.record _).reserve statement 0, rfl⟩

theorem place (echoes : old.Echoes later state) (statement : Statement) :
    old.Echoes (later.place statement).state (state.place statement).state ∧
      (later.place statement).flow = (state.place statement).flow := by
  unfold State.place
  cases statement.symbol? with
  | none => exact echoes.perform statement
  | some name =>
      simp only [echoes.symbols]
      by_cases bound : state.symbols.contains name = true
      · rw [if_pos bound, if_pos bound]
        exact ⟨echoes.record _, rfl⟩
      · rw [if_neg bound, if_neg bound]
        exact (echoes.bind name).perform statement

theorem placeAll (echoes : old.Echoes later state) (statements : List Statement) :
    old.Echoes (later.placeAll statements).state (state.placeAll statements).state ∧
      (later.placeAll statements).flow = (state.placeAll statements).flow := by
  induction statements generalizing later state with
  | nil => exact ⟨echoes, rfl⟩
  | cons statement others inductionHypothesis =>
      obtain ⟨next, sameFlow⟩ := echoes.place statement
      rw [State.placeAll, State.placeAll]
      generalize later.place statement = first at next sameFlow ⊢
      generalize state.place statement = second at next sameFlow ⊢
      obtain ⟨first, flow⟩ := first
      obtain ⟨second, _⟩ := second
      cases sameFlow
      cases flow with
      | running => exact inductionHypothesis next
      | ended => exact ⟨next, rfl⟩
      | failed fault => exact ⟨next, rfl⟩

end Echoes

/-- No trace of earlier texts that a later one could meet: the counter stands at zero,
nothing is encoded or recorded, and no entry has a code. -/
structure Untouched (state : State) : Prop where
  counter : state.counter = 0
  object : state.object = []
  diagnostics : state.diagnostics = []
  entries : ∀ entry ∈ state.entries, entry.opcode ∉ codedNames

/-- The state in which the assemble button starts. -/
def withoutSymbols (state : State) : State :=
  { state with symbols := SymbolTable.empty }

theorem Untouched.layout {state : State} (untouched : state.Untouched) (source : String) :
    state.Echoes (state.withoutSymbols.layout source).state (fresh.layout source).state ∧
      (state.withoutSymbols.layout source).fault? = (fresh.layout source).fault? := by
  have initial : state.Echoes state.withoutSymbols fresh :=
    { symbols := rfl
      counter := untouched.counter
      entries := (List.append_nil _).symm
      object := (List.append_nil _).symm
      diagnostics := (List.append_nil _).symm }
  obtain ⟨echoes, flow⟩ := initial.placeAll (Statement.all source)
  refine ⟨echoes, ?_⟩
  unfold Progress.fault? State.layout
  rw [flow]

end State
end Assembler

namespace Workbench

open Assembler

theorem answer_of_untouched {state : State} (untouched : state.Untouched) (source : String) :
    answer (state.withoutSymbols.attempt source) = answer (State.fresh.attempt source) := by
  obtain ⟨echoes, fault⟩ := untouched.layout source
  have diagnostics := echoes.diagnostics
  rw [untouched.diagnostics, List.nil_append] at diagnostics
  have object := echoes.object
  rw [untouched.object, List.nil_append] at object
  have emission : emitAll (state.withoutSymbols.layout source).state.symbols
      (state.withoutSymbols.layout source).state.entries =
      emitAll (State.fresh.layout source).state.symbols
        (State.fresh.layout source).state.entries := by
    rw [echoes.symbols, echoes.entries]
    exact emitAll_append_uncoded untouched.entries _ _
  simp only [State.attempt, fault, diagnostics, State.encode, emission]
  cases (State.fresh.layout source).fault? with
  | some fault => rfl
  | none =>
      cases (State.fresh.layout source).state.diagnostics.isEmpty with
      | false => simp only [Bool.false_eq_true, if_false, answer, diagnostics]
      | true =>
          cases (emitAll (State.fresh.layout source).state.symbols
              (State.fresh.layout source).state.entries).fault with
          | some fault => rfl
          | none => simp only [if_true, answer, State.absorb, object]

/-! ### A text that finds every trace -/

/-- One instruction of one word. -/
def probe : String := "RRC R4"

theorem layout_probe (state : State) :
    state.layout probe =
      { state := state.reserve { label := none, opcode := "RRC", operand := some "R4" } 2
        flow := .running } := by
  unfold State.layout
  rw [show Statement.all probe = [{ label := none, opcode := "RRC", operand := some "R4" }] by
    decide]
  rfl

theorem eq_nil_of_codeText {front : List ObjectWord} {last word : ObjectWord}
    (same : codeText (front ++ [last]) = wordLine word)
    (oneLine : '\n' ∉ (wordLine word).toList) : front = [] ∧ wordLine last = wordLine word := by
  cases front with
  | nil =>
      unfold codeText at same
      rw [List.nil_append, List.map_cons, List.map_nil, String.intercalate_singleton] at same
      exact ⟨rfl, same⟩
  | cons first others =>
      exfalso
      apply oneLine
      obtain ⟨next, later, behind⟩ :=
        List.exists_cons_of_ne_nil
          (List.append_ne_nil_of_right_ne_nil others (List.cons_ne_nil last []))
      unfold codeText at same
      rw [List.cons_append, behind, List.map_cons, List.map_cons,
        String.intercalate_cons_cons] at same
      rw [← same, String.toList_append, String.toList_append]
      simp

theorem address_of_wordLine {first second code : Int}
    (same : wordLine { address := first, code := code } =
      wordLine { address := second, code := code }) : first = second := by
  unfold wordLine at same
  rw [String.append_left_inj, String.append_left_inj, String.append_left_inj,
    String.append_left_inj, String.append_right_inj] at same
  exact Numeral.upperHex_inj same

theorem answer_fresh_probe :
    (answer (State.fresh.attempt probe)).code = wordLine { address := 2, code := 0x1000 } ∧
      '\n' ∉ (wordLine { address := 2, code := 0x1000 }).toList := by
  have delivered : State.fresh.attempt probe = .encoded (State.fresh.attempt probe).final ∧
      (State.fresh.attempt probe).final.object = [{ address := 2, code := 0x1000 }] := by
    decide
  constructor
  · rw [delivered.1]
    change codeText (State.fresh.attempt probe).final.object = _
    rw [delivered.2]
    exact String.intercalate_singleton
  · simp only [wordLine, Numeral.upperHex, String.toList_append, String.toList_map]
    decide

theorem untouched_of_probe {state : State}
    (same : (answer (state.withoutSymbols.attempt probe)).code =
      (answer (State.fresh.attempt probe)).code) : state.Untouched := by
  obtain ⟨shown, oneLine⟩ := answer_fresh_probe
  rw [shown] at same
  have layout := layout_probe state.withoutSymbols
  have attempts := state.withoutSymbols.attempts_attempt probe
  generalize state.withoutSymbols.attempt probe = attempt at same attempts
  -- The probe is shown by a fresh session, so it has to be encoded here as well.
  cases attempts with
  | unplaced stopped =>
      rw [layout] at stopped
      cases stopped
  | rejected placed found => exact absurd same.symm (wordLine_ne_empty _)
  | unencoded placed clean stopped => exact absurd same.symm (wordLine_ne_empty _)
  | encoded placed clean sound =>
      rw [layout] at clean sound same
      have completed : (emitAll SymbolTable.empty (state.entries ++ [_])).fault = none :=
        (emitAll_fault _ _).trans (List.findSome?_eq_none_iff.mpr sound)
      have words := (emitAll_completed completed).1
      change codeText (state.object ++ (emitAll SymbolTable.empty (state.entries ++ [_])).words) =
        _ at same
      rw [words, List.flatMap_append, ← List.append_assoc] at same
      obtain ⟨front, last⟩ := eq_nil_of_codeText same oneLine
      obtain ⟨object, silent⟩ := List.append_eq_nil_iff.mp front
      have moved : state.counter + 2 = 2 := address_of_wordLine last
      refine ⟨by omega, object, clean, ?_⟩
      intro entry member
      have unstopped := (emitAll_completed completed).2 entry (List.mem_append_left _ member)
      exact Entry.uncoded_of_no_words unstopped (List.flatMap_eq_nil_iff.mp silent entry member)

namespace Session

/-- What the window shows when a text in its editor is assembled. -/
def shown (session : Session) (text : String) : Answer :=
  { code := (session.typeIn text).assembleEditor.session.shownCode
    errors := (session.typeIn text).assembleEditor.session.shownErrors }

theorem shown_eq_answer (session : Session) (text : String) :
    session.shown text = answer (session.assembler.withoutSymbols.attempt text) := by
  obtain ⟨_final, _files, code, errors⟩ := (session.typeIn text).assembleEditor_attempt
  unfold shown
  rw [code, errors]
  rfl

/-- Whatever was done in a session, it shows for every text what a fresh one shows
exactly if the assembler behind it is untouched. -/
theorem shown_as_fresh_iff (actions : List Action) :
    (∀ text, (fresh.run actions).shown text = fresh.shown text) ↔
      (fresh.run actions).assembler.Untouched := by
  have freshShown : ∀ text, fresh.shown text = answer (State.fresh.attempt text) :=
    fresh.shown_eq_answer
  constructor
  · intro same
    apply untouched_of_probe
    rw [← shown_eq_answer, ← freshShown, same]
  · intro untouched text
    rw [shown_eq_answer, freshShown]
    exact answer_of_untouched untouched text

/-- A program is assembled once, and its word is shown again with the next text. -/
theorem shown_as_fresh_iff_second_text :
    let session := fresh.run [.typeIn "RRC R4\nEND", .assembleEditor]
    session.assembler.object = [{ address := 2, code := 0x1000 }] ∧
      ¬ ∀ text, session.shown text = fresh.shown text := by
  intro session
  have object : session.assembler.object = [{ address := 2, code := 0x1000 }] := by
    decide
  refine ⟨object, ?_⟩
  intro same
  have untouched := (shown_as_fresh_iff [.typeIn "RRC R4\nEND", .assembleEditor]).mp same
  exact absurd (object.symm.trans untouched.object) (List.cons_ne_nil _ _)

end Session
end Workbench
end Msp430
