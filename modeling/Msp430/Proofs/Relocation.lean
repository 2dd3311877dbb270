import Msp430.Assembler.Encoding
import Msp430.Assembler.Layout
import Msp430.Proofs.Numerals

/-!
Relocation.  Without a further `START` everything that layout does is relative to the
counter, so moving the start address moves symbols, locations and nothing else.  An
instruction word holds four bits of a symbol's value or the distance to it.  Main
statement: a program that is started a multiple of sixteen bytes further on has the same
words, each that much further on.
-/

namespace Msp430

namespace SymbolTable

def shift (distance : Int) (table : SymbolTable) : SymbolTable :=
  { bindings := table.bindings.map (fun binding => (binding.1, binding.2 + distance)) }

variable (distance : Int) (table : SymbolTable) (name : String)

theorem find?_shift :
    (table.shift distance).find? name =
      (table.find? name).map (fun value => value + distance) := by
  obtain ⟨bindings⟩ := table
  unfold find? shift
  induction bindings with
  | nil => rfl
  | cons binding others inductionHypothesis =>
      obtain ⟨key, value⟩ := binding
      simp only [List.map_cons, List.lookup_cons]
      cases name == key with
      | true => rfl
      | false => exact inductionHypothesis

theorem contains_shift : (table.shift distance).contains name = table.contains name := by
  unfold contains
  rw [find?_shift, Option.isSome_map]

theorem insert_shift (value : Int) :
    (table.shift distance).insert name (value + distance) =
      (table.insert name value).shift distance := by
  unfold insert
  rw [contains_shift]
  unfold shift
  split
  · simp only [List.map_map]
    congr 2
    funext binding
    simp only [Function.comp_apply]
    split <;> rfl
  · simp only [List.map_append, List.map_cons, List.map_nil]

end SymbolTable

def ObjectWord.shift (distance : Int) (word : ObjectWord) : ObjectWord :=
  { word with address := word.address + distance }

namespace Assembler

def Entry.shift (distance : Int) (entry : Entry) : Entry :=
  { entry with location := entry.location + distance }

/-- The state with everything moved that is an address. -/
def State.shift (distance : Int) (state : State) : State :=
  { symbols := state.symbols.shift distance
    counter := state.counter + distance
    start := state.start + distance
    length := state.length
    entries := state.entries.map (Entry.shift distance)
    object := state.object.map (ObjectWord.shift distance)
    diagnostics := state.diagnostics }

def Progress.shift (distance : Int) (progress : Progress) : Progress :=
  { progress with state := progress.state.shift distance }

/-! ### Layout -/

namespace State

variable (distance : Int) (state : State) (statement : Statement)

theorem reserve_shift (bytes : Int) :
    (state.shift distance).reserve statement bytes =
      (state.reserve statement bytes).shift distance := by
  have moved : state.counter + distance + bytes = state.counter + bytes + distance := by
    omega
  unfold reserve keep shift
  simp only [moved, List.map_append, List.map_cons, List.map_nil]
  rfl

theorem finish_shift : (state.shift distance).finish = state.finish.shift distance := by
  have length : state.counter + distance - (state.start + distance) =
      state.counter - state.start := by
    omega
  unfold finish shift
  simp only [length]
  rfl

theorem perform_shift {statement : Statement} (notStart : statement.opcode ≠ "START") :
    (state.shift distance).perform statement = (state.perform statement).shift distance := by
  unfold perform
  rw [if_neg notStart, if_neg notStart]
  by_cases final : statement.opcode = "END"
  · rw [if_pos final, if_pos final]
    exact state.finish_shift distance
  · rw [if_neg final, if_neg final]
    cases Operation.ofName? statement.opcode with
    | some operation =>
        simp only [reserve_shift]
        rfl
    | none =>
        have kept := (state.record (.unknownInstruction statement.opcode)).reserve_shift distance
          statement 0
        exact congrArg (fun next => ({ state := next, flow := .running } : Progress)) kept

theorem place_shift {statement : Statement} (notStart : statement.opcode ≠ "START") :
    (state.shift distance).place statement = (state.place statement).shift distance := by
  have contained (name : String) : (state.shift distance).symbols.contains name =
      state.symbols.contains name :=
    state.symbols.contains_shift distance name
  have bound (name : String) : (state.shift distance).bind name (state.shift distance).counter =
      (state.bind name state.counter).shift distance := by
    unfold bind shift
    simp only [SymbolTable.insert_shift]
  unfold place
  cases statement.symbol? with
  | none => exact state.perform_shift distance notStart
  | some name =>
      simp only [contained, bound]
      by_cases present : state.symbols.contains name = true
      · simp only [present, if_true]
        rfl
      · simp only [present, Bool.false_eq_true, if_false]
        exact (state.bind name state.counter).perform_shift distance notStart

theorem placeAll_shift {statements : List Statement}
    (noStart : ∀ statement ∈ statements, statement.opcode ≠ "START") :
    (state.shift distance).placeAll statements =
      (state.placeAll statements).shift distance := by
  induction statements generalizing state with
  | nil => rfl
  | cons statement others inductionHypothesis =>
      obtain ⟨first, later⟩ := List.forall_mem_cons.mp noStart
      rw [placeAll, placeAll, state.place_shift distance first]
      cases state.place statement with
      | mk next flow =>
          cases flow with
          | running => exact inductionHypothesis next later
          | ended => rfl
          | failed fault => rfl

end State

/-! ### Encoding -/

def Emission.shift (distance : Int) (emission : Emission) : Emission :=
  { emission with words := emission.words.map (ObjectWord.shift distance) }

theorem resolve?_shift (distance : Int) (symbols : SymbolTable) (operand : Option Operand) :
    resolve? (symbols.shift distance) operand = resolve? symbols operand ∨
      resolve? (symbols.shift distance) operand =
        (resolve? symbols operand).map (fun value => value + distance) := by
  unfold resolve?
  cases operand with
  | none => exact Or.inl rfl
  | some written =>
      simp only [Option.bind_some]
      cases Register.ofName? written.text with
      | some register => exact Or.inl rfl
      | none => exact Or.inr (symbols.find?_shift distance written.text)

/-- Four bits of a value do not see a multiple of sixteen. -/
theorem resolve?_shift_low (turns : Int) (symbols : SymbolTable) (operand : Option Operand) :
    (resolve? (symbols.shift (16 * turns)) operand).isSome = (resolve? symbols operand).isSome ∧
      (resolve? (symbols.shift (16 * turns)) operand).getD 0 % 16 =
        (resolve? symbols operand).getD 0 % 16 := by
  rcases resolve?_shift (16 * turns) symbols operand with same | moved
  · rw [same]
    exact ⟨rfl, rfl⟩
  · rw [moved]
    cases resolve? symbols operand with
    | none => exact ⟨rfl, rfl⟩
    | some value =>
        refine ⟨rfl, ?_⟩
        change (value + 16 * turns) % 16 = value % 16
        omega

theorem operandWords_shift (distance location : Int) (operand : Option Operand) :
    operandWords (location + distance) operand =
      (operandWords location operand).map (List.map (ObjectWord.shift distance)) := by
  have moved : location + distance + 2 = location + 2 + distance := by
    omega
  cases operand with
  | none => rfl
  | some written =>
      simp only [operandWords, moved]
      cases written.mode.takesWord with
      | false => rfl
      | true => cases Numeral.hex? written.text <;> rfl

theorem emitDual_shift (turns : Int) (symbols : SymbolTable) (operation : Dual)
    (operand : Option String) (location : Int) :
    emitDual (symbols.shift (16 * turns)) operation operand (location + 16 * turns) =
      (emitDual symbols operation operand location).shift (16 * turns) := by
  unfold emitDual
  simp only [operandWords_shift]
  generalize Operand.read? (components operand).1 = source
  generalize Operand.read? (components operand).2 = destination
  obtain ⟨sourceSome, sourceLow⟩ := resolve?_shift_low turns symbols source
  obtain ⟨destinationSome, destinationLow⟩ := resolve?_shift_low turns symbols destination
  have diagnostics : undefinedOperands (symbols.shift (16 * turns)) source destination =
      undefinedOperands symbols source destination := by
    unfold undefinedOperands
    rw [sourceSome, destinationSome]
  rw [diagnostics]
  cases source with
  | none => rfl
  | some written =>
      simp only [dualWord, sourceLow, destinationLow]
      cases operandWords location (some written) with
      | error fault => rfl
      | ok sourceWords =>
          cases operandWords location destination with
          | error fault => rfl
          | ok destinationWords =>
              simp only [Except.map, Emission.shift, List.map_cons, List.map_append]
              rfl

/-- A jump has an operand, and that is a symbol. -/
def Entry.isTargeted (symbols : SymbolTable) (entry : Entry) : Bool :=
  match Operation.ofName? entry.opcode with
  | some (.jump _) => (entry.operand.bind symbols.find?).isSome
  | _ => true

theorem Entry.emit_shift (turns : Int) {symbols : SymbolTable} {entry : Entry}
    (targeted : entry.isTargeted symbols = true) :
    (entry.shift (16 * turns)).emit (symbols.shift (16 * turns)) =
      (entry.emit symbols).shift (16 * turns) := by
  have opcode : (entry.shift (16 * turns)).opcode = entry.opcode := rfl
  unfold Entry.emit
  rw [opcode]
  cases known : Operation.ofName? entry.opcode with
  | none => rfl
  | some operation =>
      cases operation with
      | dual operation => exact emitDual_shift turns symbols operation entry.operand _
      | single operation => rfl
      | reserving => rfl
      | jump operation =>
          -- Target and location move together, so the offset stays.
          unfold isTargeted at targeted
          rw [known] at targeted
          obtain ⟨target, found⟩ := Option.isSome_iff_exists.mp targeted
          have word : jumpWord (symbols.shift (16 * turns)) operation entry.operand
              (entry.location + 16 * turns) =
                jumpWord symbols operation entry.operand entry.location := by
            have offset : target + 16 * turns - (entry.location + 16 * turns + 2) =
                target - (entry.location + 2) := by
              omega
            have moved : entry.operand.bind (symbols.shift (16 * turns)).find? =
                some (target + 16 * turns) := by
              obtain ⟨name, operand, value⟩ := Option.bind_eq_some_iff.mp found
              rw [operand, Option.bind_some, SymbolTable.find?_shift, value]
              rfl
            unfold jumpWord jumpOffset
            simp only [moved, found, Option.getD_some, offset]
          change Emission.word (entry.location + 16 * turns) (jumpWord (symbols.shift (16 * turns))
            operation entry.operand (entry.location + 16 * turns)) = _
          rw [word]
          rfl

theorem emitAll_shift (turns : Int) {symbols : SymbolTable} {entries : List Entry}
    (targeted : ∀ entry ∈ entries, entry.isTargeted symbols = true) :
    emitAll (symbols.shift (16 * turns)) (entries.map (Entry.shift (16 * turns))) =
      (emitAll symbols entries).shift (16 * turns) := by
  induction entries with
  | nil => rfl
  | cons entry others inductionHypothesis =>
      obtain ⟨first, later⟩ := List.forall_mem_cons.mp targeted
      rw [List.map_cons, emitAll, emitAll, Entry.emit_shift turns first,
        inductionHypothesis later]
      have sameFault : ((entry.emit symbols).shift (16 * turns)).fault =
          (entry.emit symbols).fault := rfl
      rw [sameFault]
      cases (entry.emit symbols).fault with
      | some fault => rfl
      | none =>
          unfold Emission.append Emission.shift
          simp only [List.map_append]

theorem State.encode_shift (turns : Int) {state : State}
    (targeted : ∀ entry ∈ state.entries, entry.isTargeted state.symbols = true) :
    (state.shift (16 * turns)).encode =
      (state.encode.1.shift (16 * turns), state.encode.2) := by
  have emission : emitAll (state.shift (16 * turns)).symbols (state.shift (16 * turns)).entries =
      (emitAll state.symbols state.entries).shift (16 * turns) :=
    emitAll_shift turns targeted
  unfold encode absorb
  rw [emission]
  unfold shift Emission.shift
  simp only [List.map_append]

/-! ### Programs -/

/-- The statement `START` with a number written in hexadecimal. -/
def Statement.startAt (address : Int) : Statement :=
  { label := none, opcode := "START", operand := some (Numeral.hex address) }

theorem State.layout_of_startAt {source : String} {address : Int} {others : List Statement}
    (program : Statement.all source = Statement.startAt address :: others) :
    fresh.layout source =
      { fresh with start := address, counter := address }.placeAll others := by
  have placed : fresh.place (Statement.startAt address) =
      { state := { fresh with start := address, counter := address }, flow := .running } := by
    have unlabelled : (Statement.startAt address).symbol? = none := rfl
    unfold place
    rw [unlabelled]
    dsimp only
    rw [perform, if_pos (show (Statement.startAt address).opcode = "START" from rfl)]
    simp only [Statement.startAt, startAt, Numeral.hex?_hex]
  unfold layout
  rw [program, placeAll, placed]

/-- Two programs that differ in the number of their first statement, `START`, by a
multiple of sixteen.  Layout and encoding of the second leave what those of the first
leave, with every address moved by the difference, and stop at the same fault if they do. -/
theorem State.encode_relocated {source relocated : String} {address turns : Int}
    {others : List Statement}
    (program : Statement.all source = Statement.startAt address :: others)
    (moved : Statement.all relocated = Statement.startAt (address + 16 * turns) :: others)
    (noStart : ∀ statement ∈ others, statement.opcode ≠ "START")
    (targeted : ∀ entry ∈ (fresh.layout source).state.entries,
      entry.isTargeted (fresh.layout source).state.symbols = true) :
    (fresh.layout relocated).flow = (fresh.layout source).flow ∧
      (fresh.layout relocated).state = (fresh.layout source).state.shift (16 * turns) ∧
      (fresh.layout relocated).state.encode =
        ((fresh.layout source).state.encode.1.shift (16 * turns),
          (fresh.layout source).state.encode.2) := by
  have layout : fresh.layout relocated = (fresh.layout source).shift (16 * turns) := by
    rw [layout_of_startAt program, layout_of_startAt moved, ← placeAll_shift _ _ noStart]
    rfl
  rw [layout]
  exact ⟨rfl, rfl, encode_shift turns targeted⟩

/-- From 256 down to -16.  Encoding stops at an operand that is no number. -/
theorem State.encode_relocated_below_zero :
    let body := "L: MOV @M+, L\nJNE M\nM: MOV #Z, L\nEND"
    let source := "START 0x100\n" ++ body
    let relocated := "START -0x10\n" ++ body
    (fresh.layout source).state.encode.1.object =
        [{ address := 0x102, code := 0x44b0 }, { address := 0x104, code := 0x23ff },
          { address := 0x108, code := 0x40b0 }] ∧
      (fresh.layout relocated).state.encode =
        ((fresh.layout source).state.encode.1.shift (-0x110), some (.badNumeral "Z")) := by
  intro body source relocated
  have program : Statement.all source =
      Statement.startAt 0x100 :: Statement.all body := by
    decide
  have moved : Statement.all relocated =
      Statement.startAt (0x100 + 16 * -17) :: Statement.all body := by
    decide
  have noStart : ∀ statement ∈ Statement.all body, statement.opcode ≠ "START" := by
    decide
  have targeted : ∀ entry ∈ (fresh.layout source).state.entries,
      entry.isTargeted (fresh.layout source).state.symbols = true := by
    decide
  obtain ⟨_, _, encoded⟩ := encode_relocated program moved noStart targeted
  have fault : (fresh.layout source).state.encode.2 = some (.badNumeral "Z") := by
    decide
  rw [fault] at encoded
  exact ⟨by decide, encoded⟩

end Assembler
end Msp430
