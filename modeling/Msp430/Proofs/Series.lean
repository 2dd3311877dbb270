import Msp430.Proofs.Agreement
import Msp430.Proofs.LoneLabels
import Msp430.Proofs.NormalForms
import Msp430.Proofs.ObjectFiles
import Msp430.Workload.Runs

/-!
Programs that are generated from numbered names.  The names of a series are words of letters,
and no two are alike, so labels named by them are bound one after the other and the symbol
table is known in full.  A text is known to layout by its rows of words, and a block of rows
that is repeated with growing numbers is laid out by induction on their number.
-/

namespace Msp430
namespace Workload

open Assembler Text

/-! ### Names -/

/-- A name for each number. -/
structure Series where
  name : Nat → String
  named : ∀ index, Alphabet.ascii.isName (name index).toList = true
  distinct : ∀ {first second}, name first = name second → first = second

theorem number_toList (value : Nat) : (number value).toList = Nat.toDigits 10 value := by
  unfold number
  rw [Numeral.decimal_natCast]
  exact String.toList_ofList

theorem number_inj {first second : Nat} (same : number first = number second) :
    first = second := by
  unfold number at same
  rw [Numeral.decimal_natCast, Numeral.decimal_natCast] at same
  rw [← Numeral.zeroFill_zero (Numeral.digits 10 first),
    ← Numeral.zeroFill_zero (Numeral.digits 10 second)] at same
  exact Numeral.zeroFill_digits_inj (by decide) (by decide) same

/-- A stem with the number behind it. -/
def Series.numbered (stem : String) (named : Alphabet.ascii.isName stem.toList = true) :
    Series where
  name := fun index => stem ++ number index
  named := by
    intro index
    obtain ⟨nonempty, letters⟩ := Alphabet.isName_iff.mp named
    rw [String.toList_append, number_toList, Alphabet.isName_iff]
    refine ⟨List.append_ne_nil_of_left_ne_nil nonempty _,
      List.forall_mem_append.mpr ⟨letters, fun c member => ?_⟩⟩
    have digits : ∀ digit : Fin 16, isWordLetter (Nat.digitChar digit) = true := by
      decide
    obtain ⟨digit, same⟩ :=
      Numeral.exists_digit_of_mem_toDigits (by decide) (by decide) member
    rw [same]
    exact digits digit
  distinct := by
    intro first second same
    rw [← String.toList_inj, String.toList_append, String.toList_append] at same
    exact number_inj (String.toList_inj.mp (List.append_cancel_left same))

theorem spellable_of_isName {name : String}
    (named : Alphabet.ascii.isName name.toList = true) : Spellable name where
  nonempty := (Alphabet.isName_iff.mp named).1
  solid := Alphabet.solid_of_isName named
  plain := Alphabet.not_mem_of_isName named (by decide)
  bounded := by
    apply Numeral.trimBy_of_forall
    intro c member
    have absent := Alphabet.not_mem_of_isName named (by decide : ':' ∈ marks)
    exact beq_false_of_ne (fun same => absent (same ▸ member))

/-! ### Symbols -/

namespace Series

variable (series : Series) (base spacing : Int)

/-- Every name up to a number bound, the values at equal distances. -/
def table (count : Nat) : SymbolTable :=
  { bindings :=
      (List.range count).map (fun index => (series.name index, base + spacing * index)) }

theorem find?_table_of_absent {count : Nat} {other : String}
    (absent : ∀ index < count, series.name index ≠ other) :
    (series.table base spacing count).find? other = none := by
  unfold table SymbolTable.find?
  rw [List.lookup_eq_none_iff]
  intro binding member
  obtain ⟨index, bounded, same⟩ := List.mem_map.mp member
  rw [← same, bne_iff_ne]
  exact (absent index (List.mem_range.mp bounded)).symm

theorem find?_table_next (count : Nat) :
    (series.table base spacing count).find? (series.name count) = none := by
  apply find?_table_of_absent
  intro index bounded same
  have equal := series.distinct same
  omega

theorem insert_table (count : Nat) :
    (series.table base spacing count).insert (series.name count) (base + spacing * count) =
      series.table base spacing (count + 1) := by
  rw [SymbolTable.insert_of_absent
    ((SymbolTable.contains_eq_false_iff _ _).mpr (series.find?_table_next base spacing count))]
  unfold table
  rw [List.range_succ, List.map_append]
  rfl

theorem find?_table {index count : Nat} (bounded : index < count) :
    (series.table base spacing count).find? (series.name index) =
      some (base + spacing * index) := by
  induction count with
  | zero => exact absurd bounded (Nat.not_lt_zero index)
  | succ count inductionHypothesis =>
      rw [← insert_table, SymbolTable.find?_insert]
      by_cases last : index = count
      · rw [last, if_pos rfl]
      · rw [if_neg (fun same => last (series.distinct same))]
        exact inductionHypothesis (by omega)

end Series

/-! ### Rows of words -/

/-- A word that can stand in a line. -/
def isWord (word : String) : Bool :=
  !word.toList.isEmpty && word.toList.all (fun c => !isBlank c && c != ';')

theorem isWord_iff (word : String) :
    isWord word = true ↔
      word.toList ≠ [] ∧ ∀ c ∈ word.toList, isBlank c = false ∧ c ≠ ';' := by
  unfold isWord
  simp

theorem isWord_of_isName {name : String}
    (named : Alphabet.ascii.isName name.toList = true) : isWord name = true := by
  have plain := Alphabet.not_mem_of_isName named (by decide : ';' ∈ marks)
  exact (isWord_iff name).mpr ⟨(Alphabet.isName_iff.mp named).1, fun c member =>
    ⟨Alphabet.solid_of_isName named c member, fun same => plain (same ▸ member)⟩⟩

theorem isWord_append {front back : String} (first : isWord front = true)
    (second : isWord back = true) : isWord (front ++ back) = true := by
  rw [isWord_iff] at first second ⊢
  rw [String.toList_append]
  exact ⟨List.append_ne_nil_of_left_ne_nil first.1 _,
    List.forall_mem_append.mpr ⟨first.2, second.2⟩⟩

def isRow (row : List String) : Bool :=
  !row.isEmpty && row.all isWord

theorem isRow_cons {word : String} {others : List String} (first : isWord word = true)
    (rest : others.all isWord = true) : isRow (word :: others) = true := by
  unfold isRow
  rw [List.all_cons, first, rest]
  rfl

theorem regular_of_isRow {row : List String} (given : isRow row = true) :
    Statement.Regular row := by
  have parts : row ≠ [] ∧ ∀ word ∈ row, isWord word = true := by
    unfold isRow at given
    simpa using given
  refine ⟨parts.1, fun word member => ?_, fun word member mark => ?_⟩
  · obtain ⟨present, characters⟩ := (isWord_iff word).mp (parts.2 word member)
    exact ⟨present, fun c own => (characters c own).1⟩
  · exact (((isWord_iff word).mp (parts.2 word member)).2 ';' mark).2 rfl

theorem ofWords_of_isName {first : String} (named : Alphabet.ascii.isName first.toList = true)
    (others : List String) :
    Statement.ofWords first others =
      { label := none, opcode := first, operand := Statement.field? others } := by
  have absent := Alphabet.not_mem_of_isName named (by decide : ':' ∈ marks)
  unfold Statement.ofWords
  exact if_neg (fun last => absent (List.mem_of_getLast? last))

theorem ofWords_labelled {name : String} (named : Alphabet.ascii.isName name.toList = true)
    (opcode : String) (operands : List String) :
    Statement.ofWords (name ++ ":") (opcode :: operands) =
      { label := some name, opcode := opcode, operand := Statement.field? operands } := by
  have read := Statement.ofWords_label (spellable_of_isName named) (opcode :: operands)
  rwa [String.ofList_append, String.ofList_toList] at read

theorem field?_pair (first second : String) :
    Statement.field? [first ++ ",", second] = some (first ++ ", " ++ second) := by
  change some (String.intercalate " " _) = _
  rw [String.intercalate_cons_append, String.intercalate_cons_cons,
    String.intercalate_singleton, ← String.append_assoc]
  rfl

theorem components_pair {first second : String}
    (firstNamed : Alphabet.ascii.isName first.toList = true)
    (secondNamed : Alphabet.ascii.isName second.toList = true) :
    components (some (first ++ ", " ++ second)) = (some first, some second) := by
  have spelled : (first ++ ", " ++ second).toList =
      first.toList ++ ',' :: ' ' :: second.toList := by
    simp
  have uncut := Alphabet.not_mem_of_isName firstNamed (by decide : ',' ∈ marks)
  have before : trim first.toList = first.toList :=
    Numeral.trimBy_of_forall (Alphabet.solid_of_isName firstNamed)
  have behind : trim (' ' :: second.toList) = second.toList :=
    (trimBy_append_front isBlank blank_space _).trans
      (Numeral.trimBy_of_forall (Alphabet.solid_of_isName secondNamed))
  simp only [components, spelled, cut?_append uncut, before, behind, String.ofList_toList]

/-! ### Repeated blocks -/

theorem length_blocks {α : Type} {blocks : Nat → List α} {size : Nat}
    (sized : ∀ index, (blocks index).length = size) (count : Nat) :
    ((List.range count).flatMap blocks).length = size * count := by
  induction count with
  | zero => rfl
  | succ count inductionHypothesis =>
      rw [List.range_succ, List.flatMap_append, List.length_append, inductionHypothesis,
        List.flatMap_singleton, sized, Nat.mul_succ]

/-- Layout goes through all statements, from one state to the other. -/
def Leads (state : State) (statements : List Statement) (next : State) : Prop :=
  state.placeAll statements = { state := next, flow := .running }

theorem Leads.done {state next : State} (same : state = next) : Leads state [] next := by
  rw [same]
  rfl

theorem Leads.cons {state middle next : State} {statement : Statement}
    {others : List Statement} (first : state.place statement = ⟨middle, .running⟩)
    (rest : Leads middle others next) : Leads state (statement :: others) next := by
  unfold Leads
  rw [State.placeAll, first]
  exact rest

theorem Leads.placeAll_append {state next : State} {front : List Statement}
    (leads : Leads state front next) (back : List Statement) :
    state.placeAll (front ++ back) = next.placeAll back := by
  rw [State.placeAll_append, leads]

theorem Leads.append {state middle next : State} {front back : List Statement}
    (first : Leads state front middle) (second : Leads middle back next) :
    Leads state (front ++ back) next :=
  (first.placeAll_append back).trans second

/-- If each block leads from one state to the next, so do all of them in order. -/
theorem leads_blocks {blocks : Nat → List Statement} {states : Nat → State}
    (step : ∀ index, Leads (states index) (blocks index) (states (index + 1))) (count : Nat) :
    Leads (states 0) ((List.range count).flatMap blocks) (states count) := by
  induction count with
  | zero => exact .done rfl
  | succ count inductionHypothesis =>
      unfold Leads
      rw [List.range_succ, List.flatMap_append, inductionHypothesis.placeAll_append,
        List.flatMap_singleton]
      exact step count

theorem leads_each {statement : Nat → Statement} {states : Nat → State}
    (step : ∀ index,
      (states index).place (statement index) = ⟨states (index + 1), .running⟩) (count : Nat) :
    Leads (states 0) ((List.range count).map statement) (states count) := by
  rw [List.map_eq_flatMap]
  exact leads_blocks (fun index => .cons (step index) (.done rfl)) count

/-- A statement that is kept: the bytes it takes and what is recorded about it. -/
structure Keeps (statement : Statement) (bytes : Int) (notes : List Diagnostic) : Prop where
  undirected : statement.opcode ∉ ["START", "END"]
  room : statement.room = bytes
  reports : statement.reports = notes

theorem keeps_of_known {statement : Statement} (operation : Operation) {bytes : Int}
    (known : Operation.ofName? statement.opcode = some operation)
    (reserved : operation.reserved statement.operand = bytes) : Keeps statement bytes [] where
  undirected := by
    intro directive
    simp only [List.mem_cons, List.not_mem_nil, or_false] at directive
    rcases directive with same | same
    · rw [same] at known
      cases known
    · rw [same] at known
      cases known
  room := (Statement.room_of_known known).trans reserved
  reports := by
    unfold Statement.reports
    rw [known]

/-- The state behind such a statement, its label apart. -/
def advanced (state : State) (statement : Statement) (bytes : Int) (notes : List Diagnostic) :
    State :=
  { state with
    counter := state.counter + bytes
    entries := state.entries ++
      [{ label := statement.label
         opcode := statement.opcode
         operand := statement.operand
         location := state.counter + bytes }]
    diagnostics := state.diagnostics ++ notes }

section Keeps

variable {state : State} {statement : Statement} {bytes : Int} {notes : List Diagnostic}
  (keeps : Keeps statement bytes notes)

include keeps

theorem Keeps.perform :
    state.perform statement = ⟨advanced state statement bytes notes, .running⟩ := by
  have undirected := keeps.undirected
  simp only [List.mem_cons, List.not_mem_nil, or_false, not_or] at undirected
  rw [State.perform_other undirected.1 undirected.2, keeps.room, keeps.reports]
  rfl

theorem Keeps.place (unlabelled : statement.label = none) :
    state.place statement = ⟨advanced state statement bytes notes, .running⟩ := by
  have nameless : statement.symbol? = none := by
    unfold Statement.symbol?
    rw [unlabelled]
    rfl
  rw [State.place, nameless]
  exact keeps.perform

theorem Keeps.place_labelled {name : String}
    (named : Alphabet.ascii.isName name.toList = true) (label : statement.label = some name)
    (unbound : state.symbols.find? name = none) :
    state.place statement =
      ⟨advanced (state.bind name state.counter) statement bytes notes, .running⟩ := by
  rw [State.place_of_spellable (spellable_of_isName named) label unbound]
  exact keeps.perform

end Keeps

/-! ### Labelled moves -/

theorem isName_numbered :
    ∀ register : Register, Alphabet.ascii.isName register.numbered.toList = true := by
  decide

theorem components_registers (source destination : Register) :
    components (some (source.numbered ++ ", " ++ destination.numbered)) =
      (some source.numbered, some destination.numbered) :=
  components_pair (isName_numbered source) (isName_numbered destination)

theorem read?_numbered (register : Register) :
    Operand.read? (some register.numbered) =
      some { mode := .register, text := register.numbered } :=
  Operand.ofText?_register (Register.ofName?_numbered register)

theorem resolve?_numbered (symbols : SymbolTable) (register : Register) :
    resolve? symbols (some { mode := .register, text := register.numbered }) =
      some (register.val : Int) :=
  resolve?_of_numbered symbols rfl

/-- A label and a move from register to register for each number. -/
structure Moves where
  label : Series
  source : Nat → Register
  destination : Nat → Register

namespace Moves

variable (moves : Moves) (index : Nat)

def operand : String :=
  (moves.source index).numbered ++ ", " ++ (moves.destination index).numbered

def row : List String :=
  [moves.label.name index ++ ":", "MOV", (moves.source index).numbered ++ ",",
    (moves.destination index).numbered]

def statement : Statement :=
  { label := some (moves.label.name index), opcode := "MOV", operand := some (moves.operand index) }

def entry (location : Int) : Entry :=
  { label := some (moves.label.name index)
    opcode := "MOV"
    operand := some (moves.operand index)
    location := location }

def code : Int :=
  0x4000 + (moves.source index).val * 256 + (moves.destination index).val

theorem isRow_row : isRow (moves.row index) = true := by
  have label := isWord_append (isWord_of_isName (moves.label.named index))
    (by decide : isWord ":" = true)
  have source := isWord_append (isWord_of_isName (isName_numbered (moves.source index)))
    (by decide : isWord "," = true)
  have destination := isWord_of_isName (isName_numbered (moves.destination index))
  apply isRow_cons label
  rw [List.all_eq_true, List.forall_mem_cons, List.forall_mem_cons, List.forall_mem_singleton]
  exact ⟨by decide, source, destination⟩

theorem ofRow?_row : Statement.ofRow? (moves.row index) = some (moves.statement index) := by
  unfold statement operand
  rw [← field?_pair]
  exact congrArg some (ofWords_labelled (moves.label.named index) "MOV" _)

theorem spelled_row :
    String.intercalate " " (moves.row index) =
      moves.label.name index ++ ": MOV " ++ (moves.source index).numbered ++ ", " ++
        (moves.destination index).numbered := by
  apply String.toList_inj.mp
  simp [row]

theorem symbol?_statement : (moves.statement index).symbol? = some (moves.label.name index) :=
  Statement.symbol?_of_spellable (spellable_of_isName (moves.label.named index)) rfl

theorem keeps_statement : Keeps (moves.statement index) 2 [] := by
  apply keeps_of_known (.dual .mov) rfl
  simp only [Operation.reserved, statement, operand, components_registers, read?_numbered]
  rfl

/-- A move is one word, whatever the symbols are. -/
theorem emit_entry (symbols : SymbolTable) (location : Int) :
    (moves.entry index location).emit symbols = Emission.word location (moves.code index) := by
  have sourceBound := (moves.source index).isLt
  have destinationBound := (moves.destination index).isLt
  have word : dualWord .mov
      { mode := .register, text := (moves.source index).numbered }
      (some { mode := .register, text := (moves.destination index).numbered })
      (moves.source index).val (moves.destination index).val = moves.code index := by
    unfold dualWord code
    change (4 : Int) * 4096 + _ + 0 * 128 + 0 * 16 + _ = _
    omega
  change emitDual symbols .mov (some (moves.operand index)) location = _
  unfold emitDual operand
  simp only [components_registers, read?_numbered, resolve?_numbered, undefinedOperands,
    Option.getD_some, word]
  rfl

end Moves

/-! ### Whole programs -/

/-- Rows between `START` and `END`. -/
def framed (start : String) (rows : List (List String)) : List (List String) :=
  ["START", start] :: rows ++ [["END"]]

theorem rows_spelled_framed {start : String} (word : isWord start = true)
    {rows : List (List String)} (given : ∀ row ∈ rows, isRow row = true) :
    Statement.rows (Statement.spelled (framed start rows)) = framed start rows := by
  have started : isRow ["START", start] = true :=
    isRow_cons (by decide) (List.all_eq_true.mpr (List.forall_mem_singleton.mpr word))
  have all : ∀ row ∈ framed start rows, isRow row = true :=
    List.forall_mem_append.mpr ⟨List.forall_mem_cons.mpr ⟨started, given⟩,
      List.forall_mem_singleton.mpr (by decide)⟩
  exact Statement.rows_spelled (fun row member => regular_of_isRow (all row member))

theorem ofRow?_framed (start : String) (rows : List (List String)) :
    (framed start rows).filterMap Statement.ofRow? =
      { label := none, opcode := "START", operand := some start } ::
        rows.filterMap Statement.ofRow? ++
          [{ label := none, opcode := "END", operand := none }] := by
  have startRow : Statement.ofRow? ["START", start] =
      some { label := none, opcode := "START", operand := some start } := by
    have field : Statement.field? [start] = some start :=
      congrArg some String.intercalate_singleton
    rw [← field]
    exact congrArg some (ofWords_of_isName (by decide) [start])
  unfold framed
  rw [List.filterMap_append, List.filterMap_cons_some startRow]
  rfl

/-- Layout of any text with such rows, however they are spelled. -/
theorem layout_of_framed {source start : String} {rows : List (List String)} {address : Int}
    {next : State} (read : Statement.rows source = framed start rows)
    (reads : Numeral.hex? start = some address)
    (leads : Leads { State.fresh with start := address, counter := address }
      (rows.filterMap Statement.ofRow?) next) :
    State.fresh.layout source =
      { state := { next with length := next.counter - next.start }, flow := .ended } := by
  have started : State.fresh.place { label := none, opcode := "START", operand := some start } =
      ⟨{ State.fresh with start := address, counter := address }, .running⟩ := by
    change State.fresh.startAt (some start) = _
    simp only [State.startAt, reads]
  unfold State.layout
  rw [Statement.all_eq_rows, read, ofRow?_framed, List.cons_append, State.placeAll, started]
  exact (leads.placeAll_append _).trans (State.placeAll_singleton _ _)

end Workload
end Msp430
