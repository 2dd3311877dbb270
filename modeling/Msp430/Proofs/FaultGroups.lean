import Msp430.Proofs.Bindings
import Msp430.Proofs.Deliveries
import Msp430.Proofs.Series

/-!
The program of faulty lines.  A group of its lines defines a label twice, names an operation
that there is none of, and has four operands that stand for nothing: two names, an empty
destination and a missing one.  Main statement: whatever the number of groups, layout and
encoding come to their end, and each group adds the same six diagnostics and five entries
under its own names.
-/

namespace Msp430
namespace Workload

open Assembler Text

/-- Neither a register nor a label of the series. -/
def Series.Undefines (labels : Series) (name : String) : Prop :=
  Register.ofName? name = none ∧ ∀ index, labels.name index ≠ name

/-- The names in groups of faulty lines. -/
structure FaultNames where
  moves : Moves
  operation : Series
  source : Series
  destination : Series
  unknown : ∀ index, operation.name index ∉ "START" :: "END" :: operationNames
  sourceUndefined : ∀ index, moves.label.Undefines (source.name index)
  destinationUndefined : ∀ index, moves.label.Undefines (destination.name index)

namespace FaultNames

variable (names : FaultNames)

/-! ### Lines and statements -/

def rows (index : Nat) : List (List String) :=
  [names.moves.row index,
   names.moves.row index,
   [names.operation.name index, "R1,", "R2"],
   ["MOV", names.source.name index ++ ",", names.destination.name index],
   ["ADD", "R1,"],
   ["MOV", "R1"]]

/-- The operand field of two names. -/
def pair (index : Nat) : String :=
  names.source.name index ++ ", " ++ names.destination.name index

def statements (index : Nat) : List Statement :=
  [names.moves.statement index,
   names.moves.statement index,
   { label := none, opcode := names.operation.name index, operand := some "R1, R2" },
   { label := none, opcode := "MOV", operand := some (names.pair index) },
   { label := none, opcode := "ADD", operand := some "R1," },
   { label := none, opcode := "MOV", operand := some "R1" }]

theorem isRow_rows (index : Nat) : ∀ row ∈ names.rows index, isRow row = true := by
  have move := names.moves.isRow_row index
  have operation := isWord_of_isName (names.operation.named index)
  have source := isWord_append (isWord_of_isName (names.source.named index))
    (by decide : isWord "," = true)
  have destination := isWord_of_isName (names.destination.named index)
  have pair : [names.source.name index ++ ",", names.destination.name index].all isWord = true :=
    List.all_eq_true.mpr
      (List.forall_mem_cons.mpr ⟨source, List.forall_mem_singleton.mpr destination⟩)
  simp only [rows, List.forall_mem_cons]
  exact ⟨move, move, isRow_cons operation (by decide), isRow_cons (by decide) pair, by decide,
    by decide, nofun⟩

theorem ofRow?_rows (index : Nat) :
    (names.rows index).filterMap Statement.ofRow? = names.statements index := by
  have move := names.moves.ofRow?_row index
  have unknown : Statement.ofRow? [names.operation.name index, "R1,", "R2"] =
      some { label := none, opcode := names.operation.name index, operand := some "R1, R2" } :=
    congrArg some (ofWords_of_isName (names.operation.named index) ["R1,", "R2"])
  have pair : Statement.ofRow?
      ["MOV", names.source.name index ++ ",", names.destination.name index] =
        some { label := none, opcode := "MOV", operand := some (names.pair index) } := by
    unfold FaultNames.pair
    rw [← field?_pair]
    exact congrArg some (ofWords_of_isName (by decide) _)
  unfold rows
  rw [List.filterMap_cons_some move, List.filterMap_cons_some move,
    List.filterMap_cons_some unknown, List.filterMap_cons_some pair]
  rfl

/-! ### Operands -/

theorem ofText?_undefined {labels : Series} {name : String}
    (named : Alphabet.ascii.isName name.toList = true) (undefined : labels.Undefines name) :
    Operand.ofText? name = some { mode := .symbolic, text := name } := by
  have unmarked : ∀ mark ∈ ['#', '&', '@'], name.toList.head? ≠ some mark := by
    intro mark member first
    exact Alphabet.not_mem_of_isName named ((by decide : ['#', '&', '@'] ⊆ marks) member)
      (List.mem_of_head? first)
  have closed : name.toList.contains '(' = false := by
    rw [List.contains_eq_mem, decide_eq_false_iff_not]
    exact Alphabet.not_mem_of_isName named (by decide)
  rw [Operand.ofText?_unmarked (Alphabet.isName_iff.mp named).1 unmarked, Operand.unmarkedMode,
    undefined.1, closed]
  rfl

theorem read?_pair (index : Nat) :
    Operand.read? (components (some (names.pair index))).1 =
        some { mode := .symbolic, text := names.source.name index } ∧
      Operand.read? (components (some (names.pair index))).2 =
        some { mode := .symbolic, text := names.destination.name index } := by
  unfold pair
  rw [components_pair (names.source.named index) (names.destination.named index)]
  exact ⟨ofText?_undefined (names.source.named index) (names.sourceUndefined index),
    ofText?_undefined (names.destination.named index) (names.destinationUndefined index)⟩

theorem resolve?_undefined {labels : Series} {name : String} (undefined : labels.Undefines name)
    (base spacing : Int) (count : Nat) (mode : Mode) :
    resolve? (labels.table base spacing count) (some { mode := mode, text := name }) = none := by
  unfold resolve?
  simp only [Option.bind_some, undefined.1]
  exact labels.find?_table_of_absent base spacing (fun index _bounded => undefined.2 index)

/-! ### Layout -/

def entries (base : Int) (index : Nat) : List Entry :=
  [names.moves.entry index (base + 8 * index + 2),
   { label := none
     opcode := names.operation.name index
     operand := some "R1, R2"
     location := base + 8 * index + 2 },
   { label := none
     opcode := "MOV"
     operand := some (names.pair index)
     location := base + 8 * index + 4 },
   { label := none, opcode := "ADD", operand := some "R1,", location := base + 8 * index + 6 },
   { label := none, opcode := "MOV", operand := some "R1", location := base + 8 * index + 8 }]

/-- What layout records about a group. -/
def notes (index : Nat) : List Diagnostic :=
  [.duplicateSymbol (names.moves.label.name index),
   .unknownInstruction (names.operation.name index)]

/-- What encoding records about a group. -/
def undefinedNotes (index : Nat) : List Diagnostic :=
  [.undefinedSource (some (names.source.name index)),
   .undefinedDestination (some (names.destination.name index)),
   .undefinedDestination none,
   .undefinedDestination none]

/-- The state behind a number of groups. -/
def laidOut (base : Int) (count : Nat) : State :=
  { symbols := names.moves.label.table base 8 count
    counter := base + 8 * count
    start := base
    length := 0
    entries := (List.range count).flatMap (names.entries base)
    object := []
    diagnostics := (List.range count).flatMap names.notes }

theorem ofName?_operation (index : Nat) :
    Operation.ofName? (names.operation.name index) = none := by
  rw [Operation.ofName?_eq_none_iff]
  exact fun known =>
    names.unknown index (List.mem_cons_of_mem _ (List.mem_cons_of_mem _ known))

theorem keeps_unknown (index : Nat) :
    Keeps { label := none, opcode := names.operation.name index, operand := some "R1, R2" } 0
      [.unknownInstruction (names.operation.name index)] := by
  have unknown := names.ofName?_operation index
  refine ⟨fun directive => names.unknown index ?_, Statement.room_of_unknown unknown, ?_⟩
  · exact (List.sublist_append_left ["START", "END"] operationNames).subset directive
  · unfold Statement.reports
    rw [unknown]

theorem keeps_pair (index : Nat) :
    Keeps { label := none, opcode := "MOV", operand := some (names.pair index) } 2 [] := by
  obtain ⟨source, destination⟩ := names.read?_pair index
  apply keeps_of_known (.dual .mov) rfl
  simp only [Operation.reserved, source, destination]
  rfl

/-- One group: the second definition of its label is skipped, since the first has bound it, and
the other statements are kept. -/
theorem leads_statements (base : Int) (index : Nat) :
    Leads (names.laidOut base index) (names.statements index)
      (names.laidOut base (index + 1)) := by
  have named := names.moves.label.named index
  have unbound := names.moves.label.find?_table_next base 8 index
  have table := names.moves.label.insert_table base 8 index
  -- behind the first statement the table is the next one, with the label in it
  have bound := names.moves.label.find?_table base 8 (Nat.lt_succ_self index)
  rw [← table] at bound
  have empty : Keeps { label := none, opcode := "ADD", operand := some "R1," } 2 [] :=
    keeps_of_known (.dual .add) rfl rfl
  have missing : Keeps { label := none, opcode := "MOV", operand := some "R1" } 2 [] :=
    keeps_of_known (.dual .mov) rfl rfl
  refine .cons ((names.moves.keeps_statement index).place_labelled named rfl unbound)
    (.cons (State.place_of_bound (names.moves.symbol?_statement index) bound)
    (.cons ((names.keeps_unknown index).place rfl) (.cons ((names.keeps_pair index).place rfl)
    (.cons (empty.place rfl) (.cons (missing.place rfl) (.done ?_))))))
  have counter : base + 8 * ((index + 1 : Nat) : Int) = base + (8 * index + 8) := by
    omega
  simp only [laidOut, advanced, State.bind, State.record, table, counter, List.range_succ,
    List.flatMap_append, List.flatMap_singleton, entries, notes, List.append_assoc,
    List.append_nil, List.cons_append, List.nil_append, Int.add_zero, Int.add_assoc,
    Int.reduceAdd]
  rfl

theorem leads_groups (base : Int) (count : Nat) :
    Leads { State.fresh with start := base, counter := base }
      (((List.range count).flatMap names.rows).filterMap Statement.ofRow?)
      (names.laidOut base count) := by
  have first : names.laidOut base 0 = { State.fresh with start := base, counter := base } := by
    unfold laidOut
    rw [Int.natCast_zero, Int.mul_zero, Int.add_zero]
    rfl
  rw [List.filterMap_flatMap, ← first]
  simp only [ofRow?_rows]
  exact leads_blocks (names.leads_statements base) count

/-! ### Encoding -/

theorem sound_entries (base : Int) (index : Nat) :
    ∀ entry ∈ names.entries base index, entry.fault? = none := by
  obtain ⟨source, destination⟩ := names.read?_pair index
  simp only [entries, List.forall_mem_cons]
  refine ⟨?_, ?_, ?_, rfl, rfl, nofun⟩
  · rw [← Entry.emit_fault .empty, Moves.emit_entry]
    rfl
  · unfold Entry.fault?
    simp only [names.ofName?_operation index]
  · unfold Entry.fault? Entry.source? Entry.destination?
    rw [source, destination]
    rfl

theorem undefined_entries (base : Int) (count index : Nat) :
    (names.entries base index).flatMap (Entry.undefined (names.moves.label.table base 8 count)) =
      names.undefinedNotes index := by
  obtain ⟨source, destination⟩ := names.read?_pair index
  have unknown (location : Int) : Entry.undefined (names.moves.label.table base 8 count)
      { label := none
        opcode := names.operation.name index
        operand := some "R1, R2"
        location := location } = [] := by
    unfold Entry.undefined
    simp only [names.ofName?_operation index]
  have pair (location : Int) : Entry.undefined (names.moves.label.table base 8 count)
      { label := none
        opcode := "MOV"
        operand := some (names.pair index)
        location := location } =
        [.undefinedSource (some (names.source.name index)),
         .undefinedDestination (some (names.destination.name index))] := by
    change undefinedOperands _ (Operand.read? _) (Operand.read? _) = _
    unfold undefinedOperands
    rw [source, destination, resolve?_undefined (names.sourceUndefined index),
      resolve?_undefined (names.destinationUndefined index)]
    rfl
  have move (location : Int) : Entry.undefined (names.moves.label.table base 8 count)
      (names.moves.entry index location) = [] := by
    rw [← Entry.emit_diagnostics, Moves.emit_entry]
    rfl
  unfold entries
  rw [List.flatMap_cons, move, List.flatMap_cons, unknown, List.flatMap_cons, pair]
  rfl

/-- In any text with these rows the groups are laid out and encoded to the end.  What each of
them leaves depends on its own names and its number alone. -/
theorem assembled_groups {source start : String} {address : Int} {count : Nat}
    (read : Statement.rows source = framed start ((List.range count).flatMap names.rows))
    (reads : Numeral.hex? start = some address) :
    (State.fresh.layout source).flow = .ended ∧
      (State.fresh.layout source).state.encode.2 = none ∧
      (assembled source).entries = (List.range count).flatMap (names.entries address) ∧
      (assembled source).diagnostics =
        (List.range count).flatMap names.notes ++
          (List.range count).flatMap names.undefinedNotes := by
  have sound : ∀ entry ∈ (List.range count).flatMap (names.entries address),
      entry.fault? = none :=
    List.forall_mem_flatMap.mpr (fun index _bounded => names.sound_entries address index)
  unfold assembled
  rw [layout_of_framed read reads (names.leads_groups address count)]
  refine ⟨rfl, ?_, rfl, ?_⟩
  · change (emitAll _ ((List.range count).flatMap (names.entries address))).fault = none
    rw [emitAll_fault, List.findSome?_eq_none_iff]
    exact sound
  · change _ ++ (emitAll (names.moves.label.table address 8 count)
      ((List.range count).flatMap (names.entries address))).diagnostics = _
    rw [emitAll_diagnostics sound, List.flatMap_assoc]
    simp only [undefined_entries]
    rfl

end FaultNames

/-! ### The names with numbers -/

theorem head?_numbered {stem : String} (named : Alphabet.ascii.isName stem.toList = true)
    (index : Nat) :
    ((Series.numbered stem named).name index).toList.head? = stem.toList.head? := by
  change (stem ++ number index).toList.head? = _
  rw [String.toList_append, List.head?_append_of_ne_nil _ (Alphabet.isName_iff.mp named).1]

/-- Names are told apart by their first letters. -/
theorem undefines_numbered {label stem : String}
    (labelNamed : Alphabet.ascii.isName label.toList = true)
    (named : Alphabet.ascii.isName stem.toList = true)
    (apart : label.toList.head? ≠ stem.toList.head?)
    (noRegister : ∀ known ∈ Register.names, known.toList.head? ≠ stem.toList.head?)
    (index : Nat) :
    (Series.numbered label labelNamed).Undefines ((Series.numbered stem named).name index) := by
  have first := head?_numbered named index
  constructor
  · cases found : Register.ofName? ((Series.numbered stem named).name index) with
    | none => rfl
    | some register => exact absurd first (noRegister _ (Register.mem_names found))
  · intro other same
    rw [← same, head?_numbered labelNamed] at first
    exact apart first

def numberedFaults : FaultNames where
  moves :=
    { label := .numbered "DUP" (by decide)
      source := fun _index => ⟨1, by decide⟩
      destination := fun _index => ⟨2, by decide⟩ }
  operation := .numbered "FOO" (by decide)
  source := .numbered "UNK" (by decide)
  destination := .numbered "ALSO" (by decide)
  unknown := by
    intro index known
    have others : ∀ name ∈ "START" :: "END" :: operationNames,
        name.toList.head? ≠ "FOO".toList.head? := by
      decide
    exact others _ known (head?_numbered _ index)
  sourceUndefined := undefines_numbered (by decide) _ (by decide) (by decide)
  destinationUndefined := undefines_numbered (by decide) _ (by decide) (by decide)

theorem spelled_group (index : Nat) :
    (numberedFaults.rows index).map (String.intercalate " ") = faultyGroup index := by
  have move : String.intercalate " " (numberedFaults.moves.row index) =
      "DUP" ++ number index ++ ": MOV R1, R2" := by
    have one : Register.numbered 1 = "R1" := by
      decide
    have two : Register.numbered 2 = "R2" := by
      decide
    rw [Moves.spelled_row]
    change "DUP" ++ number index ++ ": MOV " ++ Register.numbered 1 ++ ", " ++
      Register.numbered 2 = _
    rw [one, two]
    apply String.toList_inj.mp
    simp
  have unknown : String.intercalate " " ["FOO" ++ number index, "R1,", "R2"] =
      "FOO" ++ number index ++ " R1, R2" := by
    rw [String.intercalate_cons_cons, String.append_assoc]
    rfl
  have pair : String.intercalate " "
      ["MOV", "UNK" ++ number index ++ ",", "ALSO" ++ number index] =
        "MOV UNK" ++ number index ++ ", ALSO" ++ number index := by
    apply String.toList_inj.mp
    simp
  change [String.intercalate " " (numberedFaults.moves.row index),
    String.intercalate " " (numberedFaults.moves.row index),
    String.intercalate " " ["FOO" ++ number index, "R1,", "R2"],
    String.intercalate " " ["MOV", "UNK" ++ number index ++ ",", "ALSO" ++ number index],
    "ADD R1,", "MOV R1"] = _
  rw [move, unknown, pair]
  rfl

theorem rows_faultyProgram (groups : Nat) :
    Statement.rows (faultyProgram groups) =
      framed "2000" ((List.range groups).flatMap numberedFaults.rows) := by
  have spelled : faultyProgram groups =
      Statement.spelled (framed "2000" ((List.range groups).flatMap numberedFaults.rows)) := by
    unfold faultyProgram Statement.spelled framed
    rw [List.map_append, List.map_cons, List.map_flatMap]
    simp only [spelled_group]
    rfl
  rw [spelled]
  exact rows_spelled_framed (by decide)
    (List.forall_mem_flatMap.mpr (fun index _bounded => numberedFaults.isRow_rows index))

/-- Each group of the faulty program has its label defined twice, its operation unknown and four
operands undefined, and five of its lines are kept; nothing else is recorded, kept or met. -/
theorem faults_closed_form (groups : Nat) :
    (State.fresh.layout (faultyProgram groups)).flow = .ended ∧
      (State.fresh.layout (faultyProgram groups)).state.encode.2 = none ∧
      (assembled (faultyProgram groups)).entries =
        (List.range groups).flatMap (numberedFaults.entries 0x2000) ∧
      (assembled (faultyProgram groups)).diagnostics =
        (List.range groups).flatMap numberedFaults.notes ++
          (List.range groups).flatMap numberedFaults.undefinedNotes ∧
      faults groups = [6 * (groups : Int), 5 * (groups : Int)] := by
  have start : Numeral.hex? "2000" = some 0x2000 := by
    decide
  obtain ⟨ended, encoded, entries, diagnostics⟩ :=
    numberedFaults.assembled_groups (rows_faultyProgram groups) start
  refine ⟨ended, encoded, entries, diagnostics, ?_⟩
  have kept : (assembled (faultyProgram groups)).entries.length = 5 * groups := by
    have five : ∀ index, (numberedFaults.entries 0x2000 index).length = 5 := fun _index => rfl
    exact (congrArg List.length entries).trans (length_blocks five groups)
  have recorded : (assembled (faultyProgram groups)).diagnostics.length = 6 * groups := by
    have two : ∀ index, (numberedFaults.notes index).length = 2 := fun _index => rfl
    have four : ∀ index, (numberedFaults.undefinedNotes index).length = 4 := fun _index => rfl
    refine (congrArg List.length diagnostics).trans ?_
    rw [List.length_append, length_blocks two, length_blocks four]
    omega
  simp only [faults, kept, recorded, Int.natCast_mul]
  rfl

end Workload
end Msp430
