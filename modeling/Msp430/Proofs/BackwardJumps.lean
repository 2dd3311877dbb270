import Mathlib.Data.List.Forall2
import Msp430.Proofs.Series

/-!
The program of jumps.  Labelled moves between registers come first, then a jump back to each
label in the same order, so every jump has the same distance.  Main statement: whatever the
number of labels, their values, the number of words and every jump word are known, and the
distance is cut to ten bits without a diagnostic.
-/

namespace Msp430
namespace Assembler

theorem Jump.isName_name (operation : Jump) :
    Alphabet.ascii.isName operation.name.toList = true := by
  cases operation <;> decide

/-- Encoding gives one word for each entry if every entry emits its word. -/
theorem emitAll_of_forall₂ {symbols : SymbolTable} {entries : List Entry}
    {words : List ObjectWord}
    (each : List.Forall₂
      (fun entry word => entry.emit symbols = Emission.word word.address word.code)
      entries words) :
    emitAll symbols entries = { words := words, diagnostics := [], fault := none } := by
  induction each with
  | nil => rfl
  | cons first _others inductionHypothesis =>
      rw [emitAll, first, inductionHypothesis]
      rfl

end Assembler

namespace Workload

open Assembler Text

/-- Labelled moves, and the jump that goes back to each of them. -/
structure JumpNames where
  moves : Moves
  jump : Nat → Jump

namespace JumpNames

variable (names : JumpNames)

/-! ### Lines and statements -/

def jumpRow (index : Nat) : List String :=
  [(names.jump index).name, names.moves.label.name index]

def jumpStatement (index : Nat) : Statement :=
  { label := none
    opcode := (names.jump index).name
    operand := some (names.moves.label.name index) }

def rows (count : Nat) : List (List String) :=
  (List.range count).map names.moves.row ++ (List.range count).map names.jumpRow

theorem isRow_jumpRow (index : Nat) : isRow (names.jumpRow index) = true := by
  have label := isWord_of_isName (names.moves.label.named index)
  exact isRow_cons (isWord_of_isName (names.jump index).isName_name)
    (List.all_eq_true.mpr (List.forall_mem_singleton.mpr label))

theorem isRow_rows (count : Nat) : ∀ row ∈ names.rows count, isRow row = true := by
  refine List.forall_mem_append.mpr ⟨List.forall_mem_map.mpr ?_, List.forall_mem_map.mpr ?_⟩
  · exact fun index _bounded => names.moves.isRow_row index
  · exact fun index _bounded => names.isRow_jumpRow index

theorem ofRow?_jumpRow (index : Nat) :
    Statement.ofRow? (names.jumpRow index) = some (names.jumpStatement index) := by
  have field : Statement.field? [names.moves.label.name index] =
      some (names.moves.label.name index) :=
    congrArg some String.intercalate_singleton
  unfold jumpStatement
  rw [← field]
  exact congrArg some (ofWords_of_isName (names.jump index).isName_name _)

theorem ofRow?_rows (count : Nat) :
    (names.rows count).filterMap Statement.ofRow? =
      (List.range count).map names.moves.statement ++
        (List.range count).map names.jumpStatement := by
  unfold rows
  rw [List.filterMap_append, List.filterMap_map, List.filterMap_map]
  congr 1
  · exact List.filterMap_eq_map_iff_forall_eq_some.mpr
      (fun index _bounded => names.moves.ofRow?_row index)
  · exact List.filterMap_eq_map_iff_forall_eq_some.mpr
      (fun index _bounded => names.ofRow?_jumpRow index)

/-! ### Layout -/

def moveEntry (base : Int) (index : Nat) : Entry :=
  names.moves.entry index (base + 2 * index + 2)

def jumpEntry (base : Int) (index : Nat) : Entry :=
  { label := none
    opcode := (names.jump index).name
    operand := some (names.moves.label.name index)
    location := base + 2 * index + 2 }

/-- The state behind a number of labelled statements and a number of jumps. -/
def laidOut (base : Int) (moves jumps : Nat) : State :=
  { symbols := names.moves.label.table base 2 moves
    counter := base + 2 * moves + 2 * jumps
    start := base
    length := 0
    entries :=
      (List.range moves).map (names.moveEntry base) ++
        (List.range jumps).map (names.jumpEntry (base + 2 * moves))
    object := []
    diagnostics := [] }

theorem place_move (base : Int) (index : Nat) :
    (names.laidOut base index 0).place (names.moves.statement index) =
      ⟨names.laidOut base (index + 1) 0, .running⟩ := by
  have unbound := names.moves.label.find?_table_next base 2 index
  have counter : base + 2 * ((index + 1 : Nat) : Int) = base + 2 * index + 2 := by
    omega
  rw [(names.moves.keeps_statement index).place_labelled (names.moves.label.named index) rfl
    unbound]
  simp only [laidOut, advanced, State.bind, ← names.moves.label.insert_table, counter,
    List.range_succ, List.map_append, List.range_zero, List.map_nil, List.append_nil,
    Int.natCast_zero, Int.mul_zero, Int.add_zero]
  rfl

theorem place_jump (base : Int) (moves index : Nat) :
    (names.laidOut base moves index).place (names.jumpStatement index) =
      ⟨names.laidOut base moves (index + 1), .running⟩ := by
  have keeps : Keeps (names.jumpStatement index) 2 [] :=
    keeps_of_known (.jump (names.jump index)) (names.jump index).ofName?_name rfl
  have counter : 2 * ((index + 1 : Nat) : Int) = 2 * index + 2 := by
    omega
  rw [keeps.place rfl]
  simp only [laidOut, advanced, counter, List.range_succ, List.map_append, List.append_assoc,
    List.append_nil, ← Int.add_assoc]
  rfl

theorem leads_rows (base : Int) (count : Nat) :
    Leads { State.fresh with start := base, counter := base }
      ((names.rows count).filterMap Statement.ofRow?) (names.laidOut base count count) := by
  have first : names.laidOut base 0 0 = { State.fresh with start := base, counter := base } := by
    unfold laidOut
    rw [Int.natCast_zero, Int.mul_zero, Int.add_zero, Int.add_zero]
    rfl
  rw [ofRow?_rows, ← first]
  exact (leads_each (names.place_move base) count).append
    (leads_each (names.place_jump base count) count)

/-! ### Encoding -/

/-- The words of the moves, and behind them the words of the jumps, all with the same ten
bits. -/
def object (base : Int) (count : Nat) : List ObjectWord :=
  (List.range count).map (fun index =>
      { address := base + 2 * index + 2, code := names.moves.code index }) ++
    (List.range count).map (fun index =>
      { address := base + 2 * count + 2 * index + 2
        code := (names.jump index).word + (-(count : Int) - 2) % 1024 })

theorem emit_jumpEntry (base : Int) {count index : Nat} (bounded : index < count) :
    (names.jumpEntry (base + 2 * count) index).emit (names.moves.label.table base 2 count) =
      Emission.word (base + 2 * count + 2 * index + 2)
        ((names.jump index).word + (-(count : Int) - 2) % 1024) := by
  have target := names.moves.label.find?_table base 2 bounded
  have distance : jumpOffset (base + 2 * index) (base + 2 * count + 2 * index + 2) =
      -(count : Int) - 2 := by
    unfold jumpOffset
    omega
  unfold Entry.emit jumpEntry
  simp only [(names.jump index).ofName?_name, jumpWord, Option.bind_some, target,
    Option.getD_some, distance]

theorem emitAll_laidOut (base : Int) (count : Nat) :
    emitAll (names.moves.label.table base 2 count) (names.laidOut base count count).entries =
      { words := names.object base count, diagnostics := [], fault := none } := by
  apply emitAll_of_forall₂
  apply List.rel_append
  · rw [List.forall₂_map_left_iff, List.forall₂_map_right_iff, List.forall₂_same]
    exact fun index _bounded => names.moves.emit_entry index _ _
  · rw [List.forall₂_map_left_iff, List.forall₂_map_right_iff, List.forall₂_same]
    exact fun index bounded => names.emit_jumpEntry base (List.mem_range.mp bounded)

/-- Any text with these rows is laid out and encoded to the end, and what that leaves is known
in full. -/
theorem assembled_rows {source start : String} {address : Int} {count : Nat}
    (read : Statement.rows source = framed start (names.rows count))
    (reads : Numeral.hex? start = some address) :
    (State.fresh.layout source).flow = .ended ∧
      (State.fresh.layout source).state.encode.2 = none ∧
      (assembled source).symbols = names.moves.label.table address 2 count ∧
      (assembled source).object = names.object address count ∧
      (assembled source).diagnostics = [] := by
  have emitted := names.emitAll_laidOut address count
  unfold assembled
  rw [layout_of_framed read reads (names.leads_rows address count)]
  refine ⟨rfl, ?_, rfl, ?_, ?_⟩
  · exact congrArg Emission.fault emitted
  · exact congrArg Emission.words emitted
  · exact congrArg Emission.diagnostics emitted

end JumpNames

/-! ### The labels with numbers -/

/-- The jumps in turn. -/
def jumpAt (index : Nat) : Jump :=
  match index % 8 with
  | 0 => .jne
  | 1 => .jeq
  | 2 => .jnc
  | 3 => .jc
  | 4 => .jn
  | 5 => .jge
  | 6 => .jl
  | _ => .jmp

theorem jumpMnemonic_eq (index : Nat) : jumpMnemonic index = (jumpAt index).name := by
  have turns : ∀ turn < 8, jumpMnemonic turn = (jumpAt turn).name := by
    decide
  have same := turns (index % 8) (Nat.mod_lt index (by decide))
  unfold jumpMnemonic jumpAt at same ⊢
  rwa [Nat.mod_mod] at same

def numberedJumps : JumpNames where
  moves :=
    { label := .numbered "L" (by decide)
      source := fun index => ⟨index % 16, Nat.mod_lt index (by decide)⟩
      destination := fun index => ⟨(index + 1) % 16, Nat.mod_lt (index + 1) (by decide)⟩ }
  jump := jumpAt

theorem register_eq (value : Nat) :
    register value = Register.numbered ⟨value % 16, Nat.mod_lt value (by decide)⟩ := by
  unfold register Register.numbered
  rw [← number_toList, String.ofList_toList]

theorem rows_jumpProgram (size : Nat) :
    Statement.rows (jumpProgram size) = framed "4000" (numberedJumps.rows size) := by
  have move (index : Nat) : String.intercalate " " (numberedJumps.moves.row index) =
      labelName index ++ ": MOV " ++ register index ++ ", " ++ register (index + 1) := by
    rw [Moves.spelled_row, register_eq, register_eq]
    rfl
  have jump (index : Nat) : String.intercalate " " (numberedJumps.jumpRow index) =
      jumpMnemonic index ++ " " ++ labelName index := by
    unfold JumpNames.jumpRow
    rw [String.intercalate_cons_cons, String.intercalate_singleton, jumpMnemonic_eq]
    rfl
  have spelled : jumpProgram size =
      Statement.spelled (framed "4000" (numberedJumps.rows size)) := by
    unfold jumpProgram Statement.spelled framed JumpNames.rows
    simp only [List.map_append, List.map_cons, List.map_map, Function.comp_def, move, jump]
    rfl
  rw [spelled]
  exact rows_spelled_framed (by decide) (numberedJumps.isRow_rows size)

/-- Every so many numbers below a bound: their number is the quotient, rounded up. -/
theorem filter_range_multiples {step : Nat} (positive : 0 < step) (count : Nat) :
    (List.range count).filter (fun index => index % step == 0) =
      (List.range ((count + step - 1) / step)).map (fun turn => turn * step) := by
  induction count with
  | zero =>
      rw [Nat.div_eq_of_lt (by omega)]
      rfl
  | succ count inductionHypothesis =>
      have parts := Nat.div_add_mod' count step
      have small := Nat.mod_lt count positive
      have next : (count + 1 + step - 1) / step = count / step + 1 := by
        rw [Nat.add_right_comm, Nat.add_sub_cancel, Nat.add_div_right count positive]
      rw [List.range_succ, List.filter_append, inductionHypothesis, next, List.filter_singleton]
      -- the rounded quotient grows exactly when the new number is a multiple
      by_cases multiple : count % step = 0
      · have quotient : (count + step - 1) / step = count / step := by
          rw [Nat.div_eq_iff positive]
          omega
        rw [quotient, List.range_succ, List.map_append, beq_iff_eq.mpr multiple, cond_true,
          List.map_singleton, Nat.div_mul_cancel (Nat.dvd_of_mod_eq_zero multiple)]
      · have quotient : (count + step - 1) / step = count / step + 1 := by
          rw [Nat.div_eq_iff positive, Nat.succ_mul]
          omega
        rw [quotient, beq_false_of_ne multiple, cond_false, List.append_nil]

/-- Labels lie two bytes apart, each of them and each jump is one word, and the jumps hold the
same ten bits: all go back over as many words as there are labels. -/
theorem jumps_closed_form (labels : Nat) :
    (State.fresh.layout (jumpProgram labels)).flow = .ended ∧
      (State.fresh.layout (jumpProgram labels)).state.encode.2 = none ∧
      jumps labels =
        (List.range ((labels + max 1 (labels / 32) - 1) / max 1 (labels / 32))).map
            (fun turn => 0x4000 + 2 * ((turn * max 1 (labels / 32) : Nat) : Int)) ++
          [2 * (labels : Int)] ∧
      (assembled (jumpProgram labels)).object.drop labels =
        (List.range labels).map (fun index =>
          { address := 0x4000 + 2 * labels + 2 * index + 2
            code := (jumpAt index).word + (-(labels : Int) - 2) % 1024 }) ∧
      (∀ index, Operation.ofName? (jumpMnemonic index) = some (.jump (jumpAt index))) ∧
      (assembled (jumpProgram labels)).diagnostics = [] := by
  have start : Numeral.hex? "4000" = some 0x4000 := by
    decide
  have mnemonic (index : Nat) :
      Operation.ofName? (jumpMnemonic index) = some (.jump (jumpAt index)) := by
    rw [jumpMnemonic_eq, Jump.ofName?_name]
  obtain ⟨ended, encoded, symbols, object, diagnostics⟩ :=
    numberedJumps.assembled_rows (rows_jumpProgram labels) start
  refine ⟨ended, encoded, ?_, ?_, mnemonic, diagnostics⟩
  -- every label asked for is below the bound, so the table has it
  · have values : ∀ index ∈ (List.range labels).filter
        (fun index => index % max 1 (labels / 32) == 0),
        ((assembled (jumpProgram labels)).symbols.find? (labelName index)).getD 0 =
          0x4000 + 2 * (index : Int) := by
      intro index member
      have bounded := List.mem_range.mp (List.mem_of_mem_filter member)
      exact congrArg (Option.getD · 0) ((congrArg (SymbolTable.find? · _) symbols).trans
        (numberedJumps.moves.label.find?_table 0x4000 2 bounded))
    have words : (assembled (jumpProgram labels)).object.length = 2 * labels := by
      refine (congrArg List.length object).trans ?_
      simp only [JumpNames.object, List.length_append, List.length_map, List.length_range]
      omega
    simp only [jumps, words, List.map_congr_left values]
    rw [filter_range_multiples (by omega), List.map_map]
    rfl
  · refine (congrArg (List.drop labels) object).trans ?_
    exact List.drop_left' (by rw [List.length_map, List.length_range])

end Workload
end Msp430
