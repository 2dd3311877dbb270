import Mathlib.Data.List.Forall2
import Msp430.Proofs.Decoding
import Msp430.Proofs.Locations

/-!
Assembler and disassembler agree on register, immediate and jump instructions.
A line of such a program is data of its own; what the assembler makes of a
statement that spells it, and what the disassembler makes of the words, are both
read off that data.  Main statement: decoding the object code of a program of such
lines gives the lines back, one instruction each.
-/

namespace Msp430

open Assembler Disassembler

/-! ### Names -/

namespace Register

/-- The name of a register by its number. -/
def numbered (register : Register) : String :=
  "R" ++ String.ofList (Nat.toDigits 10 register.val)

/-- All names that an operand may use. -/
def names : List String :=
  "SP" :: (List.finRange 16).map numbered

theorem ofName?_numbered : ∀ register : Register, ofName? register.numbered = some register := by
  decide

theorem mem_names {name : String} {register : Register} (found : ofName? name = some register) :
    name ∈ names := by
  unfold ofName? at found
  split at found
  · subst name
    decide
  · unfold ofNumberedName? at found
    split at found
    case h_17 => cases found
    all_goals decide

/-- A numeral is no register's name. -/
theorem ofName?_of_reads {numeral : String} {value : Int}
    (reads : Numeral.hex? numeral = some value) : ofName? numeral = none := by
  have unread : ∀ name ∈ names, Numeral.hex? name = none := by
    decide
  cases found : ofName? numeral with
  | none => rfl
  | some register =>
      rw [unread numeral (mem_names found)] at reads
      cases reads

end Register

namespace Assembler

theorem Operand.ofText?_register {name : String} {register : Register}
    (found : Register.ofName? name = some register) :
    ofText? name = some { mode := .register, text := name } := by
  have classified : ∀ name ∈ Register.names,
      ofText? name = some { mode := .register, text := name } := by
    decide
  exact classified name (Register.mem_names found)

def Dual.name : Dual → String
  | .mov => "MOV"
  | .add => "ADD"
  | .sub => "SUB"
  | .cmp => "CMP"
  | .dadd => "DADD"
  | .bit => "BIT"
  | .bic => "BIC"
  | .bis => "BIS"
  | .xor => "XOR"
  | .and => "AND"

/-- The name under which disassembly shows the operation. -/
def Dual.mnemonic : Dual → String
  | .mov => "mov"
  | .add => "add"
  | .sub => "sub"
  | .cmp => "cmp"
  | .dadd => "dadd"
  | .bit => "bit"
  | .bic => "bic"
  | .bis => "bis"
  | .xor => "xor"
  | .and => "and"

def Jump.name : Jump → String
  | .jne => "JNE"
  | .jeq => "JEQ"
  | .jnc => "JNC"
  | .jc => "JC"
  | .jn => "JN"
  | .jge => "JGE"
  | .jl => "JL"
  | .jmp => "JMP"

/-- Two jumps are shown under the other of their two names. -/
def Jump.mnemonic : Jump → String
  | .jne => "jnz"
  | .jeq => "jz"
  | .jnc => "jnc"
  | .jc => "jc"
  | .jn => "jn"
  | .jge => "jge"
  | .jl => "jl"
  | .jmp => "jmp"

/-- The condition bits of a jump word. -/
def Jump.condition : Jump → Nat
  | .jne => 0
  | .jeq => 1
  | .jnc => 2
  | .jc => 3
  | .jn => 4
  | .jge => 5
  | .jl => 6
  | .jmp => 7

theorem Dual.ofName?_name (operation : Dual) :
    Operation.ofName? operation.name = some (.dual operation) := by
  cases operation <;> decide

theorem Dual.four_le_field (operation : Dual) : 4 ≤ operation.field := by
  cases operation <;> decide

theorem Dual.field_lt (operation : Dual) : operation.field < 16 := by
  cases operation <;> decide

theorem Dual.dualOperation_field (operation : Dual) :
    dualOperation operation.field = operation.mnemonic := by
  cases operation <;> rfl

theorem Jump.ofName?_name (operation : Jump) :
    Operation.ofName? operation.name = some (.jump operation) := by
  cases operation <;> decide

theorem Jump.condition_lt (operation : Jump) : operation.condition < 8 := by
  cases operation <;> decide

theorem Jump.word_eq (operation : Jump) : operation.word = jumpCode operation.condition 0 := by
  cases operation <;> rfl

theorem Jump.makeJump_condition (operation : Jump) (offset : Int) :
    Decoded.makeJump (jumpName operation.condition) offset = .jump operation.mnemonic offset := by
  cases operation <;> rfl

/-- The word of a jump, its fields apart. -/
theorem jumpWord_eq (symbols : SymbolTable) (operation : Jump) (operand : Option String)
    (location : Int) :
    jumpWord symbols operation operand location =
      (jumpCode operation.condition
        (jumpOffset ((operand.bind symbols.find?).getD 0) location % 1024).toNat : Nat) := by
  unfold jumpWord jumpCode
  simp only [operation.word_eq, jumpCode]
  omega

theorem resolve?_of_numbered (symbols : SymbolTable) {register : Register} {written : Operand}
    (text : written.text = register.numbered) :
    resolve? symbols (some written) = some (register.val : Int) := by
  unfold resolve?
  rw [Option.bind_some, text, Register.ofName?_numbered]

end Assembler

namespace Agreement

/-! ### Sources -/

/-- A source that names a general register or gives a word. -/
inductive PlainSource where
  | direct (register : Register) (general : 4 ≤ register.val)
  | indirect (register : Register) (general : 4 ≤ register.val)
  | increment (register : Register) (general : 4 ≤ register.val)
  | immediate (numeral : String) (value : Nat)
      (reads : Numeral.hex? numeral = some (value : Int)) (fits : value ≤ 0xffff)

namespace PlainSource

/-- The source as it is written. -/
def written : PlainSource → String
  | .direct register _ => register.numbered
  | .indirect register _ => "@" ++ register.numbered
  | .increment register _ => "@" ++ register.numbered ++ "+"
  | .immediate numeral _ _ _ => "#" ++ numeral

/-- The source as it is shown: an immediate with four digits, the others as they are
written. -/
def shown : PlainSource → String
  | .direct register _ => register.numbered
  | .indirect register _ => "@" ++ register.numbered
  | .increment register _ => "@" ++ register.numbered ++ "+"
  | .immediate _ value _ _ => "#0x" ++ Numeral.hexField 4 value

/-- An immediate is not taken for a label. -/
def Unbound (symbols : SymbolTable) : PlainSource → Prop
  | .immediate numeral _ _ _ => symbols.find? numeral = none
  | _ => True

/-- The register field; an immediate has the program counter there. -/
def base : PlainSource → Register
  | .direct register _ => register
  | .indirect register _ => register
  | .increment register _ => register
  | .immediate _ _ _ _ => ⟨0, by decide⟩

def mode : PlainSource → SourceMode
  | .direct _ _ => .direct
  | .indirect _ _ => .indirect
  | .increment _ _ => .increment
  | .immediate _ _ _ _ => .increment

/-- The words behind the instruction word. -/
def extension : PlainSource → List Nat
  | .immediate _ value _ _ => [value]
  | _ => []

/-- The source as the assembler classifies it. -/
def operand : PlainSource → Operand
  | .direct register _ => { mode := .register, text := register.numbered }
  | .indirect register _ => { mode := .indirect, text := register.numbered }
  | .increment register _ => { mode := .indirectIncrement, text := register.numbered }
  | .immediate numeral _ _ _ => { mode := .immediate, text := numeral }

private theorem ofText?_numbered :
    ∀ register : Register,
      Operand.ofText? register.numbered =
          some { mode := .register, text := register.numbered } ∧
        Operand.ofText? ("@" ++ register.numbered) =
          some { mode := .indirect, text := register.numbered } ∧
        Operand.ofText? ("@" ++ register.numbered ++ "+") =
          some { mode := .indirectIncrement, text := register.numbered } := by
  decide

theorem ofText?_written (source : PlainSource) :
    Operand.ofText? source.written = some source.operand := by
  cases source with
  | direct register general => exact (ofText?_numbered register).1
  | indirect register general => exact (ofText?_numbered register).2.1
  | increment register general => exact (ofText?_numbered register).2.2
  | immediate numeral value reads fits =>
      unfold Operand.ofText? written
      rw [String.toList_append]
      simp [operand]

theorem resolve?_operand {symbols : SymbolTable} {source : PlainSource}
    (unbound : source.Unbound symbols) :
    (resolve? symbols (some source.operand)).getD 0 = (source.base.val : Int) := by
  have numbered {register : Register} {written : Operand}
      (text : written.text = register.numbered) :
      (resolve? symbols (some written)).getD 0 = (register.val : Int) := by
    rw [resolve?_of_numbered symbols text, Option.getD_some]
  cases source with
  | direct register general => exact numbered rfl
  | indirect register general => exact numbered rfl
  | increment register general => exact numbered rfl
  | immediate numeral value reads fits =>
      change symbols.find? numeral = none at unbound
      unfold resolve?
      rw [Option.bind_some]
      simp only [operand, Register.ofName?_of_reads reads, unbound]
      rfl

theorem operandWords_operand (source : PlainSource) (location : Int) :
    operandWords location (some source.operand) =
      .ok (source.extension.map
        (fun value : Nat => ({ address := location + 2, code := value } : ObjectWord))) := by
  cases source with
  | direct register general => rfl
  | indirect register general => rfl
  | increment register general => rfl
  | immediate numeral value reads fits =>
      simp only [operandWords, operand, Mode.takesWord, if_true, reads]
      rfl

theorem field_eq (source : PlainSource) : source.operand.mode.field = source.mode.field := by
  cases source <;> rfl

/-- The words of an operation on a register destination. -/
def codes (source : PlainSource) (operation : Dual) (destination : Register) : List Nat :=
  registerWord operation.field source.base source.mode destination :: source.extension

theorem codes_lt (source : PlainSource) (operation : Dual) (destination : Register) :
    ∀ code ∈ source.codes operation destination, code < 0x10000 := by
  have operationBound := operation.field_lt
  have baseBound := source.base.isLt
  have modeBound := source.mode.field_lt
  have destinationBound := destination.isLt
  intro code member
  rcases List.mem_cons.mp member with first | further
  · rw [first]
    unfold registerWord
    omega
  · cases source with
    | direct register general => cases further
    | indirect register general => cases further
    | increment register general => cases further
    | immediate numeral value reads fits =>
        rw [List.mem_singleton.mp further]
        omega

/-- The disassembler shows these words as the instruction with the source and the
destination. -/
theorem decodes_codes (source : PlainSource) (operation : Dual) (destination : Register)
    {instruction : Instruction}
    (made : Instruction.make none operation.mnemonic "" (some source.shown)
      (some destination.shown) = .ok instruction) :
    Decodes plain (source.codes operation destination) (.plain instruction) := by
  have templates : ∀ register : Register, 4 ≤ register.val →
      sourceTemplate false .direct register = .fixed register.numbered ∧
        sourceTemplate false .indirect register = .fixed ("@" ++ register.numbered) ∧
        sourceTemplate false .increment register =
          .fixed ("@" ++ register.numbered ++ "+") := by
    decide
  rw [← operation.dualOperation_field] at made
  cases source with
  | direct register general =>
      exact decodes_registerWord_fixed operation.four_le_field (templates register general).1 made
  | indirect register general =>
      exact decodes_registerWord_fixed operation.four_le_field (templates register general).2.1
        made
  | increment register general =>
      exact decodes_registerWord_fixed operation.four_le_field (templates register general).2.2
        made
  | immediate numeral value reads fits =>
      have template : sourceTemplate false .increment 0 = .number "#0x" (.hex 4) "" := by
        decide
      apply decodes_registerWord_number operation.four_le_field template
      rw [String.append_empty]
      exact made

end PlainSource

/-! ### Lines -/

/-- A line of the common fragment. -/
inductive Line where
  | dual (operation : Dual) (source : PlainSource) (destination : Register)
  | jump (operation : Jump) (label : String)

namespace Line

/-- A statement that spells a line. -/
def Spelled (statement : Statement) : Line → Prop
  | .dual operation source destination =>
      statement.opcode = operation.name ∧
        ∃ name, components statement.operand = (some source.written, some name) ∧
          Register.ofName? name = some destination
  | .jump operation label =>
      statement.opcode = operation.name ∧ statement.operand = some label

/-- What a line asks of the labels: an immediate is none of them, and the target of a
jump is one that its ten bits can reach. -/
def Resolved (symbols : SymbolTable) (location : Int) : Line → Prop
  | .dual _ source _ => source.Unbound symbols
  | .jump _ label =>
      ∃ target, symbols.find? label = some target ∧
        -1024 ≤ target - (location + 2) ∧ target - (location + 2) ≤ 1022

/-- What disassembly is to show for a line.  The offset of a jump is the distance to
its target, less one where that is odd. -/
def Shows (symbols : SymbolTable) (location : Int) (decoded : Decoded) : Line → Prop
  | .dual operation source destination =>
      ∃ instruction, decoded = .plain instruction ∧
        Instruction.make none operation.mnemonic "" (some source.shown)
          (some destination.shown) = .ok instruction
  | .jump operation label =>
      ∃ target, symbols.find? label = some target ∧
        decoded = .jump operation.mnemonic
          (target - (location + 2) - (target - (location + 2)) % 2)

variable {symbols : SymbolTable} {entry : Entry}

theorem known_of_spelled {statement : Statement} {line : Line}
    (spelled : line.Spelled statement) : Operation.ofName? statement.opcode ≠ none := by
  cases line with
  | dual operation source destination =>
      rw [spelled.1, operation.ofName?_name]
      exact Option.some_ne_none _
  | jump operation label =>
      rw [spelled.1, operation.ofName?_name]
      exact Option.some_ne_none _

theorem emit_dual {operation : Dual} {source : PlainSource} {destination : Register}
    (spelled : (Line.dual operation source destination).Spelled entry.statement)
    (unbound : source.Unbound symbols) :
    (entry.emit symbols).fault = none ∧
      (entry.words symbols).map ObjectWord.code =
        (source.codes operation destination).map Int.ofNat := by
  obtain ⟨opcode, name, operands, found⟩ := spelled
  change entry.opcode = operation.name at opcode
  change components entry.operand = (some source.written, some name) at operands
  have sourceRead : Operand.read? (some source.written) = some source.operand :=
    source.ofText?_written
  have destinationRead : Operand.read? (some name) = some { mode := .register, text := name } :=
    Operand.ofText?_register found
  have destinationValue :
      resolve? symbols (some { mode := .register, text := name }) =
        some (destination.val : Int) := by
    unfold resolve?
    rw [Option.bind_some, found]
  have sourceValue := PlainSource.resolve?_operand unbound
  have extension := source.operandWords_operand entry.location
  have first :
      dualWord operation source.operand (some { mode := .register, text := name })
          (source.base.val : Int) (destination.val : Int) =
        Int.ofNat (registerWord operation.field source.base source.mode destination) := by
    have baseBound := source.base.isLt
    have destinationBound := destination.isLt
    unfold dualWord registerWord
    rw [source.field_eq]
    change (operation.field : Int) * 4096 + (source.base.val : Int) % 16 * 256 + 0 * 128 +
      (source.mode.field : Int) * 16 + (destination.val : Int) % 16 = _
    rw [Int.ofNat_eq_natCast]
    omega
  unfold Entry.words Entry.emit
  rw [opcode, operation.ofName?_name]
  simp only [emitDual, operands, sourceRead, destinationRead, sourceValue, destinationValue,
    extension, Option.getD_some, first]
  refine ⟨rfl, ?_⟩
  simp only [PlainSource.codes, operandWords, Mode.takesWord, Bool.false_eq_true, if_false,
    List.append_nil, List.map_cons, List.map_map]
  rfl

/-- The ten bits of a jump within reach, read back with their sign. -/
theorem jumpDistance_offset (condition : Nat) {target location : Int}
    (low : -1024 ≤ target - (location + 2)) (high : target - (location + 2) ≤ 1022) :
    jumpDistance (jumpCode condition (jumpOffset target location % 1024).toNat) =
      target - (location + 2) - (target - (location + 2)) % 2 := by
  have bounded : (jumpOffset target location % 1024).toNat < 1024 := by
    omega
  rw [jumpDistance_jumpCode bounded]
  unfold jumpOffset
  split <;> omega

theorem emit_jump {operation : Jump} {label : String} {target : Int}
    (spelled : (Line.jump operation label).Spelled entry.statement)
    (found : symbols.find? label = some target) :
    (entry.emit symbols).fault = none ∧
      (entry.words symbols).map ObjectWord.code =
        [jumpCode operation.condition (jumpOffset target entry.location % 1024).toNat].map
          Int.ofNat := by
  obtain ⟨opcode, operand⟩ := spelled
  change entry.opcode = operation.name at opcode
  change entry.operand = some label at operand
  have word : jumpWord symbols operation (some label) entry.location =
      Int.ofNat (jumpCode operation.condition
        (jumpOffset target entry.location % 1024).toNat) := by
    rw [jumpWord_eq, Option.bind_some, found]
    rfl
  unfold Entry.words Entry.emit
  rw [opcode, operand, operation.ofName?_name]
  simp only [word]
  exact ⟨rfl, rfl⟩

/-- An entry that spells a resolved line is encoded, into words that are one
instruction and are shown as the line. -/
theorem encodes {line : Line} (spelled : line.Spelled entry.statement)
    (resolved : line.Resolved symbols entry.location) :
    (entry.emit symbols).fault = none ∧
      ∃ piece : List Nat × Decoded,
        (entry.words symbols).map ObjectWord.code = piece.1.map Int.ofNat ∧
          line.Shows symbols entry.location piece.2 ∧
          Decodes plain piece.1 piece.2 ∧
          ∀ code ∈ piece.1, code < 0x10000 := by
  cases line with
  | dual operation source destination =>
      obtain ⟨unfaulty, codes⟩ := emit_dual spelled resolved
      refine ⟨unfaulty, (source.codes operation destination, .plain _), codes,
        ⟨_, rfl, rfl⟩, ?_, source.codes_lt operation destination⟩
      exact source.decodes_codes operation destination rfl
  | jump operation label =>
      obtain ⟨target, found, low, high⟩ := resolved
      obtain ⟨unfaulty, codes⟩ := emit_jump spelled found
      have condition := operation.condition_lt
      have bounded : (jumpOffset target entry.location % 1024).toNat < 1024 := by
        omega
      have decodes := decodes_jumpCode plain condition bounded
      rw [jumpDistance_offset operation.condition low high, operation.makeJump_condition]
        at decodes
      refine ⟨unfaulty, (_, _), codes, ⟨target, found, rfl⟩, decodes, ?_⟩
      intro code member
      rw [List.mem_singleton.mp member]
      unfold jumpCode
      omega

end Line

/-- The pieces of entries that spell resolved lines. -/
theorem exists_pieces {symbols : SymbolTable} {entries : List Entry}
    (lines : ∀ entry ∈ entries, ∃ line : Line,
      line.Spelled entry.statement ∧ line.Resolved symbols entry.location) :
    (∀ entry ∈ entries, (entry.emit symbols).fault = none) ∧
      ∃ pieces : List (List Nat × Decoded),
        (entries.flatMap (Entry.words symbols)).map ObjectWord.code =
            (pieces.flatMap Prod.fst).map Int.ofNat ∧
          (∀ piece ∈ pieces, Decodes plain piece.1 piece.2) ∧
          (∀ code ∈ pieces.flatMap Prod.fst, code < 0x10000) ∧
          List.Forall₂
            (fun entry piece =>
              (entry.words symbols).map ObjectWord.code = piece.1.map Int.ofNat ∧
                ∃ line : Line, line.Spelled entry.statement ∧
                  line.Shows symbols entry.location piece.2)
            entries pieces := by
  induction entries with
  | nil =>
      exact ⟨by simp, [], rfl, by simp, by simp, .nil⟩
  | cons entry others inductionHypothesis =>
      obtain ⟨line, spelled, resolved⟩ := lines entry List.mem_cons_self
      obtain ⟨unfaulty, piece, codes, shows, decodes, bounded⟩ := line.encodes spelled resolved
      obtain ⟨othersUnfaulty, pieces, othersCodes, othersDecode, othersBounded, matched⟩ :=
        inductionHypothesis
          (fun other member => lines other (List.mem_cons_of_mem entry member))
      refine ⟨List.forall_mem_cons.mpr ⟨unfaulty, othersUnfaulty⟩, piece :: pieces, ?_,
        List.forall_mem_cons.mpr ⟨decodes, othersDecode⟩, ?_,
        .cons ⟨codes, line, spelled, shows⟩ matched⟩
      · rw [List.flatMap_cons, List.flatMap_cons, List.map_append, List.map_append, codes,
          othersCodes]
      · intro code member
        rw [List.flatMap_cons] at member
        rcases List.mem_append.mp member with own | later
        · exact bounded code own
        · exact othersBounded code later

/-! ### Programs -/

/-- Programs of such lines.  The labels are those of all statements up to `END`. -/
structure OfLines (source : String) : Prop where
  startFirst : ∀ statement ∈ (Statement.all source).tail, statement.opcode ≠ "START"
  distinct : (Statement.labels (Statement.all source)).Nodup
  lines : ∀ statement ∈ Statement.body (Statement.all source),
    ∃ line : Line, line.Spelled statement
  resolved : ∀ entry ∈ (State.fresh.layout source).state.entries,
    ∃ line : Line, line.Spelled entry.statement ∧
      line.Resolved (State.fresh.layout source).state.symbols entry.location

/-- `START` has no operand or one that reads, since layout stops at one that does not. -/
structure InFragment (source : String) : Prop extends OfLines source where
  startReads : ∀ statement ∈ (Statement.all source).head?, statement.opcode = "START" →
    startAddress? statement.operand ≠ none

/-- With an operand of `START` that does not read, a program of such lines is not laid out, and
its statements get no words. -/
theorem ofLines_start_unread :
    let source := "START zz\nMOV R4, R5\nEND"
    let progress := State.fresh.layout source
    OfLines source ∧
      progress.fault? = some (.badNumeral "zz") ∧
      Statement.body (Statement.all source) =
        [{ label := none, opcode := "MOV", operand := some "R4, R5" }] ∧
      progress.state.entries = [] ∧
      progress.state.encode.1.object = [] := by
  intro source progress
  have body : Statement.body (Statement.all source) =
      [{ label := none, opcode := "MOV", operand := some "R4, R5" }] := by
    decide
  have entries : progress.state.entries = [] := by
    decide
  have move : (Line.dual .mov (.direct 4 (by decide)) 5).Spelled
      { label := none, opcode := "MOV", operand := some "R4, R5" } :=
    ⟨by decide, "R5", by decide, by decide⟩
  have lines : OfLines source := by
    refine ⟨by decide, by decide, ?_, ?_⟩
    · rw [body]
      exact List.forall_mem_singleton.mpr ⟨_, move⟩
    · rw [entries]
      exact nofun
  exact ⟨lines, by decide, body, entries, by decide⟩

namespace InFragment

variable {source : String}

theorem startAddress?_ne_none (fragment : InFragment source) :
    ∀ statement ∈ Statement.upToEnd (Statement.all source), statement.opcode = "START" →
      startAddress? statement.operand ≠ none := by
  intro statement member opcode
  have present := Statement.mem_of_mem_upToEnd member
  have startFirst := fragment.startFirst
  have startReads := fragment.startReads
  generalize Statement.all source = statements at present startFirst startReads
  cases statements with
  | nil => cases present
  | cons first others =>
      rcases List.mem_cons.mp present with same | later
      · exact startReads statement (by rw [same]; rfl) opcode
      · exact absurd opcode (startFirst statement later)

/-- Layout meets nothing to report. -/
theorem layout_quiet (fragment : InFragment source) :
    (State.fresh.layout source).fault? = none ∧
      (State.fresh.layout source).state.diagnostics = [] := by
  apply State.placeAll_quiet _ fragment.startAddress?_ne_none
  · intro statement member
    obtain ⟨line, spelled⟩ := fragment.lines statement member
    exact line.known_of_spelled spelled
  · exact fragment.distinct
  · intro name _member
    exact SymbolTable.find?_empty name

/-- Every label but one on `START` lies a whole number of words from the jumps. -/
theorem distance_even (fragment : InFragment source) :
    ∀ entry ∈ (State.fresh.layout source).state.entries, ∀ label target,
      (State.fresh.layout source).state.symbols.find? label = some target →
        Statement.startLabel (Statement.all source) ≠ some label →
          (target - (entry.location + 2)) % 2 = 0 := by
  intro entry member label target found ordinary
  have filled : (State.fresh.layout source).state.Filled :=
    State.placeAll_filled_of_start_first _ fragment.startFirst rfl rfl
  have aligned : (State.fresh.layout source).state.Aligned
      (Statement.startLabel (Statement.all source)) := by
    apply State.placeAll_aligned_of_start_first _ fragment.startFirst
    · refine ⟨rfl, ?_⟩
      intro name value bound
      cases bound
    · exact SymbolTable.find?_empty
  have location := filled.even entry member
  rcases aligned.2 label target found with exempt | even
  · exact absurd exempt ordinary
  · omega

end InFragment

/-- Laying out a program of the fragment records nothing, encoding it completes, and
the disassembler uses up the words of the object code and shows one instruction for
each statement, from the words of that statement: the instruction that the line
stands for.  The offset of a jump is the distance from the address behind it to its
label, unless the label stands on `START` and the distance is odd. -/
theorem decode_object_eq_lines {source : String} (fragment : InFragment source) :
    let placed := (State.fresh.layout source).state
    (State.fresh.layout source).fault? = none ∧
      placed.diagnostics = [] ∧
      placed.entries.map Entry.statement = Statement.body (Statement.all source) ∧
      placed.encode.2 = none ∧
      (∃ words : List Nat,
        placed.encode.1.object.map ObjectWord.code = words.map Int.ofNat ∧
          (∀ word ∈ words, word < 0x10000) ∧
          ∀ start : Int,
            (decode plain start words).fault = none ∧
              (decode plain start words).remainder =
                { first := start + 2 * words.length, trace := Trace.empty } ∧
              List.Forall₂
                (fun entry item =>
                  (entry.words placed.symbols).map ObjectWord.code =
                      item.words.map Int.ofNat ∧
                    ∃ line : Line, line.Spelled entry.statement ∧
                      line.Shows placed.symbols entry.location item.decoded)
                placed.entries (decode plain start words).items) ∧
      ∀ entry ∈ placed.entries, ∀ label target,
        placed.symbols.find? label = some target →
          Statement.startLabel (Statement.all source) ≠ some label →
            (target - (entry.location + 2)) % 2 = 0 := by
  intro placed
  obtain ⟨unfailed, quiet⟩ := fragment.layout_quiet
  obtain ⟨unfaulty, pieces, codes, decodes, bounded, matched⟩ :=
    exists_pieces fragment.resolved
  have completed : placed.encode.2 = none := emitAll_fault_eq_none unfaulty
  have assembled : Assembles source placed placed.encode.1 :=
    Assembles.ofSource unfailed completed
  refine ⟨unfailed, quiet, assembled.entries_eq quiet, completed, ?_, fragment.distance_even⟩
  refine ⟨pieces.flatMap Prod.fst, ?_, bounded, ?_⟩
  · rw [assembled.object_eq]
    exact codes
  · intro start
    obtain ⟨fault, remainder, items⟩ := decodeFrom_flatMap decodes start
    refine ⟨fault, remainder, ?_⟩
    rw [← items, List.forall₂_map_right_iff] at matched
    exact matched

theorem decode_object_eq_lines_mixed :
    let source := "START 200\nL: MOV #1F, R6\nADD @R5+, SP\nJNE L\nJMP M\nM: END"
    let placed := (State.fresh.layout source).state
    let words := [0x4036, 0x1f, 0x5531, 0x23fb, 0x3fff]
    InFragment source ∧
      placed.encode.1.object.map ObjectWord.code = words.map Int.ofNat ∧
      (∀ start : Int,
        (decode plain start words).fault = none ∧
          (decode plain start words).items.length = 4) ∧
      (decode plain 0x202 words).items.map (fun item => (item.address, item.decoded)) =
        [(0x202, .plain
            { name := "mov", size := "", source := some "#0x001f", destination := some "R6" }),
         (0x206, .plain
            { name := "add", size := "", source := some "@R5+", destination := some "SP" }),
         (0x208, .jump "jnz" (-10)),
         (0x20a, .jump "jmp" (-2))] ∧
      placed.symbols.bindings = [("L", 0x200), ("M", 0x20a)] ∧
      (Decoded.jump "jnz" (-10)).target 0x20a = .ok 0x200 ∧
      (Decoded.jump "jmp" (-2)).target 0x20c = .ok 0x20a := by
  intro source placed words
  have lines : ∀ entry ∈ placed.entries, ∃ line : Line,
      line.Spelled entry.statement ∧ line.Resolved placed.symbols entry.location := by
    have entries : placed.entries =
        [{ label := some "L", opcode := "MOV", operand := some "#1F, R6", location := 0x204 },
          { label := none, opcode := "ADD", operand := some "@R5+, SP", location := 0x206 },
          { label := none, opcode := "JNE", operand := some "L", location := 0x208 },
          { label := none, opcode := "JMP", operand := some "M", location := 0x20a }] := by
      decide
    rw [entries]
    simp only [List.forall_mem_cons]
    refine ⟨⟨.dual .mov (.immediate "1F" 0x1f (by decide) (by decide)) 6, ?_, ?_⟩,
      ⟨.dual .add (.increment 5 (by decide)) 1, ?_, ?_⟩,
      ⟨.jump .jne "L", ?_, ?_⟩, ⟨.jump .jmp "M", ?_, ?_⟩, List.forall_mem_nil _⟩
    · exact ⟨by decide, "R6", by decide, by decide⟩
    · show placed.symbols.find? "1F" = none
      decide
    · exact ⟨by decide, "SP", by decide, by decide⟩
    · trivial
    · exact ⟨by decide, by decide⟩
    · exact ⟨0x200, by decide, by decide, by decide⟩
    · exact ⟨by decide, by decide⟩
    · exact ⟨0x20a, by decide, by decide, by decide⟩
  have body : Statement.body (Statement.all source) = placed.entries.map Entry.statement := by
    decide
  have fragment : InFragment source := by
    refine ⟨⟨by decide, by decide, ?_, lines⟩, by decide⟩
    intro statement member
    rw [body] at member
    obtain ⟨entry, kept, same⟩ := List.mem_map.mp member
    obtain ⟨line, spelled, _resolved⟩ := lines entry kept
    exact ⟨line, same ▸ spelled⟩
  have codes : placed.encode.1.object.map ObjectWord.code = words.map Int.ofNat := by
    decide
  obtain ⟨_, _, _, _, ⟨found, foundCodes, _, decoded⟩, _⟩ := decode_object_eq_lines fragment
  have same : found = words :=
    List.map_injective_iff.mpr (fun _ _ => Int.ofNat.inj) (foundCodes.symm.trans codes)
  have kept : placed.entries.length = 4 := by
    decide
  refine ⟨fragment, codes, fun start => ?_, by decide, by decide, by decide, by decide⟩
  obtain ⟨fault, _, matched⟩ := decoded start
  rw [← same]
  exact ⟨fault, by rw [← matched.length_eq, kept]⟩

end Agreement
end Msp430
