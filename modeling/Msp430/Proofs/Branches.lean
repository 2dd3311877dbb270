import Msp430.Proofs.Descriptions
import Msp430.Proofs.Drafts

/-!
Branches to numbers.  The words of an instruction are extension words, an instruction word
and the operand words that it asks for; `Composed` is read off every instruction of a
stream.  An instruction whose destination is a number goes to a known address if it is a
call or a move to the program counter.  Main statement: the call is taken for a jump and
its target gets a label, the move is not and gets none.
-/

namespace Msp430
namespace Disassembler

/-! ### The words of an instruction -/

inductive Composed (wide : Bool) : List Nat → Decoded → Prop where
  | jump {extensions : List Nat} {opcode : Nat} {name : String} {offset : Int}
      (all : ∀ word ∈ extensions, Extends wide word)
      (announced : announce wide extensions.getLast? opcode = .jump name offset) :
      Composed wide (extensions ++ [opcode]) (Decoded.makeJump name offset)
  | instruction {extensions operands : List Nat} {opcode : Nat} {draft : Draft}
      (all : ∀ word ∈ extensions, Extends wide word)
      (announced : announce wide extensions.getLast? opcode = .instruction draft)
      (counted : operands.length = draft.furtherWords) :
      Composed wide (extensions ++ opcode :: operands)
        (.plain (draft.filled operands).underOwnName)

theorem extends_iff_announced {wide : Bool} {extension : Option Nat} {word : Nat} :
    Extends wide word ↔ announce wide extension word = .extension := by
  refine ⟨fun marked => announce_of_extends marked extension, ?_⟩
  intro announced
  unfold announce at announced
  repeat' split at announced
  all_goals try cases announced
  next _ low _ narrow _ _ high =>
    exact ⟨Bool.eq_true_of_not_eq_false narrow, Nat.le_of_not_lt high, Nat.lt_of_not_le low⟩

theorem Draft.openSource_composed {wide : Bool} {draft : Draft} {trace last : Trace}
    {stream rest : List Nat} {decoded : Decoded}
    (call : (draft.openSource (bare wide) trace).resume (bare wide) stream =
      .returned decoded last rest) :
    ∃ operands, operands.length = draft.furtherWords ∧ last.words = trace.words ++ operands ∧
      decoded = .plain (draft.filled operands).underOwnName := by
  have uses := draft.openSource_uses (rfl : (bare wide).names = none) trace stream
  rw [call] at uses
  obtain ⟨enough, used, _⟩ := uses
  have counted : (stream.take draft.furtherWords).length = draft.furtherWords :=
    List.length_take_of_le enough
  have whole := draft.openSource_resume (rfl : (bare wide).names = none) counted trace
    (stream.drop draft.furtherWords)
  rw [List.take_append_drop, call] at whole
  cases whole
  exact ⟨stream.take draft.furtherWords, counted, used, rfl⟩

theorem Reading.call_composed {wide : Bool} {extensions stream rest : List Nat}
    (all : ∀ word ∈ extensions, Extends wide word) {trace last : Trace}
    (used : trace.words = extensions) {decoded : Decoded}
    (call : (Reading.opening extensions.getLast? trace).call (bare wide) stream =
      .returned decoded last rest) : Composed wide last.words decoded := by
  -- The extension words read so far are the words of the trace.
  induction stream generalizing extensions trace with
  | nil => cases call
  | cons word others inductionHypothesis =>
      rw [Reading.call_cons] at call
      unfold Reading.feed Reading.opening at call
      cases announced : announce wide extensions.getLast? word with
      | extension =>
          simp only [bare, announced] at call
          have marked : Extends wide word := extends_iff_announced.mpr announced
          have longer : ∀ earlier ∈ extensions ++ [word], Extends wide earlier :=
            List.forall_mem_append.mpr ⟨all, List.forall_mem_singleton.mpr marked⟩
          have words : (trace.use word).words = extensions ++ [word] :=
            congrArg (fun earlier => earlier ++ [word]) used
          apply inductionHypothesis longer words
          rw [List.getLast?_concat]
          exact call
      | jump name offset =>
          simp only [bare, announced] at call
          cases call
          change Composed wide (trace.words ++ [word]) _
          rw [used]
          exact .jump all announced
      | instruction draft =>
          simp only [bare, announced] at call
          obtain ⟨operands, counted, words, same⟩ := Draft.openSource_composed call
          change last.words = (trace.words ++ [word]) ++ operands at words
          rw [words, same, used, List.append_assoc]
          exact .instruction all announced counted

theorem Run.composed {wide : Bool} {start : Int} {stream : List Nat} {count : Nat}
    {decoding : Decoding} (run : Run (bare wide) start stream count decoding) :
    ∀ item ∈ decoding.items, Composed wide item.words item.decoded := by
  induction run with
  | cutShort call => exact nofun
  | failed call => exact nofun
  | returned call others inductionHypothesis =>
      have none : ∀ word ∈ ([] : List Nat), Extends wide word := nofun
      have first := Reading.call_composed none rfl call
      exact List.forall_mem_cons.mpr ⟨first, inductionHypothesis⟩

/-! ### Numbers as operands -/

/-- The source is a number: the word behind the instruction word, or a constant. -/
def SourceMode.isImmediate (mode : SourceMode) (register : Register) : Bool :=
  match register.val, mode with
  | 0, .increment => true
  | 2, .indirect => true
  | 2, .increment => true
  | 3, _ => true
  | _, _ => false

namespace Template

/-- The part of the text that no number changes. -/
def opening : Template → String
  | .fixed text => text
  | .number opening _ _ => opening

theorem exists_fill (template : Template) (number : Nat) :
    ∃ rest, (template.fill number).toList = template.opening.toList ++ rest := by
  cases template with
  | fixed text => exact ⟨[], (List.append_nil _).symm⟩
  | number opening format closing =>
      refine ⟨(format.write number).toList ++ closing.toList, ?_⟩
      simp only [fill, Template.opening, String.toList_append, List.append_assoc]

end Template

/-- The text begins with the mark of a number. -/
def IsNumber (text : String) : Prop :=
  text.toList.head? = some '#'

section Source

variable (byteWide : Bool) (mode : SourceMode)

theorem opening_sourceTemplate : ∀ register : Register,
    (sourceTemplate byteWide mode register).opening.toList ≠ [] ∧
      (IsNumber (sourceTemplate byteWide mode register).opening ↔
        mode.isImmediate register = true) := by
  unfold IsNumber
  cases byteWide <;> cases mode <;> decide

theorem opening_of_nonzero : ∀ register : Register, mode.isImmediate register = true →
    mode ≠ .direct → ¬ (sourceTemplate byteWide mode register).opening.toList <+: ['#', '0'] := by
  cases byteWide <;> cases mode <;> decide

variable {mode} {register : Register} (number : Nat)

theorem isNumber_source_iff :
    IsNumber ((sourceTemplate byteWide mode register).fill number) ↔
      mode.isImmediate register = true := by
  obtain ⟨nonempty, marked⟩ := opening_sourceTemplate byteWide mode register
  obtain ⟨rest, spelled⟩ := (sourceTemplate byteWide mode register).exists_fill number
  rw [← marked, IsNumber, IsNumber, spelled, List.head?_append_of_ne_nil _ nonempty]

/-- Of the numbers only the constant zero needs no bits of the mode. -/
theorem source_eq_zero_iff (immediate : mode.isImmediate register = true) :
    (sourceTemplate byteWide mode register).fill number = "#0" ↔ mode = .direct := by
  constructor
  · intro zero
    obtain ⟨rest, spelled⟩ := (sourceTemplate byteWide mode register).exists_fill number
    rw [zero] at spelled
    by_contra other
    exact opening_of_nonzero byteWide mode register immediate other ⟨rest, spelled.symm⟩
  · intro direct
    have zero : ∀ register : Register, SourceMode.direct.isImmediate register = true →
        sourceTemplate byteWide .direct register = .fixed "#0" := by
      cases byteWide <;> decide
    subst direct
    rw [zero register immediate, Template.fill]

end Source

/-- An operand in memory is written with a digit or with brackets. -/
theorem indexed_ne_counter (register : Register) (number : Nat) :
    (destinationTemplate true register).fill number ≠ "PC" := by
  intro counter
  have spelled : ((destinationTemplate true register).fill number).toList = ['P', 'C'] := by
    rw [counter]
    rfl
  unfold destinationTemplate at spelled
  rw [if_pos rfl] at spelled
  split at spelled
  · simp [Template.fill] at spelled
  · simp [Template.fill] at spelled
  · have bracket := congrArg (fun letters => '(' ∈ letters) spelled
    simp [Template.fill] at bracket

theorem destination_eq_counter_iff (indexed : Bool) (register : Register) (number : Nat) :
    (destinationTemplate indexed register).fill number = "PC" ↔
      indexed = false ∧ register.val = 0 := by
  cases indexed with
  | false =>
      have named : ∀ register : Register, register.shown = "PC" ↔ register.val = 0 := by
        decide
      exact (named register).trans ⟨fun counter => ⟨rfl, counter⟩, And.right⟩
  | true =>
      exact iff_of_false (indexed_ne_counter register number)
        (fun direct => Bool.noConfusion direct.1)

/-! ### Known targets -/

namespace Instruction

/-- The destination is a number and the target is known. -/
structure GoesTo (instruction : Instruction) (next target : Int) : Prop where
  number : ∃ text, instruction.destination = some text ∧ IsNumber text
  known : instruction.target next = .ok target

def branchNames : List String :=
  ["call", "br"]

theorem target_of_number {instruction : Instruction} {text : String} {digits : List Char}
    (branching : instruction.name ∈ branchNames) (shown : instruction.destination = some text)
    (spelled : text.toList = '#' :: digits) (next : Int) :
    instruction.target next = literal (String.ofList digits) := by
  have named : instruction.name = "call" ∨ instruction.name = "br" := by
    simpa [branchNames] using branching
  unfold target
  rw [if_pos named, shown]
  simp only [spelled]

theorem GoesTo.branching {instruction : Instruction} {next target : Int}
    (goes : instruction.GoesTo next target) : instruction.name ∈ branchNames := by
  have known := goes.known
  unfold Instruction.target at known
  split at known
  · next named => simpa [branchNames] using named
  · cases known

theorem isNumber_iff {text : String} : IsNumber text ↔ ∃ digits, text.toList = '#' :: digits := by
  unfold IsNumber
  rw [List.head?_eq_some_iff]

/-- A number is the target wherever the instruction stands. -/
theorem GoesTo.anywhere {instruction : Instruction} {next target : Int}
    (goes : instruction.GoesTo next target) (other : Int) :
    instruction.target other = .ok target := by
  obtain ⟨text, shown, number⟩ := goes.number
  obtain ⟨digits, spelled⟩ := isNumber_iff.mp number
  rw [target_of_number goes.branching shown spelled,
    ← target_of_number goes.branching shown spelled next, goes.known]

theorem exists_goesTo {instruction : Instruction} {text : String}
    (branching : instruction.name ∈ branchNames) (shown : instruction.destination = some text)
    (number : IsNumber text) (callable : Callable text) (next : Int) :
    ∃ target, instruction.GoesTo next target := by
  obtain ⟨c, digits, spelled, read⟩ := callable
  rw [IsNumber, spelled] at number
  have marked : c = '#' := Option.some.inj number
  obtain ⟨value, found⟩ := read marked
  rw [marked] at spelled
  refine ⟨value, ⟨text, shown, isNumber_iff.mpr ⟨digits, spelled⟩⟩, ?_⟩
  rw [target_of_number branching shown spelled, found]

/-- Of the two names that have a target, one is taken for a jump. -/
theorem GoesTo.jumps {instruction : Instruction} {next target : Int}
    (goes : instruction.GoesTo next target) :
    instruction.jumps = .ok (instruction.name == "call") := by
  by_cases called : instruction.name = "call"
  · obtain ⟨text, shown, number⟩ := goes.number
    obtain ⟨digits, spelled⟩ := isNumber_iff.mp number
    unfold Instruction.jumps
    rw [if_pos (Or.inl called), shown, called]
    simp only [spelled]
    rfl
  · rw [jumps_of_ne_call called, beq_false_of_ne called]

theorem ownName?_branch {name own : String} {source destination shown : Option String}
    (named : ownName? name source destination = some (own, shown)) (branch : own = "br") :
    (name = "mov" ∨ name = "movx") ∧ shown = source ∧ destination = some "PC" ∧
      source ≠ some "#0" := by
  unfold ownName? ownName?.bySource ownName?.additive ownName?.carrying ownName?.subtractive
    ownName?.moving ownName?.status at named
  repeat' split at named
  all_goals cases named
  all_goals try exact absurd branch (by decide)
  · next nonzero _ counter => exact ⟨Or.inl rfl, rfl, counter, nonzero⟩
  · next nonzero _ counter => exact ⟨Or.inr rfl, rfl, counter, nonzero⟩

theorem ownName?_move {name : String} {source : Option String}
    (move : name = "mov" ∨ name = "movx") (nonzero : source ≠ some "#0")
    (other : source ≠ some "@SP+") : ownName? name source (some "PC") = some ("br", source) := by
  rcases move with rfl | rfl
  · change ownName?.moving source (some "PC") "" = _
    rw [ownName?.moving, if_neg nonzero, if_neg other, if_pos rfl]
  · change ownName?.moving source (some "PC") "x" = _
    rw [ownName?.moving, if_neg nonzero, if_neg other, if_pos rfl]

theorem underOwnName_of_named {instruction : Instruction} {own : String} {shown : Option String}
    (named : ownName? instruction.name instruction.source instruction.destination =
      some (own, shown)) :
    instruction.underOwnName =
      { instruction with name := own, source := none, destination := shown } := by
  unfold underOwnName
  rw [named]

/-- An instruction with a known target is a call under its first name or a move to the
program counter. -/
theorem GoesTo.origin {instruction : Instruction} {next target : Int}
    (goes : instruction.underOwnName.GoesTo next target) :
    (instruction.name ∈ branchNames ∧ instruction.underOwnName = instruction) ∨
      (instruction.name = "mov" ∨ instruction.name = "movx") ∧
        instruction.underOwnName.name = "br" ∧
        instruction.underOwnName.destination = instruction.source ∧
        instruction.destination = some "PC" ∧ instruction.source ≠ some "#0" := by
  have branching := goes.branching
  cases named : ownName? instruction.name instruction.source instruction.destination with
  | none =>
      have same : instruction.underOwnName = instruction := by
        unfold underOwnName
        rw [named]
      rw [same] at branching
      exact Or.inl ⟨branching, same⟩
  | some entry =>
      obtain ⟨own, shown⟩ := entry
      rw [underOwnName_of_named named] at branching ⊢
      have either : own = "call" ∨ own = "br" := by
        simpa [branchNames] using branching
      rcases either with called | branch
      · exact absurd called (ownName?_ne_call named)
      · obtain ⟨move, source, counter, nonzero⟩ := ownName?_branch named branch
        exact Or.inr ⟨move, branch, source, counter, nonzero⟩

end Instruction

/-! ### Instruction words with a known target -/

/-- A call of a number. -/
structure CallsNumber (opcode : Nat) : Prop where
  operation : opcode / 128 = 0x25
  number : (modeOf opcode).isImmediate (registerAt opcode 0) = true

/-- A move of a number other than the constant zero to the program counter. -/
structure MovesNumber (opcode : Nat) : Prop where
  operation : opcode / 4096 = 4
  direct : opcode / 128 % 2 = 0
  counter : (registerAt opcode 0).val = 0
  number : (modeOf opcode).isImmediate (registerAt opcode 8) = true
  nonzero : modeOf opcode ≠ .direct

theorem extendedName_dualOperation (extension : Option Nat) (code : Nat) :
    (extendedName extension (dualOperation code) = "mov" ∨
        extendedName extension (dualOperation code) = "movx" ↔ code = 4) ∧
      extendedName extension (dualOperation code) ∉ Instruction.branchNames := by
  by_cases move : code = 4
  · subst move
    cases extension <;> simp [extendedName, dualOperation, Instruction.branchNames]
  · unfold dualOperation
    split
    · exact absurd rfl move
    all_goals cases extension <;> simp [extendedName, Instruction.branchNames, move]

theorem branch_of_goesTo {extension : Option Nat} {opcode : Nat} {operands : List Nat}
    {next target : Int}
    (goes : ((dualDraft extension opcode).filled operands).underOwnName.GoesTo next target) :
    ((dualDraft extension opcode).filled operands).underOwnName.name = "br" := by
  rcases goes.origin with ⟨branching, _⟩ | ⟨_, branch, _⟩
  · exact absurd branching (extendedName_dualOperation extension (opcode / 4096)).2
  · exact branch

theorem indexed_eq_false_iff (opcode : Nat) :
    (opcode / 128 % 2 == 1) = false ↔ opcode / 128 % 2 = 0 := by
  rw [beq_eq_false_iff_ne]
  omega

theorem MovesNumber.isNumber {opcode : Nat} (moves : MovesNumber opcode)
    (extension : Option Nat) (operands : List Nat) :
    ∃ text, (dualDraft extension opcode).sourceText operands = some text ∧ IsNumber text ∧
      Callable text :=
  ⟨_, rfl, (isNumber_source_iff _ _).mpr moves.number, callable_sourceTemplate _ _ _ _⟩

/-- The move is shown as a branch to its source. -/
theorem MovesNumber.underOwnName {opcode : Nat} (moves : MovesNumber opcode)
    (extension : Option Nat) (operands : List Nat) :
    ((dualDraft extension opcode).filled operands).underOwnName =
      { (dualDraft extension opcode).filled operands with
        name := "br"
        source := none
        destination := (dualDraft extension opcode).sourceText operands } := by
  have named := (extendedName_dualOperation extension (opcode / 4096)).1.mpr moves.operation
  have counter : (dualDraft extension opcode).destinationText operands = some "PC" :=
    congrArg some ((destination_eq_counter_iff _ _ _).mpr
      ⟨(indexed_eq_false_iff opcode).mpr moves.direct, moves.counter⟩)
  apply Instruction.underOwnName_of_named
  change Instruction.ownName? (extendedName extension (dualOperation (opcode / 4096)))
    ((dualDraft extension opcode).sourceText operands)
    ((dualDraft extension opcode).destinationText operands) = _
  rw [counter]
  apply Instruction.ownName?_move named
  · intro zero
    exact moves.nonzero ((source_eq_zero_iff _ _ moves.number).mp (Option.some.inj zero))
  · intro popped
    obtain ⟨text, shown, number, _⟩ := moves.isNumber extension operands
    rw [popped] at shown
    rw [← Option.some.inj shown] at number
    exact absurd number (by simp [IsNumber])

theorem goesTo_dual_iff (extension : Option Nat) (opcode : Nat) (operands : List Nat)
    (next : Int) :
    (∃ target, ((dualDraft extension opcode).filled operands).underOwnName.GoesTo next target) ↔
      MovesNumber opcode := by
  obtain ⟨moves, others⟩ := extendedName_dualOperation extension (opcode / 4096)
  constructor
  · rintro ⟨target, goes⟩
    rcases goes.origin with ⟨branching, _⟩ | ⟨move, _, shown, counter, nonzero⟩
    · exact absurd branching others
    · obtain ⟨text, destination, number⟩ := goes.number
      rw [shown] at destination
      have source := Option.some.inj destination
      rw [← source, isNumber_source_iff] at number
      obtain ⟨direct, register⟩ :=
        (destination_eq_counter_iff _ _ _).mp (Option.some.inj counter)
      refine ⟨moves.mp move, (indexed_eq_false_iff opcode).mp direct, register, number, ?_⟩
      intro zero
      exact nonzero (congrArg some ((source_eq_zero_iff _ _ number).mpr zero))
  · intro moved
    obtain ⟨text, shown, number, callable⟩ := moved.isNumber extension operands
    rw [moved.underOwnName]
    exact Instruction.exists_goesTo (List.mem_cons_of_mem _ List.mem_cons_self) shown number
      callable next

theorem extendedName_singleOperation (extension : Option Nat) (code : Nat) :
    (extendedName extension (singleOperation code).1 = "call" ↔ extension = none ∧ code = 5) ∧
      extendedName extension (singleOperation code).1 ∉ ["br", "mov", "movx"] := by
  by_cases call : code = 5
  · subst call
    cases extension <;> simp [extendedName, singleOperation]
  · unfold singleOperation
    split
    case h_6 => exact absurd rfl call
    all_goals cases extension <;> simp [extendedName, call]

theorem filled_name (draft : Draft) (operands : List Nat) :
    (draft.filled operands).name = draft.name := by
  unfold Draft.filled Draft.instruction
  split <;> rfl

theorem call_of_goesTo {extension : Option Nat} {opcode : Nat} {operands : List Nat}
    {next target : Int}
    (goes : ((singleDraft extension opcode).filled operands).underOwnName.GoesTo next target) :
    (singleDraft extension opcode).name = "call" ∧
      ((singleDraft extension opcode).filled operands).underOwnName =
        (singleDraft extension opcode).filled operands := by
  have others : (singleDraft extension opcode).name ∉ ["br", "mov", "movx"] :=
    (extendedName_singleOperation extension (opcode / 128 % 32)).2
  rcases goes.origin with ⟨branching, same⟩ | ⟨move, _⟩
  · rw [filled_name] at branching
    rcases List.mem_cons.mp branching with called | branch
    · exact ⟨called, same⟩
    · exact absurd (List.mem_append_left ["mov", "movx"] branch) others
  · rw [filled_name] at move
    exact absurd (by simpa using Or.inr move) others

theorem filled_of_call {extension : Option Nat} {opcode : Nat}
    (called : (singleDraft extension opcode).name = "call") (operands : List Nat) :
    (singleDraft extension opcode).filled operands =
      { name := "call"
        size := (singleDraft extension opcode).size
        source := none
        destination := (singleDraft extension opcode).destinationText operands } := by
  have visible : (singleDraft extension opcode).operandsShown = true := by
    change ((singleDraft extension opcode).name != "reti") = true
    rw [called]
    rfl
  unfold Draft.filled Draft.instruction
  rw [visible, called]
  rfl

theorem goesTo_single_iff (extension : Option Nat) {opcode : Nat} (least : 0x1000 ≤ opcode)
    (below : opcode < 0x1380) (operands : List Nat) (next : Int) :
    (∃ target, ((singleDraft extension opcode).filled operands).underOwnName.GoesTo next
        target) ↔ extension = none ∧ CallsNumber opcode := by
  have calls := (extendedName_singleOperation extension (opcode / 128 % 32)).1
  constructor
  · rintro ⟨target, goes⟩
    obtain ⟨called, same⟩ := call_of_goesTo goes
    obtain ⟨unextended, code⟩ := calls.mp called
    refine ⟨unextended, by omega, ?_⟩
    obtain ⟨text, destination, number⟩ := goes.number
    rw [same, filled_of_call called] at destination
    rw [← Option.some.inj destination] at number
    exact (isNumber_source_iff _ _).mp number
  · rintro ⟨unextended, operation, number⟩
    have called : (singleDraft extension opcode).name = "call" :=
      calls.mpr ⟨unextended, by omega⟩
    rw [filled_of_call called]
    exact Instruction.exists_goesTo List.mem_cons_self rfl
      ((isNumber_source_iff _ _).mpr number) (callable_sourceTemplate _ _ _ _) next

/-! ### All other instruction words -/

/-- A name that no instruction with a known target has before it is given its own name. -/
def Draft.Elsewhere (draft : Draft) : Prop :=
  draft.name ∉ ["call", "br", "mov", "movx"]

namespace Draft

theorem elsewhere_illegal (opcode : Nat) : (illegal opcode).Elsewhere := by
  intro listed
  have first : ("illegal-insn-0x" ++ Numeral.hexField 4 opcode).toList.head? = some 'i' := by
    rw [String.toList_append]
    rfl
  have spelled : ∀ name ∈ ["call", "br", "mov", "movx"], name.toList.head? ≠ some 'i' := by
    decide
  exact spelled _ listed first

theorem elsewhere_address (opcode : Nat) : (addressDraft opcode).Elsewhere := by
  have rotations : ∀ code, rotation code ++ ".a" ∉ ["call", "br", "mov", "movx"] ∧
      rotation code ++ ".w" ∉ ["call", "br", "mov", "movx"] := by
    intro code
    unfold rotation
    split <;> decide
  unfold Elsewhere addressDraft
  split
  case h_5 => exact (rotations _).1
  case h_6 => exact (rotations _).2
  all_goals
    dsimp only [ofTemplates]
    decide

theorem elsewhere_call (opcode : Nat) : (callDraft opcode).Elsewhere := by
  unfold callDraft
  split
  · unfold Elsewhere
    dsimp only [ofTemplates]
    decide
  · split
    case h_8 => exact elsewhere_illegal opcode
    all_goals
      unfold Elsewhere
      dsimp only [ofTemplates]
      decide

theorem elsewhere_stack (opcode : Nat) : (stackDraft opcode).Elsewhere := by
  unfold Elsewhere stackDraft
  dsimp only [ofTemplates]
  split <;> decide

theorem Elsewhere.not_goesTo {draft : Draft} (elsewhere : draft.Elsewhere)
    (operands : List Nat) {next target : Int} :
    ¬ (draft.filled operands).underOwnName.GoesTo next target := by
  intro goes
  apply elsewhere
  rcases goes.origin with ⟨branching, _⟩ | ⟨move, _⟩
  · rw [filled_name] at branching
    exact List.mem_append_left ["mov", "movx"] branching
  · rw [filled_name] at move
    rcases move with plain | extended
    · rw [plain]; simp
    · rw [extended]; simp

end Draft

theorem announce_cases {wide : Bool} {extension : Option Nat} {opcode : Nat} {draft : Draft}
    (announced : announce wide extension opcode = .instruction draft) :
    (0x4000 ≤ opcode ∧ draft = dualDraft extension opcode) ∨
      (0x1000 ≤ opcode ∧ opcode < 0x1380 ∧ draft = singleDraft extension opcode) ∨
      (opcode < 0x1000 ∨ 0x1380 ≤ opcode) ∧ opcode < 0x4000 ∧ draft.Elsewhere := by
  unfold announce at announced
  split at announced
  · next dual =>
      cases announced
      exact Or.inl ⟨dual, rfl⟩
  · split at announced
    · cases announced
    · split at announced
      · next single =>
          cases announced
          exact Or.inr (Or.inl ⟨single.1, single.2, rfl⟩)
      · refine Or.inr (Or.inr ⟨by omega, by omega, ?_⟩)
        repeat' split at announced
        all_goals cases announced
        · exact Draft.elsewhere_illegal opcode
        · exact Draft.elsewhere_address opcode
        · exact Draft.elsewhere_call opcode
        · exact Draft.elsewhere_stack opcode

theorem CallsNumber.range {opcode : Nat} (calls : CallsNumber opcode) :
    0x1280 ≤ opcode ∧ opcode < 0x1300 := by
  have operation := calls.operation
  omega

theorem MovesNumber.range {opcode : Nat} (moves : MovesNumber opcode) : 0x4000 ≤ opcode := by
  have operation := moves.operation
  omega

section Announced

variable {wide : Bool} {extension : Option Nat} {opcode : Nat} {draft : Draft}
  (announced : announce wide extension opcode = .instruction draft)

include announced

theorem goesTo_iff (operands : List Nat) (next : Int) :
    (∃ target, (draft.filled operands).underOwnName.GoesTo next target) ↔
      extension = none ∧ CallsNumber opcode ∨ MovesNumber opcode := by
  rcases announce_cases announced with ⟨dual, rfl⟩ | ⟨least, below, rfl⟩ | ⟨other, low, elsewhere⟩
  · rw [goesTo_dual_iff, or_iff_right]
    rintro ⟨_, calls⟩
    have range := calls.range
    omega
  · rw [goesTo_single_iff extension least below, or_iff_left]
    intro moves
    have range := moves.range
    omega
  · refine iff_of_false ?_ ?_
    · rintro ⟨target, goes⟩
      exact elsewhere.not_goesTo operands goes
    · rintro (⟨_, calls⟩ | moves)
      · have range := calls.range
        omega
      · have range := moves.range
        omega

theorem name_of_goesTo {operands : List Nat} {next target : Int}
    (goes : (draft.filled operands).underOwnName.GoesTo next target) :
    ((draft.filled operands).underOwnName.name = "call" ↔ CallsNumber opcode) ∧
      ((draft.filled operands).underOwnName.name ≠ "call" ↔ MovesNumber opcode) := by
  have reached := (goesTo_iff announced operands next).mp ⟨target, goes⟩
  rcases announce_cases announced with ⟨dual, rfl⟩ | ⟨least, below, rfl⟩ | ⟨_, _, elsewhere⟩
  · have uncalled : ¬ CallsNumber opcode := by
      intro calls
      have range := calls.range
      omega
    have moves := reached.resolve_left (fun calls => uncalled calls.2)
    rw [branch_of_goesTo goes]
    exact ⟨iff_of_false (by decide) uncalled, iff_of_true (by decide) moves⟩
  · have unmoved : ¬ MovesNumber opcode := by
      intro moves
      have range := moves.range
      omega
    obtain ⟨called, same⟩ := call_of_goesTo goes
    rw [same, filled_name, called]
    exact ⟨iff_of_true rfl (reached.resolve_right unmoved).2,
      iff_of_false (fun other => other rfl) unmoved⟩
  · exact absurd goes (elsewhere.not_goesTo operands)

end Announced

/-! ### Labels -/

theorem Item.labels_of_goesTo {item : Item} {instruction : Instruction} {next target : Int}
    (decoded : item.decoded = .plain instruction) (goes : instruction.GoesTo next target)
    (setup : Setup) (labels : Labels) :
    (item.describe setup labels).1 =
      if instruction.name = "call" then labels.add target else labels := by
  have jumps : item.decoded.jumps = .ok (instruction.name == "call") := by
    rw [decoded]
    exact goes.jumps
  have known : item.decoded.target (item.address + 2) = .ok target := by
    rw [decoded]
    exact goes.anywhere _
  by_cases called : instruction.name = "call"
  · have found : item.target? = some target := by
      unfold Item.target?
      rw [jumps, called, known]
      rfl
    rw [item.describe_of_target setup labels found, if_pos called]
  · have absent : item.target? = none := by
      unfold Item.target?
      rw [jumps, beq_false_of_ne called]
    rw [item.describe_of_no_target setup labels absent, if_neg called]

/-- The instructions of a stream that have a number for destination and a known target are
the calls of a number and the moves of a number to the program counter.  The calls are
taken for jumps and their targets get labels; the moves are not, and their targets get
none. -/
theorem numbered_target_labelled_iff (wide : Bool) (start : Int) (stream : List Nat)
    {item : Item} (member : item ∈ (decode (bare wide) start stream).items)
    {instruction : Instruction} (decoded : item.decoded = .plain instruction) (next : Int) :
    ∃ extensions opcode operands, item.words = extensions ++ opcode :: operands ∧
      (∀ word ∈ extensions, Extends wide word) ∧ ¬ Extends wide opcode ∧
      ((∃ target, instruction.GoesTo next target) ↔
        extensions = [] ∧ CallsNumber opcode ∨ MovesNumber opcode) ∧
      ∀ target, instruction.GoesTo next target →
        (instruction.jumps = .ok true ↔ CallsNumber opcode) ∧
        (instruction.jumps = .ok false ↔ MovesNumber opcode) ∧
        ∀ labels, (CallsNumber opcode →
            (item.describe (bare wide) labels).1 = labels.add target) ∧
          (MovesNumber opcode → (item.describe (bare wide) labels).1 = labels) := by
  have composed := (decode_runs (bare wide) start stream).composed item member
  generalize words : item.words = used at composed
  rw [decoded] at composed
  cases composed with
  | @instruction extensions operands opcode draft all announced counted =>
      refine ⟨extensions, opcode, operands, rfl, all, ?_, ?_, ?_⟩
      · rw [extends_iff_announced, announced]
        exact Announcement.noConfusion
      · rw [goesTo_iff announced, List.getLast?_eq_none_iff]
      · intro target goes
        obtain ⟨called, moved⟩ := name_of_goesTo announced goes
        have labelled := Item.labels_of_goesTo decoded goes (bare wide)
        rw [goes.jumps, ← called, ← moved]
        refine ⟨by simp, by simp, ?_⟩
        intro labels
        rw [labelled labels]
        exact ⟨fun call => if_pos call, fun branch => if_neg branch⟩

/-- A move of a number to the program counter: its target is known and gets no label. -/
theorem numbered_target_labelled_iff_move :
    let item : Item :=
      { address := 0x200
        decoded := .plain
          { name := "br", size := "", source := none, destination := some "#0x1234" }
        cycles := 3
        words := [0x4030, 0x1234] }
    item ∈ (decode (bare false) 0x200 [0x4030, 0x1234]).items ∧
      item.decoded.target 0x202 = .ok 0x1234 ∧
      item.decoded.jumps ≠ .ok true ∧
      (item.describe (bare false) Labels.empty).1 = Labels.empty := by
  intro item
  have member : item ∈ (decode (bare false) 0x200 [0x4030, 0x1234]).items := by
    decide
  have known : item.decoded.target 0x202 = .ok 0x1234 := by
    decide
  obtain ⟨extensions, opcode, operands, words, all, _, _, labelled⟩ :=
    numbered_target_labelled_iff false 0x200 [0x4030, 0x1234] member rfl 0x202
  have moves : MovesNumber opcode := by
    cases extensions with
    | nil =>
        rw [← (List.cons.inj words).1]
        exact ⟨rfl, rfl, rfl, rfl, by decide⟩
    | cons word others => exact absurd (all word List.mem_cons_self).1 (by decide)
  obtain ⟨_, unseen, labels⟩ := labelled 0x1234 ⟨⟨_, rfl, rfl⟩, known⟩
  refine ⟨member, known, ?_, (labels Labels.empty).2 moves⟩
  intro jumps
  have same := jumps.symm.trans (unseen.mpr moves)
  exact absurd same (by decide)

end Disassembler
end Msp430
