import Msp430.Disassembler.Decoder

/-!
Decoding one instruction and streams of instructions.  `Decodes` says that some
words are exactly one instruction wherever they stand and whatever follows; a
stream cut into such pieces is decoded piece by piece.
-/

namespace Msp430
namespace Disassembler

/-- The decoder without twenty-bit instructions and without names. -/
def plain : Setup :=
  { wide := false, names := none }

/-- The words are one instruction, at any address and before any other words. -/
def Decodes (setup : Setup) (words : List Nat) (decoded : Decoded) : Prop :=
  ∃ cycles, ∀ (first : Int) (rest : List Nat),
    decodeFrom setup first Reading.fresh (words ++ rest) =
      { decodeFrom setup (first + 2 * words.length) Reading.fresh rest with
        items :=
          { address := first
            decoded := decoded
            cycles := cycles
            words := words } ::
          (decodeFrom setup (first + 2 * words.length) Reading.fresh rest).items }

/-! ### Streams -/

/-- A stream of pieces that are one instruction each is used up, and gives the
instruction of every piece. -/
theorem decodeFrom_flatMap {setup : Setup} {pieces : List (List Nat × Decoded)}
    (instructions : ∀ piece ∈ pieces, Decodes setup piece.1 piece.2) (start : Int) :
    (decodeFrom setup start Reading.fresh (pieces.flatMap Prod.fst)).fault = none ∧
      (decodeFrom setup start Reading.fresh (pieces.flatMap Prod.fst)).remainder =
        { first := start + 2 * (pieces.flatMap Prod.fst).length, trace := Trace.empty } ∧
      (decodeFrom setup start Reading.fresh (pieces.flatMap Prod.fst)).items.map
        (fun item => (item.words, item.decoded)) = pieces := by
  induction pieces generalizing start with
  | nil =>
      simp [decodeFrom, Reading.fresh]
  | cons piece others inductionHypothesis =>
      obtain ⟨cycles, first⟩ := instructions piece List.mem_cons_self
      obtain ⟨fault, remainder, items⟩ :=
        inductionHypothesis
          (fun other member => instructions other (List.mem_cons_of_mem piece member))
          (start + 2 * piece.1.length)
      rw [List.flatMap_cons, first start (others.flatMap Prod.fst)]
      refine ⟨fault, ?_, ?_⟩
      · rw [remainder, List.length_append]
        congr 1
        push_cast
        omega
      · rw [List.map_cons, items]

/-! ### One instruction -/

theorem decodes_of_one_word {setup : Setup} {word : Nat} {decoded : Decoded} {cycles : Nat}
    (finished : Reading.fresh.feed setup word =
      .finished decoded { cycles := cycles, words := [word] }) :
    Decodes setup [word] decoded := by
  refine ⟨cycles, ?_⟩
  intro first rest
  simp only [List.cons_append, List.nil_append, decodeFrom, finished]

theorem decodes_of_two_words {setup : Setup} {word second : Nat} {decoded : Decoded}
    {next : Reading} {cycles : Nat}
    (opened : Reading.fresh.feed setup word = .goOn next)
    (finished : next.feed setup second =
      .finished decoded { cycles := cycles, words := [word, second] }) :
    Decodes setup [word, second] decoded := by
  refine ⟨cycles, ?_⟩
  intro first rest
  simp only [List.cons_append, List.nil_append, decodeFrom, opened, finished]

namespace Draft

variable {draft : Draft} {setup : Setup} {trace : Trace} {source destination : Option String}

theorem close_shown {instruction : Instruction} (shown : draft.operandsShown = true)
    (made : Instruction.make setup.names draft.name draft.size source destination =
      .ok instruction) :
    draft.close setup source destination trace = .finished (.plain instruction) trace := by
  unfold close
  simp only [shown, if_true, made]

theorem openDestination_fixed {text : String}
    (template : draft.destination = some (.fixed text)) :
    draft.openDestination setup source trace =
      draft.close setup source (some text) trace := by
  unfold openDestination
  rw [template]
  rfl

theorem openSource_fixed {text : String} (template : draft.source = some (.fixed text)) :
    draft.openSource setup trace = draft.openDestination setup (some text) trace := by
  unfold openSource
  rw [template]
  rfl

theorem openSource_number {opening closing : String} {format : NumberFormat}
    (template : draft.source = some (.number opening format closing)) :
    draft.openSource setup trace = .goOn { expected := .source draft, trace := trace } := by
  unfold openSource
  rw [template]
  rfl

end Draft

/-! ### Fields of a two-operand word -/

/-- The mode bits of a source. -/
def SourceMode.field : SourceMode → Nat
  | .direct => 0
  | .indexed => 1
  | .indirect => 2
  | .increment => 3

theorem SourceMode.field_lt (mode : SourceMode) : mode.field < 4 := by
  cases mode <;> decide

theorem SourceMode.ofField?_field (mode : SourceMode) :
    SourceMode.ofField? mode.field = some mode := by
  cases mode <;> rfl

/-- A word operation on a register destination. -/
def registerWord (operation : Nat) (source : Register) (mode : SourceMode)
    (destination : Register) : Nat :=
  operation * 4096 + source.val * 256 + mode.field * 16 + destination.val

section RegisterWord

variable (operation : Nat) (source : Register) (mode : SourceMode) (destination : Register)

theorem registerAt_source :
    registerAt (registerWord operation source mode destination) 8 = source := by
  have sourceBound := source.isLt
  have destinationBound := destination.isLt
  have modeBound := mode.field_lt
  apply Fin.ext
  change registerWord operation source mode destination / 256 % 16 = source.val
  unfold registerWord
  omega

theorem registerAt_destination :
    registerAt (registerWord operation source mode destination) 0 = destination := by
  have destinationBound := destination.isLt
  apply Fin.ext
  change registerWord operation source mode destination / 1 % 16 = destination.val
  unfold registerWord
  omega

theorem modeOf_registerWord :
    modeOf (registerWord operation source mode destination) = mode := by
  have destinationBound := destination.isLt
  have modeBound := mode.field_lt
  have field : registerWord operation source mode destination / 16 % 4 = mode.field := by
    unfold registerWord
    omega
  unfold modeOf
  rw [field, SourceMode.ofField?_field]
  rfl

/-- What such a word announces. -/
def registerDraft : Draft :=
  { name := dualOperation operation
    size := ""
    source := some (sourceTemplate false mode source)
    destination := some (.fixed destination.shown)
    sourceHigh := 0
    destinationHigh := 0
    operandsShown := true
    cycles := sourceCycles mode source + destinationCycles false destination (some mode) }

/-- Both the byte bit and the destination bit are clear. -/
theorem dualDraft_registerWord :
    dualDraft none (registerWord operation source mode destination) =
      registerDraft operation source mode destination := by
  have sourceBound := source.isLt
  have destinationBound := destination.isLt
  have modeBound := mode.field_lt
  have operationField :
      registerWord operation source mode destination / 4096 = operation := by
    unfold registerWord
    omega
  have byteBit : registerWord operation source mode destination / 64 % 2 = 0 := by
    unfold registerWord
    omega
  have destinationBit : registerWord operation source mode destination / 128 % 2 = 0 := by
    unfold registerWord
    omega
  unfold dualDraft
  rw [registerAt_source, registerAt_destination, modeOf_registerWord, operationField, byteBit,
    destinationBit]
  cases mode <;> rfl

theorem feed_registerWord (coded : 4 ≤ operation) :
    Reading.fresh.feed plain (registerWord operation source mode destination) =
      (registerDraft operation source mode destination).openSource plain
        { cycles := 1 + (registerDraft operation source mode destination).cycles
          words := [registerWord operation source mode destination] } := by
  have large : 0x4000 ≤ registerWord operation source mode destination := by
    unfold registerWord
    omega
  unfold Reading.feed
  simp only [Reading.fresh, announce, if_pos large, dualDraft_registerWord]
  rfl

end RegisterWord

/-- A source that is shown as it stands. -/
theorem decodes_registerWord_fixed {operation : Nat} {source destination : Register}
    {mode : SourceMode} {text : String} {instruction : Instruction}
    (coded : 4 ≤ operation)
    (template : sourceTemplate false mode source = .fixed text)
    (made : Instruction.make none (dualOperation operation) "" (some text)
      (some destination.shown) = .ok instruction) :
    Decodes plain [registerWord operation source mode destination] (.plain instruction) := by
  apply decodes_of_one_word
  rw [feed_registerWord operation source mode destination coded,
    Draft.openSource_fixed (congrArg some template), Draft.openDestination_fixed rfl]
  exact Draft.close_shown rfl made

/-- A source that shows the word behind the instruction word. -/
theorem decodes_registerWord_number {operation : Nat} {source destination : Register}
    {mode : SourceMode} {opening closing : String} {format : NumberFormat} {value : Nat}
    {instruction : Instruction}
    (coded : 4 ≤ operation)
    (template : sourceTemplate false mode source = .number opening format closing)
    (made : Instruction.make none (dualOperation operation) ""
      (some (opening ++ format.write value ++ closing)) (some destination.shown) =
        .ok instruction) :
    Decodes plain [registerWord operation source mode destination, value]
      (.plain instruction) := by
  have opened := feed_registerWord operation source mode destination coded
  rw [Draft.openSource_number (congrArg some template)] at opened
  apply decodes_of_two_words opened
  have filled : (registerDraft operation source mode destination).source.map
      (Template.fill (0 * 65536 + value)) =
        some (opening ++ format.write value ++ closing) := by
    unfold registerDraft
    rw [template, Nat.zero_mul, Nat.zero_add]
    rfl
  unfold Reading.feed
  change (registerDraft operation source mode destination).openDestination plain
    ((registerDraft operation source mode destination).source.map
      (Template.fill (0 * 65536 + value))) _ = _
  rw [filled, Draft.openDestination_fixed rfl]
  exact Draft.close_shown rfl made

/-! ### Jumps -/

/-- The jump word with a condition and a ten-bit field. -/
def jumpCode (condition field : Nat) : Nat :=
  (8 + condition) * 1024 + field

theorem jumpDistance_jumpCode {condition field : Nat} (bounded : field < 1024) :
    jumpDistance (jumpCode condition field) =
      if field < 512 then 2 * (field : Int) else 2 * (field : Int) - 2048 := by
  have low : jumpCode condition field % 1024 = field := by
    unfold jumpCode
    omega
  unfold jumpDistance
  simp only [low]
  by_cases positive : field < 512
  · rw [if_pos positive, if_pos (by omega)]
  · rw [if_neg positive, if_neg (by omega)]

theorem decodes_jumpCode (setup : Setup) {condition field : Nat} (known : condition < 8)
    (bounded : field < 1024) :
    Decodes setup [jumpCode condition field]
      (Decoded.makeJump (jumpName condition) (jumpDistance (jumpCode condition field))) := by
  have above : 0x2000 ≤ jumpCode condition field := by
    unfold jumpCode
    omega
  have below : ¬ 0x4000 ≤ jumpCode condition field := by
    unfold jumpCode
    omega
  have conditionField : jumpCode condition field / 1024 % 8 = condition := by
    unfold jumpCode
    omega
  apply decodes_of_one_word
  unfold Reading.feed
  simp only [Reading.fresh, announce, if_neg below, if_pos above, conditionField]
  rfl

end Disassembler
end Msp430
