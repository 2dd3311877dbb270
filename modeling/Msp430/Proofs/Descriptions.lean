import Msp430.Proofs.Calls
import Msp430.Proofs.Listings
import Msp430.Proofs.Numerals

/-!
Instructions that can be described.  An instruction is asked for its target only if it
is a call of an immediate address, and such an address is always a number that was
written by the decoder itself.  `Expected.Sound` carries this from the instruction word
to the last operand word.  Main statement: without names no listing ever fails.
-/

namespace Msp430
namespace Disassembler

/-! ### Addressing modes -/

/-- The operand fields of a word with one operand. -/
def singleFields (opcode : Nat) : OperandFields :=
  { byteWide := opcode / 64 % 2 == 1
    source := some (opcode / 16 % 4, registerAt opcode 0)
    destination := none }

/-- The operand fields of a word with two operands. -/
def dualFields (opcode : Nat) : OperandFields :=
  { byteWide := opcode / 64 % 2 == 1
    source := some (opcode / 16 % 4, registerAt opcode 8)
    destination := some (opcode / 128 % 2 == 1, registerAt opcode 0) }

theorem sourceMode_field (opcode : Nat) (register : Register) :
    sourceMode (opcode / 16 % 4) register = .ok (modeOf opcode) := by
  have bounded : opcode / 16 % 4 < 4 := Nat.mod_lt _ (by decide)
  unfold sourceMode modeOf
  generalize opcode / 16 % 4 = field at bounded
  match field, bounded with
  | 0, _ => rfl
  | 1, _ => rfl
  | 2, _ => rfl
  | 3, _ => rfl

theorem plan_singleFields (extension : Option Nat) (opcode : Nat) :
    (singleFields opcode).plan =
      .ok { source := (singleDraft extension opcode).destination
            destination := none
            cycles := sourceCycles (modeOf opcode) (registerAt opcode 0) } := by
  unfold OperandFields.plan singleFields
  simp only [sourceMode_field]
  rfl

theorem plan_dualFields (extension : Option Nat) (opcode : Nat) :
    (dualFields opcode).plan =
      .ok { source := (dualDraft extension opcode).source
            destination := (dualDraft extension opcode).destination
            cycles := sourceCycles (modeOf opcode) (registerAt opcode 8) +
              destinationCycles (opcode / 128 % 2 == 1) (registerAt opcode 0)
                (some (modeOf opcode)) } := by
  unfold OperandFields.plan dualFields
  simp only [sourceMode_field]
  rfl

/-- A word is put into a template exactly where its text marks a gap. -/
def Template.Marked (gap : String) (template : Template) : Prop :=
  '%' ∈ (template.spelled gap).toList ↔ template.needsWord = true

theorem Template.marked_number (gap opening closing : String) (format : NumberFormat) :
    (Template.number opening format closing).Marked gap := by
  unfold Template.Marked Template.spelled
  simp [String.toList_append, Template.needsWord]

theorem Template.marked_fixed (gap : String) {text : String} (whole : '%' ∉ text.toList) :
    (Template.fixed text).Marked gap :=
  ⟨fun marked => absurd marked whole, fun needs => nomatch needs⟩

theorem whole_shown : ∀ register : Register, '%' ∉ register.shown.toList := by
  decide

theorem marked_sourceTemplate (byteWide : Bool) (mode : SourceMode) (register : Register) :
    (sourceTemplate byteWide mode register).Marked "x" := by
  have whole := whole_shown register
  unfold sourceTemplate
  split
  · exact Template.marked_fixed "x" (by decide)
  · exact Template.marked_fixed "x" (by decide)
  · exact Template.marked_fixed "x" (by decide)
  · exact Template.marked_fixed "x" (by decide)
  · exact Template.marked_fixed "x" (by decide)
  · apply Template.marked_fixed
    cases byteWide <;> decide
  · exact Template.marked_fixed "x" whole
  · exact Template.marked_number "x" _ _ _
  · exact Template.marked_number "x" _ _ _
  · exact Template.marked_number "x" _ _ _
  · apply Template.marked_fixed
    simp [String.toList_append, whole]
  · exact Template.marked_number "x" _ _ _
  · apply Template.marked_fixed
    simp [String.toList_append, whole]

theorem marked_destinationTemplate (indexed : Bool) (register : Register) :
    (destinationTemplate indexed register).Marked "y" := by
  unfold destinationTemplate
  cases indexed with
  | false => exact Template.marked_fixed "y" (whole_shown register)
  | true =>
      rw [if_pos rfl]
      split
      · exact Template.marked_number "y" _ _ _
      · exact Template.marked_number "y" _ _ _
      · exact Template.marked_number "y" _ _ _

/-! ### Texts that a call can go to -/

/-- A text for the destination of a call: it is not empty, and if it is immediate it is a
number. -/
def Callable (text : String) : Prop :=
  ∃ c rest, text.toList = c :: rest ∧
    (c = '#' → ∃ value, literal (String.ofList rest) = .ok value)

theorem callable_of_head {text : String} {c : Char} {rest : List Char}
    (spelled : text.toList = c :: rest) (memory : c ≠ '#') : Callable text :=
  ⟨c, rest, spelled, fun immediate => absurd immediate memory⟩

theorem callable_append {opening : String} {c : Char} {rest : List Char}
    (spelled : opening.toList = c :: rest) (memory : c ≠ '#') (behind : String) :
    Callable (opening ++ behind) := by
  apply callable_of_head _ memory
  · exact rest ++ behind.toList
  · rw [String.toList_append, spelled]
    rfl

theorem callable_immediate (text : String) (rest : List Char) (value : Int)
    (spelled : text.toList = '#' :: rest)
    (read : Numeral.literal? (String.ofList rest) = some value) : Callable text := by
  refine ⟨'#', rest, spelled, ?_⟩
  intro _immediate
  refine ⟨value, ?_⟩
  unfold literal
  rw [read]

theorem callable_shown (register : Register) : Callable register.shown := by
  have named : ∀ register : Register,
      register.shown.toList ≠ [] ∧ '#' ∉ register.shown.toList := by
    decide
  obtain ⟨present, memory⟩ := named register
  obtain ⟨c, rest, spelled⟩ := List.exists_cons_of_ne_nil present
  apply callable_of_head spelled
  intro immediate
  rw [spelled, immediate] at memory
  exact memory List.mem_cons_self

theorem callable_sourceTemplate (byteWide : Bool) (mode : SourceMode) (register : Register)
    (number : Nat) : Callable ((sourceTemplate byteWide mode register).fill number) := by
  unfold sourceTemplate
  split
  · exact callable_immediate "#4" ['4'] 4 (by decide) (by decide)
  · exact callable_immediate "#8" ['8'] 8 (by decide) (by decide)
  · exact callable_immediate "#0" ['0'] 0 (by decide) (by decide)
  · exact callable_immediate "#1" ['1'] 1 (by decide) (by decide)
  · exact callable_immediate "#2" ['2'] 2 (by decide) (by decide)
  · cases byteWide with
    | false =>
        exact callable_immediate "#0xffff" ['0', 'x', 'f', 'f', 'f', 'f'] 0xffff (by decide)
          (by decide)
    | true =>
        exact callable_immediate "#0xff" ['0', 'x', 'f', 'f'] 0xff (by decide) (by decide)
  · exact callable_shown register
  · rw [Template.fill, String.append_assoc]
    exact callable_append rfl (by decide) _
  · rw [Template.fill, String.append_assoc]
    exact callable_append rfl (by decide) _
  · rw [Template.fill, String.append_assoc]
    exact callable_append rfl (by decide) _
  · exact callable_append rfl (by decide) _
  · -- Only here is the number of an operand word the target.
    apply callable_immediate _
      ("0x" ++ Numeral.hexField (if byteWide then 2 else 4) number).toList number
    · rw [Template.fill, NumberFormat.write, String.append_empty, String.toList_append,
        String.toList_append]
      rfl
    · rw [String.ofList_toList]
      exact Numeral.literal?_hexField _ number
  · rw [Template.fill, String.append_assoc]
    exact callable_append rfl (by decide) _

/-! ### Questions about an instruction -/

/-- Whether an instruction jumps is known, and if it does, so are its target and its text
with a label. -/
def Decoded.Describable (decoded : Decoded) : Prop :=
  ∃ jumps, decoded.jumps = .ok jumps ∧
    (jumps = true →
      (∀ next, ∃ target, decoded.target next = .ok target) ∧
        ∀ label, ∃ text, decoded.labelled label = .ok text)

namespace Instruction

theorem jumps_of_ne_call {instruction : Instruction} (other : instruction.name ≠ "call") :
    instruction.jumps = .ok false := by
  unfold jumps
  by_cases counter : instruction.destination = some "PC"
  · rw [if_pos (Or.inr counter), counter]
    rfl
  · rw [if_neg (fun either => either.elim other counter)]

theorem describable_of_call {instruction : Instruction} {text : String}
    (called : instruction.name = "call") (alone : instruction.source = none)
    (shown : instruction.destination = some text) (callable : Callable text) :
    (Decoded.plain instruction).Describable := by
  obtain ⟨c, rest, spelled, number⟩ := callable
  have jumps : instruction.jumps = .ok (c == '#') := by
    unfold Instruction.jumps
    rw [if_pos (Or.inl called), shown]
    simp only [spelled]
  refine ⟨c == '#', jumps, ?_⟩
  intro immediate
  have mark : c = '#' := eq_of_beq immediate
  subst mark
  obtain ⟨value, read⟩ := number rfl
  constructor
  · intro next
    refine ⟨value, ?_⟩
    change instruction.target next = .ok value
    unfold target
    rw [if_pos (Or.inl called), shown]
    simp only [spelled]
    exact read
  · intro label
    refine ⟨Text.padRight mnemonicWidth instruction.name ++ " #" ++ label, ?_⟩
    change instruction.labelled label = _
    unfold labelled
    rw [jumps, alone, shown, Option.map_some, spelled]
    rfl

theorem ownName?_ne_call {name own : String} {source destination shown : Option String}
    (named : ownName? name source destination = some (own, shown)) : own ≠ "call" := by
  unfold ownName? ownName?.bySource ownName?.additive ownName?.carrying ownName?.subtractive
    ownName?.moving ownName?.status at named
  repeat' split at named
  all_goals cases named
  all_goals decide

theorem underOwnName_of_call {instruction : Instruction}
    (called : instruction.underOwnName.name = "call") :
    instruction.underOwnName = instruction := by
  unfold underOwnName at called ⊢
  cases named : ownName? instruction.name instruction.source instruction.destination with
  | none => rfl
  | some entry =>
      rw [named] at called
      exact absurd called (ownName?_ne_call named)

theorem describable_underOwnName {instruction : Instruction}
    (callable : instruction.name = "call" → instruction.source = none ∧
      ∃ text, instruction.destination = some text ∧ Callable text) :
    (Decoded.plain instruction.underOwnName).Describable := by
  by_cases called : instruction.underOwnName.name = "call"
  · have same := underOwnName_of_call called
    rw [same] at called ⊢
    obtain ⟨alone, text, shown, reached⟩ := callable called
    exact describable_of_call called alone shown reached
  · refine ⟨false, jumps_of_ne_call called, ?_⟩
    intro impossible
    cases impossible

end Instruction

/-! ### Drafts -/

namespace Draft

/-- What a draft promises: a call has one operand, it is shown, and it can be gone to. -/
def Sound (draft : Draft) : Prop :=
  draft.name = "call" →
    draft.operandsShown = true ∧ draft.source = none ∧
      ∃ template, draft.destination = some template ∧
        ∀ number, Callable (template.fill number)

theorem sound_of_ne_call {draft : Draft} (other : draft.name ≠ "call") : draft.Sound :=
  fun called => absurd called other

theorem sound_illegal (opcode : Nat) : (illegal opcode).Sound := by
  apply sound_of_ne_call
  intro called
  have spelled := congrArg (fun name => name.toList.head?) called
  change ("illegal-insn-0x" ++ Numeral.hexField 4 opcode).toList.head? = _ at spelled
  rw [String.toList_append] at spelled
  exact absurd spelled (by simp)

theorem sound_single (extension : Option Nat) (opcode : Nat) :
    (singleDraft extension opcode).Sound := by
  intro called
  refine ⟨?_, rfl, _, rfl, callable_sourceTemplate _ _ _⟩
  change ((singleDraft extension opcode).name != "reti") = true
  rw [called]
  decide

theorem sound_dual (extension : Option Nat) (opcode : Nat) :
    (dualDraft extension opcode).Sound := by
  apply sound_of_ne_call
  change extendedName extension (dualOperation (opcode / 4096)) ≠ "call"
  unfold extendedName dualOperation
  split <;> split <;> decide

theorem sound_address (opcode : Nat) : (addressDraft opcode).Sound := by
  have rotations : ∀ code, rotation code ++ ".a" ≠ "call" ∧ rotation code ++ ".w" ≠ "call" := by
    intro code
    unfold rotation
    split <;> decide
  apply sound_of_ne_call
  unfold addressDraft
  split
  case h_5 => exact (rotations _).1
  case h_6 => exact (rotations _).2
  all_goals
    dsimp only [ofTemplates]
    decide

theorem sound_call (opcode : Nat) : (callDraft opcode).Sound := by
  unfold callDraft
  split
  · apply sound_of_ne_call
    dsimp only [ofTemplates]
    decide
  · split
    case h_8 => exact sound_illegal opcode
    all_goals
      apply sound_of_ne_call
      dsimp only [ofTemplates]
      decide

theorem sound_stack (opcode : Nat) : (stackDraft opcode).Sound := by
  apply sound_of_ne_call
  unfold stackDraft
  dsimp only [ofTemplates]
  split <;> decide

end Draft

theorem announce_sound {wide : Bool} {extension : Option Nat} {opcode : Nat} {draft : Draft}
    (announced : announce wide extension opcode = .instruction draft) : draft.Sound := by
  unfold announce at announced
  repeat' split at announced
  all_goals cases announced
  · exact Draft.sound_dual extension opcode
  · exact Draft.sound_single extension opcode
  · exact Draft.sound_illegal opcode
  · exact Draft.sound_address opcode
  · exact Draft.sound_call opcode
  · exact Draft.sound_stack opcode

/-! ### From the instruction word to the last operand word -/

def Expected.Sound : Expected → Prop
  | .opcode _ => True
  | .source draft => draft.Sound
  | .destination draft known => draft.Sound ∧ (draft.name = "call" → known = none)

def Step.Sound : Step → Prop
  | .goOn reading => reading.expected.Sound
  | .finished decoded _ => decoded.Describable
  | .failed _ _ => False

section Unnamed

variable {setup : Setup} (unnamed : setup.names = none)

include unnamed

namespace Draft

variable {draft : Draft} (sound : draft.Sound)

include sound

theorem close_sound {source destination : Option String}
    (callable : draft.name = "call" →
      source = none ∧ ∃ text, destination = some text ∧ Callable text) (trace : Trace) :
    (draft.close setup source destination trace).Sound := by
  unfold close
  rw [unnamed]
  cases shown : draft.operandsShown with
  | true => exact Instruction.describable_underOwnName callable
  | false =>
      apply Instruction.describable_underOwnName
      intro called
      have visible := (sound called).1
      rw [shown] at visible
      cases visible

theorem openDestination_sound {source : Option String}
    (alone : draft.name = "call" → source = none) (trace : Trace) :
    (draft.openDestination setup source trace).Sound := by
  unfold openDestination
  cases destination : draft.destination with
  | none =>
      apply close_sound unnamed sound
      intro called
      obtain ⟨_, _, template, present, _⟩ := sound called
      rw [destination] at present
      cases present
  | some template =>
      cases needs : template.needsWord with
      | true =>
          simp only [needs, if_true]
          exact ⟨sound, alone⟩
      | false =>
          simp only [needs, Bool.false_eq_true, if_false]
          apply close_sound unnamed sound
          intro called
          obtain ⟨_, _, other, same, callable⟩ := sound called
          rw [destination] at same
          cases same
          exact ⟨alone called, _, rfl, callable 0⟩

theorem openSource_sound (trace : Trace) : (draft.openSource setup trace).Sound := by
  unfold openSource
  cases source : draft.source with
  | none => exact openDestination_sound unnamed sound (fun _ => rfl) trace
  | some template =>
      -- A call has no source, so nothing is asked of this one.
      have other : draft.name = "call" → some (template.fill 0) = none := by
        intro called
        have absent := (sound called).2.1
        rw [source] at absent
        cases absent
      cases needs : template.needsWord with
      | true =>
          simp only [needs, if_true]
          exact sound
      | false =>
          simp only [needs, Bool.false_eq_true, if_false]
          exact openDestination_sound unnamed sound other trace

end Draft

theorem Reading.feed_sound {reading : Reading} (sound : reading.expected.Sound) (word : Nat) :
    (reading.feed setup word).Sound := by
  unfold Reading.feed
  cases expected : reading.expected with
  | opcode extension =>
      cases announced : announce setup.wide extension word with
      | extension =>
          simp only [announced]
          exact trivial
      | jump name offset =>
          simp only [announced]
          exact ⟨true, rfl, fun _ => ⟨fun _ => ⟨_, rfl⟩, fun _ => ⟨_, rfl⟩⟩⟩
      | instruction draft =>
          simp only [announced]
          exact Draft.openSource_sound unnamed (announce_sound announced) _
  | source draft =>
      rw [expected] at sound
      apply Draft.openDestination_sound unnamed sound
      intro called
      rw [(sound called).2.1]
      rfl
  | destination draft source =>
      rw [expected] at sound
      obtain ⟨draftSound, alone⟩ := sound
      apply Draft.close_sound unnamed draftSound
      intro called
      obtain ⟨_, _, template, same, callable⟩ := draftSound called
      rw [same]
      exact ⟨alone called, _, rfl, callable _⟩

theorem decodeFrom_describable {reading : Reading} (sound : reading.expected.Sound)
    (first : Int) (stream : List Nat) :
    (decodeFrom setup first reading stream).fault = none ∧
      ∀ item ∈ (decodeFrom setup first reading stream).items, item.decoded.Describable := by
  induction stream generalizing reading first with
  | nil =>
      refine ⟨rfl, ?_⟩
      intro item member
      cases member
  | cons word others inductionHypothesis =>
      have step := Reading.feed_sound unnamed sound word
      rw [decodeFrom]
      cases fed : reading.feed setup word with
      | goOn next =>
          rw [fed] at step
          exact inductionHypothesis step first
      | failed fault trace =>
          rw [fed] at step
          exact step.elim
      | finished decoded trace =>
          rw [fed] at step
          have fresh : Reading.fresh.expected.Sound := trivial
          obtain ⟨unfailing, later⟩ :=
            inductionHypothesis fresh (first + 2 * trace.words.length)
          refine ⟨unfailing, ?_⟩
          intro item member
          rcases List.mem_cons.mp member with here | behind
          · rw [here]
            exact step
          · exact later item behind

end Unnamed

/-! ### Listings without names -/

theorem Item.describe_ok {item : Item} (describable : item.decoded.Describable) (setup : Setup)
    (labels : Labels) : ∃ lines, (item.describe setup labels).2 = .ok lines := by
  obtain ⟨jumps, asked, reached⟩ := describable
  unfold Item.describe
  cases jumps with
  | false =>
      rw [asked]
      exact ⟨_, rfl⟩
  | true =>
      obtain ⟨targets, texts⟩ := reached rfl
      obtain ⟨target, found⟩ := targets (item.address + 2)
      obtain ⟨text, labelled⟩ := texts ((labels.add target).nameOf target)
      simp only [asked, found, labelled]
      exact ⟨_, rfl⟩

theorem inTurn_ok {α : Type} {describe : Labels → α → Labels × Except Fault (List Line)}
    {inputs : List α}
    (each : ∀ input ∈ inputs, ∀ labels, ∃ lines, (describe labels input).2 = .ok lines)
    (labels : Labels) : ∃ lines, (inTurn describe labels inputs).2 = .ok lines := by
  induction inputs generalizing labels with
  | nil => exact ⟨[], rfl⟩
  | cons input others inductionHypothesis =>
      rw [List.forall_mem_cons] at each
      obtain ⟨lines, first⟩ := each.1 labels
      rcases described : describe labels input with ⟨next, fault | found⟩
      · rw [described] at first
        cases first
      · obtain ⟨later, rest⟩ := inductionHypothesis each.2 next
        rw [inTurn_cons_ok described, rest]
        exact ⟨found ++ later, rfl⟩

section Unnamed

variable {setup : Setup} (unnamed : setup.names = none)

include unnamed

theorem Segment.describe_ok (segment : Segment) (labels : Labels) :
    ∃ lines, (segment.describe setup labels).2 = .ok lines := by
  have fresh : Reading.fresh.expected.Sound := trivial
  obtain ⟨decoded, describable⟩ :=
    decodeFrom_describable unnamed fresh segment.start (words segment.bytes)
  have each : ∀ item ∈ (segment.decoding setup).items, ∀ labels,
      ∃ lines, (item.describe setup labels).2 = .ok lines :=
    fun item member => item.describe_ok (describable item member) setup
  obtain ⟨lines, described⟩ := inTurn_ok each labels
  rw [segment.describe_of_decoded labels decoded, describeAll_eq_inTurn, described]
  exact ⟨segment.heading :: lines, rfl⟩

theorem disassemble_ok (segments : List Segment) (labels : Labels) (sourceOnly : Bool) :
    ∃ text, (disassemble setup segments labels sourceOnly).2 = .ok text := by
  have each : ∀ segment ∈ inOrder segments, ∀ labels,
      ∃ lines, (segment.describe setup labels).2 = .ok lines :=
    fun segment _member => segment.describe_ok unnamed
  obtain ⟨lines, described⟩ := inTurn_ok each labels
  rw [← describeSegments_eq_inTurn] at described
  unfold disassemble
  rcases listed : describeSegments setup labels (inOrder segments) with ⟨next, fault | found⟩
  · rw [listed] at described
    cases described
  · exact ⟨_, rfl⟩

end Unnamed

/-- Without names every listing of a memory succeeds, whatever it holds.  Every segment is
decoded, every question about its instructions is answered, and the operand fields of
every word are those of an addressing mode, whose templates are filled where they have a
gap. -/
theorem listings_unnamed_succeed (wide : Bool) (segments : List Segment) (flags : List Bool) :
    (∀ listing ∈ listings (bare wide) segments Labels.empty flags,
        ∃ text, listing.2 = .ok text) ∧
      (∀ segment ∈ segments,
        (decode (bare wide) segment.start (words segment.bytes)).fault = none ∧
          ∀ item ∈ (decode (bare wide) segment.start (words segment.bytes)).items,
            item.decoded.Describable) ∧
      ∀ extension opcode,
        (∃ plan, (singleFields opcode).plan = .ok plan ∧
          plan.source = (singleDraft extension opcode).destination ∧
          ∀ template ∈ plan.source, template.Marked "x") ∧
        ∃ plan, (dualFields opcode).plan = .ok plan ∧
          plan.source = (dualDraft extension opcode).source ∧
          plan.destination = (dualDraft extension opcode).destination ∧
          (∀ template ∈ plan.source, template.Marked "x") ∧
          ∀ template ∈ plan.destination, template.Marked "y" := by
  refine ⟨?_, ?_, ?_⟩
  · intro listing member
    rw [listings_eq_map] at member
    obtain ⟨sourceOnly, _flag, same⟩ := List.mem_map.mp member
    rw [← same]
    exact disassemble_ok rfl segments Labels.empty sourceOnly
  · intro segment _member
    have fresh : Reading.fresh.expected.Sound := trivial
    exact decodeFrom_describable rfl fresh segment.start (words segment.bytes)
  · intro extension opcode
    refine ⟨⟨_, plan_singleFields extension opcode, rfl, ?_⟩,
      ⟨_, plan_dualFields extension opcode, rfl, rfl, ?_, ?_⟩⟩
    · intro template present
      cases present
      exact marked_sourceTemplate _ _ _
    · intro template present
      cases present
      exact marked_sourceTemplate _ _ _
    · intro template present
      cases present
      exact marked_destinationTemplate _ _

/-- A call of an immediate address, listed twice. -/
theorem listings_unnamed_succeed_call :
    let segment : Segment := { start := 0x200, bytes := [0xb0, 0x12, 0x34, 0x12] }
    (∃ listing ∈ listings (bare false) [segment] Labels.empty [false, true],
        ∃ text, listing.2 = .ok text) ∧
      ∃ item ∈ (decode (bare false) segment.start (words segment.bytes)).items,
        item.decoded.jumps = .ok true ∧ item.decoded.Describable := by
  intro segment
  obtain ⟨succeed, describable, _⟩ := listings_unnamed_succeed false [segment] [false, true]
  obtain ⟨_, each⟩ := describable segment List.mem_cons_self
  have decoded : (decode (bare false) segment.start (words segment.bytes)).items =
      [{ address := 0x200
         decoded := .plain
          { name := "call", size := "", source := none, destination := some "#0x1234" }
         cycles := 5
         words := [0x12b0, 0x1234] }] := by
    decide
  rw [decoded] at each ⊢
  exact ⟨⟨_, List.mem_cons_self, succeed _ List.mem_cons_self⟩,
    _, List.mem_cons_self, rfl, each _ List.mem_cons_self⟩

end Disassembler
end Msp430
