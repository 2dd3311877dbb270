import Msp430.Proofs.Calls

/-!
Drafts and their operand words.  A draft whose operand words are all there becomes the
instruction with these words put in: the source takes the first of them and the
destination the last.  Extension words in front leave only the last of them to the draft.
-/

namespace Msp430
namespace Disassembler

def Trace.useAll (trace : Trace) (words : List Nat) : Trace :=
  words.foldl Trace.use trace

theorem Trace.words_useAll (trace : Trace) (words : List Nat) :
    (trace.useAll words).words = trace.words ++ words := by
  induction words generalizing trace with
  | nil => exact (List.append_nil _).symm
  | cons word others inductionHypothesis =>
      change ((trace.use word).useAll others).words = _
      rw [inductionHypothesis, List.append_cons]
      rfl

namespace Draft

/-- The instruction with known operands, before a name of its own is put in. -/
def instruction (draft : Draft) (source destination : Option String) : Instruction :=
  if draft.operandsShown then
    { name := draft.name
      size := draft.size
      source := source
      destination := destination }
  else { name := draft.name, size := "", source := none, destination := none }

/-- The source with its word put in. -/
def sourceText (draft : Draft) (operands : List Nat) : Option String :=
  draft.source.map (Template.fill (draft.sourceHigh * 65536 + operands.headD 0))

/-- The destination with its word put in. -/
def destinationText (draft : Draft) (operands : List Nat) : Option String :=
  draft.destination.map (Template.fill (draft.destinationHigh * 65536 + operands.getLastD 0))

def filled (draft : Draft) (operands : List Nat) : Instruction :=
  draft.instruction (draft.sourceText operands) (draft.destinationText operands)

theorem openDestination_number {draft : Draft} {opening closing : String}
    {format : NumberFormat}
    (template : draft.destination = some (.number opening format closing)) {setup : Setup}
    {source : Option String} {trace : Trace} :
    draft.openDestination setup source trace =
      .goOn { expected := .destination draft source, trace := trace } := by
  unfold openDestination
  rw [template]
  rfl

theorem destinationText_cons (draft : Draft) {word : Nat} {others : List Nat}
    (counted : others.length = operandCount draft.destination) :
    draft.destinationText (word :: others) = draft.destinationText others := by
  unfold destinationText
  cases described : draft.destination with
  | none => rw [Option.map_none, Option.map_none]
  | some template =>
      rw [described] at counted
      cases template with
      | fixed text => simp only [Option.map_some, Template.fill]
      | number opening format closing =>
          obtain ⟨last, same⟩ := List.length_eq_one_iff.mp counted
          subst same
          have unchanged : [word, last].getLastD 0 = [last].getLastD 0 := rfl
          rw [unchanged]

section Unnamed

variable {setup : Setup} (unnamed : setup.names = none) (draft : Draft)

include unnamed

theorem close_unnamed (source destination : Option String) (trace : Trace) :
    draft.close setup source destination trace =
      .finished (.plain (draft.instruction source destination).underOwnName) trace := by
  unfold close instruction
  rw [unnamed]
  cases draft.operandsShown <;> rfl

theorem openDestination_resume {operands : List Nat}
    (counted : operands.length = operandCount draft.destination) (source : Option String)
    (trace : Trace) (rest : List Nat) :
    (draft.openDestination setup source trace).resume setup (operands ++ rest) =
      .returned (.plain
          (draft.instruction source (draft.destinationText operands)).underOwnName)
        (trace.useAll operands) rest := by
  unfold destinationText
  cases described : draft.destination with
  | none =>
      rw [described] at counted
      cases List.length_eq_zero_iff.mp counted
      unfold openDestination
      rw [described]
      exact congrArg (Step.resume setup rest) (draft.close_unnamed unnamed source none trace)
  | some template =>
      rw [described] at counted
      cases template with
      | fixed text =>
          cases List.length_eq_zero_iff.mp counted
          rw [openDestination_fixed described, draft.close_unnamed unnamed]
          rfl
      | number opening format closing =>
          obtain ⟨word, same⟩ := List.length_eq_one_iff.mp counted
          subst same
          rw [openDestination_number described]
          change Reading.call setup _ (word :: rest) = _
          rw [Reading.call_cons]
          change (draft.close setup source (draft.destination.map _) (trace.use word)).resume
            setup rest = _
          rw [draft.close_unnamed unnamed, described]
          rfl

theorem openSource_resume {operands : List Nat}
    (counted : operands.length = draft.furtherWords) (trace : Trace) (rest : List Nat) :
    (draft.openSource setup trace).resume setup (operands ++ rest) =
      .returned (.plain (draft.filled operands).underOwnName) (trace.useAll operands) rest := by
  unfold furtherWords at counted
  unfold filled sourceText
  cases described : draft.source with
  | none =>
      rw [described] at counted
      unfold openSource
      rw [described]
      exact draft.openDestination_resume unnamed (counted.trans (Nat.zero_add _)) none trace rest
  | some template =>
      rw [described] at counted
      cases template with
      | fixed text =>
          rw [openSource_fixed described]
          exact draft.openDestination_resume unnamed (counted.trans (Nat.zero_add _)) (some text)
            trace rest
      | number opening format closing =>
          cases operands with
          | nil =>
              have missing : 0 = 1 + operandCount draft.destination := counted
              omega
          | cons word others =>
              have left : others.length = operandCount draft.destination := by
                have all : others.length + 1 = 1 + operandCount draft.destination := counted
                omega
              rw [openSource_number described, draft.destinationText_cons left]
              change Reading.call setup _ (word :: (others ++ rest)) = _
              rw [Reading.call_cons]
              change (draft.openDestination setup (draft.source.map _) (trace.use word)).resume
                setup (others ++ rest) = _
              rw [draft.openDestination_resume unnamed left, described]
              rfl

end Unnamed
end Draft

/-! ### Calls that find all operand words -/

/-- A reading that expects an instruction word. -/
def Reading.opening (extension : Option Nat) (trace : Trace) : Reading :=
  { expected := .opcode extension, trace := trace }

theorem call_of_announced {setup : Setup} (unnamed : setup.names = none)
    {extension : Option Nat} {opcode : Nat} {draft : Draft}
    (announced : announce setup.wide extension opcode = .instruction draft)
    {operands : List Nat} (counted : operands.length = draft.furtherWords) (trace : Trace)
    (rest : List Nat) :
    (Reading.opening extension trace).call setup (opcode :: (operands ++ rest)) =
      .returned (.plain (draft.filled operands).underOwnName)
        (((trace.use opcode).spend draft.cycles).useAll operands) rest := by
  rw [Reading.call_cons]
  unfold Reading.feed Reading.opening
  simp only [announced]
  exact draft.openSource_resume unnamed counted _ rest

/-- The words that are taken for extension words. -/
def Extends (wide : Bool) (word : Nat) : Prop :=
  wide = true ∧ 0x1800 ≤ word ∧ word < 0x2000

instance (wide : Bool) (word : Nat) : Decidable (Extends wide word) :=
  inferInstanceAs (Decidable (wide = true ∧ 0x1800 ≤ word ∧ word < 0x2000))

theorem announce_of_extends {wide : Bool} {word : Nat} (marked : Extends wide word)
    (extension : Option Nat) : announce wide extension word = .extension := by
  obtain ⟨admitted, above, below⟩ := marked
  subst admitted
  unfold announce
  rw [if_neg (by omega), if_neg (by omega), if_neg (by omega), if_neg Bool.noConfusion,
    if_neg (by omega), if_neg (by omega), if_neg (by omega)]

/-- Of several extension words the last one counts. -/
theorem call_extensions {setup : Setup} {extensions : List Nat}
    (all : ∀ word ∈ extensions, Extends setup.wide word) (extension : Option Nat)
    (trace : Trace) (stream : List Nat) :
    (Reading.opening extension trace).call setup (extensions ++ stream) =
      (Reading.opening (extensions.getLast?.or extension) (trace.useAll extensions)).call
        setup stream := by
  induction extensions generalizing extension trace with
  | nil => rfl
  | cons word others inductionHypothesis =>
      rw [List.forall_mem_cons] at all
      have fed : (Reading.opening extension trace).feed setup word =
          .goOn (Reading.opening (some word) (trace.use word)) := by
        unfold Reading.feed Reading.opening
        simp only [announce_of_extends all.1]
      have last : others.getLast?.or (some word) = (word :: others).getLast?.or extension := by
        rw [List.getLast?_cons]
        cases others.getLast? <;> rfl
      rw [List.cons_append, Reading.call_cons, fed]
      change (Reading.opening (some word) (trace.use word)).call setup (others ++ stream) = _
      rw [inductionHypothesis all.2, last]
      rfl

/-- Extension words, an instruction word and all the operand words it asks for are one
instruction. -/
theorem decodes_of_announced {setup : Setup} (unnamed : setup.names = none)
    {extensions : List Nat} (all : ∀ word ∈ extensions, Extends setup.wide word)
    {opcode : Nat} {draft : Draft}
    (announced : announce setup.wide extensions.getLast? opcode = .instruction draft)
    {operands : List Nat} (counted : operands.length = draft.furtherWords) :
    Decodes setup (extensions ++ opcode :: operands)
      (.plain (draft.filled operands).underOwnName) := by
  let trace := (((Trace.empty.useAll extensions).use opcode).spend draft.cycles).useAll operands
  have used : trace.words = extensions ++ opcode :: operands := by
    change (Trace.useAll _ operands).words = _
    rw [Trace.words_useAll]
    change ((Trace.empty.useAll extensions).words ++ [opcode]) ++ operands = _
    rw [Trace.words_useAll, List.append_assoc]
    rfl
  refine ⟨trace.cycles, ?_⟩
  intro first rest
  have call : Reading.fresh.call setup (extensions ++ opcode :: operands ++ rest) =
      .returned (.plain (draft.filled operands).underOwnName) trace rest := by
    rw [List.append_assoc]
    change (Reading.opening none Trace.empty).call setup
      (extensions ++ opcode :: (operands ++ rest)) = _
    rw [call_extensions all, Option.or_none]
    exact call_of_announced unnamed announced counted _ rest
  rw [decodeFrom_eq_call, call, ← used]
  rfl

theorem Decodes.unique {setup : Setup} {words : List Nat} {first second : Decoded}
    (decodesFirst : Decodes setup words first) (decodesSecond : Decodes setup words second) :
    first = second := by
  obtain ⟨firstCycles, firstDecoding⟩ := decodesFirst
  obtain ⟨secondCycles, secondDecoding⟩ := decodesSecond
  have same := (firstDecoding 0 []).symm.trans (secondDecoding 0 [])
  have heads := congrArg (fun decoding => decoding.items.head?.map Item.decoded) same
  exact Option.some.inj heads

/-- The first instruction of a stream without an extension word: there is one exactly where
the operand words it asks for are there. -/
theorem first_of_announced {setup : Setup} (unnamed : setup.names = none) {opcode : Nat}
    {draft : Draft} (announced : announce setup.wide none opcode = .instruction draft)
    (start : Int) (following : List Nat) :
    (decode setup start (opcode :: following)).items.head?.map
        (fun item => (item.decoded, item.words)) =
      if draft.furtherWords ≤ following.length then
        some (.plain (draft.filled (following.take draft.furtherWords)).underOwnName,
          opcode :: following.take draft.furtherWords)
      else none := by
  by_cases enough : draft.furtherWords ≤ following.length
  · have unextended : ∀ word ∈ ([] : List Nat), Extends setup.wide word := nofun
    obtain ⟨cycles, decoded⟩ := decodes_of_announced unnamed unextended announced
      (List.length_take_of_le enough)
    have split : opcode :: following =
        [] ++ opcode :: following.take draft.furtherWords ++
          following.drop draft.furtherWords := by
      rw [List.nil_append, List.cons_append, List.take_append_drop]
    unfold decode
    rw [if_pos enough, split, decoded]
    rfl
  · have whole : announce setup.wide none opcode ≠ .extension := by
      rw [announced]
      exact Announcement.noConfusion
    have uses := call_fresh_uses unnamed whole following
    rw [announced] at uses
    unfold decode
    rw [if_neg enough, decodeFrom_eq_call]
    cases call : Reading.fresh.call setup (opcode :: following) with
    | returned decoded trace rest =>
        rw [call] at uses
        exact absurd (Nat.le_of_succ_le_succ uses.1) enough
    | cutShort trace => rfl
    | failed fault trace => rfl

end Disassembler
end Msp430
