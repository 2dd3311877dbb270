import Msp430.Disassembler.Words
import Msp430.Proofs.Decoding

/-!
Calls of the decoder.  A call reads words until an instruction is complete, and
decoding a stream is a run of calls, one after the other and counted.  `Outcome.Uses`
says how many words of a stream a call takes: without an extension word that number is
read off the instruction word alone.  Main statement: a decoding without names loses no
word and takes none twice.
-/

namespace Msp430
namespace Disassembler

def bare (wide : Bool) : Setup :=
  { wide := wide, names := none }

/-- How a call ends: with an instruction and the words behind it, with all words
used up, or with a fault. -/
inductive Outcome where
  | returned (decoded : Decoded) (trace : Trace) (rest : List Nat)
  | cutShort (trace : Trace)
  | failed (fault : Fault) (trace : Trace)

/-- Read words until an instruction is complete. -/
def Reading.call (setup : Setup) (reading : Reading) : List Nat → Outcome
  | [] => .cutShort reading.trace
  | word :: others =>
      match reading.feed setup word with
      | .goOn next => next.call setup others
      | .finished decoded trace => .returned decoded trace others
      | .failed fault trace => .failed fault trace

def Step.resume (setup : Setup) (stream : List Nat) : Step → Outcome
  | .goOn reading => reading.call setup stream
  | .finished decoded trace => .returned decoded trace stream
  | .failed fault trace => .failed fault trace

theorem Reading.call_cons (setup : Setup) (reading : Reading) (word : Nat)
    (others : List Nat) :
    reading.call setup (word :: others) = (reading.feed setup word).resume setup others := by
  rw [Reading.call]
  cases reading.feed setup word <;> rfl

def Outcome.decoding (setup : Setup) (first : Int) : Outcome → Decoding
  | .returned decoded trace rest =>
      let later := decode setup (first + 2 * trace.words.length) rest
      { later with
        items :=
          { address := first
            decoded := decoded
            cycles := trace.cycles
            words := trace.words } :: later.items }
  | .cutShort trace =>
      { items := [], remainder := { first := first, trace := trace }, fault := none }
  | .failed fault trace =>
      { items := [], remainder := { first := first, trace := trace }, fault := some fault }

theorem decodeFrom_eq_call (setup : Setup) (first : Int) (reading : Reading)
    (stream : List Nat) :
    decodeFrom setup first reading stream =
      (reading.call setup stream).decoding setup first := by
  induction stream generalizing reading with
  | nil => rfl
  | cons word others inductionHypothesis =>
      rw [decodeFrom, Reading.call_cons]
      cases reading.feed setup word with
      | goOn next => exact inductionHypothesis next
      | finished decoded trace => rfl
      | failed fault trace => rfl

/-! ### The words that a call uses -/

/-- The outcome of an instruction that has used some words already and asks for
`count` further ones of a stream. -/
def Outcome.Uses (count : Nat) (used stream : List Nat) : Outcome → Prop
  | .returned _ trace rest =>
      count ≤ stream.length ∧ trace.words = used ++ stream.take count ∧
        rest = stream.drop count
  | .cutShort trace => stream.length < count ∧ trace.words = used ++ stream
  | .failed _ _ => False

theorem Outcome.Uses.cons {count word : Nat} {used others : List Nat} {outcome : Outcome}
    (uses : outcome.Uses count (used ++ [word]) others) :
    outcome.Uses (count + 1) used (word :: others) := by
  cases outcome with
  | returned decoded trace rest =>
      obtain ⟨enough, words, left⟩ := uses
      refine ⟨Nat.succ_le_succ enough, ?_, left⟩
      rw [words, List.append_assoc]
      rfl
  | cutShort trace =>
      obtain ⟨few, words⟩ := uses
      refine ⟨Nat.succ_lt_succ few, ?_⟩
      rw [words, List.append_assoc]
      rfl
  | failed fault trace => exact uses

theorem Reading.call_uses_succ {setup : Setup} {reading : Reading} {count : Nat}
    {stream : List Nat}
    (step : ∀ word others, stream = word :: others →
      ((reading.feed setup word).resume setup others).Uses count
        (reading.trace.words ++ [word]) others) :
    (reading.call setup stream).Uses (count + 1) reading.trace.words stream := by
  cases stream with
  | nil => exact ⟨Nat.succ_pos count, (List.append_nil _).symm⟩
  | cons word others =>
      rw [Reading.call_cons]
      exact (step word others rfl).cons

def operandCount : Option Template → Nat
  | none => 0
  | some template => if template.needsWord then 1 else 0

theorem operandCount_le_one (operand : Option Template) : operandCount operand ≤ 1 := by
  unfold operandCount
  cases operand with
  | none => exact Nat.zero_le 1
  | some template =>
      change (if template.needsWord = true then 1 else 0) ≤ 1
      split <;> decide

namespace Draft

def furtherWords (draft : Draft) : Nat :=
  operandCount draft.source + operandCount draft.destination

variable {setup : Setup} (unnamed : setup.names = none) (draft : Draft)

include unnamed

theorem close_uses (source destination : Option String) (trace : Trace) (stream : List Nat) :
    ((draft.close setup source destination trace).resume setup stream).Uses 0
      trace.words stream := by
  have closed : ∃ instruction, draft.close setup source destination trace =
      .finished (.plain instruction) trace := by
    unfold close
    rw [unnamed]
    cases draft.operandsShown with
    | false => exact ⟨_, rfl⟩
    | true => exact ⟨_, rfl⟩
  obtain ⟨instruction, same⟩ := closed
  rw [same]
  exact ⟨Nat.zero_le _, (List.append_nil _).symm, rfl⟩

theorem openDestination_uses (source : Option String) (trace : Trace) (stream : List Nat) :
    ((draft.openDestination setup source trace).resume setup stream).Uses
      (operandCount draft.destination) trace.words stream := by
  unfold openDestination operandCount
  cases draft.destination with
  | none => exact draft.close_uses unnamed source none trace stream
  | some template =>
      cases needs : template.needsWord with
      | false =>
          simp only [needs, Bool.false_eq_true, if_false]
          exact draft.close_uses unnamed source (some (template.fill 0)) trace stream
      | true =>
          simp only [needs, if_true]
          apply Reading.call_uses_succ
          intro word others _same
          exact draft.close_uses unnamed source _ (trace.use word) others

theorem openSource_uses (trace : Trace) (stream : List Nat) :
    ((draft.openSource setup trace).resume setup stream).Uses draft.furtherWords
      trace.words stream := by
  unfold openSource furtherWords operandCount
  cases draft.source with
  | none =>
      rw [Nat.zero_add]
      exact draft.openDestination_uses unnamed none trace stream
  | some template =>
      cases needs : template.needsWord with
      | false =>
          simp only [needs, Bool.false_eq_true, if_false, Nat.zero_add]
          exact draft.openDestination_uses unnamed (some (template.fill 0)) trace stream
      | true =>
          simp only [needs, if_true]
          rw [Nat.add_comm]
          apply Reading.call_uses_succ
          intro word others _same
          exact draft.openDestination_uses unnamed _ (trace.use word) others

end Draft

def Announcement.furtherWords : Announcement → Nat
  | .jump _ _ => 0
  | .instruction draft => draft.furtherWords
  | .extension => 0

theorem Announcement.furtherWords_le_two (announcement : Announcement) :
    announcement.furtherWords ≤ 2 := by
  cases announcement with
  | jump name offset => exact Nat.zero_le 2
  | instruction draft =>
      exact Nat.add_le_add (operandCount_le_one draft.source)
        (operandCount_le_one draft.destination)
  | extension => exact Nat.zero_le 2

theorem announce_narrow_ne_extension (extension : Option Nat) (opcode : Nat) :
    announce false extension opcode ≠ .extension := by
  unfold announce
  split
  · exact Announcement.noConfusion
  · split
    · exact Announcement.noConfusion
    · split
      · exact Announcement.noConfusion
      · rw [if_pos rfl]
        exact Announcement.noConfusion

section Words

variable {setup : Setup} (unnamed : setup.names = none)

include unnamed

theorem Reading.feed_uses_of_opcode {reading : Reading} {extension : Option Nat} {word : Nat}
    (expected : reading.expected = .opcode extension)
    (whole : announce setup.wide extension word ≠ .extension) (others : List Nat) :
    ((reading.feed setup word).resume setup others).Uses
      (announce setup.wide extension word).furtherWords
      (reading.trace.words ++ [word]) others := by
  unfold Reading.feed
  rw [expected]
  cases announced : announce setup.wide extension word with
  | jump name offset =>
      simp only [announced]
      exact ⟨Nat.zero_le _, (List.append_nil _).symm, rfl⟩
  | instruction draft =>
      simp only [announced]
      exact draft.openSource_uses unnamed ((reading.trace.use word).spend draft.cycles) others
  | extension => exact absurd announced whole

/-- Every call takes at least one word, if only it finds one, and then as many as it
asks for. -/
theorem Reading.call_uses (reading : Reading) (stream : List Nat) :
    ∃ count, (reading.call setup stream).Uses (count + 1) reading.trace.words stream := by
  -- Only an extension word leaves the decoder where it was, expecting an instruction word.
  induction stream generalizing reading with
  | nil =>
      refine ⟨0, Reading.call_uses_succ ?_⟩
      intro word others same
      cases same
  | cons word others inductionHypothesis =>
      have step : ∃ count, ((reading.feed setup word).resume setup others).Uses count
          (reading.trace.words ++ [word]) others := by
        cases expected : reading.expected with
        | opcode extension =>
            by_cases announced : announce setup.wide extension word = .extension
            · obtain ⟨count, uses⟩ := inductionHypothesis
                { expected := .opcode (some word), trace := reading.trace.use word }
              refine ⟨count + 1, ?_⟩
              unfold Reading.feed
              simp only [expected, announced]
              exact uses
            · exact ⟨_, Reading.feed_uses_of_opcode unnamed expected announced others⟩
        | source draft =>
            refine ⟨operandCount draft.destination, ?_⟩
            unfold Reading.feed
            simp only [expected]
            exact draft.openDestination_uses unnamed _ (reading.trace.use word) others
        | destination draft source =>
            refine ⟨0, ?_⟩
            unfold Reading.feed
            simp only [expected]
            exact draft.close_uses unnamed source _ (reading.trace.use word) others
      obtain ⟨count, uses⟩ := step
      rw [Reading.call_cons]
      exact ⟨count, uses.cons⟩

theorem call_fresh_uses {word : Nat} (whole : announce setup.wide none word ≠ .extension)
    (others : List Nat) :
    (Reading.fresh.call setup (word :: others)).Uses
      ((announce setup.wide none word).furtherWords + 1) [] (word :: others) := by
  rw [Reading.call_cons]
  exact (Reading.feed_uses_of_opcode unnamed rfl whole others).cons

theorem call_returned {stream rest : List Nat} {decoded : Decoded} {trace : Trace}
    (call : Reading.fresh.call setup stream = .returned decoded trace rest) :
    trace.words ++ rest = stream ∧ trace.words ≠ [] := by
  obtain ⟨count, uses⟩ := Reading.fresh.call_uses unnamed stream
  rw [call] at uses
  obtain ⟨enough, words, left⟩ := uses
  change trace.words = stream.take (count + 1) at words
  constructor
  · rw [words, left, List.take_append_drop]
  · intro empty
    have counted := congrArg List.length words
    rw [empty, List.length_take, List.length_nil] at counted
    omega

theorem call_ne_failed (stream : List Nat) (fault : Fault) (trace : Trace) :
    Reading.fresh.call setup stream ≠ .failed fault trace := by
  intro call
  obtain ⟨count, uses⟩ := Reading.fresh.call_uses unnamed stream
  rw [call] at uses
  exact uses

end Words

/-! ### One call after the other -/

theorem Reading.length_of_returned {setup : Setup} {reading : Reading} {stream rest : List Nat}
    {decoded : Decoded} {trace : Trace}
    (call : reading.call setup stream = .returned decoded trace rest) :
    rest.length < stream.length := by
  induction stream generalizing reading with
  | nil => cases call
  | cons word others inductionHypothesis =>
      rw [Reading.call_cons] at call
      cases fed : reading.feed setup word with
      | goOn next =>
          rw [fed] at call
          exact Nat.lt_succ_of_lt (inductionHypothesis call)
      | finished finishedDecoded finishedTrace =>
          rw [fed] at call
          cases call
          exact Nat.lt_succ_self _
      | failed fault failedTrace =>
          rw [fed] at call
          cases call

/-- A decoding as a run of calls, with their number.  Each call that returns adds one item;
the last one finds the words used up or fails. -/
inductive Run (setup : Setup) : Int → List Nat → Nat → Decoding → Prop where
  | cutShort {start : Int} {stream : List Nat} {trace : Trace}
      (call : Reading.fresh.call setup stream = .cutShort trace) :
      Run setup start stream 1
        { items := [], remainder := { first := start, trace := trace }, fault := none }
  | failed {start : Int} {stream : List Nat} {fault : Fault} {trace : Trace}
      (call : Reading.fresh.call setup stream = .failed fault trace) :
      Run setup start stream 1
        { items := [], remainder := { first := start, trace := trace }, fault := some fault }
  | returned {start : Int} {stream rest : List Nat} {decoded : Decoded} {trace : Trace}
      {count : Nat} {later : Decoding}
      (call : Reading.fresh.call setup stream = .returned decoded trace rest)
      (others : Run setup (start + 2 * trace.words.length) rest count later) :
      Run setup start stream (count + 1)
        { later with
          items :=
            { address := start
              decoded := decoded
              cycles := trace.cycles
              words := trace.words } :: later.items }

theorem decode_runs (setup : Setup) (start : Int) (stream : List Nat) :
    Run setup start stream ((decode setup start stream).items.length + 1)
      (decode setup start stream) := by
  induction size : stream.length using Nat.strongRecOn generalizing start stream with
  | ind length inductionHypothesis =>
      have same : decode setup start stream =
          (Reading.fresh.call setup stream).decoding setup start :=
        decodeFrom_eq_call setup start Reading.fresh stream
      rw [same]
      cases call : Reading.fresh.call setup stream with
      | returned decoded trace rest =>
          have shorter : rest.length < length := by
            rw [← size]
            exact Reading.length_of_returned call
          exact .returned call (inductionHypothesis rest.length shorter _ rest rfl)
      | cutShort trace => exact .cutShort call
      | failed fault trace => exact .failed call

namespace Run

variable {setup : Setup} {start : Int} {stream : List Nat} {count : Nat} {decoding : Decoding}

/-- The `index`-th item stands as many words behind the start as those before it use,
and the remainder behind all of them. -/
theorem addresses (run : Run setup start stream count decoding) :
    (∀ index item, decoding.items[index]? = some item →
      item.address = start + 2 * ((decoding.items.take index).flatMap Item.words).length) ∧
    decoding.remainder.first = start + 2 * (decoding.items.flatMap Item.words).length := by
  induction run with
  | cutShort call =>
      refine ⟨?_, ?_⟩
      · intro index item found
        cases found
      · simp
  | failed call =>
      refine ⟨?_, ?_⟩
      · intro index item found
        cases found
      · simp
  | @returned start stream rest decoded trace count later call others inductionHypothesis =>
      obtain ⟨items, remainder⟩ := inductionHypothesis
      refine ⟨?_, ?_⟩
      · intro index item found
        cases index with
        | zero =>
            cases found
            simp
        | succ index =>
            rw [List.getElem?_cons_succ] at found
            rw [items index item found, List.take_succ_cons, List.flatMap_cons,
              List.length_append]
            push_cast
            omega
      · change later.remainder.first = _
        rw [remainder, List.flatMap_cons, List.length_append]
        push_cast
        omega

variable (unnamed : setup.names = none)

include unnamed

theorem fault_eq_none (run : Run setup start stream count decoding) : decoding.fault = none := by
  induction run with
  | cutShort call => rfl
  | failed call => exact absurd call (call_ne_failed unnamed _ _ _)
  | returned call others inductionHypothesis => exact inductionHypothesis

theorem words_append_remainder (run : Run setup start stream count decoding) :
    decoding.items.flatMap Item.words ++ decoding.remainder.trace.words = stream := by
  induction run with
  | @cutShort start stream trace call =>
      obtain ⟨count, uses⟩ := Reading.fresh.call_uses unnamed stream
      rw [call] at uses
      exact uses.2
  | failed call => exact absurd call (call_ne_failed unnamed _ _ _)
  | @returned start stream rest decoded trace count later call others inductionHypothesis =>
      rw [List.flatMap_cons, List.append_assoc, inductionHypothesis]
      exact (call_returned unnamed call).1

theorem item_words_ne_nil (run : Run setup start stream count decoding) :
    ∀ item ∈ decoding.items, item.words ≠ [] := by
  induction run with
  | cutShort call => exact nofun
  | failed call => exact nofun
  | returned call others inductionHypothesis =>
      rw [List.forall_mem_cons]
      exact ⟨(call_returned unnamed call).2, inductionHypothesis⟩

theorem item_words_le_three (narrow : setup.wide = false)
    (run : Run setup start stream count decoding) :
    ∀ item ∈ decoding.items, item.words.length ≤ 3 := by
  induction run with
  | cutShort call => exact nofun
  | failed call => exact nofun
  | @returned start stream rest decoded trace count later call others inductionHypothesis =>
      rw [List.forall_mem_cons]
      refine ⟨?_, inductionHypothesis⟩
      cases stream with
      | nil => cases call
      | cons word behind =>
          have whole : announce setup.wide none word ≠ .extension := by
            rw [narrow]
            exact announce_narrow_ne_extension none word
          have uses := call_fresh_uses unnamed whole behind
          rw [call] at uses
          have bound := (announce setup.wide none word).furtherWords_le_two
          change trace.words.length ≤ 3
          rw [uses.2.1, List.nil_append, List.length_take]
          omega

end Run

/-! ### Bytes -/

/-- The bytes of words, the low one first. -/
def bytes (stream : List Nat) : List Nat :=
  stream.flatMap (fun word => [word % 256, word / 256])

/-- A byte without a partner is taken with a high byte of zero. -/
theorem bytes_words (data : List Nat) (bounded : ∀ byte ∈ data, byte < 256) :
    bytes (words data) = data ++ List.replicate (data.length % 2) 0 := by
  induction data using words.induct with
  | case1 low high rest inductionHypothesis =>
      rw [List.forall_mem_cons, List.forall_mem_cons] at bounded
      obtain ⟨lowBound, _highBound, restBound⟩ := bounded
      have lowByte : (low + high * 256) % 256 = low := by
        omega
      have highByte : (low + high * 256) / 256 = high := by
        omega
      have parity : (low :: high :: rest).length % 2 = rest.length % 2 := by
        rw [List.length_cons, List.length_cons]
        omega
      have later := inductionHypothesis restBound
      unfold bytes at later ⊢
      rw [words, List.flatMap_cons, later, lowByte, highByte, parity]
      rfl
  | case2 low =>
      have lowBound : low < 256 := bounded low List.mem_cons_self
      have lowByte : low % 256 = low := Nat.mod_eq_of_lt lowBound
      have highByte : low / 256 = 0 := Nat.div_eq_of_lt lowBound
      change [low % 256, low / 256] = [low, 0]
      rw [lowByte, highByte]
  | case3 => rfl

/-- The words of bytes hold these bytes and nothing else but a last zero.  Decoding them
without names never fails and is a run of calls that add one instruction each, but for the
last one, which finds too few words.  Every instruction uses a word, and no more than three
without twenty-bit instructions.  The words of the instructions and those left over are the
words of the bytes, in their order, and the addresses count them. -/
theorem decode_conserves_words (wide : Bool) (start : Int) (data : List UInt8) :
    bytes (words (data.map UInt8.toNat)) =
        data.map UInt8.toNat ++ List.replicate (data.length % 2) 0 ∧
      let stream := words (data.map UInt8.toNat)
      let decoding := decode (bare wide) start stream
      Run (bare wide) start stream (decoding.items.length + 1) decoding ∧
        decoding.fault = none ∧
        (∀ item ∈ decoding.items, 1 ≤ item.words.length ∧
          (wide = false → item.words.length ≤ 3)) ∧
        decoding.items.flatMap Item.words ++ decoding.remainder.trace.words = stream ∧
        (∀ index item, decoding.items[index]? = some item →
          item.address =
            start + 2 * ((decoding.items.take index).flatMap Item.words).length) ∧
        decoding.remainder.address = start + 2 * stream.length ∧
        decoding.remainder.first =
          start + 2 * (decoding.items.flatMap Item.words).length := by
  constructor
  · have bounded : ∀ byte ∈ data.map UInt8.toNat, byte < 256 := by
      intro byte member
      obtain ⟨original, _present, same⟩ := List.mem_map.mp member
      rw [← same]
      exact original.toNat_lt
    rw [bytes_words _ bounded, List.length_map]
  · intro stream decoding
    have run : Run (bare wide) start stream (decoding.items.length + 1) decoding :=
      decode_runs (bare wide) start stream
    have conserved := run.words_append_remainder rfl
    obtain ⟨items, first⟩ := run.addresses
    refine ⟨run, run.fault_eq_none rfl, ?_, conserved, items, ?_, first⟩
    · intro item member
      refine ⟨List.length_pos_iff.mpr (run.item_words_ne_nil rfl item member), ?_⟩
      intro narrow
      exact run.item_words_le_three rfl narrow item member
    · unfold Remainder.address
      rw [first, ← conserved, List.length_append]
      push_cast
      omega

/-- One instruction, and a second one that asks for a word more than there is. -/
theorem decode_conserves_words_cut_short :
    let decoding := decode (bare false) 0x200 (words [0x05, 0x44, 0x92, 0x42, 0x07])
    decoding.items.map Item.words = [[0x4405]] ∧
      decoding.remainder.trace.words = [0x4292, 0x07] ∧
      decoding.remainder.first = 0x202 ∧
      decoding.remainder.address = 0x206 := by
  intro decoding
  obtain ⟨_, _, _, _, conserved, _, address, first⟩ :=
    decode_conserves_words false 0x200 [0x05, 0x44, 0x92, 0x42, 0x07]
  have items : decoding.items.map Item.words = [[0x4405]] := by
    decide
  have used : decoding.items.flatMap Item.words = [0x4405] := by
    rw [List.flatMap_def, items]
    rfl
  change decoding.items.flatMap Item.words ++ decoding.remainder.trace.words =
    [0x4405, 0x4292, 0x07] at conserved
  change decoding.remainder.first =
    0x200 + 2 * (decoding.items.flatMap Item.words).length at first
  rw [used] at conserved first
  exact ⟨items, List.append_cancel_left conserved, first, address⟩

end Disassembler
end Msp430
