import Msp430.Proofs.Calls

/-!
Streams put one behind the other.  A call that returns has not looked at the words
behind its own, so words that come later change nothing of what is decoded already:
decoding goes on with the words left over.  Main statement: the instructions of a
stream begin those of every longer one, and where no words are left over the longer
stream is decoded in two independent parts.
-/

namespace Msp430
namespace Disassembler

theorem Reading.call_append {setup : Setup} {reading : Reading} {stream rest : List Nat}
    {decoded : Decoded} {trace : Trace}
    (call : reading.call setup stream = .returned decoded trace rest) (behind : List Nat) :
    reading.call setup (stream ++ behind) = .returned decoded trace (rest ++ behind) := by
  induction stream generalizing reading with
  | nil => cases call
  | cons word others inductionHypothesis =>
      rw [Reading.call_cons] at call
      rw [List.cons_append, Reading.call_cons]
      cases fed : reading.feed setup word with
      | goOn next =>
          rw [fed] at call
          exact inductionHypothesis call
      | finished finishedDecoded finishedTrace =>
          rw [fed] at call
          cases call
          rfl
      | failed fault failedTrace =>
          rw [fed] at call
          cases call

/-- A decoding with the items of an earlier one in front. -/
def Decoding.after (earlier : List Item) (decoding : Decoding) : Decoding :=
  { decoding with items := earlier ++ decoding.items }

theorem decode_of_returned {setup : Setup} {stream rest : List Nat} {decoded : Decoded}
    {trace : Trace} (call : Reading.fresh.call setup stream = .returned decoded trace rest)
    (start : Int) :
    decode setup start stream =
      (decode setup (start + 2 * trace.words.length) rest).after
        [{ address := start
           decoded := decoded
           cycles := trace.cycles
           words := trace.words }] := by
  unfold decode
  rw [decodeFrom_eq_call, call]
  rfl

section Unnamed

variable {setup : Setup} (unnamed : setup.names = none)

include unnamed

/-- Decoding a longer stream takes up the words that the shorter one leaves over. -/
theorem Run.decode_append {start : Int} {stream : List Nat} {count : Nat} {decoding : Decoding}
    (run : Run setup start stream count decoding) (behind : List Nat) :
    decode setup start (stream ++ behind) =
      (decode setup decoding.remainder.first
        (decoding.remainder.trace.words ++ behind)).after decoding.items := by
  induction run with
  | @cutShort start stream trace call =>
      -- A call that is cut short has used the whole stream.
      have cut : Run setup start stream 1 _ := .cutShort call
      have used : trace.words = stream := cut.words_append_remainder unnamed
      change decode setup start (stream ++ behind) =
        (decode setup start (trace.words ++ behind)).after []
      rw [used]
      rfl
  | failed call => exact absurd call (call_ne_failed unnamed _ _ _)
  | @returned start stream rest decoded trace count later call others inductionHypothesis =>
      rw [decode_of_returned (Reading.call_append call behind), inductionHypothesis]
      rfl

theorem Run.remainder_of_complete {start : Int} {stream : List Nat} {count : Nat}
    {decoding : Decoding} (run : Run setup start stream count decoding)
    (complete : decoding.remainder.trace.words = []) :
    decoding.remainder.first = start + 2 * stream.length := by
  have conserved := run.words_append_remainder unnamed
  rw [complete, List.append_nil] at conserved
  rw [run.addresses.2, conserved]

end Unnamed

/-- Words behind a stream leave its instructions as they are.  Where the stream leaves no
word over, what follows is decoded as if it stood alone at its address, down to the state
at the end. -/
theorem decode_append_of_complete (wide : Bool) (start : Int) (front back : List Nat) :
    (decode (bare wide) start front).items <+:
        (decode (bare wide) start (front ++ back)).items ∧
      ((decode (bare wide) start front).remainder.trace.words = [] →
        let later := decode (bare wide) (start + 2 * front.length) back
        let whole := decode (bare wide) start (front ++ back)
        whole.items = (decode (bare wide) start front).items ++ later.items ∧
          whole.remainder.address = later.remainder.address ∧
          whole.remainder.first = later.remainder.first ∧
          whole.remainder.trace.cycles = later.remainder.trace.cycles ∧
          whole.remainder.trace.words = later.remainder.trace.words ∧
          whole.fault = none ∧ later.fault = none) := by
  have run := decode_runs (bare wide) start front
  have resumed := run.decode_append rfl back
  constructor
  · rw [resumed]
    exact List.prefix_append _ _
  · intro complete
    have first := run.remainder_of_complete rfl complete
    rw [complete, List.nil_append, first] at resumed
    intro later whole
    have same : whole = later.after (decode (bare wide) start front).items := resumed
    have unfailing : later.fault = none := (decode_runs _ _ back).fault_eq_none rfl
    rw [same]
    exact ⟨rfl, rfl, rfl, rfl, rfl, unfailing, unfailing⟩

/-- A move of a number, and behind it a word that is one instruction and a move that
misses its number. -/
theorem decode_append_of_complete_two_parts :
    let whole := decode (bare false) 0x200 ([0x4035, 0x1234] ++ [0x4405, 0x4036])
    whole.items.map (fun item => (item.address, item.words)) =
        [(0x200, [0x4035, 0x1234]), (0x204, [0x4405])] ∧
      whole.remainder.first = 0x206 ∧ whole.remainder.trace.words = [0x4036] ∧
      whole.remainder.trace.cycles = 1 := by
  have complete :
      (decode (bare false) 0x200 [0x4035, 0x1234]).remainder.trace.words = [] := by
    decide
  obtain ⟨items, _, first, cycles, words, _, _⟩ :=
    (decode_append_of_complete false 0x200 [0x4035, 0x1234] [0x4405, 0x4036]).2 complete
  intro whole
  refine ⟨?_, first.trans (by decide), words.trans (by decide), cycles.trans (by decide)⟩
  rw [items]
  decide

end Disassembler
end Msp430
