import Mathlib.Data.List.Forall2
import Msp430.Proofs.Calls

/-!
Words at two places.  Two runs of calls over the same words stay in step wherever they begin,
with names and without.  Main statement: decoding at two addresses takes the same number
of calls to the same end, and all addresses differ by the distance of the two.
-/

namespace Msp430
namespace Disassembler

/-! ### Two runs in step -/

/-- The same instruction at another address. -/
structure Item.Moved (distance : Int) (item other : Item) : Prop where
  address : other.address = item.address + distance
  decoded : other.decoded = item.decoded
  text : other.decoded.text = item.decoded.text
  cycles : other.cycles = item.cycles
  words : other.words = item.words

/-- The same instructions and the same end at other addresses. -/
structure Decoding.Moved (distance : Int) (decoding other : Decoding) : Prop where
  items : List.Forall₂ (Item.Moved distance) decoding.items other.items
  first : other.remainder.first = decoding.remainder.first + distance
  address : other.remainder.address = decoding.remainder.address + distance
  trace : other.remainder.trace = decoding.remainder.trace
  fault : other.fault = decoding.fault

theorem Decoding.moved_ended (start distance : Int) (trace : Trace) (fault : Option Fault) :
    Decoding.Moved distance
      { items := [], remainder := { first := start, trace := trace }, fault := fault }
      { items := [], remainder := { first := start + distance, trace := trace }, fault := fault }
    where
  items := .nil
  first := rfl
  address := Int.add_right_comm start distance _
  trace := rfl
  fault := rfl

theorem Decoding.Moved.cons {distance : Int} {later other : Decoding}
    (moved : later.Moved distance other) (start : Int) (decoded : Decoded) (trace : Trace) :
    Decoding.Moved distance
      { later with
        items :=
          { address := start
            decoded := decoded
            cycles := trace.cycles
            words := trace.words } :: later.items }
      { other with
        items :=
          { address := start + distance
            decoded := decoded
            cycles := trace.cycles
            words := trace.words } :: other.items } where
  items := .cons ⟨rfl, rfl, rfl, rfl, rfl⟩ moved.items
  first := moved.first
  address := moved.address
  trace := moved.trace
  fault := moved.fault

/-- A call does not know where its words stand, so both runs make the same one. -/
theorem Run.in_step {setup : Setup} {start distance : Int} {stream : List Nat}
    {count made : Nat} {decoding other : Decoding} (run : Run setup start stream count decoding)
    (second : Run setup (start + distance) stream made other) :
    made = count ∧ decoding.Moved distance other := by
  induction run generalizing made other with
  | @cutShort start stream trace call =>
      cases second with
      | cutShort again =>
          rw [call] at again
          cases again
          exact ⟨rfl, Decoding.moved_ended start distance trace none⟩
      | failed again => rw [call] at again; cases again
      | returned again others => rw [call] at again; cases again
  | @failed start stream fault trace call =>
      cases second with
      | cutShort again => rw [call] at again; cases again
      | failed again =>
          rw [call] at again
          cases again
          exact ⟨rfl, Decoding.moved_ended start distance trace (some fault)⟩
      | returned again others => rw [call] at again; cases again
  | @returned start stream rest decoded trace count later call others inductionHypothesis =>
      cases second with
      | cutShort again => rw [call] at again; cases again
      | failed again => rw [call] at again; cases again
      | returned again secondOthers =>
          rw [call] at again
          cases again
          rw [Int.add_right_comm] at secondOthers
          obtain ⟨same, moved⟩ := inductionHypothesis secondOthers
          exact ⟨congrArg Nat.succ same, moved.cons start decoded trace⟩

theorem Run.count_unique {setup : Setup} {start : Int} {stream : List Nat} {count made : Nat}
    {decoding other : Decoding} (run : Run setup start stream count decoding)
    (second : Run setup start stream made other) : made = count := by
  rw [← Int.add_zero start] at second
  exact (run.in_step second).1

/-- Bytes decoded at two addresses, with any names, in either mode.  Both decodings make the
same number of calls and end in the same way, with the words used up or with the same
fault; the instructions are the same, and their addresses, that of the next word and that
of the instruction in hand differ by the distance of the two starts. -/
theorem decode_displaced (setup : Setup) (start other : Int) (data : List UInt8) :
    (∃ count,
        (∀ made, Run setup start (words (data.map UInt8.toNat)) made
          (decode setup start (words (data.map UInt8.toNat))) ↔ made = count) ∧
        ∀ made, Run setup other (words (data.map UInt8.toNat)) made
          (decode setup other (words (data.map UInt8.toNat))) ↔ made = count) ∧
      (decode setup start (words (data.map UInt8.toNat))).Moved (other - start)
        (decode setup other (words (data.map UInt8.toNat))) := by
  generalize words (data.map UInt8.toNat) = stream
  have run := decode_runs setup start stream
  have second := decode_runs setup other stream
  have apart : start + (other - start) = other := by
    omega
  have displaced : Run setup (start + (other - start)) stream
      ((decode setup other stream).items.length + 1) (decode setup other stream) := by
    rw [apart]
    exact second
  obtain ⟨same, moved⟩ := run.in_step displaced
  rw [same] at second
  refine ⟨⟨(decode setup start stream).items.length + 1, ?_, ?_⟩, moved⟩
  · intro number
    exact ⟨fun again => run.count_unique again, fun equal => equal ▸ run⟩
  · intro number
    exact ⟨fun again => second.count_unique again, fun equal => equal ▸ second⟩

end Disassembler
end Msp430
