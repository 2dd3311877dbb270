import Msp430.Disassembler.Draft

/-!
The decoder reads one word after the other.  Between two words it knows which
words the instruction in hand has used, how many cycles they stand for, and what
the next word is for.  It never looks ahead.
-/

namespace Msp430
namespace Disassembler

/-- How a decoder is set up. -/
structure Setup where
  wide : Bool
  names : Option Peripherals
  deriving Repr, DecidableEq

/-- What the next word is for. -/
inductive Expected where
  | opcode (extension : Option Nat)
  | source (draft : Draft)
  | destination (draft : Draft) (source : Option String)
  deriving Repr, DecidableEq

/-- The words used for an instruction and their cycles. -/
structure Trace where
  cycles : Nat
  words : List Nat
  deriving Repr, DecidableEq

def Trace.empty : Trace :=
  { cycles := 0, words := [] }

/-- Use a word, which takes a cycle. -/
def Trace.use (trace : Trace) (word : Nat) : Trace :=
  { cycles := trace.cycles + 1, words := trace.words ++ [word] }

def Trace.spend (trace : Trace) (cycles : Nat) : Trace :=
  { trace with cycles := trace.cycles + cycles }

/-- A decoder between two words. -/
structure Reading where
  expected : Expected
  trace : Trace
  deriving Repr, DecidableEq

/-- A decoder between two instructions. -/
def Reading.fresh : Reading :=
  { expected := .opcode none, trace := Trace.empty }

/-- What a word leads to. -/
inductive Step where
  | goOn (reading : Reading)
  | finished (decoded : Decoded) (trace : Trace)
  | failed (fault : Fault) (trace : Trace)
  deriving Repr, DecidableEq

namespace Draft

/-- All operands are known. -/
def close (draft : Draft) (setup : Setup) (source destination : Option String)
    (trace : Trace) : Step :=
  let made :=
    if draft.operandsShown then
      Instruction.make setup.names draft.name draft.size source destination
    else Instruction.make setup.names draft.name "" none none
  match made with
  | .ok instruction => .finished (.plain instruction) trace
  | .error fault => .failed fault trace

/-- The source is known; the destination may need a word. -/
def openDestination (draft : Draft) (setup : Setup) (source : Option String)
    (trace : Trace) : Step :=
  match draft.destination with
  | none => draft.close setup source none trace
  | some template =>
      if template.needsWord then
        .goOn { expected := .destination draft source, trace := trace }
      else draft.close setup source (some (template.fill 0)) trace

/-- The source may need a word. -/
def openSource (draft : Draft) (setup : Setup) (trace : Trace) : Step :=
  match draft.source with
  | none => draft.openDestination setup none trace
  | some template =>
      if template.needsWord then .goOn { expected := .source draft, trace := trace }
      else draft.openDestination setup (some (template.fill 0)) trace

end Draft

/-- Read one word. -/
def Reading.feed (setup : Setup) (reading : Reading) (word : Nat) : Step :=
  let trace := reading.trace.use word
  match reading.expected with
  | .opcode extension =>
      match announce setup.wide extension word with
      | .extension => .goOn { expected := .opcode (some word), trace := trace }
      | .jump name offset => .finished (Decoded.makeJump name offset) (trace.spend 1)
      | .instruction draft => draft.openSource setup (trace.spend draft.cycles)
  | .source draft =>
      draft.openDestination setup
        (draft.source.map (Template.fill (draft.sourceHigh * 65536 + word))) trace
  | .destination draft source =>
      draft.close setup source
        (draft.destination.map (Template.fill (draft.destinationHigh * 65536 + word))) trace

/-- A decoded instruction at its address. -/
structure Item where
  address : Int
  decoded : Decoded
  cycles : Nat
  words : List Nat
  deriving Repr, DecidableEq

/-- What decoding leaves when the words have run out or it has failed: the
instruction in hand began at `first`. -/
structure Remainder where
  first : Int
  trace : Trace
  deriving Repr, DecidableEq

/-- The address of the next word. -/
def Remainder.address (remainder : Remainder) : Int :=
  remainder.first + 2 * remainder.trace.words.length

structure Decoding where
  items : List Item
  remainder : Remainder
  fault : Option Fault
  deriving Repr, DecidableEq

/-- Continue a decoding whose instruction in hand began at `first`. -/
def decodeFrom (setup : Setup) (first : Int) (reading : Reading) : List Nat → Decoding
  | [] =>
      { items := []
        remainder := { first := first, trace := reading.trace }
        fault := none }
  | word :: others =>
      match reading.feed setup word with
      | .goOn next => decodeFrom setup first next others
      | .failed fault trace =>
          { items := []
            remainder := { first := first, trace := trace }
            fault := some fault }
      | .finished decoded trace =>
          let later :=
            decodeFrom setup (first + 2 * trace.words.length) Reading.fresh others
          { later with
            items :=
              { address := first
                decoded := decoded
                cycles := trace.cycles
                words := trace.words } :: later.items }

/-- Decode words from an address on. -/
def decode (setup : Setup) (start : Int) (words : List Nat) : Decoding :=
  decodeFrom setup start Reading.fresh words

end Disassembler
end Msp430
