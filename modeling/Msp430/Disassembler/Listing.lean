import Msp430.Disassembler.Decoder
import Msp430.Disassembler.Words
import Msp430.Text.Lines

/-!
The listing of a memory.  Jump targets are given labels in the order in which
they are met, and a label is printed before the first instruction at its
address; labels without such an instruction are listed at the end.
-/

namespace Msp430
namespace Disassembler

structure Segment where
  start : Int
  bytes : List Nat
  deriving Repr, DecidableEq

/-- The addresses that have a label.  The place of an address is the number of
its label, from one on. -/
structure Labels where
  addresses : List Int
  deriving Repr, DecidableEq

namespace Labels

def empty : Labels :=
  { addresses := [] }

/-- The name of the label with a number. -/
def name (number : Nat) : String :=
  ".L" ++ Text.zeroFill 4 (Numeral.decimal number)

/-- Give an address a label unless it has one. -/
def add (labels : Labels) (address : Int) : Labels :=
  if labels.addresses.contains address then labels
  else { addresses := labels.addresses ++ [address] }

/-- The label of an address that has one. -/
def nameOf (labels : Labels) (address : Int) : String :=
  name (labels.addresses.idxOf address + 1)

/-- All labels with their addresses. -/
def all (labels : Labels) : List (Int × String) :=
  labels.addresses.map (fun address => (address, labels.nameOf address))

end Labels

/-- A line before labels are placed.  `code` is left out of a pure source
listing. -/
structure Line where
  address : Option Int
  code : String
  source : String
  deriving Repr, DecidableEq

/-- An address as it is printed. -/
def Setup.addressText (setup : Setup) (address : Int) : String :=
  "0x" ++ Numeral.hexField (if setup.wide then 8 else 4) address

namespace Item

/-- The line of an instruction. -/
def line (setup : Setup) (item : Item) (text note : String) : Line :=
  { address := some item.address
    code := setup.addressText item.address ++ ":  " ++
      Text.padRight 19 (String.intercalate " " (item.words.map (fun (word : Nat) =>
        Numeral.hexField 4 word)))
    source := Text.padRight 36 text ++ " ; ca. " ++ Numeral.decimal item.cycles ++ " cycle" ++
      (if item.cycles = 1 then "" else "s") ++ note ++ "\n" }

/-- The remark about a jump target. -/
def targetNote (setup : Setup) (item : Item) (target : Int) : String :=
  match item.decoded with
  | .jump _ offset =>
      " " ++ Numeral.signedDecimal offset ++ " --> " ++ setup.addressText target
  | .plain _ => " --> " ++ setup.addressText target

/-- The lines of an instruction and the labels after it.  A block that ends is
followed by an empty line. -/
def describe (setup : Setup) (labels : Labels) (item : Item) :
    Labels × Except Fault (List Line) :=
  let spaced (line : Line) : List Line :=
    if item.decoded.endsBlock then
      [line, { address := none, code := "", source := "\n" }]
    else [line]
  match item.decoded.jumps with
  | .error fault => (labels, .error fault)
  | .ok false => (labels, .ok (spaced (item.line setup item.decoded.text "")))
  | .ok true =>
      match item.decoded.target (item.address + 2) with
      | .error fault => (labels, .error fault)
      | .ok target =>
          let extended := labels.add target
          match item.decoded.labelled (extended.nameOf target) with
          | .error fault => (extended, .error fault)
          | .ok text =>
              (extended, .ok (spaced (item.line setup text (item.targetNote setup target))))

end Item

/-- The lines of instructions, up to the first failure. -/
def describeAll (setup : Setup) (labels : Labels) : List Item → Labels × Except Fault (List Line)
  | [] => (labels, .ok [])
  | item :: others =>
      match item.describe setup labels with
      | (next, .error fault) => (next, .error fault)
      | (next, .ok lines) =>
          match describeAll setup next others with
          | (last, .error fault) => (last, .error fault)
          | (last, .ok later) => (last, .ok (lines ++ later))

/-- The heading of a segment. -/
def Segment.heading (segment : Segment) : Line :=
  { address := none
    code := "; Segment starting at 0x" ++ Numeral.hexField 8 segment.start ++ ":"
    source := "\n" }

/-- The lines of a segment.  A segment is decoded whole before labels are given. -/
def Segment.describe (setup : Setup) (labels : Labels) (segment : Segment) :
    Labels × Except Fault (List Line) :=
  let decoding := decode setup segment.start (words segment.bytes)
  match decoding.fault with
  | some fault => (labels, .error fault)
  | none =>
      match describeAll setup labels decoding.items with
      | (next, .error fault) => (next, .error fault)
      | (next, .ok lines) => (next, .ok (segment.heading :: lines))

/-- The lines of segments, up to the first failure. -/
def describeSegments (setup : Setup) (labels : Labels) :
    List Segment → Labels × Except Fault (List Line)
  | [] => (labels, .ok [])
  | segment :: others =>
      match segment.describe setup labels with
      | (next, .error fault) => (next, .error fault)
      | (next, .ok lines) =>
          match describeSegments setup next others with
          | (last, .error fault) => (last, .error fault)
          | (last, .ok later) => (last, .ok (lines ++ later))

/-- A line as it is printed behind its label. -/
def Line.print (sourceOnly : Bool) (label : String) (line : Line) : String :=
  let body := Text.padRight 7 label ++ " " ++ line.source
  if sourceOnly && line.address.isSome then body else line.code ++ " " ++ body

/-- Print lines, each label before the first line at its address, and give back
the labels that were not placed. -/
def printLines (sourceOnly : Bool) (unplaced : List (Int × String)) :
    List Line → String × List (Int × String)
  | [] => ("", unplaced)
  | line :: others =>
      let found := line.address.bind (fun address => unplaced.lookup address)
      let rest :=
        match line.address with
        | some address => unplaced.filter (fun entry => entry.1 != address)
        | none => unplaced
      let label := match found with
        | some name => name ++ ":"
        | none => ""
      let (text, left) := printLines sourceOnly rest others
      (line.print sourceOnly label ++ text, left)

/-- The list of labels that have no place. -/
def printUnplaced (unplaced : List (Int × String)) : String :=
  if unplaced.isEmpty then ""
  else
    "\nLabels that could not be placed:\n" ++
      Text.unlines (unplaced.map (fun entry =>
        "    " ++ entry.2 ++ " = 0x" ++ Numeral.hexField 4 entry.1))

/-- Put a segment before the first that does not start below it. -/
def Segment.enter (segment : Segment) : List Segment → List Segment
  | [] => [segment]
  | other :: others =>
      if segment.start ≤ other.start then segment :: other :: others
      else other :: segment.enter others

/-- The segments of a memory in the order of their addresses.  Segments that
start at one address keep their order. -/
def inOrder : List Segment → List Segment
  | [] => []
  | segment :: others => segment.enter (inOrder others)

/-- List a memory.  The labels of an earlier listing stay in use. -/
def disassemble (setup : Setup) (segments : List Segment) (labels : Labels)
    (sourceOnly : Bool) : Labels × Except Fault String :=
  match describeSegments setup labels (inOrder segments) with
  | (next, .error fault) => (next, .error fault)
  | (next, .ok lines) =>
      let (text, unplaced) := printLines sourceOnly next.all lines
      (next, .ok (text ++ printUnplaced unplaced))

end Disassembler
end Msp430
