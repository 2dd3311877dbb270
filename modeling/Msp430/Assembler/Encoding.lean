import Msp430.Assembler.Operation
import Msp430.Assembler.State

/-!
Encoding: every placed statement becomes object words.  What a statement emits
depends on the symbol table and the statement alone.
-/

namespace Msp430
namespace Assembler

/-- What encoding one or more statements gives. -/
structure Emission where
  words : List ObjectWord
  diagnostics : List Diagnostic
  fault : Option Fault
  deriving Repr, DecidableEq

namespace Emission

def nothing : Emission :=
  { words := [], diagnostics := [], fault := none }

/-- One word and nothing else. -/
def word (address code : Int) : Emission :=
  { words := [{ address := address, code := code }], diagnostics := [], fault := none }

/-- The second emission follows the first. -/
def append (first second : Emission) : Emission :=
  { words := first.words ++ second.words
    diagnostics := first.diagnostics ++ second.diagnostics
    fault := second.fault }

end Emission

/-- The number an operand stands for: a register's, else a symbol's value. -/
def resolve? (symbols : SymbolTable) (operand : Option Operand) : Option Int :=
  operand.bind (fun written =>
    match Register.ofName? written.text with
    | some register => some (register.val : Int)
    | none => symbols.find? written.text)

/-- The diagnostics of operands that stand for no number. -/
def undefinedOperands (symbols : SymbolTable) (source destination : Option Operand) :
    List Diagnostic :=
  (if (resolve? symbols source).isSome then []
    else [.undefinedSource (source.map Operand.text)]) ++
  (if (resolve? symbols destination).isSome then []
    else [.undefinedDestination (destination.map Operand.text)])

/-- The destination mode bit, zero for a register. -/
def destinationField (destination : Option Operand) : Nat :=
  if destination.map Operand.mode = some .register then 0 else 1

/-- The instruction word of a two-operand operation: operation, source register,
destination mode, source mode, destination register. -/
def dualWord (operation : Dual) (source : Operand) (destination : Option Operand)
    (sourceValue destinationValue : Int) : Int :=
  operation.field * 4096 + sourceValue % 16 * 256 +
    destinationField destination * 128 + source.mode.field * 16 + destinationValue % 16

/-- The word that an operand brings along, if any. -/
def operandWords (location : Int) : Option Operand → Except Fault (List ObjectWord)
  | none => .ok []
  | some written =>
      if written.mode.takesWord then
        match Numeral.hex? written.text with
        | some value => .ok [{ address := location + 2, code := value }]
        | none => .error (.badNumeral written.text)
      else .ok []

/-- Encode a two-operand statement.  Operands without a value count as zero. -/
def emitDual (symbols : SymbolTable) (operation : Dual) (operand : Option String)
    (location : Int) : Emission :=
  let source := Operand.read? (components operand).1
  let destination := Operand.read? (components operand).2
  let diagnostics := undefinedOperands symbols source destination
  match source with
  | none => { words := [], diagnostics := diagnostics, fault := some .missingSource }
  | some written =>
      let first : ObjectWord :=
        { address := location
          code := dualWord operation written destination
            ((resolve? symbols source).getD 0) ((resolve? symbols destination).getD 0) }
      match operandWords location source with
      | .error fault =>
          { words := [first], diagnostics := diagnostics, fault := some fault }
      | .ok sourceWords =>
          match operandWords location destination with
          | .error fault =>
              { words := first :: sourceWords
                diagnostics := diagnostics
                fault := some fault }
          | .ok destinationWords =>
              { words := first :: (sourceWords ++ destinationWords)
                diagnostics := diagnostics
                fault := none }

/-- The offset of a jump in words, counted from the word after it. -/
def jumpOffset (target location : Int) : Int :=
  (target - (location + 2)) / 2

/-- A jump holds the low ten bits of its offset.  An undefined target counts as
zero. -/
def jumpWord (symbols : SymbolTable) (operation : Jump) (operand : Option String)
    (location : Int) : Int :=
  let target := (operand.bind symbols.find?).getD 0
  operation.word + jumpOffset target location % 1024

/-- What one placed statement emits. -/
def Entry.emit (symbols : SymbolTable) (entry : Entry) : Emission :=
  match Operation.ofName? entry.opcode with
  | some (.dual operation) => emitDual symbols operation entry.operand entry.location
  | some (.single operation) => Emission.word entry.location operation.word
  | some (.jump operation) =>
      Emission.word entry.location (jumpWord symbols operation entry.operand entry.location)
  | some .reserving => Emission.nothing
  | none => Emission.nothing

/-- What placed statements emit, up to the first fault. -/
def emitAll (symbols : SymbolTable) : List Entry → Emission
  | [] => Emission.nothing
  | entry :: others =>
      let first := entry.emit symbols
      match first.fault with
      | some _ => first
      | none => first.append (emitAll symbols others)

namespace State

/-- Take an emission into the state. -/
def absorb (state : State) (emission : Emission) : State :=
  { state with
    object := state.object ++ emission.words
    diagnostics := state.diagnostics ++ emission.diagnostics }

/-- Encode all placed statements. -/
def encode (state : State) : State × Option Fault :=
  let emission := emitAll state.symbols state.entries
  (state.absorb emission, emission.fault)

end State
end Assembler
end Msp430
