import Msp430.Assembler.Diagnostic
import Msp430.ObjectCode
import Msp430.SymbolTable

/-!
The assembler's memory.  It lasts from one source text to the next.
-/

namespace Msp430
namespace Assembler

/-- A statement that was given a place.  `location` is the address after it. -/
structure Entry where
  label : Option String
  opcode : String
  operand : Option String
  location : Int
  deriving Repr, DecidableEq

structure State where
  symbols : SymbolTable
  counter : Int
  start : Int
  length : Int
  entries : List Entry
  object : List ObjectWord
  diagnostics : List Diagnostic
  deriving Repr, DecidableEq

/-- The parts of the memory that can be emptied. -/
inductive Part where
  | symbols
  | entries
  | object
  | diagnostics
  deriving Repr, DecidableEq

namespace State

def fresh : State :=
  { symbols := SymbolTable.empty
    counter := 0
    start := 0
    length := 0
    entries := []
    object := []
    diagnostics := [] }

def record (state : State) (diagnostic : Diagnostic) : State :=
  { state with diagnostics := state.diagnostics ++ [diagnostic] }

def bind (state : State) (name : String) (value : Int) : State :=
  { state with symbols := state.symbols.insert name value }

def keep (state : State) (entry : Entry) : State :=
  { state with entries := state.entries ++ [entry] }

/-- Empty the parts that are named. -/
def forget (state : State) : List Part → State
  | [] => state
  | .symbols :: others => { state with symbols := SymbolTable.empty }.forget others
  | .entries :: others => { state with entries := [] }.forget others
  | .object :: others => { state with object := [] }.forget others
  | .diagnostics :: others => { state with diagnostics := [] }.forget others

end State
end Assembler
end Msp430
