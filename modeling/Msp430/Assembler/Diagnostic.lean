import Msp430.Numeral.Reader
import Msp430.Text.Quoted

/-!
What can go wrong.  A diagnostic is recorded and assembly goes on; a fault ends
the step at once and leaves what was done before it.
-/

namespace Msp430
namespace Assembler

inductive Diagnostic where
  | duplicateSymbol (name : String)
  | unknownInstruction (name : String)
  | undefinedSource (text : Option String)
  | undefinedDestination (text : Option String)
  | remark (text : String)
  deriving Repr, DecidableEq

def Diagnostic.message : Diagnostic → String
  | .duplicateSymbol name => "Duplicate symbol: '" ++ name ++ "'"
  | .unknownInstruction name => "Unknown instruction: '" ++ name ++ "'"
  | .undefinedSource text =>
      "Undefined symbol in source operand: '" ++ text.getD "None" ++ "'"
  | .undefinedDestination text =>
      "Undefined symbol in destination operand: '" ++ text.getD "None" ++ "'"
  | .remark text => text

inductive Fault where
  | badNumeral (text : String)
  | missingSource
  | inputEnded
  | noSuchFile (name : String)
  deriving Repr, DecidableEq

def Fault.message : Fault → String
  | .badNumeral text => Numeral.malformed 16 text
  | .missingSource => "None"
  | .inputEnded => "EOF when reading a line"
  | .noSuchFile name => "[Errno 2] No such file or directory: " ++ Text.quoted name

end Assembler
end Msp430
