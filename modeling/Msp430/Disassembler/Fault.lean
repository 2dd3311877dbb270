import Msp430.Numeral.Reader

/-!
The ways in which describing an instruction can fail.
-/

namespace Msp430
namespace Disassembler

inductive Fault where
  | badLiteral (text : String)
  | noNamedValues
  | noDestination
  | emptyDestination
  | notBranching
  | notJumping
  | notDestinationOnly
  | noSuchConstant
  | badAddressingMode
  deriving Repr, DecidableEq

def Fault.message : Fault → String
  | .badLiteral text => Numeral.malformed 0 text
  | .noNamedValues => "'__values__'"
  | .noDestination => "'NoneType' object is not subscriptable"
  | .emptyDestination => "string index out of range"
  | .notBranching => "not a branching instruction"
  | .notJumping => "only possible with jump insns"
  | .notDestinationOnly => "only possible with dst only insns"
  | .noSuchConstant => "tuple index out of range"
  | .badAddressingMode => "addressing mode error"

/-- Read a number whose base its mark gives. -/
def literal (text : String) : Except Fault Int :=
  match Numeral.literal? text with
  | some value => .ok value
  | none => .error (.badLiteral text)

end Disassembler
end Msp430
