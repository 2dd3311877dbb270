import Msp430.Text.Fields

/-!
Highlighting in the editor.  Each keyword that occurs in a line is marked once,
where it first occurs, whatever stands around it.
-/

namespace Msp430
namespace Workbench

/-- A marked stretch of a line. -/
structure Mark where
  index : Nat
  length : Nat
  deriving Repr, DecidableEq

/-- The keywords in the order in which they are looked for. -/
def keywords : List String :=
  ["MOV", "ADD", "SUB", "JMP", "CALL", "RET", "NOP", "ADDC",
   "SUBC", "CMP", "DADD", "BIT", "BIC", "BIS", "XOR", "AND",
   "RRC", "SWPB", "RRA", "SXT", "PUSH", "JNE", "JEQ", "JNC",
   "JC", "JN", "JGE", "JL", "JMP", "START", "END", ".DATA",
   ".CODE", ".ORG"]

def mark? (line : List Char) (keyword : String) : Option Mark :=
  (Text.indexOf? keyword.toList line).map
    (fun index => { index := index, length := keyword.length })

/-- The marks of a line. -/
def highlight (line : String) : List Mark :=
  keywords.filterMap (mark? line.toList)

end Workbench
end Msp430
