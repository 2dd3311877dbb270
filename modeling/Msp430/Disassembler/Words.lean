/-!
Memory as words: bytes are paired, the low one first.
-/

namespace Msp430
namespace Disassembler

/-- The words of a byte sequence.  A last byte without a partner is a word of its
own. -/
def words : List Nat → List Nat
  | low :: high :: rest => (low + high * 256) :: words rest
  | [low] => [low]
  | [] => []

end Disassembler
end Msp430
