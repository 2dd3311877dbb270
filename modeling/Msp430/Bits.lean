/-!
Bits of integers in two's complement of unlimited width.
-/

namespace Msp430
namespace Bits

/-- The bits that two integers have in common. -/
def both : Int → Int → Int
  | .ofNat left, .ofNat right => .ofNat (left &&& right)
  | .ofNat left, .negSucc right => .ofNat (left ^^^ (left &&& right))
  | .negSucc left, .ofNat right => .ofNat (right ^^^ (right &&& left))
  | .negSucc left, .negSucc right => .negSucc (left ||| right)

/-- The bits of `value` outside `mask`. -/
def without (value mask : Int) : Int :=
  both value (~~~mask)

end Bits
end Msp430
