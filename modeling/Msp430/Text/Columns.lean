/-!
Columns of fixed width.  A text that is too long for its column is kept whole.
-/

namespace Msp430
namespace Text

/-- Fill up with spaces on the right. -/
def padRight (width : Nat) (text : String) : String :=
  text ++ String.ofList (List.replicate (width - text.length) ' ')

/-- Fill up with zeros on the left. -/
def zeroFill (width : Nat) (text : String) : String :=
  String.ofList (List.replicate (width - text.length) '0') ++ text

end Text
end Msp430
