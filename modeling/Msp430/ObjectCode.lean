import Msp430.Numeral.Writer
import Msp430.Text.Lines

/-!
Object code: words at addresses, and the text of an object file.
-/

namespace Msp430

/-- A word of object code.  Neither number is bounded. -/
structure ObjectWord where
  address : Int
  code : Int
  deriving Repr, DecidableEq

namespace ObjectWord

/-- One word as text. -/
def line (word : ObjectWord) : String :=
  Numeral.hex word.address ++ ": " ++ Numeral.hex word.code

/-- A line for each word. -/
def file (object : List ObjectWord) : String :=
  Text.unlines (object.map line)

end ObjectWord
end Msp430
