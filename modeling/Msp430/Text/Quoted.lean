import Msp430.Text.Columns
import Msp430.Text.Printed

/-!
The quoted form in which a message shows a text.  The quote is the apostrophe
unless the text has an apostrophe and no quotation mark.  A backslash, the quote
in use and every character that does not print are escaped.
-/

namespace Msp430
namespace Text

/-- A code point in hexadecimal, at least `width` digits. -/
def codeDigits (width code : Nat) : String :=
  zeroFill width (String.ofList (Nat.toDigits 16 code))

/-- One character inside the quotes. -/
def quotedChar (quote c : Char) : String :=
  if c = quote then String.ofList ['\\', c]
  else if c = '\\' then "\\\\"
  else if c = '\n' then "\\n"
  else if c = '\r' then "\\r"
  else if c = '\t' then "\\t"
  else if isPrinted c then String.ofList [c]
  else if c.toNat < 0x100 then "\\x" ++ codeDigits 2 c.toNat
  else if c.toNat < 0x10000 then "\\u" ++ codeDigits 4 c.toNat
  else "\\U" ++ codeDigits 8 c.toNat

/-- The quote a text is shown in. -/
def quoteFor (text : List Char) : Char :=
  if text.contains '\'' && !text.contains '"' then '"' else '\''

/-- The quoted form of a text. -/
def quoted (text : String) : String :=
  let quote := quoteFor text.toList
  String.ofList [quote] ++ String.join (text.toList.map (quotedChar quote)) ++
    String.ofList [quote]

/-- The quoted form, cut after two hundred characters. -/
def quotedBrief (text : String) : String :=
  String.ofList ((quoted text).toList.take 200)

end Text
end Msp430
