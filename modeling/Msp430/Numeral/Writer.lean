import Msp430.Text.Columns

/-!
Numbers as text.  Addresses and codes are integers of any size, so every
format says what it does with a negative number.
-/

namespace Msp430
namespace Numeral

open Text

/-- The digits of a natural number, most significant first. -/
def digits (base value : Nat) : String :=
  String.ofList (Nat.toDigits base value)

/-- The minus sign of a negative number. -/
def sign (value : Int) : String :=
  if value < 0 then "-" else ""

/-- Decimal. -/
def decimal (value : Int) : String :=
  sign value ++ digits 10 value.natAbs

/-- Decimal with its sign always written. -/
def signedDecimal (value : Int) : String :=
  (if value < 0 then "-" else "+") ++ digits 10 value.natAbs

/-- Hexadecimal after `0x`; a sign stands before the mark. -/
def hex (value : Int) : String :=
  sign value ++ "0x" ++ digits 16 value.natAbs

/-- Hexadecimal digits alone, filled with zeros up to a width that counts the
sign. -/
def hexField (width : Nat) (value : Int) : String :=
  sign value ++ zeroFill (width - (sign value).length) (digits 16 value.natAbs)

/-- Hexadecimal digits alone with capital letters. -/
def upperHex (value : Int) : String :=
  sign value ++ (digits 16 value.natAbs).map Char.toUpper

/-- The binary digits of a word, at least sixteen.  Of a negative number the
magnitude is written after a `b`. -/
def wordBits (value : Int) : String :=
  zeroFill 16 ((if value < 0 then "b" else "") ++ digits 2 value.natAbs)

end Numeral
end Msp430
