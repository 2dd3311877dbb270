import Msp430.Text.Blank
import Msp430.Text.Quoted

/-!
Integers read from text.  Blanks around a numeral are dropped, one sign may
lead, and single underscores may stand between digits.  `hex?` reads base
sixteen with or without `0x`; `literal?` takes the base from the mark `0x`,
`0o` or `0b` and is decimal without one.
-/

namespace Msp430
namespace Numeral

open Text

/-- The first code point of each decimal digit block of Unicode above ASCII. -/
def digitBlocks : List Nat :=
  [0x660, 0x6f0, 0x7c0, 0x966, 0x9e6, 0xa66, 0xae6, 0xb66, 0xbe6, 0xc66, 0xce6,
   0xd66, 0xde6, 0xe50, 0xed0, 0xf20, 0x1040, 0x1090, 0x17e0, 0x1810, 0x1946,
   0x19d0, 0x1a80, 0x1a90, 0x1b50, 0x1bb0, 0x1c40, 0x1c50, 0xa620, 0xa8d0,
   0xa900, 0xa9d0, 0xa9f0, 0xaa50, 0xabf0, 0xff10, 0x104a0, 0x10d30, 0x11066,
   0x110f0, 0x11136, 0x111d0, 0x112f0, 0x11450, 0x114d0, 0x11650, 0x116c0,
   0x11730, 0x118e0, 0x11950, 0x11c50, 0x11d50, 0x11da0, 0x16a60, 0x16ac0,
   0x16b50, 0x1d7ce, 0x1d7d8, 0x1d7e2, 0x1d7ec, 0x1d7f6, 0x1e140, 0x1e2f0,
   0x1e950, 0x1fbf0]

/-- A decimal digit of any script as the ASCII digit of the same value. -/
def plainDigit (c : Char) : Char :=
  match digitBlocks.find? (fun block => block ≤ c.toNat && c.toNat < block + 10) with
  | some block => Char.ofNat (0x30 + (c.toNat - block))
  | none => c

/-- The value of a digit or letter. -/
def digitValue? (c : Char) : Option Nat :=
  let code := c.toNat
  if 0x30 ≤ code ∧ code ≤ 0x39 then some (code - 0x30)
  else if 0x61 ≤ code ∧ code ≤ 0x7a then some (code - 0x61 + 10)
  else if 0x41 ≤ code ∧ code ≤ 0x5a then some (code - 0x41 + 10)
  else none

/-- A digit that is in use in a base. -/
def digit? (base : Nat) (c : Char) : Option Nat :=
  (digitValue? c).filter (fun value => value < base)

/-- Continue a number with digits, each with at most one underscore before
it, up to the end of the text. -/
def extend? (base value : Nat) : List Char → Option Nat
  | [] => some value
  | '_' :: c :: rest =>
      match digit? base c with
      | some next => extend? base (value * base + next) rest
      | none => none
  | c :: rest =>
      match digit? base c with
      | some next => extend? base (value * base + next) rest
      | none => none

/-- A number in one base: a digit and its continuation. -/
def natural? (base : Nat) : List Char → Option Nat
  | [] => none
  | c :: rest =>
      match digit? base c with
      | some value => extend? base value rest
      | none => none

/-- One underscore may stand between a base mark and the first digit. -/
def afterMark : List Char → List Char
  | '_' :: rest => rest
  | text => text

/-- Base sixteen, the mark `0x` being optional. -/
def hexNatural? : List Char → Option Nat
  | '0' :: 'x' :: rest => natural? 16 (afterMark rest)
  | '0' :: 'X' :: rest => natural? 16 (afterMark rest)
  | text => natural? 16 text

/-- The base is taken from the mark.  A decimal number that begins with zero
is zero. -/
def literalNatural? : List Char → Option Nat
  | '0' :: 'x' :: rest => natural? 16 (afterMark rest)
  | '0' :: 'X' :: rest => natural? 16 (afterMark rest)
  | '0' :: 'o' :: rest => natural? 8 (afterMark rest)
  | '0' :: 'O' :: rest => natural? 8 (afterMark rest)
  | '0' :: 'b' :: rest => natural? 2 (afterMark rest)
  | '0' :: 'B' :: rest => natural? 2 (afterMark rest)
  | '0' :: rest => (natural? 10 ('0' :: rest)).filter (fun value => value == 0)
  | text => natural? 10 text

/-- The blanks that may surround a numeral: all but the information
separators. -/
def isMargin (c : Char) : Bool :=
  isBlank c && !(0x1c ≤ c.toNat && c.toNat ≤ 0x1f)

/-- One sign before an unsigned numeral, inside blanks.  Digits of other scripts
are read as ASCII digits. -/
def signed? (unsigned? : List Char → Option Nat) (text : String) : Option Int :=
  match (trimBy isMargin text.toList).map plainDigit with
  | '-' :: rest => (unsigned? rest).map (fun value => -(value : Int))
  | '+' :: rest => (unsigned? rest).map (fun value => (value : Int))
  | rest => (unsigned? rest).map (fun value => (value : Int))

/-- Read an integer in base sixteen. -/
def hex? (text : String) : Option Int :=
  signed? hexNatural? text

/-- Read an integer whose base its own mark gives. -/
def literal? (text : String) : Option Int :=
  signed? literalNatural? text

/-- How a text that is no numeral of the given base is reported; base `0`
stands for a base given by the mark. -/
def malformed (base : Nat) (text : String) : String :=
  "invalid literal for int() with base " ++ String.ofList (Nat.toDigits 10 base) ++ ": " ++
    quotedBrief text

end Numeral
end Msp430
