import Msp430.Bits
import Msp430.Disassembler.Fault
import Msp430.Numeral.Writer

/-!
Names of peripheral registers, of their bits and of their values.  With them an
absolute address becomes the name of the register there, and a number that is
written to a register becomes the names of its bits.
-/

namespace Msp430
namespace Disassembler

structure PeripheralRegister where
  name : String
  address : Option Int
  bits : Option (List (Int × String))
  values : Option (List (Int × String))
  deriving Repr, DecidableEq

/-- Registers in the order of their definition; a later one replaces an earlier
one of the same name or address. -/
structure Peripherals where
  registers : List PeripheralRegister
  deriving Repr, DecidableEq

/-- Enter a mask into masks that increase, replacing an equal one. -/
def enterMask (mask : Int) (name : String) : List (Int × String) → List (Int × String)
  | [] => [(mask, name)]
  | (other, otherName) :: rest =>
      if mask < other then (mask, name) :: (other, otherName) :: rest
      else if mask = other then (mask, name) :: rest
      else (other, otherName) :: enterMask mask name rest

/-- The named masks of a register in increasing order. -/
def PeripheralRegister.masks (register : PeripheralRegister) : List (Int × String) :=
  (register.bits.getD []).foldl (fun masks entry => enterMask entry.1 entry.2 masks) []

/-- The names of the masks that meet a value, each cleared before the next is
tried, and the bits that are left. -/
def nameMasks : List (Int × String) → Int → List String × Int
  | [], value => ([], value)
  | (mask, name) :: rest, value =>
      if Bits.both value mask ≠ 0 then
        let (names, left) := nameMasks rest (Bits.without value mask)
        (name :: names, left)
      else nameMasks rest value

/-- How bits that no mask names are written: by a named value or as a number. -/
def PeripheralRegister.nameRest (register : PeripheralRegister) (value : Int) :
    Except Fault String :=
  match register.values with
  | none => .error .noNamedValues
  | some values =>
      match values.reverse.lookup value with
      | some name => .ok name
      | none => .ok ("0x" ++ Numeral.hexField 0 value)

/-- A number as the names of a register's bits. -/
def PeripheralRegister.nameBits (register : PeripheralRegister) (value : Int) :
    Except Fault String :=
  let (names, left) := nameMasks register.masks value
  if left = 0 then .ok ("#" ++ String.intercalate "|" names)
  else
    match register.nameRest left with
    | .error fault => .error fault
    | .ok last => .ok ("#" ++ String.intercalate "|" (names ++ [last]))

namespace Peripherals

def atAddress? (table : Peripherals) (address : Int) : Option PeripheralRegister :=
  table.registers.reverse.find? (fun register => register.address = some address)

def named? (table : Peripherals) (name : String) : Option PeripheralRegister :=
  table.registers.reverse.find? (fun register => register.name = name)

/-- An absolute operand by the name of the register there. -/
def nameAddress (table : Peripherals) (operand : String) : Except Fault String :=
  match operand.toList with
  | '&' :: rest =>
      match literal (String.ofList rest) with
      | .error fault => .error fault
      | .ok address =>
          match table.atAddress? address with
          | some register => .ok ("&" ++ register.name)
          | none => .ok operand
  | _ => .ok operand

/-- An immediate operand by the names of the bits it sets in a named register. -/
def nameImmediate (table : Peripherals) (operand destination : String) :
    Except Fault String :=
  match destination.toList, operand.toList with
  | '&' :: name, '#' :: rest =>
      match table.named? (String.ofList name) with
      | none => .ok operand
      | some register =>
          match literal (String.ofList rest) with
          | .error fault => .error fault
          | .ok value => register.nameBits value
  | _, _ => .ok operand

end Peripherals
end Disassembler
end Msp430
