import Msp430.Numeral.Writer

/-!
What the dialects complain about.  Their messages are in Turkish.
-/

namespace Msp430
namespace Dialect

inductive Complaint where
  | duplicateLabel (label : String)
  | badStart
  | unknownCommand (command : String)
  | unsupportedCommand (command : String)
  | needsTwoOperands (command : String)
  | needsOneOperand (command : String)
  | needsTarget (command : String)
  | takesNoOperand (command : String)
  | destinationNoRegister (text : String)
  | commandDestinationNoRegister (command text : String)
  | badImmediate (text : String)
  | unknownOperand (text : String)
  | commandUnknownSource (command text : String)
  | commandUnknownOperand (command text : String)
  | badTarget (command text : String)
  | offsetOutOfRange (command : String) (offset : Int)
  deriving Repr, DecidableEq

/-- The text of a complaint after its opening word. -/
def Complaint.reason : Complaint → String
  | .duplicateLabel label => "'" ++ label ++ "' etiketi tekrarlandı"
  | .badStart => "START operandı geçerli bir hexadecimal sayı olmalı"
  | .unknownCommand command => "Bilinmeyen komut '" ++ command ++ "'"
  | .unsupportedCommand command => "Desteklenmeyen komut '" ++ command ++ "'"
  | .needsTwoOperands command => command ++ " komutu iki operand gerektirir"
  | .needsOneOperand command => command ++ " komutu bir operand gerektirir"
  | .needsTarget command => command ++ " komutu bir operand (hedef adres) gerektirir"
  | .takesNoOperand command => command ++ " komutu operand almaz"
  | .destinationNoRegister text =>
      "Bilinmeyen operand '" ++ text ++ "' (destinasyon register olmalı)"
  | .commandDestinationNoRegister command text =>
      command ++ " komutunda hedef operand '" ++ text ++ "' geçerli bir register olmalı"
  | .badImmediate text => "Geçersiz immediate değer '" ++ text ++ "'"
  | .unknownOperand text => "Bilinmeyen operand '" ++ text ++ "'"
  | .commandUnknownSource command text =>
      command ++ " komutunda kaynak operand '" ++ text ++ "' tanınamadı"
  | .commandUnknownOperand command text =>
      command ++ " komutunda operand '" ++ text ++ "' tanınamadı"
  | .badTarget command text => command ++ " komutu için geçersiz hedef '" ++ text ++ "'"
  | .offsetOutOfRange command offset =>
      command ++ " komutu için offset " ++ Numeral.decimal offset ++ " 10-bit aralıkta değil"

def Complaint.message (complaint : Complaint) : String :=
  "Hata: " ++ complaint.reason

end Dialect
end Msp430
