/-!
Cutting a text at a mark and finding a pattern in it.
-/

namespace Msp430
namespace Text

/-- What stands before the first `mark`, or the whole text without one. -/
def before (mark : Char) (text : List Char) : List Char :=
  text.takeWhile (fun c => c != mark)

/-- Both sides of the first `mark`. -/
def cut? (mark : Char) : List Char → Option (List Char × List Char)
  | [] => none
  | c :: rest =>
      if c = mark then some ([], rest)
      else (cut? mark rest).map (fun sides => (c :: sides.1, sides.2))

/-- Where a pattern first occurs. -/
def indexOf? (pattern : List Char) : List Char → Option Nat
  | [] => if pattern.isEmpty then some 0 else none
  | c :: rest =>
      if pattern.isPrefixOf (c :: rest) then some 0
      else (indexOf? pattern rest).map (· + 1)

end Text
end Msp430
