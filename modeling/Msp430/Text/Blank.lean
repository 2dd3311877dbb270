/-!
White space and words.  A text is a list of characters; its words are the
maximal runs of characters that are not blank.
-/

namespace Msp430
namespace Text

/-- The characters that separate words: the ASCII controls from tab to carriage
return, the four information separators, the space, and every space and line
separator of Unicode. -/
def isBlank (c : Char) : Bool :=
  let code := c.toNat
  (0x09 ≤ code && code ≤ 0x0d) || (0x1c ≤ code && code ≤ 0x20) ||
    code == 0x85 || code == 0xa0 || code == 0x1680 ||
    (0x2000 ≤ code && code ≤ 0x200a) || code == 0x2028 || code == 0x2029 ||
    code == 0x202f || code == 0x205f || code == 0x3000

/-- Drop the characters of one class from both ends. -/
def trimBy (dropped : Char → Bool) (text : List Char) : List Char :=
  ((text.dropWhile dropped).reverse.dropWhile dropped).reverse

/-- Drop the blanks from both ends. -/
def trim (text : List Char) : List Char :=
  trimBy isBlank text

/-- The words of a text, from left to right. -/
def words (text : List Char) : List (List Char) :=
  (text.splitOnP isBlank).filter (fun word => !word.isEmpty)

/-- The first word of a text and the trimmed remainder after it. -/
def firstWord (text : List Char) : List Char × List Char :=
  let started := text.dropWhile isBlank
  (started.takeWhile (fun c => !isBlank c),
    trim (started.dropWhile (fun c => !isBlank c)))

end Text
end Msp430
