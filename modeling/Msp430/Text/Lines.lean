/-!
Lines.  A line ends at any of the line terminators of Unicode; a carriage
return and the line feed after it are one terminator.  The last line needs
none.
-/

namespace Msp430
namespace Text

/-- The single characters that end a line. -/
def isBreak (c : Char) : Bool :=
  let code := c.toNat
  (0x0a ≤ code && code ≤ 0x0d) || (0x1c ≤ code && code ≤ 0x1e) ||
    code == 0x85 || code == 0x2028 || code == 0x2029

/-- Put a character in front of the first line. -/
def growLine (c : Char) : List (List Char) → List (List Char)
  | [] => [[c]]
  | line :: lines => (c :: line) :: lines

/-- The lines of a text without their terminators. -/
def lines : List Char → List (List Char)
  | [] => []
  | '\r' :: '\n' :: rest => [] :: lines rest
  | c :: rest => if isBreak c then [] :: lines rest else growLine c (lines rest)

/-- The lines of a text in which only a line feed ends a line. -/
def feedLines : List Char → List (List Char)
  | [] => []
  | c :: rest => if c = '\n' then [] :: feedLines rest else growLine c (feedLines rest)

/-- What reading a text file does to its line ends: a carriage return, alone
or before a line feed, becomes a line feed. -/
def unifyBreaks : List Char → List Char
  | [] => []
  | '\r' :: '\n' :: rest => '\n' :: unifyBreaks rest
  | c :: rest => (if c = '\r' then '\n' else c) :: unifyBreaks rest

/-- Lines printed one below the other, each with its line feed. -/
def unlines (items : List String) : String :=
  String.join (items.map (fun item => item ++ "\n"))

end Text
end Msp430
