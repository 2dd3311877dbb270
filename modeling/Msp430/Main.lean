import Msp430.Assembler.Console

/-!
The assembler on the command line: a program is read from standard input, and its
words are printed and saved.
-/

namespace Msp430
namespace Assembler
namespace Console

/-- Read lines until the program is complete or the input ends. -/
partial def readProgram (stream : IO.FS.Stream) (typed : String) : IO String := do
  let line ← stream.getLine
  if line.isEmpty then return typed
  let text := typed ++ line
  if (program? (Text.feedLines line.toList)).isSome then return text
  readProgram stream text

/-- Print and save what a step gave, and turn a fault into an exit code. -/
def deliverReport (report : Report) : IO UInt32 := do
  IO.print report.printed
  for file in report.files do
    IO.FS.writeFile file.name file.content
  match report.fault with
  | none => return 0
  | some fault =>
      IO.eprintln fault.message
      return 1

/-- Invite a program, read it and assemble it. -/
def interact : IO UInt32 := do
  IO.print invitation
  let typed ← readProgram (← IO.getStdin) ""
  match program? (Text.feedLines typed.toList) with
  | none => deliverReport (Report.quiet State.fresh (some .inputEnded))
  | some source => deliverReport (assemble State.fresh (String.ofList source))

end Console
end Assembler
end Msp430

def main : IO UInt32 :=
  Msp430.Assembler.Console.interact
