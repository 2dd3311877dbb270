import Msp430.Assembler.Encoding
import Msp430.Assembler.Layout
import Msp430.Assembler.ObjectFile

/-!
The console: a program is typed in up to a line that says `END`, assembled and
saved, and its words are printed.  Recorded diagnostics are printed instead of
code.
-/

namespace Msp430
namespace Assembler
namespace Console

/-- The program in the typed lines: all up to the first that reads `END`, each
with a line feed.  Without such a line there is none. -/
def program? : List (List Char) → Option (List Char)
  | [] => none
  | line :: others =>
      if Text.trim line = ['E', 'N', 'D'] then some (line ++ ['\n'])
      else (program? others).map (fun later => line ++ '\n' :: later)

def invitation : String :=
  "Enter assembly code (type 'END' to finish):\n"

/-- One word as it is printed. -/
def wordLine (word : ObjectWord) : String :=
  word.line ++ " (" ++ Numeral.wordBits word.code ++ ")"

/-- Encode, save and print. -/
def deliver (state : State) : Report :=
  match state.encode with
  | (encoded, some fault) => Report.quiet encoded (some fault)
  | (encoded, none) =>
      let saved := encoded.save objectFileName
      { saved with
        printed := saved.printed ++ "\nGenerated Object Code:\n" ++
          Text.unlines (encoded.object.map wordLine) }

/-- Assemble a program that was typed in. -/
def assemble (state : State) (source : String) : Report :=
  let placed := state.layout source
  match placed.fault? with
  | some fault => Report.quiet placed.state (some fault)
  | none =>
      if placed.state.diagnostics.isEmpty then deliver placed.state
      else
        { state := placed.state
          fault := none
          printed := "\nErrors:\n" ++
            Text.unlines (placed.state.diagnostics.map Diagnostic.message)
          files := [] }

/-- Read a program from the typed input and assemble it. -/
def run (state : State) (input : String) : Report :=
  match program? (Text.feedLines input.toList) with
  | none => (Report.quiet state (some .inputEnded)).after invitation
  | some source => (assemble state (String.ofList source)).after invitation

end Console
end Assembler
end Msp430
