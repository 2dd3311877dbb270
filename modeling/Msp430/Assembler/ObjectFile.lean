import Msp430.Assembler.State

/-!
The object file, and what a step of the assembler leaves behind: the new state,
a fault, what it printed and the files it wrote.
-/

namespace Msp430
namespace Assembler

structure File where
  name : String
  content : String
  deriving Repr, DecidableEq

/-- A file can be made in the working directory and nowhere else. -/
def File.creatable (name : String) : Bool :=
  name != "" && !name.toList.contains '/'

structure Report where
  state : State
  fault : Option Fault
  printed : String
  files : List File
  deriving Repr, DecidableEq

/-- A step that prints and writes nothing. -/
def Report.quiet (state : State) (fault : Option Fault) : Report :=
  { state := state, fault := fault, printed := "", files := [] }

/-- Put an announcement before what a step printed. -/
def Report.after (announcement : String) (report : Report) : Report :=
  { report with printed := announcement ++ report.printed }

/-- The name an object file has unless another is given. -/
def objectFileName : String := "output.hex"

/-- Save the object code. -/
def State.save (state : State) (name : String) : Report :=
  if File.creatable name then
    { state := state
      fault := none
      printed := "Machine code saved to " ++ name ++ "\n"
      files := [{ name := name, content := ObjectWord.file state.object }] }
  else
    Report.quiet state (some (.noSuchFile name))

end Assembler
end Msp430
