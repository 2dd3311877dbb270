import Msp430.Assembler.Console

/-!
The workbench window: an editor, a field for the object code, a field for
errors, and one assembler behind them whose state lasts as long as the window.
-/

namespace Msp430
namespace Workbench

open Assembler

structure Session where
  editor : String
  shownCode : String
  shownErrors : String
  assembler : State
  deriving Repr, DecidableEq

/-- What a step of the window leaves behind. -/
structure Outcome where
  session : Session
  fault : Option Fault
  printed : String
  files : List File
  deriving Repr, DecidableEq

/-- The two texts that assembling gives. -/
structure Answer where
  code : String
  errors : String
  deriving Repr, DecidableEq

/-- One word as the window shows it. -/
def wordLine (word : ObjectWord) : String :=
  "ADDR: " ++ Numeral.upperHex word.address ++ " | HEX: " ++ Numeral.upperHex word.code ++
    " | BIN: " ++ Numeral.wordBits word.code

/-- The object code as the window shows it. -/
def codeText (object : List ObjectWord) : String :=
  String.intercalate "\n" (object.map wordLine)

/-- Assemble a text: recorded diagnostics are answered instead of code, else the
object code is answered and saved. -/
def assembleText (state : State) (source : String) : Report × Answer :=
  let silent : Answer := { code := "", errors := "" }
  let placed := state.layout source
  match placed.fault? with
  | some fault => (Report.quiet placed.state (some fault), silent)
  | none =>
      if placed.state.diagnostics.isEmpty then
        match placed.state.encode with
        | (encoded, some fault) => (Report.quiet encoded (some fault), silent)
        | (encoded, none) =>
            (encoded.save objectFileName, { code := codeText encoded.object, errors := "" })
      else
        (Report.quiet placed.state none,
          { code := ""
            errors := String.intercalate "\n"
              (placed.state.diagnostics.map Diagnostic.message) })

namespace Session

def fresh : Session :=
  { editor := "", shownCode := "", shownErrors := "", assembler := State.fresh }

/-- Open a window.  It needs the file of its assembler among those that are present. -/
def launch (backend : String) (present : List String) : Except Fault Session :=
  if present.contains backend then .ok fresh else .error (.noSuchFile backend)

def typeIn (session : Session) (text : String) : Session :=
  { session with editor := text }

/-- A step that only ends in a session. -/
def settled (session : Session) (fault : Option Fault) (files : List File) : Outcome :=
  { session := session, fault := fault, printed := "", files := files }

/-- Assemble a text without touching editor and fields. -/
def assemble (session : Session) (source : String) : Outcome × Answer :=
  let (report, answer) := assembleText session.assembler source
  ({ session := { session with assembler := report.state }
     fault := report.fault
     printed := report.printed
     files := report.files }, answer)

/-- Empty both fields and the symbol table. -/
def clear (session : Session) : Session :=
  { session with
    shownCode := ""
    shownErrors := ""
    assembler := { session.assembler with symbols := SymbolTable.empty } }

/-- The assemble button: clear, assemble what is in the editor and show the
answer.  After a fault the fields stay empty. -/
def assembleEditor (session : Session) : Outcome :=
  let (outcome, answer) := session.clear.assemble session.editor
  match outcome.fault with
  | some _ => outcome
  | none =>
      { outcome with
        session := { outcome.session with
          shownCode := answer.code
          shownErrors := answer.errors } }

/-- Save the editor's text under a name; an empty name cancels. -/
def saveEditor (session : Session) (name : String) : Outcome :=
  if name = "" then session.settled none []
  else if File.creatable name then
    session.settled none [{ name := name, content := session.editor }]
  else session.settled (some (.noSuchFile name)) []

/-- Load a file into the editor; an empty name cancels.  `stored` is what the
file holds, if it exists. -/
def loadEditor (session : Session) (name : String) (stored : Option String) : Outcome :=
  if name = "" then session.settled none []
  else
    match stored with
    | some content =>
        (session.typeIn (String.ofList (Text.unifyBreaks content.toList))).settled none []
    | none => session.settled (some (.noSuchFile name)) []

end Session
end Workbench
end Msp430
