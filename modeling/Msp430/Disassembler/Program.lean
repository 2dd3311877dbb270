import Msp430.Disassembler.Listing
import Msp430.Disassembler.Options
import Msp430.Text.Quoted

/-!
The disassembler as a program: it lists every file of its command line and ends
with an exit code.
-/

namespace Msp430
namespace Disassembler

/-- What loading a file gives. -/
inductive Image where
  | memory (segments : List Segment)
  | unreadable (reason : String)
  | interrupted
  deriving Repr, DecidableEq

/-- What the program finds around it: the input formats, the files, and the
register names that can be loaded. -/
structure World where
  formats : List String
  images : List (String × Image)
  peripherals : Peripherals
  deriving Repr, DecidableEq

/-- Why a listing breaks off. -/
inductive Failure where
  | undescribed (fault : Fault)
  | unreadable (reason : String)
  | interrupted
  | noSuchFile (name : String)
  | textIntoBytes
  deriving Repr, DecidableEq

def Failure.message : Failure → String
  | .undescribed fault => fault.message
  | .unreadable reason => reason
  | .interrupted => ""
  | .noSuchFile name => "[Errno 2] No such file or directory: " ++ Text.quoted name
  | .textIntoBytes => "a bytes-like object is required, not 'str'"

inductive Ending where
  | returned
  | exited (code : Nat)
  | failed (failure : Failure)
  deriving Repr, DecidableEq

/-- What a run leaves behind.  `created` names the files it made, which are all
empty. -/
structure Result where
  ending : Ending
  printed : String
  reported : String
  created : List String
  deriving Repr, DecidableEq

/-- How work on the files of a command line ends. -/
inductive Stop where
  | completed
  | missing (name : String)
  | broken (failure : Failure)
  deriving Repr, DecidableEq

/-- The name under which standard input is loaded. -/
def standardInput : String := "<stdin>"

/-- The name and image an argument stands for.  A dash is standard input, which
is no file. -/
def World.image? (world : World) (argument : String) : String × Option Image :=
  if argument = "-" then (standardInput, world.images.lookup standardInput)
  else if argument = standardInput then (argument, none)
  else (argument, world.images.lookup argument)

/-- The line that announces a file. -/
def fileHeading (name : String) (segments : List Segment) : String :=
  name ++ " (" ++ Numeral.decimal segments.length ++ " segments):\n"

/-- The text for one file, as far as it got.  A destination file takes bytes, so
the first text for it breaks the listing off. -/
def listFile (setup : Setup) (settings : Settings) (toFile : Bool) (name : String)
    (segments : List Segment) : String × Option Failure :=
  let heading := if settings.verbose then fileHeading name segments else ""
  if toFile && heading != "" then ("", some .textIntoBytes)
  else
    match (disassemble setup segments Labels.empty settings.sourceOnly).2 with
    | .error fault => (heading, some (.undescribed fault))
    | .ok text =>
        if toFile && text != "" then ("", some .textIntoBytes) else (heading ++ text, none)

/-- The text for files in turn, up to the first that stops the work. -/
def listFiles (world : World) (setup : Setup) (settings : Settings) (toFile : Bool) :
    List String → String × Stop
  | [] => ("", .completed)
  | argument :: others =>
      match world.image? argument with
      | (name, none) => ("", .missing name)
      | (_, some (.unreadable reason)) => ("", .broken (.unreadable reason))
      | (_, some .interrupted) => ("", .broken .interrupted)
      | (name, some (.memory segments)) =>
          match listFile setup settings toFile name segments with
          | (text, some failure) => (text, .broken failure)
          | (text, none) =>
              let (later, stop) := listFiles world setup settings toFile others
              (text ++ later, stop)

/-- A result without new files. -/
def Result.plain (ending : Ending) (printed reported : String) : Result :=
  { ending := ending, printed := printed, reported := reported, created := [] }

/-- How a failure ends the program: as it is when debugging, else with a message
and exit code one. -/
def Failure.result (failure : Failure) (debug : Bool) (printed : String) : Result :=
  if debug then Result.plain (.failed failure) printed ""
  else if failure = .interrupted then Result.plain (.exited 1) printed "User abort.\n"
  else
    Result.plain (.exited 1) printed
      ("\nAn error occurred:\n" ++ failure.message ++ "\n")

/-- List the files with given settings. -/
def World.list (world : World) (settings : Settings) (files : List String) : Result :=
  let destination := settings.output.filter (fun name => name != "")
  let unopened := destination.filter (fun name => name.toList.contains '/')
  match unopened with
  | some name => (Failure.noSuchFile name).result settings.debug ""
  | none =>
      let setup : Setup :=
        { wide := settings.wide, names := settings.symbols.map (fun _ => world.peripherals) }
      let (printed, stop) := listFiles world setup settings destination.isSome files
      let result :=
        match stop with
        | .completed => Result.plain .returned printed ""
        | .missing name =>
            Result.plain (.exited 1) printed ("disassemble: " ++ name ++ ": File not found\n")
        | .broken failure => failure.result settings.debug printed
      { result with
        created := destination.toList.filter
          (fun name => (world.images.lookup name).isNone) }

/-- Run the program on its arguments. -/
def World.run (world : World) (arguments : List String) : Result :=
  match Request.ofArguments arguments with
  | .help => Result.plain (.exited 0) (helpText world.formats) ""
  | .misuse reason => Result.plain (.exited 2) "" (misuseText reason)
  | .run settings files =>
      if files.isEmpty then
        Result.plain (.exited 2) "" (misuseText "missing object file name")
      else
        match settings.inputFormat.filter (fun format => !world.formats.contains format) with
        | some format =>
            Result.plain (.exited 2) ""
              (misuseText ("Input format " ++ format ++ " not supported."))
        | none => world.list settings files

end Disassembler
end Msp430
