import Msp430.Text.Fields

/-!
Command-line options of the disassembler.  Options and file names may mix; short
options may be joined and a long option may be cut to any beginning that no other
long option shares.  Two dashes end the options.
-/

namespace Msp430
namespace Disassembler

structure Settings where
  output : Option String
  debug : Bool
  verbose : Bool
  inputFormat : Option String
  wide : Bool
  sourceOnly : Bool
  symbols : Option String
  deriving Repr, DecidableEq

def Settings.usual : Settings :=
  { output := none
    debug := false
    verbose := false
    inputFormat := none
    wide := false
    sourceOnly := false
    symbols := none }

inductive Switch where
  | help
  | output
  | debug
  | verbose
  | inputFormat
  | wide
  | sourceOnly
  | symbols
  deriving Repr, DecidableEq

namespace Switch

def takesValue : Switch → Bool
  | .output => true
  | .inputFormat => true
  | .symbols => true
  | _ => false

def ofLetter? : Char → Option Switch
  | 'h' => some .help
  | 'o' => some .output
  | 'v' => some .verbose
  | 'i' => some .inputFormat
  | 'x' => some .wide
  | _ => none

/-- The long names in alphabetical order. -/
def longNames : List (String × Switch) :=
  [("--debug", .debug), ("--help", .help), ("--input-format", .inputFormat),
   ("--msp430x", .wide), ("--output", .output), ("--source", .sourceOnly),
   ("--symbols", .symbols), ("--verbose", .verbose)]

end Switch

/-- Turn on a switch that takes no value. -/
def Settings.turnOn (settings : Settings) : Switch → Settings
  | .debug => { settings with debug := true }
  | .verbose => { settings with verbose := true }
  | .wide => { settings with wide := true }
  | .sourceOnly => { settings with sourceOnly := true }
  | _ => settings

/-- Give a switch its value; the last one counts. -/
def Settings.assign (settings : Settings) (value : String) : Switch → Settings
  | .output => { settings with output := some value }
  | .inputFormat => { settings with inputFormat := some value }
  | .symbols => { settings with symbols := some value }
  | _ => settings

/-- What one argument leads to.  A switch that waits for its value keeps the
spelling by which an error names it. -/
inductive Effect where
  | settled (settings : Settings)
  | awaiting (settings : Settings) (switch : Switch) (spelling : String)
  | help
  | misuse (reason : String)
  deriving Repr, DecidableEq

/-- Find a long option by its name or by the beginning of one. -/
def findLong (written : String) : Except String (String × Switch) :=
  match Switch.longNames.find? (fun entry => entry.1 == written) with
  | some entry => .ok entry
  | none =>
      match Switch.longNames.filter
          (fun entry => written.toList.isPrefixOf entry.1.toList) with
      | [] => .error ("no such option: " ++ written)
      | [entry] => .ok entry
      | entries =>
          .error ("ambiguous option: " ++ written ++ " (" ++
            String.intercalate ", " (entries.map Prod.fst) ++ "?)")

/-- A long option, with its value after an equals sign if it has one there. -/
def readLong (settings : Settings) (argument : String) : Effect :=
  let (written, value) :=
    match Text.cut? '=' argument.toList with
    | some sides => (String.ofList sides.1, some (String.ofList sides.2))
    | none => (argument, none)
  match findLong written with
  | .error reason => .misuse reason
  | .ok (spelling, switch) =>
      match switch.takesValue, value with
      | true, some text => .settled (settings.assign text switch)
      | true, none => .awaiting settings switch spelling
      | false, some _ => .misuse (spelling ++ " option does not take a value")
      | false, none =>
          if switch = .help then .help else .settled (settings.turnOn switch)

/-- Joined short options.  The rest of the letters is the value of the first that
takes one. -/
def readLetters (settings : Settings) : List Char → Effect
  | [] => .settled settings
  | letter :: others =>
      let spelling := String.ofList ['-', letter]
      match Switch.ofLetter? letter with
      | none => .misuse ("no such option: " ++ spelling)
      | some switch =>
          if switch.takesValue then
            if others.isEmpty then .awaiting settings switch spelling
            else .settled (settings.assign (String.ofList others) switch)
          else if switch = .help then .help
          else readLetters (settings.turnOn switch) others

/-- What a command line asks for. -/
inductive Request where
  | run (settings : Settings) (files : List String)
  | help
  | misuse (reason : String)
  deriving Repr, DecidableEq

/-- Read arguments one by one; `waiting` is a switch whose value comes next. -/
def readArguments (settings : Settings) (files : List String)
    (waiting : Option (Switch × String)) : List String → Request
  | [] =>
      match waiting with
      | some (_, spelling) => .misuse (spelling ++ " option requires 1 argument")
      | none => .run settings files
  | argument :: others =>
      match waiting with
      | some (switch, _) => readArguments (settings.assign argument switch) files none others
      | none =>
          let effect :=
            match argument.toList with
            | '-' :: '-' :: _ => some (readLong settings argument)
            | '-' :: letter :: letters => some (readLetters settings (letter :: letters))
            | _ => none
          if argument = "--" then .run settings (files ++ others)
          else
            match effect with
            | none => readArguments settings (files ++ [argument]) none others
            | some (.settled changed) => readArguments changed files none others
            | some (.awaiting changed switch spelling) =>
                readArguments changed files (some (switch, spelling)) others
            | some .help => .help
            | some (.misuse reason) => .misuse reason

/-- Read a command line. -/
def Request.ofArguments (arguments : List String) : Request :=
  readArguments Settings.usual [] none arguments

/-- The opening of every usage message. -/
def usage : String :=
  "Usage: dasm [options] [SOURCE...]\n\nMSP430(X) disassembler.\n\n\n"

/-- The full help text for the input formats there are. -/
def helpText (formats : List String) : String :=
  usage ++
  "Options:\n" ++
  "  -h, --help            show this help message and exit\n" ++
  "  -o DESTINATION, --output=DESTINATION\n" ++
  "                        write result to given file\n" ++
  "  --debug               print debug messages\n" ++
  "  -v, --verbose         print more details\n" ++
  "  -i TYPE, --input-format=TYPE\n" ++
  "                        input format name (" ++ String.intercalate ", " formats ++ ")\n" ++
  "  -x, --msp430x         Enable MSP430X instruction set\n" ++
  "  --source              omit hex dump, just output assembler source\n" ++
  "  --symbols=NAME        read register names for given architecture (e.g. F1xx)\n"

/-- The message about a command line that asks for nothing possible. -/
def misuseText (reason : String) : String :=
  usage ++ "dasm: error: " ++ reason ++ "\n"

end Disassembler
end Msp430
