import Msp430.Workbench.Session
import Msp430.Workload.Programs

/-!
Runs of the assembler and the workbench over the workload programs, and the
numbers they give.
-/

namespace Msp430
namespace Workload

open Assembler

/-- Lay out and encode a text with a fresh assembler. -/
def assembled (source : String) : State :=
  ((State.fresh.layout source).state.encode).1

inductive Exercise where
  | twoPass
  | addressing
  | jumps
  | faults
  | saving
  | window
  deriving Repr, DecidableEq

namespace Exercise

/-- The sizes an exercise is meant for. -/
def sizes : Exercise → List Nat
  | .twoPass => [30, 120, 480]
  | .addressing => [200, 800, 3200]
  | .jumps => [100, 400, 1600]
  | .faults => [100, 400, 1600]
  | .saving => [300, 1200, 4800]
  | .window => [20, 80, 320]

end Exercise

/-- The sample assembled anew for each copy, its labels tagged with the copy's number: words
and length. -/
def twoPass (copies : Nat) : List Int :=
  (List.range copies).flatMap (fun index =>
    let state := assembled (taggedSample ("_" ++ number index))
    [(state.object.length : Int), state.length])

/-- The words of the addressing program. -/
def addressing (lines : Nat) : List Int :=
  (assembled (addressingProgram lines)).object.map ObjectWord.code

/-- The values of every so many labels of the jump program, and its number of
words. -/
def jumps (labels : Nat) : List Int :=
  let state := assembled (jumpProgram labels)
  let step := max 1 (labels / 32)
  ((List.range labels).filter (fun index => index % step == 0)).map
    (fun index => (state.symbols.find? (labelName index)).getD 0) ++
  [(state.object.length : Int)]

/-- The number of diagnostics of the faulty program, and of its entries. -/
def faults (groups : Nat) : List Int :=
  let state := assembled (faultyProgram groups)
  [(state.diagnostics.length : Int), (state.entries.length : Int)]

/-- The number of lines in the object file of a longer sample; then the number of
diagnostics and the length after a faulty program was typed in. -/
def saving (lines : Nat) : List Int :=
  let saved := (assembled (extendedSample lines)).save objectFileName
  let written := saved.files.flatMap (fun file => Text.feedLines file.content.toList)
  let typed := Console.run State.fresh faulty
  [(written.length : Int), (typed.state.diagnostics.length : Int), typed.state.length]

/-- The length of the text a fresh window shows, every fourth time for the faulty
program. -/
def window (copies : Nat) : List Int :=
  (List.range copies).map (fun index =>
    let source := if index % 4 == 0 then faulty else sample
    let outcome := (Workbench.Session.fresh.typeIn source).assembleEditor
    (outcome.session.shownCode.length : Int))

/-- The numbers that an exercise gives at a size. -/
def Exercise.run (exercise : Exercise) (size : Nat) : List Int :=
  match exercise with
  | .twoPass => Workload.twoPass size
  | .addressing => Workload.addressing size
  | .jumps => Workload.jumps size
  | .faults => Workload.faults size
  | .saving => Workload.saving size
  | .window => Workload.window size

end Workload
end Msp430
