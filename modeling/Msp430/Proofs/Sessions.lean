import Msp430.Proofs.Deliveries

/-!
Sessions of the window, action by action.  The assembler behind the window is changed by
attempts alone, and no attempt takes back a diagnostic or an entry.  Main statement: a
session that has failed once, after layout or in encoding, never delivers object code
again.
-/

namespace Msp430
namespace Workbench

open Assembler

/-- What can be done in the window.  A line is highlighted for the eye only. -/
inductive Action where
  | typeIn (text : String)
  | assembleEditor
  | assemble (source : String)
  | saveEditor (name : String)
  | loadEditor (name : String) (stored : Option String)
  | highlight (line : String)
  deriving Repr, DecidableEq

namespace Session

def act (session : Session) : Action → Outcome
  | .typeIn text => (session.typeIn text).settled none []
  | .assembleEditor => session.assembleEditor
  | .assemble source => (session.assemble source).1
  | .saveEditor name => session.saveEditor name
  | .loadEditor name stored => session.loadEditor name stored
  | .highlight _ => session.settled none []

def run (session : Session) : List Action → Session
  | [] => session
  | action :: others => (session.act action).session.run others

theorem run_append (session : Session) (first second : List Action) :
    session.run (first ++ second) = (session.run first).run second := by
  induction first generalizing session with
  | nil => rfl
  | cons action others inductionHypothesis => exact inductionHypothesis _

/-! ### Actions as attempts -/

/-- The attempt that an action makes. -/
def attempt? (session : Session) : Action → Option Attempt
  | .assembleEditor => some (session.clear.assembler.attempt session.editor)
  | .assemble source => some (session.assembler.attempt source)
  | _ => none

/-- The window shows what is answered; after a fault both fields stay empty. -/
theorem assembleEditor_attempt (session : Session) :
    let outcome := session.assembleEditor
    let attempt := session.clear.assembler.attempt session.editor
    outcome.session.assembler = attempt.final ∧ outcome.files = attempt.files ∧
      outcome.session.shownCode = (answer attempt).code ∧
      outcome.session.shownErrors = (answer attempt).errors := by
  obtain ⟨final, fault, files, answered⟩ :=
    assembleText_attempt session.clear.assembler session.editor
  simp only [assembleEditor, assemble, fault]
  cases attempted : session.clear.assembler.attempt session.editor with
  | unplaced state fault =>
      rw [attempted] at final files
      exact ⟨final, files, rfl, rfl⟩
  | unencoded state fault =>
      rw [attempted] at final files
      exact ⟨final, files, rfl, rfl⟩
  | rejected state =>
      rw [attempted] at final files answered
      exact ⟨final, files, congrArg Answer.code answered, congrArg Answer.errors answered⟩
  | encoded state =>
      rw [attempted] at final files answered
      exact ⟨final, files, congrArg Answer.code answered, congrArg Answer.errors answered⟩

theorem act_of_attempt {session : Session} {action : Action} {attempt : Attempt}
    (made : session.attempt? action = some attempt) :
    (session.act action).session.assembler = attempt.final ∧
      (session.act action).files = attempt.files := by
  cases action with
  | assembleEditor =>
      obtain ⟨final, files, _code, _errors⟩ := session.assembleEditor_attempt
      cases made
      exact ⟨final, files⟩
  | assemble source =>
      obtain ⟨final, _fault, files, _answered⟩ := assembleText_attempt session.assembler source
      cases made
      exact ⟨final, files⟩
  | _ => cases made

theorem act_of_no_attempt {session : Session} {action : Action}
    (none : session.attempt? action = none) :
    (session.act action).session.assembler = session.assembler := by
  cases action with
  | assembleEditor => cases none
  | assemble source => cases none
  | typeIn text => rfl
  | highlight line => rfl
  | saveEditor name =>
      simp only [act, saveEditor]
      split
      · rfl
      · split <;> rfl
  | loadEditor name stored =>
      simp only [act, loadEditor]
      split
      · rfl
      · cases stored <;> rfl

end Session
end Workbench

/-! ### Failures that last -/

namespace Assembler
namespace State

/-- Something is recorded, or some entry cannot be encoded. -/
def Barred (state : State) : Prop :=
  state.diagnostics ≠ [] ∨ ∃ entry ∈ state.entries, entry.fault? ≠ none

variable {state : State} {source : String}

theorem Places.barred {statement : Statement} {progress : Progress}
    (placed : state.Places statement progress) (barred : state.Barred) :
    progress.state.Barred := by
  cases placed with
  | skipped name value label bound => exact Or.inl (by simp [record])
  | started address admitted opcode reads => simpa [Barred] using barred
  | refused text admitted opcode operand unread => simpa [Barred] using barred
  | ended admitted opcode => simpa [Barred, finish] using barred
  | kept admitted notStart notEnd =>
      rcases barred with recorded | ⟨entry, member, faulty⟩
      · exact Or.inl (List.append_ne_nil_of_left_ne_nil recorded _)
      · refine Or.inr ⟨entry, ?_, faulty⟩
        simp [reserve, keep, member]

theorem layout_barred (barred : state.Barred) : (state.layout source).state.Barred :=
  placeAll_preserves (Statement.all source)
    (fun _earlier _statement _progress _member placed before => placed.barred before)
    state barred

theorem encode_barred (barred : state.Barred) : state.encode.1.Barred := by
  rcases barred with recorded | faulty
  · exact Or.inl (List.append_ne_nil_of_left_ne_nil recorded _)
  · exact Or.inr faulty

theorem attempt_unencoded_barred {final : State} {fault : Fault}
    (unencoded : state.attempt source = .unencoded final fault) : final.Barred := by
  have attempts := state.attempts_attempt source
  rw [unencoded] at attempts
  cases attempts with
  | unencoded placed clean stopped =>
      obtain ⟨entry, member, faulty⟩ := List.exists_of_findSome?_eq_some stopped
      refine Or.inr ⟨entry, member, ?_⟩
      rw [faulty]
      exact Option.some_ne_none fault

/-- Layout adds to what bars a state, and what bars it keeps the words from being
delivered. -/
theorem attempt_barred (barred : state.Barred) :
    (state.attempt source).final.Barred ∧ ∀ final, state.attempt source ≠ .encoded final := by
  have placed : (state.layout source).state.Barred := layout_barred barred
  have attempts := state.attempts_attempt source
  generalize state.attempt source = attempt at attempts ⊢
  cases attempts with
  | unplaced stopped => exact ⟨placed, fun _ impossible => Attempt.noConfusion impossible⟩
  | rejected unstopped found =>
      exact ⟨placed, fun _ impossible => Attempt.noConfusion impossible⟩
  | unencoded unstopped clean stopped =>
      exact ⟨encode_barred placed, fun _ impossible => Attempt.noConfusion impossible⟩
  | encoded unstopped clean sound =>
      rcases placed with recorded | ⟨entry, member, faulty⟩
      · exact absurd clean recorded
      · exact absurd (sound entry member) faulty

end State
end Assembler

namespace Workbench
namespace Session

open Assembler

variable {session : Session}

theorem act_barred (barred : session.assembler.Barred) (action : Action) :
    (session.act action).session.assembler.Barred := by
  cases action with
  | assembleEditor =>
      -- Clearing empties the symbols, which bar nothing.
      have cleared : session.clear.assembler.Barred := barred
      rw [(act_of_attempt rfl).1]
      exact (State.attempt_barred cleared).1
  | assemble source =>
      rw [(act_of_attempt rfl).1]
      exact (State.attempt_barred barred).1
  | _ =>
      rw [act_of_no_attempt rfl]
      exact barred

theorem run_barred (barred : session.assembler.Barred) (actions : List Action) :
    (session.run actions).assembler.Barred := by
  induction actions generalizing session with
  | nil => exact barred
  | cons action others inductionHypothesis => exact inductionHypothesis (act_barred barred action)

/-- The assembler of a barred session delivers nothing. -/
theorem undelivered_of_barred (barred : session.assembler.Barred) (text : String) :
    (session.typeIn text).assembleEditor.session.shownCode = "" ∧
      (session.typeIn text).assembleEditor.files = [] ∧
      (session.assemble text).1.files = [] := by
  have silent : ∀ attempt : Attempt, (∀ final, attempt ≠ .encoded final) →
      attempt.files = [] ∧ (answer attempt).code = "" := by
    intro attempt undelivered
    cases attempt with
    | encoded final => exact absurd rfl (undelivered final)
    | _ => exact ⟨rfl, rfl⟩
  have cleared : (session.typeIn text).clear.assembler.Barred := barred
  have direct : (session.act (.assemble text)).files =
      (session.assembler.attempt text).files := (act_of_attempt rfl).2
  obtain ⟨_final, files, code, _errors⟩ := (session.typeIn text).assembleEditor_attempt
  obtain ⟨noFiles, noCode⟩ := silent _ (State.attempt_barred cleared).2
  refine ⟨code.trans noCode, files.trans noFiles, direct.trans ?_⟩
  exact (silent _ (State.attempt_barred barred).2).1

/-- An action after which something is recorded, or whose encoding ended in a fault, is
the end of all deliveries: whatever is done between, later the assemble button shows no
code, and neither it nor a direct assembly writes a file. -/
theorem failure_permanent (before : List Action) (action : Action) (between : List Action)
    (failed :
      ((fresh.run before).act action).session.assembler.diagnostics ≠ [] ∨
        ∃ final fault, (fresh.run before).attempt? action = some (.unencoded final fault))
    (text : String) :
    let session := fresh.run (before ++ action :: between)
    (session.typeIn text).assembleEditor.session.shownCode = "" ∧
      (session.typeIn text).assembleEditor.files = [] ∧
      (session.assemble text).1.files = [] := by
  intro session
  have barred : ((fresh.run before).act action).session.assembler.Barred := by
    rcases failed with recorded | ⟨final, fault, made⟩
    · exact Or.inl recorded
    · rw [(act_of_attempt made).1]
      cases action with
      | assembleEditor => exact State.attempt_unencoded_barred (Option.some.inj made)
      | assemble source => exact State.attempt_unencoded_barred (Option.some.inj made)
      | _ => cases made
  apply undelivered_of_barred
  change (fresh.run (before ++ action :: between)).assembler.Barred
  rw [run_append]
  exact run_barred barred between

/-- A register written as a number stops encoding and is not recorded.  The sound program
at the end is of no use. -/
theorem failure_permanent_unrecorded :
    let before : List Action := [.typeIn "MOV #R5, R6\nEND"]
    let between : List Action :=
      [.typeIn "START zz", .assembleEditor, .saveEditor "kept.asm", .highlight "MOV"]
    let session := fresh.run (before ++ .assembleEditor :: between)
    ((fresh.run before).act .assembleEditor).fault = some (.badNumeral "R5") ∧
      session.assembler.diagnostics = [] ∧
      (session.assemble "RRC R4\nEND").1.files = [] := by
  intro before between session
  have made : (fresh.run before).attempt? .assembleEditor =
      some (.unencoded ((fresh.run before).act .assembleEditor).session.assembler
        (.badNumeral "R5")) := by
    decide
  obtain ⟨_shown, _files, files⟩ := failure_permanent before .assembleEditor between
    (Or.inr ⟨_, _, made⟩) "RRC R4\nEND"
  exact ⟨by decide, by decide, files⟩

end Session
end Workbench
end Msp430
