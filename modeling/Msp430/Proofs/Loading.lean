import Msp430.Proofs.Joining
import Msp430.Workbench.Session

/-!
Texts saved and loaded.  A saved file holds the text of the editor as it stands, but loading
it turns the carriage returns into line feeds, so the editor may hold another text than
before.  Main statement: the two texts are laid out alike from every memory, and assembling
either shows and leaves behind the same.
-/

namespace Msp430
namespace Text

/-- A carriage return ends a line wherever the line feed does that takes its place, and a
pair ends one line only. -/
theorem lines_unifyBreaks (text : List Char) : lines (unifyBreaks text) = lines text := by
  fun_induction unifyBreaks text with
  | case1 => rfl
  | case2 rest inductionHypothesis =>
      rw [lines_feed, inductionHypothesis]
      rfl
  | case3 c rest single inductionHypothesis =>
      have apart : c = '\r' → ∀ later, rest ≠ '\n' :: later :=
        fun carriage later same => single later carriage same
      rw [lines_cons apart]
      by_cases carriage : c = '\r'
      · rw [if_pos carriage, lines_feed, inductionHypothesis, carriage]
        rfl
      · rw [if_neg carriage, lines_cons (fun same => absurd same carriage), inductionHypothesis]

end Text

namespace Assembler

theorem State.layout_unifyBreaks (state : State) (content : String) :
    state.layout (String.ofList (Text.unifyBreaks content.toList)) = state.layout content := by
  unfold layout Statement.all
  rw [String.toList_ofList, Text.lines_unifyBreaks]

end Assembler

namespace Workbench

open Assembler

def Outcome.withEditor (outcome : Outcome) (text : String) : Outcome :=
  { outcome with session := outcome.session.typeIn text }

namespace Session

@[simp] theorem typeIn_editor (session : Session) (text : String) :
    (session.typeIn text).editor = text := rfl

/-- The window after a file with this content has been loaded. -/
def loaded (session : Session) (name content : String) : Session :=
  (session.loadEditor name (some content)).session

theorem loaded_eq_typeIn (session : Session) {name : String} (named : name ≠ "")
    (content : String) :
    session.loaded name content =
      session.typeIn (String.ofList (Text.unifyBreaks content.toList)) := by
  unfold loaded loadEditor
  rw [if_neg named]
  rfl

theorem saveEditor_of_creatable (session : Session) {name : String}
    (creatable : File.creatable name = true) :
    session.saveEditor name =
      session.settled none [{ name := name, content := session.editor }] := by
  have named : name ≠ "" := by
    intro empty
    rw [empty] at creatable
    cases creatable
  unfold saveEditor
  rw [if_neg named, if_pos creatable]

/-- The editor's text reaches the assembler through layout alone. -/
theorem assembleEditor_of_layout (session : Session) {first second : String}
    (alike : ∀ state : State, state.layout first = state.layout second) :
    (session.typeIn first).assembleEditor =
      (session.typeIn second).assembleEditor.withEditor first := by
  have answered :
      assembleText { session.assembler with symbols := SymbolTable.empty } first =
        assembleText { session.assembler with symbols := SymbolTable.empty } second := by
    unfold assembleText
    rw [alike]
  simp only [assembleEditor, assemble, typeIn, clear, Outcome.withEditor, answered]
  split <;> rfl

/-- A text that is saved and loaded again is laid out as before from every memory.  What
assembling it prints, writes, shows and leaves in the memory is the same too; only the editor
keeps the line ends that loading has made. -/
theorem loaded_assembles_alike (session : Session) {name : String} (named : name ≠ "")
    (content : String) :
    (File.creatable name = true →
      ((session.typeIn content).saveEditor name).files =
        [{ name := name, content := content }]) ∧
    (session.loaded name content).editor =
      String.ofList (Text.unifyBreaks content.toList) ∧
    (∀ state : State,
      state.layout (session.loaded name content).editor = state.layout content) ∧
    (session.loaded name content).assembleEditor =
      (session.typeIn content).assembleEditor.withEditor
        (session.loaded name content).editor := by
  rw [session.loaded_eq_typeIn named content, typeIn_editor]
  refine ⟨fun creatable => ?_, rfl, fun state => state.layout_unifyBreaks content, ?_⟩
  · rw [saveEditor_of_creatable _ creatable, typeIn_editor]
    rfl
  · exact session.assembleEditor_of_layout (fun state => state.layout_unifyBreaks content)

/-- Three carriage returns, one of them before a line feed: the loaded text is another, and
assembling it differs in the editor only. -/
theorem loaded_assembles_alike_carriage_returns :
    let content := "L: RRC R5\r\r\nJMP L\r"
    let text := "L: RRC R5\n\nJMP L\n"
    ((fresh.typeIn content).saveEditor "a.asm").files =
        [{ name := "a.asm", content := content }] ∧
      (fresh.loaded "a.asm" content).editor = text ∧
      (fresh.loaded "a.asm" content).assembleEditor =
        (fresh.typeIn content).assembleEditor.withEditor text ∧
      (fresh.typeIn content).assembleEditor.session.shownErrors = "" ∧
      (fresh.typeIn content).assembleEditor.session.assembler.object.length = 2 := by
  intro content text
  obtain ⟨saved, editor, _layout, assembled⟩ :=
    fresh.loaded_assembles_alike (by decide : "a.asm" ≠ "") content
  have unified : String.ofList (Text.unifyBreaks content.toList) = text := by
    decide
  rw [unified] at editor
  rw [editor] at assembled
  exact ⟨saved (by decide), editor, assembled, by decide, by decide⟩

end Session
end Workbench
end Msp430
