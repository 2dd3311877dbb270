import Msp430.Proofs.Deliveries
import Msp430.Proofs.Joining
import Msp430.Proofs.Words

/-!
Programs typed at the console.  The console waits for a line that is `END` between blanks;
layout divides the same text at more terminators and reads the first words of its lines,
and comes to an `END` there too.  Main statement: without such a line nothing happens, and
with one a program is laid out to its end, or to a fault, and saved as a whole or not at
all.
-/

namespace Msp430
namespace Assembler
namespace Statement

theorem ofLine?_cons_blank {c : Char} (blank : Text.isBlank c = true) (line : List Char) :
    ofLine? (c :: line) = ofLine? line := by
  have mark : c ≠ ';' := by
    intro same
    rw [same] at blank
    exact absurd blank (by decide)
  have cut : Text.before ';' (c :: line) = [c] ++ Text.before ';' line :=
    Text.before_append (fun member => mark (List.mem_singleton.mp member).symm) line
  unfold ofLine? wordsOf
  rw [cut, Text.words_blanks_append (List.forall_mem_singleton.mpr blank)]

theorem filterMap_growLine {c : Char} (blank : Text.isBlank c = true)
    (lines : List (List Char)) :
    (Text.growLine c lines).filterMap ofLine? = lines.filterMap ofLine? := by
  cases lines with
  | nil => exact List.filterMap_cons_none (ofLine?_cons_blank blank [])
  | cons line others =>
      rw [Text.growLine, List.filterMap_cons, List.filterMap_cons, ofLine?_cons_blank blank]

/-- A blank in front of a text, which may end a line, adds no statement. -/
theorem filterMap_lines_cons {c : Char} (blank : Text.isBlank c = true) (rest : List Char) :
    (Text.lines (c :: rest)).filterMap ofLine? = (Text.lines rest).filterMap ofLine? := by
  by_cases paired : c = '\r' ∧ ∃ later, rest = '\n' :: later
  · obtain ⟨rfl, later, rfl⟩ := paired
    rfl
  · have single : c = '\r' → ∀ later, rest ≠ '\n' :: later :=
      fun carriage later same => paired ⟨carriage, later, same⟩
    rw [Text.lines_cons single]
    split
    · exact List.filterMap_cons_none rfl
    · exact filterMap_growLine blank (Text.lines rest)

theorem filterMap_lines_append {blanks : List Char}
    (blank : ∀ c ∈ blanks, Text.isBlank c = true) (rest : List Char) :
    (Text.lines (blanks ++ rest)).filterMap ofLine? = (Text.lines rest).filterMap ofLine? := by
  induction blanks with
  | nil => rfl
  | cons c others inductionHypothesis =>
      obtain ⟨first, later⟩ := List.forall_mem_cons.mp blank
      rw [List.cons_append, filterMap_lines_cons first, inductionHypothesis later]

/-- A line without a statement adds nothing behind a text. -/
theorem ofLine?_append {line : List Char} (idle : ofLine? line = none) {text : List Char}
    (plain : ';' ∉ text) : ofLine? (text ++ line) = ofLine? text := by
  have wordless : Text.words (Text.before ';' line) = [] := by
    unfold ofLine? wordsOf at idle
    split at idle
    · next none => exact List.map_eq_nil_iff.mp none
    · cases idle
  have blank : ∀ c ∈ Text.before ';' line, Text.isBlank c = true := by
    intro c member
    refine Bool.not_eq_false _ |>.mp (fun visible => ?_)
    exact Text.words_ne_nil_of_mem member visible wordless
  unfold ofLine? wordsOf
  rw [Text.before_append plain, Text.words_append_blanks blank, Text.before_of_not_mem plain]

/-- The statement of a word between blanks, some of which may end lines. -/
theorem all_between {front word back : List Char}
    (blankFront : ∀ c ∈ front, Text.isBlank c = true)
    (blankBack : ∀ c ∈ back, Text.isBlank c = true) (closed : back ≠ []) (nonempty : word ≠ [])
    (solid : Text.Solid word) (plain : ';' ∉ word) :
    all (String.ofList (front ++ word ++ back)) = [ofWords (String.ofList word) []] := by
  have unbroken : ∀ c ∈ word, Text.isBreak c = false :=
    fun c member => Text.isBreak_of_not_isBlank (solid c member)
  have read : ofLine? word = some (ofWords (String.ofList word) []) := by
    unfold ofLine? wordsOf
    rw [Text.before_of_not_mem plain, Text.words_of_solid nonempty solid]
    rfl
  -- the blanks behind the word may begin with some that stay on its line
  have idle : (Text.lines back).filterMap ofLine? = [] := by
    have behind := filterMap_lines_append blankBack []
    rwa [List.append_nil] at behind
  unfold all
  rw [String.toList_ofList, List.append_assoc, filterMap_lines_append blankFront,
    Text.lines_append_of_unbroken unbroken]
  cases divided : Text.lines back with
  | nil => exact absurd divided (Text.lines_ne_nil closed)
  | cons line others =>
      rw [divided, List.filterMap_eq_nil_iff] at idle
      obtain ⟨first, later⟩ := List.forall_mem_cons.mp idle
      rw [Text.foldr_growLine, List.filterMap_cons_some ((ofLine?_append first plain).trans read),
        List.filterMap_eq_nil_iff.mpr later]

end Statement

section After

variable (announcement : String) (report : Report)

@[simp] theorem Report.after_state : (report.after announcement).state = report.state := rfl

@[simp] theorem Report.after_fault : (report.after announcement).fault = report.fault := rfl

@[simp] theorem Report.after_files : (report.after announcement).files = report.files := rfl

@[simp] theorem Report.after_printed :
    (report.after announcement).printed = announcement ++ report.printed := rfl

end After

namespace Console

def Final (line : List Char) : Prop :=
  Text.trim line = ['E', 'N', 'D']

instance (line : List Char) : Decidable (Final line) :=
  inferInstanceAs (Decidable (Text.trim line = ['E', 'N', 'D']))

def typed (lines : List (List Char)) : String :=
  String.ofList (lines.flatMap (fun line => line ++ ['\n']))

theorem program?_cons_of_final {line : List Char} (final : Final line)
    (others : List (List Char)) : program? (line :: others) = some (line ++ ['\n']) :=
  if_pos final

theorem program?_cons_of_not_final {line : List Char} (endless : ¬ Final line)
    (others : List (List Char)) :
    program? (line :: others) = (program? others).map (fun later => line ++ '\n' :: later) :=
  if_neg endless

theorem program?_of_endless {lines : List (List Char)}
    (endless : ∀ line ∈ lines, ¬ Final line) : program? lines = none := by
  induction lines with
  | nil => rfl
  | cons line others inductionHypothesis =>
      obtain ⟨first, later⟩ := List.forall_mem_cons.mp endless
      rw [program?_cons_of_not_final first, inductionHypothesis later]
      rfl

theorem program?_of_final {earlier : List (List Char)} (endless : ∀ line ∈ earlier, ¬ Final line)
    {last : List Char} (final : Final last) (later : List (List Char)) :
    program? (earlier ++ last :: later) =
      some ((earlier ++ [last]).flatMap (fun line => line ++ ['\n'])) := by
  induction earlier with
  | nil =>
      rw [List.nil_append, List.nil_append, program?_cons_of_final final, List.flatMap_singleton]
  | cons line others inductionHypothesis =>
      obtain ⟨first, rest⟩ := List.forall_mem_cons.mp endless
      rw [List.cons_append, program?_cons_of_not_final first, inductionHypothesis rest,
        List.cons_append, List.flatMap_cons, Option.map_some, List.append_assoc]
      rfl

def finalStatement : Statement :=
  { label := none, opcode := "END", operand := none }

theorem all_typed_cons (line : List Char) (others : List (List Char)) :
    Statement.all (typed (line :: others)) =
      Statement.all (String.ofList line) ++ Statement.all (typed others) := by
  rw [← Statement.all_join]
  congr 1
  apply String.toList_inj.mp
  simp [typed]

/-- The line at which the console stops reading gives the statement `END` and no other. -/
theorem all_typed_final {last : List Char} (final : Final last) :
    Statement.all (typed [last]) = [finalStatement] := by
  obtain ⟨front, back, blankFront, blankBack, same, _⟩ := Text.exists_ends Text.isBlank last
  have core : Text.trimBy Text.isBlank last = ['E', 'N', 'D'] := final
  have spelled : typed [last] = String.ofList (front ++ ['E', 'N', 'D'] ++ (back ++ ['\n'])) := by
    rw [core] at same
    rw [typed, List.flatMap_singleton, ← List.append_assoc, ← same]
  have closing : ∀ c ∈ back ++ ['\n'], Text.isBlank c = true :=
    List.forall_mem_append.mpr ⟨blankBack, List.forall_mem_singleton.mpr (by decide)⟩
  have solid : Text.Solid ['E', 'N', 'D'] :=
    List.forall_mem_cons.mpr ⟨by decide, List.forall_mem_cons.mpr
      ⟨by decide, List.forall_mem_singleton.mpr (by decide)⟩⟩
  rw [spelled, Statement.all_between blankFront closing (by simp) (by simp) solid (by decide)]
  rfl

theorem exists_all_typed (earlier : List (List Char)) {last : List Char} (final : Final last) :
    ∃ front, Statement.all (typed (earlier ++ [last])) = front ++ [finalStatement] := by
  induction earlier with
  | nil => exact ⟨[], all_typed_final final⟩
  | cons line others inductionHypothesis =>
      obtain ⟨front, same⟩ := inductionHypothesis
      refine ⟨Statement.all (String.ofList line) ++ front, ?_⟩
      rw [List.cons_append, all_typed_cons, same, List.append_assoc]

end Console

/-- An `END` without a label is not passed. -/
theorem State.placeAll_final (state : State) (front : List Statement) :
    (state.placeAll (front ++ [Console.finalStatement])).flow ≠ .running := by
  rw [placeAll_append]
  cases flow : (state.placeAll front).flow with
  | running => exact nofun
  | ended => simp [flow]
  | failed fault => simp [flow]

theorem State.layout_ended_length {state : State} {source : String}
    (ended : (state.layout source).flow = .ended) :
    (state.layout source).state.length =
      (state.layout source).state.counter - (state.layout source).state.start :=
  placeAll_ended_length (Statement.all source) ended

namespace Console

theorem layout_typed (state : State) (earlier : List (List Char)) {last : List Char}
    (final : Final last)
    (placed : (state.layout (typed (earlier ++ [last]))).fault? = none) :
    (state.layout (typed (earlier ++ [last]))).flow = .ended := by
  obtain ⟨front, same⟩ := exists_all_typed earlier final
  have stopped : (state.layout (typed (earlier ++ [last]))).flow ≠ .running := by
    rw [State.layout, same]
    exact state.placeAll_final front
  unfold Progress.fault? at placed
  cases flow : (state.layout (typed (earlier ++ [last]))).flow with
  | running => exact absurd flow stopped
  | ended => rfl
  | failed fault =>
      rw [flow] at placed
      cases placed

/-! ### Reports -/

/-- Layout has met no fault, and nothing is recorded behind it. -/
def Passes (placed : Progress) : Prop :=
  placed.fault? = none ∧ placed.state.diagnostics = []

def complaint (diagnostics : List Diagnostic) : String :=
  "\nErrors:\n" ++ Text.unlines (diagnostics.map Diagnostic.message)

def codeFile (object : List ObjectWord) : File :=
  { name := "output.hex"
    content := String.join (object.map (fun word =>
      Numeral.hex word.address ++ ": " ++ Numeral.hex word.code ++ "\n")) }

/-- A report on a program in terms of its layout: the memory that is left, the fault, and
the file, which is written as a whole if nothing went wrong. -/
structure Follows (report : Report) (placed : Progress) : Prop where
  passed : Passes placed →
    report.state = placed.state.encode.1 ∧ report.fault = placed.state.encode.2
  stopped : ¬ Passes placed → report.state = placed.state ∧ report.fault = placed.fault?
  written_iff : report.files ≠ [] ↔ Passes placed ∧ placed.state.encode.2 = none
  written : report.files ≠ [] →
    report.files = [codeFile report.state.object]
  faulty : report.fault ≠ none → report.files = []
  rejected : placed.fault? = none → placed.state.diagnostics ≠ [] →
    report.printed = invitation ++ complaint placed.state.diagnostics ∧ report.files = []

theorem encode_fault (state : State) :
    state.encode.2 = state.entries.findSome? Entry.fault? :=
  emitAll_fault state.symbols state.entries

theorem codeFile_content (object : List ObjectWord) :
    (codeFile object).content = ObjectWord.file object := by
  unfold codeFile ObjectWord.file Text.unlines
  rw [List.map_map]
  rfl

theorem files_encoded (final : State) :
    (Attempt.encoded final).files = [codeFile final.object] := by
  change [File.mk objectFileName (ObjectWord.file final.object)] = _
  rw [← codeFile_content]
  rfl

theorem assemble_rejected {state : State} {source : String}
    (placed : (state.layout source).fault? = none)
    (found : (state.layout source).state.diagnostics ≠ []) :
    (assemble state source).printed = complaint (state.layout source).state.diagnostics := by
  have nonempty : (state.layout source).state.diagnostics.isEmpty = false := by
    simpa using found
  simp only [assemble, placed, nonempty]
  rfl

theorem Follows.of_unwritten {report : Report} {placed : Progress} (files : report.files = [])
    (passed : Passes placed →
      report.state = placed.state.encode.1 ∧ report.fault = placed.state.encode.2)
    (stopped : ¬ Passes placed → report.state = placed.state ∧ report.fault = placed.fault?)
    (failed : Passes placed → placed.state.encode.2 ≠ none)
    (printed : placed.fault? = none → placed.state.diagnostics ≠ [] →
      report.printed = invitation ++ complaint placed.state.diagnostics) :
    Follows report placed where
  passed := passed
  stopped := stopped
  written_iff :=
    iff_of_false (fun written => written files) (fun both => failed both.1 both.2)
  written := fun written => absurd files written
  faulty := fun _ => files
  rejected := fun unstopped found => ⟨printed unstopped found, files⟩

theorem follows_of_attempt {state : State} {source : String} {report : Report}
    (final : report.state = (state.attempt source).final)
    (fault : report.fault = (state.attempt source).fault?)
    (files : report.files = (state.attempt source).files)
    (printed : (state.layout source).fault? = none →
      (state.layout source).state.diagnostics ≠ [] →
        report.printed = invitation ++ complaint (state.layout source).state.diagnostics) :
    Follows report (state.layout source) := by
  have attempts := state.attempts_attempt source
  generalize state.attempt source = attempt at final fault files attempts
  cases attempts with
  | unplaced stopped =>
      have blocked : (state.layout source).fault? ≠ none := by
        rw [stopped]
        exact Option.some_ne_none _
      exact .of_unwritten files (fun passes => absurd passes.1 blocked)
        (fun _ => ⟨final, fault.trans stopped.symm⟩) (fun passes => absurd passes.1 blocked)
        (fun placed => absurd placed blocked)
  | rejected placed found =>
      exact .of_unwritten files (fun passes => absurd passes.2 found)
        (fun _ => ⟨final, fault.trans placed.symm⟩) (fun passes => absurd passes.2 found)
        printed
  | unencoded placed clean stopped =>
      rw [← encode_fault] at stopped
      refine .of_unwritten files (fun _ => ⟨final, fault.trans stopped.symm⟩)
        (fun blocked => absurd ⟨placed, clean⟩ blocked) (fun _ => ?_)
        (fun _ found => absurd clean found)
      rw [stopped]
      exact Option.some_ne_none _
  | encoded placed clean sound =>
      have encoded : (state.layout source).state.encode.2 = none := by
        rw [encode_fault]
        exact List.findSome?_eq_none_iff.mpr sound
      refine
        { passed := fun _ => ⟨final, fault.trans encoded.symm⟩
          stopped := fun blocked => absurd ⟨placed, clean⟩ blocked
          written_iff := iff_of_true ?_ ⟨⟨placed, clean⟩, encoded⟩
          written := fun _ => ?_
          faulty := fun faulty => absurd fault faulty
          rejected := fun _ found => absurd clean found }
      · rw [files]
        exact List.cons_ne_nil _ _
      · rw [files, final, files_encoded]
        rfl

theorem follows_assemble (state : State) (source : String) :
    Follows ((assemble state source).after invitation) (state.layout source) := by
  obtain ⟨final, fault, files⟩ := assemble_attempt state source
  apply follows_of_attempt
  · rw [Report.after_state, final]
  · rw [Report.after_fault, fault]
  · rw [Report.after_files, files]
  · intro placed found
    rw [Report.after_printed, assemble_rejected placed found]

/-- Nothing happens at the console until a line is `END` between blanks.  The lines up to
the first such line are then laid out to an `END`, unless a fault stops layout before;
the words are saved if there is no fault and nothing is recorded, and only then. -/
theorem run_all_or_nothing (state : State) (input : String) :
    ((∀ line ∈ Text.feedLines input.toList, ¬ Final line) →
      (run state input).state = state ∧ (run state input).fault = some .inputEnded ∧
        (run state input).files = []) ∧
    ∀ earlier last later, Text.feedLines input.toList = earlier ++ last :: later →
      (∀ line ∈ earlier, ¬ Final line) → Final last →
        Follows (run state input) (state.layout (typed (earlier ++ [last]))) ∧
          ((state.layout (typed (earlier ++ [last]))).fault? = none →
            state.ReachesEnd (Statement.all (typed (earlier ++ [last]))) ∧
              (run state input).state.length =
                (run state input).state.counter - (run state input).state.start) := by
  refine ⟨fun endless => ?_, fun earlier last later divided endless final => ?_⟩
  · have waiting : run state input = (Report.quiet state (some .inputEnded)).after invitation := by
      unfold run
      rw [program?_of_endless endless]
    rw [waiting]
    exact ⟨rfl, rfl, rfl⟩
  · have assembled : run state input =
        (assemble state (typed (earlier ++ [last]))).after invitation := by
      unfold run
      rw [divided, program?_of_final endless final later]
      rfl
    have follows := follows_assemble state (typed (earlier ++ [last]))
    rw [← assembled] at follows
    refine ⟨follows, fun placed => ?_⟩
    have ended := layout_typed state earlier final placed
    refine ⟨(state.placeAll_ended_iff _).mp ended, ?_⟩
    by_cases passes : Passes (state.layout (typed (earlier ++ [last])))
    · rw [(follows.passed passes).1, State.encode_length, State.encode_counter,
        State.encode_start]
      exact State.layout_ended_length ended
    · rw [(follows.stopped passes).1]
      exact State.layout_ended_length ended

/-- The last line has terminators of its own around `END`, and a line behind it is not read. -/
theorem run_all_or_nothing_terminators :
    let input := "RRC R4\n\t\x0bEND\x0c \nRRC R5\n"
    let earlier := ["RRC R4".toList]
    let last := "\t\x0bEND\x0c ".toList
    let source := typed (earlier ++ [last])
    (Text.feedLines input.toList = earlier ++ last :: ["RRC R5".toList] ∧
        (∀ line ∈ earlier, ¬ Final line) ∧ Final last) ∧
      Follows (run State.fresh input) (State.fresh.layout source) ∧
      (State.fresh.layout source).fault? = none ∧
      State.fresh.ReachesEnd (Statement.all source) ∧
      (run State.fresh input).files =
        [{ name := "output.hex", content := "0x2: 0x1000\n" }] := by
  intro input earlier last source
  have divided : Text.feedLines input.toList = earlier ++ last :: ["RRC R5".toList] := by
    decide
  have endless : ∀ line ∈ earlier, ¬ Final line := List.forall_mem_singleton.mpr (by decide)
  have final : Final last := by
    decide
  have placed : (State.fresh.layout source).fault? = none := by
    decide
  obtain ⟨follows, ends⟩ :=
    (run_all_or_nothing State.fresh input).2 earlier last _ divided endless final
  exact ⟨⟨divided, endless, final⟩, follows, placed, (ends placed).1, by decide⟩

end Console
end Assembler
end Msp430
