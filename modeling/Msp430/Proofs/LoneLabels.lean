import Msp430.Proofs.Console
import Msp430.Proofs.Respelling

/-!
Labels on lines of their own.  A label with nothing behind it is read as a statement with
the label for its operation: layout binds it, records the operation as unknown and keeps an
entry without room.  Main statement: beside the label in front of a statement on one line,
this adds one diagnostic and changes neither the symbols, the counter, the start address and
the length nor the object code.
-/

namespace Msp430
namespace Assembler

open Text

/-! ### The statements of the two forms -/

/-- A name that can stand in a label: visible characters without a semicolon, and no colon at
either end. -/
structure Spellable (name : String) : Prop where
  nonempty : name.toList ≠ []
  solid : Solid name.toList
  plain : ';' ∉ name.toList
  bounded : trimBy (fun c => c == ':') name.toList = name.toList

theorem Spellable.isLabel {name : String} (named : Spellable name) :
    Renaming.nameOf (name.toList ++ [':']) = name.toList ∧
      Renaming.isLabel (name.toList ++ [':']) = true := by
  have core : Renaming.nameOf (name.toList ++ [':']) = name.toList := by
    unfold Renaming.nameOf
    rw [trimBy_append_back _ (List.forall_mem_singleton.mpr rfl), named.bounded]
  refine ⟨core, Renaming.isLabel_iff.mpr ⟨List.getLast?_concat, ?_⟩⟩
  rw [core]
  exact named.nonempty

namespace Statement

/-- The statement of a label that stands alone. -/
def lone (name : String) : Statement :=
  { label := some name, opcode := name ++ ":", operand := none }

def withLabel (statement : Statement) (name : String) : Statement :=
  { statement with label := some name }

theorem symbol?_of_spellable {statement : Statement} {name : String} (named : Spellable name)
    (label : statement.label = some name) : statement.symbol? = some name := by
  have found := Renaming.symbol?_of_label named.nonempty
    (label.trans (congrArg some String.ofList_toList.symm))
  rwa [String.ofList_toList] at found

theorem all_of_unbroken {text : String} (unbroken : ∀ c ∈ text.toList, isBreak c = false)
    {statement : Statement} (reads : ofLine? text.toList = some statement) :
    all text = [statement] := by
  have nonempty : text.toList ≠ [] := by
    intro empty
    rw [empty] at reads
    cases reads
  unfold all
  rw [lines_of_unbroken nonempty unbroken, List.filterMap_cons_some reads, List.filterMap_nil]

theorem ofWords_of_unlabelled {first : String} {others : List String}
    (unlabelled : (ofWords first others).symbol? = none) :
    (ofWords first others).opcode = first ∧ (ofWords first others).operand = field? others := by
  have spelled : String.ofList first.toList = first := String.ofList_toList
  by_cases label : Renaming.isLabel first.toList = true
  · have read := congrFun (Renaming.ofWords_of_isLabel label) others
    rw [spelled] at read
    have bound := Renaming.symbol?_of_label (Renaming.isLabel_iff.mp label).2
      (show (ofWords first others).label = _ by rw [read]; cases others <;> rfl)
    rw [unlabelled] at bound
    cases bound
  · have read := Renaming.ofWords_of_not_isLabel (Bool.eq_false_iff.mpr label) others
    rw [spelled] at read
    exact read.2

section Lines

variable {name : String} (named : Spellable name)

include named

theorem words_label : words (name.toList ++ [':']) = [name.toList ++ [':']] :=
  words_of_solid (List.concat_ne_nil ':' name.toList)
    (List.forall_mem_append.mpr ⟨named.solid, List.forall_mem_singleton.mpr rfl⟩)

theorem plain_label : ';' ∉ name.toList ++ [':'] := by
  rw [List.mem_append, List.mem_singleton, not_or]
  exact ⟨named.plain, by decide⟩

theorem ofWords_label (others : List String) :
    ofWords (String.ofList (name.toList ++ [':'])) others =
      match others with
      | [] => lone name
      | opcode :: operands =>
          { label := some name, opcode := opcode, operand := field? operands } := by
  obtain ⟨core, label⟩ := named.isLabel
  rw [Renaming.ofWords_of_isLabel label, core, String.ofList_toList, String.ofList_append,
    String.ofList_toList]
  rfl

theorem ofLine?_lone : ofLine? (name ++ ":").toList = some (lone name) := by
  rw [String.toList_append, show ":".toList = [':'] from rfl]
  unfold ofLine? wordsOf
  rw [before_of_not_mem (plain_label named), words_label named]
  exact congrArg some (ofWords_label named [])

theorem ofLine?_labelled {line : List Char} {statement : Statement}
    (reads : ofLine? line = some statement) (unlabelled : statement.symbol? = none) :
    ofLine? (name.toList ++ [':'] ++ ' ' :: line) = some (statement.withLabel name) := by
  have divided : wordsOf (name.toList ++ [':'] ++ ' ' :: line) =
      String.ofList (name.toList ++ [':']) :: wordsOf line := by
    unfold wordsOf
    rw [before_append (plain_label named), show before ';' (' ' :: line) =
      ' ' :: before ';' line from rfl, words_append_blank (by decide), words_label named]
    rfl
  unfold ofLine? at reads ⊢
  rw [divided]
  cases spelled : wordsOf line with
  | nil =>
      rw [spelled] at reads
      cases reads
  | cons first others =>
      rw [spelled] at reads
      cases reads
      obtain ⟨opcode, operand⟩ := ofWords_of_unlabelled unlabelled
      unfold withLabel
      rw [opcode, operand]
      exact congrArg some (ofWords_label named (first :: others))

/-- A label and a statement on two lines and on one. -/
theorem all_label {line : String} {statement : Statement}
    (unbroken : ∀ c ∈ line.toList, isBreak c = false)
    (reads : ofLine? line.toList = some statement) (unlabelled : statement.symbol? = none) :
    all (name ++ ":" ++ "\n" ++ line) = [lone name, statement] ∧
      all (name ++ ":" ++ " " ++ line) = [statement.withLabel name] := by
  have unbrokenLabel : ∀ c ∈ (name ++ ":").toList, isBreak c = false := by
    rw [String.toList_append]
    exact List.forall_mem_append.mpr
      ⟨fun c member => isBreak_of_not_isBlank (named.solid c member),
        List.forall_mem_singleton.mpr rfl⟩
  constructor
  · rw [all_join, all_of_unbroken unbrokenLabel (ofLine?_lone named),
      all_of_unbroken unbroken reads]
    rfl
  · have spelled : (name ++ ":" ++ " " ++ line).toList =
        name.toList ++ [':'] ++ ' ' :: line.toList := by
      simp
    apply all_of_unbroken
    · rw [spelled, List.forall_mem_append, List.forall_mem_cons]
      rw [String.toList_append] at unbrokenLabel
      exact ⟨unbrokenLabel, rfl, unbroken⟩
    · rw [spelled]
      exact ofLine?_labelled named reads unlabelled

end Lines

end Statement

/-! ### Layout of the two forms -/

def Entry.withLabel (label : Option String) (entry : Entry) : Entry :=
  { entry with label := label }

theorem Entry.emit_withLabel (symbols : SymbolTable) (label : Option String) (entry : Entry) :
    (entry.withLabel label).emit symbols = entry.emit symbols := rfl

namespace State

/-- The memory with the entry and the diagnostic of a label that stands alone. -/
def aside (state : State) (name : String) : State :=
  { state with
    entries := state.entries ++
      [{ label := some name, opcode := name ++ ":", operand := none, location := state.counter }]
    diagnostics := state.diagnostics ++ [.unknownInstruction (name ++ ":")] }

/-- What layout makes of a statement behind a label on a line of its own, `apart`, beside
what it makes of the two on one line. -/
structure Parts (state : State) (name : String) (label : Option String)
    (joined apart : Progress) : Prop where
  flow : apart.flow = joined.flow
  symbols : apart.state.symbols = joined.state.symbols
  counter : apart.state.counter = joined.state.counter
  start : apart.state.start = joined.state.start
  length : apart.state.length = joined.state.length
  object : apart.state.object = joined.state.object
  entries : ∃ kept, joined.state.entries = state.entries ++ kept ∧
    apart.state.entries = (state.aside name).entries ++ kept.map (Entry.withLabel label)
  diagnostics : ∃ recorded, joined.state.diagnostics = state.diagnostics ++ recorded ∧
    apart.state.diagnostics = (state.aside name).diagnostics ++ recorded

section Perform

variable (state : State) (name : String) (statement : Statement)

/-- A directive moves numbers and keeps nothing. -/
theorem parts_of_moved (counter start length : Int) (flow : Flow) :
    Parts state name statement.label
      { state := { state with counter := counter, start := start, length := length }
        flow := flow }
      { state := { state.aside name with counter := counter, start := start, length := length }
        flow := flow } :=
  ⟨rfl, rfl, rfl, rfl, rfl, rfl, ⟨[], (List.append_nil _).symm, (List.append_nil _).symm⟩,
    ⟨[], (List.append_nil _).symm, (List.append_nil _).symm⟩⟩

theorem parts_startAt (operand : Option String) :
    Parts state name statement.label (state.startAt operand)
      ((state.aside name).startAt operand) := by
  cases operand with
  | none => exact state.parts_of_moved name statement 0 0 state.length .running
  | some text =>
      simp only [startAt]
      cases Numeral.hex? text with
      | none => exact state.parts_of_moved name statement state.counter state.start state.length _
      | some address =>
          exact state.parts_of_moved name statement address address state.length .running

theorem parts_perform :
    Parts state name statement.label (state.perform (statement.withLabel name))
      ((state.aside name).perform statement) := by
  have opcode : (statement.withLabel name).opcode = statement.opcode := rfl
  by_cases start : statement.opcode = "START"
  · rw [perform_start start, perform_start (opcode.trans start)]
    exact state.parts_startAt name statement statement.operand
  · by_cases final : statement.opcode = "END"
    · rw [perform_end final, perform_end (opcode.trans final)]
      exact state.parts_of_moved name statement state.counter state.start
        (state.counter - state.start) .ended
    · have joined : state.perform (statement.withLabel name) = _ := perform_other start final
      rw [joined, perform_other start final]
      exact ⟨rfl, rfl, rfl, rfl, rfl, rfl, ⟨[_], rfl, rfl⟩, ⟨statement.reports, rfl, rfl⟩⟩

end Perform

theorem place_of_spellable {state : State} {statement : Statement} {name : String}
    (named : Spellable name) (label : statement.label = some name)
    (unbound : state.symbols.find? name = none) :
    state.place statement = (state.bind name state.counter).perform statement := by
  have symbol := Statement.symbol?_of_spellable named label
  have admitted : state.Admits statement := by
    intro other same
    rw [symbol, Option.some.injEq] at same
    rw [← same, unbound]
  rw [place_of_admitted admitted, labelled, symbol]

theorem ofName?_label (name : String) :
    Operation.ofName? (name ++ ":") = none ∧ name ++ ":" ≠ "START" ∧ name ++ ":" ≠ "END" := by
  have unknown := Renaming.ofName?_of_colon (List.getLast?_concat (l := name.toList) (a := ':'))
  rwa [String.ofList_append, String.ofList_toList] at unknown

theorem place_lone {state : State} {name : String} (named : Spellable name)
    (unbound : state.symbols.find? name = none) :
    state.place (Statement.lone name) =
      { state := (state.bind name state.counter).aside name, flow := .running } := by
  obtain ⟨unknown, notStart, notEnd⟩ := ofName?_label name
  have room : (Statement.lone name).room = 0 := Statement.room_of_unknown unknown
  have reports : (Statement.lone name).reports = [.unknownInstruction (name ++ ":")] := by
    unfold Statement.reports
    rw [show Operation.ofName? (Statement.lone name).opcode = none from unknown]
    rfl
  rw [place_of_spellable named rfl unbound, perform_other notStart notEnd, room, reports]
  unfold reserve keep aside
  simp only [Int.add_zero]
  rfl

/-! ### Encoding after the two forms -/

/-- The entry of a lone label emits nothing, and labels are not encoded. -/
theorem Parts.emission {state : State} {name : String} {label : Option String}
    {joined apart : Progress} (parts : Parts state name label joined apart) :
    emitAll apart.state.symbols apart.state.entries =
      emitAll joined.state.symbols joined.state.entries := by
  obtain ⟨kept, joinedEntries, apartEntries⟩ := parts.entries
  have relabelled := emitAll_map (Entry.emit_withLabel joined.state.symbols label) kept
  rw [parts.symbols, joinedEntries, apartEntries, aside, List.append_assoc]
  apply emitAll_append_congr
  rw [List.singleton_append, emitAll, Entry.emit, (ofName?_label name).1, relabelled]
  rfl

/-- A name that is not bound stands in a label in front of a statement without one, on a
line of its own or on that of the statement.  Layout goes on or stops alike, with the same
symbols, counter, start address and length, and encoding gives the same object code.  The
label on its own line is recorded as an unknown instruction besides, so that such a text is
never saved. -/
theorem layout_lone_label {state : State} {name line : String} {statement : Statement}
    (named : Spellable name) (unbound : state.symbols.find? name = none)
    (unbroken : ∀ c ∈ line.toList, isBreak c = false)
    (reads : Statement.ofLine? line.toList = some statement)
    (unlabelled : statement.symbol? = none) :
    let apart := state.layout (name ++ ":" ++ "\n" ++ line)
    let joined := state.layout (name ++ ":" ++ " " ++ line)
    apart.flow = joined.flow ∧
      (apart.state.symbols = joined.state.symbols ∧ apart.state.counter = joined.state.counter ∧
        apart.state.start = joined.state.start ∧ apart.state.length = joined.state.length) ∧
      (apart.state.encode.1.object = joined.state.encode.1.object ∧
        apart.state.encode.2 = joined.state.encode.2) ∧
      (∃ recorded, joined.state.diagnostics = state.diagnostics ++ recorded ∧
        apart.state.diagnostics =
          state.diagnostics ++ .unknownInstruction (name ++ ":") :: recorded) ∧
      (Console.assemble state (name ++ ":" ++ "\n" ++ line)).files = [] := by
  intro apart joined
  obtain ⟨two, one⟩ := Statement.all_label named unbroken reads unlabelled
  have joinedPlaced : joined =
      (state.bind name state.counter).perform (statement.withLabel name) := by
    change state.placeAll _ = _
    rw [one, placeAll_singleton, place_of_spellable named rfl unbound]
  have apartPlaced : apart = ((state.bind name state.counter).aside name).perform statement := by
    change state.placeAll _ = _
    rw [two, placeAll, place_lone named unbound]
    change placeAll _ [statement] = _
    rw [placeAll_singleton, place, unlabelled]
  have parts : Parts (state.bind name state.counter) name statement.label joined apart := by
    rw [apartPlaced, joinedPlaced]
    exact parts_perform _ name statement
  obtain ⟨recorded, joinedNotes, apartNotes⟩ := parts.diagnostics
  rw [aside, List.append_assoc] at apartNotes
  have emission := parts.emission
  refine ⟨parts.flow, ⟨parts.symbols, parts.counter, parts.start, parts.length⟩, ⟨?_, ?_⟩,
    ⟨recorded, joinedNotes, apartNotes⟩, ?_⟩
  · simp only [encode, absorb, emission, parts.object]
  · simp only [encode, emission]
  · obtain ⟨_state, _fault, files⟩ :=
      Console.assemble_attempt state (name ++ ":" ++ "\n" ++ line)
    rw [files]
    by_contra written
    obtain ⟨_placed, clean, _sound⟩ :=
      attempt_encoded_iff.mp ((Attempt.files_ne_nil_iff _).mp written)
    have recordedNone := apartNotes.symm.trans clean
    simp at recordedNone

/-- The two forms of a labelled rotation with a comment behind it. -/
theorem layout_lone_label_rotation :
    let apart := fresh.layout ("L" ++ ":" ++ "\n" ++ "RRC R4 ; turn")
    let joined := fresh.layout ("L" ++ ":" ++ " " ++ "RRC R4 ; turn")
    Spellable "L" ∧ joined.state.diagnostics = [] ∧
      apart.state.diagnostics = [.unknownInstruction "L:"] ∧
      apart.state.symbols = joined.state.symbols ∧
      apart.state.encode.1.object = joined.state.encode.1.object ∧
      joined.state.encode.1.object = [⟨2, 0x1000⟩] ∧
      (Console.assemble fresh ("L" ++ ":" ++ "\n" ++ "RRC R4 ; turn")).files = [] ∧
      (Console.assemble fresh ("L" ++ ":" ++ " " ++ "RRC R4 ; turn")).files ≠ [] := by
  have named : Spellable "L" :=
    ⟨by decide, List.forall_mem_singleton.mpr rfl, by decide, rfl⟩
  have reads : Statement.ofLine? "RRC R4 ; turn".toList =
      some { label := none, opcode := "RRC", operand := some "R4" } := by
    decide
  have unbound : fresh.symbols.find? "L" = none := rfl
  have broken : "RRC R4 ; turn".toList.any isBreak = false := by
    decide
  have unbroken : ∀ c ∈ "RRC R4 ; turn".toList, isBreak c = false :=
    fun c member => Bool.eq_false_iff.mpr (List.any_eq_false.mp broken c member)
  obtain ⟨_flow, ⟨symbols, _addresses⟩, ⟨object, _fault⟩, ⟨recorded, joinedNotes, apartNotes⟩,
    unsaved⟩ := layout_lone_label named unbound unbroken reads rfl
  have clean : (fresh.layout ("L" ++ ":" ++ " " ++ "RRC R4 ; turn")).state.diagnostics = [] := by
    decide
  have nothing : recorded = [] := joinedNotes.symm.trans clean
  rw [nothing] at apartNotes
  exact ⟨named, clean, apartNotes, symbols, object, by decide, unsaved, by decide⟩

end State
end Assembler
end Msp430
