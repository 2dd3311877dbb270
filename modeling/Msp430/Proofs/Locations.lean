import Msp430.Proofs.Emission

/-!
Where layout puts things.  Entries lie one behind the other from the start
address to the counter, a label is bound to the address before its entry, and a
run that records nothing keeps every statement of the program.
-/

namespace Msp430
namespace Assembler

/-- Each entry ends as many bytes behind the one before as it reserves; the first
counts from `base` and the last ends at `final`. -/
def Consecutive (base : Int) : List Entry → Int → Prop
  | [], final => base = final
  | entry :: others, final =>
      entry.location = base + entry.room ∧ Consecutive entry.location others final

theorem Consecutive.snoc {base final : Int} {entries : List Entry} {entry : Entry}
    (placed : Consecutive base entries final)
    (location : entry.location = final + entry.room) :
    Consecutive base (entries ++ [entry]) entry.location := by
  induction entries generalizing base with
  | nil =>
      cases placed
      exact ⟨location, rfl⟩
  | cons first others inductionHypothesis =>
      exact ⟨placed.1, inductionHypothesis placed.2⟩

/-- What entries reserve together. -/
def totalRoom : List Entry → Int
  | [] => 0
  | entry :: others => entry.room + totalRoom others

/-- The counter has moved by what the entries reserve. -/
theorem Consecutive.final_eq {base final : Int} {entries : List Entry}
    (placed : Consecutive base entries final) :
    final = base + totalRoom entries := by
  induction entries generalizing base with
  | nil =>
      cases placed
      rw [totalRoom, Int.add_zero]
  | cons entry others inductionHypothesis =>
      have tail := inductionHypothesis placed.2
      rw [totalRoom, tail, placed.1]
      omega

namespace Statement

/-- The statements of a program that are to be placed: those before `END`,
less `START`. -/
def body (statements : List Statement) : List Statement :=
  (statements.takeWhile (fun statement => statement.opcode != "END")).filter
    (fun statement => statement.opcode != "START")

theorem body_start {statement : Statement} (opcode : statement.opcode = "START")
    (others : List Statement) : body (statement :: others) = body others := by
  simp [body, opcode]

theorem body_end {statement : Statement} (opcode : statement.opcode = "END")
    (others : List Statement) : body (statement :: others) = [] := by
  simp [body, opcode]

theorem body_other {statement : Statement} (notStart : statement.opcode ≠ "START")
    (notEnd : statement.opcode ≠ "END") (others : List Statement) :
    body (statement :: others) = statement :: body others := by
  simp [body, notStart, notEnd]

/-- The statements up to the first `END` and with it. -/
def upToEnd : List Statement → List Statement
  | [] => []
  | statement :: others =>
      if statement.opcode = "END" then [statement] else statement :: upToEnd others

/-- The labels of a program, that of `END` among them. -/
def labels (statements : List Statement) : List String :=
  (upToEnd statements).filterMap symbol?

/-- The label of a `START` in front. -/
def startLabel (statements : List Statement) : Option String :=
  statements.head?.bind (fun first => if first.opcode = "START" then first.symbol? else none)

theorem mem_labels_of_head {statement : Statement} {others : List Statement} {name : String}
    (label : statement.symbol? = some name) : name ∈ labels (statement :: others) := by
  unfold labels upToEnd
  split <;> simp [label]

theorem mem_of_mem_upToEnd {statement : Statement} {statements : List Statement}
    (member : statement ∈ upToEnd statements) : statement ∈ statements := by
  induction statements with
  | nil => cases member
  | cons first others inductionHypothesis =>
      unfold upToEnd at member
      split at member
      · rw [List.mem_singleton.mp member]
        exact List.mem_cons_self
      · rcases List.mem_cons.mp member with same | later
        · rw [same]
          exact List.mem_cons_self
        · exact List.mem_cons_of_mem first (inductionHypothesis later)

theorem labels_cons_of_not_end {statement : Statement} (notEnd : statement.opcode ≠ "END")
    (others : List Statement) :
    labels (statement :: others) = statement.symbol?.toList ++ labels others := by
  unfold labels
  rw [upToEnd, if_neg notEnd, List.filterMap_cons]
  cases statement.symbol? <;> rfl

/-- Statements reserve whole words. -/
theorem room_even (statement : Statement) : statement.room % 2 = 0 := by
  have extra (operand : Option Operand) : Operand.extraBytes operand % 2 = 0 := by
    unfold Operand.extraBytes
    cases operand with
    | none => rfl
    | some written =>
        cases takes : written.mode.takesWord <;> simp [takes]
  unfold room
  cases Operation.ofName? statement.opcode with
  | none => rfl
  | some operation =>
      cases operation with
      | dual operation =>
          have source := extra (Operand.read? (components statement.operand).1)
          have destination := extra (Operand.read? (components statement.operand).2)
          change (2 + Operand.extraBytes _ + Operand.extraBytes _) % 2 = 0
          omega
      | single operation => rfl
      | jump operation => rfl
      | reserving => rfl

end Statement

theorem Consecutive.even {base final : Int} {entries : List Entry}
    (placed : Consecutive base entries final) :
    ∀ entry ∈ entries, (entry.location - base) % 2 = 0 := by
  induction entries generalizing base with
  | nil =>
      intro entry member
      cases member
  | cons first others inductionHypothesis =>
      intro entry member
      have location := placed.1
      have room : first.room % 2 = 0 := first.statement.room_even
      rcases List.mem_cons.mp member with same | later
      · subst entry
        omega
      · have distance := inductionHypothesis placed.2 entry later
        omega

namespace State

/-! ### What one placement preserves -/

/-- Every label of an entry is bound to the address before the entry. -/
def LabelsBound (state : State) : Prop :=
  ∀ entry ∈ state.entries, ∀ name, entry.statement.symbol? = some name →
    state.symbols.find? name = some (entry.location - entry.room)

/-- Every entry without a known operation has been reported. -/
def UnknownsReported (state : State) : Prop :=
  ∀ entry ∈ state.entries, Operation.ofName? entry.opcode = none →
    Diagnostic.unknownInstruction entry.opcode ∈ state.diagnostics

/-- The entries fill the space from the start address to the counter. -/
def Filled (state : State) : Prop :=
  Consecutive state.start state.entries state.counter

/-- The counter and the symbols, but for an exempt one, lie a whole number of words
from the start address. -/
def Aligned (exempt : Option String) (state : State) : Prop :=
  (state.counter - state.start) % 2 = 0 ∧
    ∀ name value, state.symbols.find? name = some value →
      exempt = some name ∨ (value - state.start) % 2 = 0

variable {state : State} {statement : Statement} {progress : Progress}

private theorem labelsBound_labelled (admitted : state.Admits statement)
    (bound : state.LabelsBound) : (state.labelled statement).LabelsBound := by
  intro entry member name label
  rw [labelled_entries] at member
  exact labelled_find?_of_bound admitted (bound entry member name label)

private theorem unknownsReported_labelled (reported : state.UnknownsReported) :
    (state.labelled statement).UnknownsReported := by
  intro entry member unknown
  rw [labelled_entries] at member
  rw [labelled_diagnostics]
  exact reported entry member unknown

private theorem filled_labelled (filled : state.Filled) :
    (state.labelled statement).Filled := by
  unfold Filled
  rw [labelled_start, labelled_entries, labelled_counter]
  exact filled

theorem Places.labelsBound (placed : state.Places statement progress)
    (bound : state.LabelsBound) : progress.state.LabelsBound := by
  cases placed with
  | skipped name value label present => exact bound
  | started address admitted opcode reads => exact labelsBound_labelled admitted bound
  | refused text admitted opcode operand unread => exact labelsBound_labelled admitted bound
  | ended admitted opcode => exact labelsBound_labelled admitted bound
  | kept admitted notStart notEnd =>
      intro entry member name label
      change (state.labelled statement).symbols.find? name = _
      rcases List.mem_append.mp member with earlier | new
      · exact labelsBound_labelled admitted bound entry earlier name label
      · -- The new entry ends `room` bytes behind the counter its label was bound to.
        rw [List.mem_singleton.mp new] at label ⊢
        change statement.symbol? = some name at label
        rw [labelled_find?, if_pos label, labelled_counter]
        change some state.counter = some (state.counter + statement.room - statement.room)
        rw [Int.add_sub_cancel]

theorem Places.unknownsReported (placed : state.Places statement progress)
    (reported : state.UnknownsReported) : progress.state.UnknownsReported := by
  cases placed with
  | skipped name value label present =>
      intro entry member unknown
      exact List.mem_append_left _ (reported entry member unknown)
  | started address admitted opcode reads => exact unknownsReported_labelled reported
  | refused text admitted opcode operand unread => exact unknownsReported_labelled reported
  | ended admitted opcode => exact unknownsReported_labelled reported
  | kept admitted notStart notEnd =>
      intro entry member unknown
      rcases List.mem_append.mp member with earlier | new
      · rw [labelled_entries] at earlier
        exact List.mem_append_left _ (reported entry earlier unknown)
      · rw [List.mem_singleton.mp new] at unknown ⊢
        change Operation.ofName? statement.opcode = none at unknown
        apply List.mem_append_right
        unfold Statement.reports
        rw [unknown]
        exact List.mem_singleton.mpr rfl

/-- `START` keeps the space filled only while there are no entries. -/
theorem Places.filled (placed : state.Places statement progress)
    (early : statement.opcode = "START" → state.entries = []) (filled : state.Filled) :
    progress.state.Filled := by
  cases placed with
  | skipped name value label present => exact filled
  | started address admitted opcode reads =>
      change Consecutive address (state.labelled statement).entries address
      rw [labelled_entries, early opcode]
      rfl
  | refused text admitted opcode operand unread => exact filled_labelled filled
  | ended admitted opcode => exact filled_labelled filled
  | kept admitted notStart notEnd =>
      have before : (state.labelled statement).Filled := filled_labelled filled
      exact before.snoc rfl

private theorem aligned_labelled {exempt : Option String} (aligned : state.Aligned exempt) :
    (state.labelled statement).Aligned exempt := by
  unfold Aligned
  rw [labelled_counter, labelled_start]
  refine ⟨aligned.1, ?_⟩
  intro name value found
  rw [labelled_find?] at found
  split at found
  · rw [← Option.some.inj found]
    exact Or.inr aligned.1
  · exact aligned.2 name value found

theorem Places.aligned {exempt : Option String} (placed : state.Places statement progress)
    (notStart : statement.opcode ≠ "START") (aligned : state.Aligned exempt) :
    progress.state.Aligned exempt := by
  cases placed with
  | skipped name value label present => exact aligned
  | started address admitted opcode reads => exact absurd opcode notStart
  | refused text admitted opcode operand unread => exact absurd opcode notStart
  | ended admitted opcode => exact aligned_labelled aligned
  | kept admitted notStart notEnd =>
      have before : (state.labelled statement).Aligned exempt := aligned_labelled aligned
      have room := statement.room_even
      refine ⟨?_, before.2⟩
      have distance := before.1
      change ((state.labelled statement).counter + statement.room -
        (state.labelled statement).start) % 2 = 0
      omega

/-- After a `START` in front, its own label is the only one that may be out of
line. -/
theorem Places.aligned_of_start (placed : state.Places statement progress)
    (opcode : statement.opcode = "START") (aligned : state.Aligned none)
    (unbound : ∀ name, state.symbols.find? name = none) :
    progress.state.Aligned statement.symbol? := by
  have own (name : String) (value : Int)
      (found : (state.labelled statement).symbols.find? name = some value) :
      statement.symbol? = some name := by
    rw [labelled_find?] at found
    split at found
    · assumption
    · rw [unbound] at found
      cases found
  cases placed with
  | skipped name value label present =>
      rw [unbound] at present
      cases present
  | started address admitted opcode reads =>
      refine ⟨by simp, ?_⟩
      intro name value found
      exact Or.inl (own name value found)
  | refused text admitted opcode operand unread =>
      refine ⟨by simpa using aligned.1, ?_⟩
      intro name value found
      exact Or.inl (own name value found)
  | ended admitted final =>
      rw [opcode] at final
      exact absurd final (by decide)
  | kept admitted notStart notEnd => exact absurd opcode notStart

theorem Places.object_eq (placed : state.Places statement progress) :
    progress.state.object = state.object := by
  cases placed with
  | skipped name value label present => rfl
  | started address admitted opcode reads => exact labelled_object state statement
  | refused text admitted opcode operand unread => exact labelled_object state statement
  | ended admitted opcode => exact labelled_object state statement
  | kept admitted notStart notEnd => exact labelled_object state statement

/-- Diagnostics are recorded behind those that are there. -/
theorem Places.diagnostics_append (placed : state.Places statement progress) :
    ∃ recorded, progress.state.diagnostics = state.diagnostics ++ recorded := by
  cases placed with
  | skipped name value label present => exact ⟨_, rfl⟩
  | started address admitted opcode reads =>
      exact ⟨[], by simp⟩
  | refused text admitted opcode operand unread =>
      exact ⟨[], by simp⟩
  | ended admitted opcode =>
      exact ⟨[], by simp [finish]⟩
  | kept admitted notStart notEnd => exact ⟨_, rfl⟩

/-! ### What a run preserves -/

theorem placeAll_labelsBound (statements : List Statement) (bound : state.LabelsBound) :
    (state.placeAll statements).state.LabelsBound :=
  placeAll_preserves statements
    (fun _earlier _statement _progress _member placed before => placed.labelsBound before)
    state bound

theorem placeAll_unknownsReported (statements : List Statement)
    (reported : state.UnknownsReported) :
    (state.placeAll statements).state.UnknownsReported :=
  placeAll_preserves statements
    (fun _earlier _statement _progress _member placed before => placed.unknownsReported before)
    state reported

theorem placeAll_filled (statements : List Statement)
    (noStart : ∀ statement ∈ statements, statement.opcode ≠ "START") (filled : state.Filled) :
    (state.placeAll statements).state.Filled :=
  placeAll_preserves statements
    (fun _earlier statement _progress member placed before =>
      placed.filled (fun opcode => absurd opcode (noStart statement member)) before)
    state filled

/-- A `START` in front finds no entries and so keeps the space filled. -/
theorem placeAll_filled_of_start_first (statements : List Statement)
    (startFirst : ∀ statement ∈ statements.tail, statement.opcode ≠ "START")
    (noEntries : state.entries = []) (filled : state.Filled) :
    (state.placeAll statements).state.Filled := by
  cases statements with
  | nil => exact filled
  | cons statement others =>
      apply placeAll_cons_preserves
      · exact (state.places_place statement).filled (fun _opcode => noEntries) filled
      · intro next first
        exact placeAll_filled others startFirst first

theorem placeAll_aligned {exempt : Option String} (statements : List Statement)
    (noStart : ∀ statement ∈ statements, statement.opcode ≠ "START")
    (aligned : state.Aligned exempt) :
    (state.placeAll statements).state.Aligned exempt :=
  placeAll_preserves statements
    (fun _earlier statement _progress member placed before =>
      placed.aligned (noStart statement member) before)
    state aligned

theorem placeAll_aligned_of_start_first (statements : List Statement)
    (startFirst : ∀ statement ∈ statements.tail, statement.opcode ≠ "START")
    (aligned : state.Aligned none) (unbound : ∀ name, state.symbols.find? name = none) :
    (state.placeAll statements).state.Aligned (Statement.startLabel statements) := by
  cases statements with
  | nil => exact aligned
  | cons statement others =>
      apply placeAll_cons_preserves
      · have placed := state.places_place statement
        unfold Statement.startLabel
        rw [List.head?_cons, Option.bind_some]
        by_cases opcode : statement.opcode = "START"
        · rw [if_pos opcode]
          exact placed.aligned_of_start opcode aligned unbound
        · rw [if_neg opcode]
          exact placed.aligned opcode aligned
      · intro next first
        exact placeAll_aligned others startFirst first

theorem placeAll_object (statements : List Statement) :
    (state.placeAll statements).state.object = state.object := by
  apply placeAll_preserves (motive := fun later => later.object = state.object) statements
  · intro earlier statement progress _member placed before
    rw [placed.object_eq, before]
  · rfl

theorem placeAll_diagnostics_append (state : State) (statements : List Statement) :
    ∃ recorded, (state.placeAll statements).state.diagnostics = state.diagnostics ++ recorded := by
  apply placeAll_preserves
    (motive := fun later => ∃ recorded, later.diagnostics = state.diagnostics ++ recorded)
    statements
  · intro earlier statement progress _member placed before
    obtain ⟨recorded, grown⟩ := before
    obtain ⟨more, appended⟩ := placed.diagnostics_append
    exact ⟨recorded ++ more, by rw [appended, grown, List.append_assoc]⟩
  · exact ⟨[], (List.append_nil _).symm⟩

/-- What a statement records stays, so in a run that records nothing the first
statement records nothing either. -/
theorem place_diagnostics_eq {others : List Statement}
    (quiet : (state.placeAll (statement :: others)).state.diagnostics = state.diagnostics) :
    (state.place statement).state.diagnostics = state.diagnostics := by
  obtain ⟨recorded, grown⟩ := (state.places_place statement).diagnostics_append
  rcases state.placeAll_cons_cases statement others with
    ⟨_running, continued⟩ | ⟨_stopped, final⟩
  · obtain ⟨more, appended⟩ := placeAll_diagnostics_append (state.place statement).state others
    rw [continued, appended, grown, List.append_assoc] at quiet
    have nothing := List.append_right_eq_self.mp quiet
    rw [grown, (List.append_eq_nil_iff.mp nothing).1, List.append_nil]
  · rw [final] at quiet
    exact quiet

/-- At `END` the program length is the distance from the start to the counter. -/
theorem placeAll_ended_length (statements : List Statement)
    (ended : (state.placeAll statements).flow = .ended) :
    (state.placeAll statements).state.length =
      (state.placeAll statements).state.counter - (state.placeAll statements).state.start := by
  induction statements generalizing state with
  | nil => cases ended
  | cons statement others inductionHypothesis =>
      rcases state.placeAll_cons_cases statement others with
        ⟨_running, continued⟩ | ⟨stopped, final⟩
      · rw [continued] at ended ⊢
        exact inductionHypothesis ended
      · rw [final] at ended ⊢
        have placed := state.places_place statement
        generalize state.place statement = progress at ended placed
        cases placed with
        | ended admitted opcode => rfl
        | skipped name value label present => cases ended
        | started address admitted opcode reads => cases ended
        | refused text admitted opcode operand unread => cases ended
        | kept admitted notStart notEnd => cases ended

/-- A run that records nothing and does not fail keeps every statement of the
program. -/
theorem placeAll_quiet_entries (statements : List Statement)
    (unfailed : (state.placeAll statements).fault? = none)
    (quiet : (state.placeAll statements).state.diagnostics = state.diagnostics) :
    (state.placeAll statements).state.entries.map Entry.statement =
      state.entries.map Entry.statement ++ Statement.body statements := by
  induction statements generalizing state with
  | nil => exact (List.append_nil _).symm
  | cons statement others inductionHypothesis =>
      have placed := state.places_place statement
      have silent := place_diagnostics_eq quiet
      rcases state.placeAll_cons_cases statement others with
        ⟨running, continued⟩ | ⟨stopped, final⟩
      · rw [continued] at unfailed quiet ⊢
        rw [← silent] at quiet
        rw [inductionHypothesis unfailed quiet]
        generalize state.place statement = progress at placed silent running
        cases placed with
        | skipped name value label present =>
            exact absurd silent (by simp [record])
        | started address admitted opcode reads =>
            rw [Statement.body_start opcode]
            simp
        | refused text admitted opcode operand unread => cases running
        | ended admitted opcode => cases running
        | kept admitted notStart notEnd =>
            rw [Statement.body_other notStart notEnd]
            change ((state.labelled statement).entries ++ [_]).map Entry.statement ++ _ = _
            rw [labelled_entries, List.map_append, List.append_assoc]
            rfl
      · rw [final] at unfailed ⊢
        generalize state.place statement = progress at placed unfailed stopped
        cases placed with
        | ended admitted opcode =>
            rw [Statement.body_end opcode, List.append_nil]
            exact congrArg (List.map Entry.statement) (labelled_entries state statement)
        | refused text admitted opcode operand unread => cases unfailed
        | skipped name value label present => exact absurd rfl stopped
        | started address admitted opcode reads => exact absurd rfl stopped
        | kept admitted notStart notEnd => exact absurd rfl stopped

/-- Known operations, readable start addresses and distinct new labels leave nothing
to report. -/
theorem placeAll_quiet (statements : List Statement)
    (readable : ∀ statement ∈ Statement.upToEnd statements, statement.opcode = "START" →
      startAddress? statement.operand ≠ none)
    (known : ∀ statement ∈ Statement.body statements,
      Operation.ofName? statement.opcode ≠ none)
    (distinct : (Statement.labels statements).Nodup)
    (unbound : ∀ name ∈ Statement.labels statements, state.symbols.find? name = none) :
    (state.placeAll statements).fault? = none ∧
      (state.placeAll statements).state.diagnostics = state.diagnostics := by
  induction statements generalizing state with
  | nil => exact ⟨rfl, rfl⟩
  | cons statement others inductionHypothesis =>
      have admitted : state.Admits statement := by
        intro name label
        exact unbound name (Statement.mem_labels_of_head label)
      -- What the remaining statements ask for holds after this one, unless it is `END`.
      have remaining (notEnd : statement.opcode ≠ "END") (next : State)
          (symbols : next.symbols = (state.labelled statement).symbols)
          (laterKnown : ∀ later ∈ Statement.body others,
            Operation.ofName? later.opcode ≠ none) :
          (next.placeAll others).fault? = none ∧
            (next.placeAll others).state.diagnostics = next.diagnostics := by
        rw [Statement.labels_cons_of_not_end notEnd, List.nodup_append] at distinct
        apply inductionHypothesis _ laterKnown distinct.2.1
        · intro name later
          rw [symbols, labelled_find?, if_neg]
          · apply unbound
            rw [Statement.labels_cons_of_not_end notEnd]
            exact List.mem_append_right _ later
          · intro label
            exact distinct.2.2 name (by simp [label]) name later rfl
        · intro later member
          apply readable later
          rw [Statement.upToEnd, if_neg notEnd]
          exact List.mem_cons_of_mem statement member
      have placed := state.places_place statement
      rcases state.placeAll_cons_cases statement others with
        ⟨running, continued⟩ | ⟨stopped, final⟩
      · rw [continued]
        generalize state.place statement = progress at placed running
        cases placed with
        | skipped name value label present =>
            rw [admitted name label] at present
            cases present
        | started address _ opcode reads =>
            have notEnd : statement.opcode ≠ "END" := by
              rw [opcode]
              decide
            rw [Statement.body_start opcode] at known
            have later := remaining notEnd
              { state.labelled statement with start := address, counter := address } rfl known
            rw [← labelled_diagnostics state statement]
            exact later
        | refused text _ opcode operand unread => cases running
        | ended _ opcode => cases running
        | kept _ notStart notEnd =>
            rw [Statement.body_other notStart notEnd, List.forall_mem_cons] at known
            have silent : statement.reports = [] := by
              unfold Statement.reports
              obtain ⟨operation, found⟩ := Option.ne_none_iff_exists'.mp known.1
              rw [found]
            have later := remaining notEnd
              { (state.labelled statement).reserve statement statement.room with
                diagnostics := state.diagnostics ++ statement.reports } rfl known.2
            rw [silent, List.append_nil] at later ⊢
            exact later
      · rw [final]
        generalize state.place statement = progress at placed stopped
        cases placed with
        | skipped name value label present => exact absurd rfl stopped
        | started address _ opcode reads => exact absurd rfl stopped
        | refused text _ opcode operand unread =>
            refine absurd ?_ (readable statement ?_ opcode)
            · rw [operand]
              exact unread
            · rw [Statement.upToEnd, if_neg (by rw [opcode]; decide)]
              exact List.mem_cons_self
        | ended _ opcode => exact ⟨rfl, labelled_diagnostics state statement⟩
        | kept _ notStart notEnd => exact absurd rfl stopped

end State

/-! ### From a source text -/

/-- A source text that is laid out and encoded, from fresh memory, without a
fault. -/
structure Assembles (source : String) (placed encoded : State) : Prop where
  laidOut : (State.fresh.layout source).state = placed
  unfailed : (State.fresh.layout source).fault? = none
  completed : placed.encode = (encoded, none)

namespace Assembles

theorem ofSource {source : String}
    (unfailed : (State.fresh.layout source).fault? = none)
    (completed : (State.fresh.layout source).state.encode.2 = none) :
    Assembles source (State.fresh.layout source).state
      (State.fresh.layout source).state.encode.1 :=
  { laidOut := rfl
    unfailed := unfailed
    completed := Prod.ext rfl completed }

variable {source : String} {placed encoded : State}

theorem labelsBound (assembled : Assembles source placed encoded) : placed.LabelsBound := by
  rw [← assembled.laidOut]
  apply State.placeAll_labelsBound
  intro entry member
  cases member

/-- Without diagnostics every operation is known. -/
theorem known (assembled : Assembles source placed encoded)
    (quiet : placed.diagnostics = []) :
    ∀ entry ∈ placed.entries, ∃ operation, Operation.ofName? entry.opcode = some operation := by
  have reported : placed.UnknownsReported := by
    rw [← assembled.laidOut]
    apply State.placeAll_unknownsReported
    intro entry member
    cases member
  intro entry member
  cases found : Operation.ofName? entry.opcode with
  | some operation => exact ⟨operation, rfl⟩
  | none =>
      have recorded := reported entry member found
      rw [quiet] at recorded
      cases recorded

theorem filled (assembled : Assembles source placed encoded)
    (startFirst : ∀ statement ∈ (Statement.all source).tail, statement.opcode ≠ "START") :
    placed.Filled := by
  rw [← assembled.laidOut]
  exact State.placeAll_filled_of_start_first _ startFirst rfl rfl

/-- Without diagnostics the entries are the statements of the program. -/
theorem entries_eq (assembled : Assembles source placed encoded)
    (quiet : placed.diagnostics = []) :
    placed.entries.map Entry.statement = Statement.body (Statement.all source) := by
  have unfailed := assembled.unfailed
  have laidOut := assembled.laidOut
  unfold State.layout at unfailed laidOut
  have kept := State.placeAll_quiet_entries (Statement.all source) unfailed
    (by rw [laidOut, quiet]; rfl)
  rw [laidOut] at kept
  exact kept

/-- The object code consists of the words of the entries. -/
theorem object_eq (assembled : Assembles source placed encoded) :
    encoded.object = placed.entries.flatMap (Entry.words placed.symbols) := by
  have untouched : placed.object = [] := by
    rw [← assembled.laidOut]
    exact State.placeAll_object (Statement.all source)
  rw [(State.encode_completed assembled.completed).1, untouched, List.nil_append]

theorem unfaulty (assembled : Assembles source placed encoded) :
    ∀ entry ∈ placed.entries, (entry.emit placed.symbols).fault = none :=
  (State.encode_completed assembled.completed).2

end Assembles
end Assembler
end Msp430
