import Msp430.Proofs.Joining
import Msp430.Proofs.Sources
import Msp430.Proofs.Words

/-!
Addresses and labels in the dialects.  The counter is moved by a `START` that succeeds
and by two bytes for each statement, so behind the last such `START` it follows from the
number of statements.  A label keeps the counter that its first definition met.  Main
statement: what a listing holds in terms of the lines of the text, for all three
assemblers, which do not care whether a label stands on a line of its own.
-/

namespace Msp430
namespace Dialect

/-! ### One line -/

def Content.isStatement : Content → Bool
  | .statement _ _ => true
  | _ => false

def Content.advance (counter : Int) : Content → Int
  | .statement _ _ => counter + 2
  | content => content.restart?.getD counter

def Content.listed (counter : Int) : Content → List Statement
  | .statement command operands =>
      [{ command := command, operands := operands, address := counter }]
  | _ => []

namespace Listing

theorem labelled_frame (listing : Listing) (label : Option String) :
    (listing.labelled label).counter = listing.counter ∧
      (listing.labelled label).statements = listing.statements := by
  cases label with
  | none => exact ⟨rfl, rfl⟩
  | some name =>
      change (listing.define name).counter = _ ∧ (listing.define name).statements = _
      unfold define
      split
      · exact ⟨rfl, rfl⟩
      · exact ⟨rfl, rfl⟩

theorem startAt_counter (listing : Listing) (operand : String) :
    (listing.startAt operand).counter =
      ((Content.start operand).restart?).getD listing.counter := by
  unfold startAt Content.restart?
  by_cases empty : operand = ""
  · simp only [if_pos empty, Option.getD_some]
  · simp only [if_neg empty]
    cases Numeral.hex? operand with
    | some address => rfl
    | none => rfl

theorem startAt_frame (listing : Listing) (operand : String) :
    (listing.startAt operand).statements = listing.statements ∧
      (listing.startAt operand).symbols = listing.symbols := by
  unfold startAt
  split
  · exact ⟨rfl, rfl⟩
  · split <;> exact ⟨rfl, rfl⟩

theorem read_counter (listing : Listing) (line : Line) :
    (listing.read line).counter = line.content.advance listing.counter := by
  rw [← (labelled_frame listing line.label).1]
  unfold read
  cases line.content with
  | blank => rfl
  | start operand => exact startAt_counter _ operand
  | final => rfl
  | statement command operands => rfl

theorem read_statements (listing : Listing) (line : Line) :
    (listing.read line).statements =
      listing.statements ++ line.content.listed listing.counter := by
  rw [← (labelled_frame listing line.label).1, ← (labelled_frame listing line.label).2]
  unfold read
  cases line.content with
  | blank => exact (List.append_nil _).symm
  | start operand => exact (startAt_frame _ operand).1.trans (List.append_nil _).symm
  | final => exact (List.append_nil _).symm
  | statement command operands => rfl

theorem find?_labelled (listing : Listing) (label : Option String) (name : String) :
    (listing.labelled label).symbols.find? name =
      (listing.symbols.find? name).or
        (if label = some name then some listing.counter else none) := by
  cases label with
  | none => exact Option.or_none.symm
  | some defined =>
      change (listing.define defined).symbols.find? name = _
      unfold define
      cases bound : listing.symbols.contains defined with
      | true =>
          rw [if_pos rfl]
          change listing.symbols.find? name = _
          by_cases same : defined = name
          · obtain ⟨value, found⟩ := Option.isSome_iff_exists.mp bound
            rw [← same, found]
            rfl
          · rw [if_neg (fun equal => same (Option.some.inj equal)), Option.or_none]
      | false =>
          rw [if_neg (by decide), SymbolTable.find?_insert]
          by_cases same : name = defined
          · have absent := (SymbolTable.contains_eq_false_iff _ _).mp bound
            rw [same, if_pos rfl, absent, if_pos rfl]
            rfl
          · rw [if_neg same, if_neg (fun equal => same (Option.some.inj equal).symm),
              Option.or_none]

/-- Only `END` binds a name behind the label. -/
theorem find?_perform (listing : Listing) (content : Content) {name : String}
    (other : name ≠ "END") :
    (listing.perform content).symbols.find? name = listing.symbols.find? name := by
  cases content with
  | blank => rfl
  | start operand => exact congrArg (fun table => table.find? name) (startAt_frame _ operand).2
  | final => exact (SymbolTable.find?_insert _ _ _ _).trans (if_neg other)
  | statement command operands => rfl

/-- A name is bound by the first label that spells it. -/
theorem find?_read (listing : Listing) (line : Line) {name : String} (other : name ≠ "END") :
    (listing.read line).symbols.find? name =
      (listing.symbols.find? name).or
        (if line.label = some name then some listing.counter else none) :=
  (find?_perform _ line.content other).trans (find?_labelled listing line.label name)

theorem nodup_read {listing : Listing} (distinct : listing.symbols.names.Nodup) (line : Line) :
    (listing.read line).symbols.names.Nodup := by
  have labelled : (listing.labelled line.label).symbols.names.Nodup := by
    cases line.label with
    | none => exact distinct
    | some name =>
        change (listing.define name).symbols.names.Nodup
        unfold define
        split
        · exact distinct
        · exact SymbolTable.nodup_names_insert distinct name _
  unfold read
  cases line.content with
  | blank => exact labelled
  | start operand =>
      change ((listing.labelled line.label).startAt operand).symbols.names.Nodup
      rw [(startAt_frame _ operand).2]
      exact labelled
  | final => exact SymbolTable.nodup_names_insert labelled "END" _
  | statement command operands => exact labelled

/-! ### Runs -/

theorem run_preserves (Holds : Listing → Prop)
    (step : ∀ listing line, Holds listing → Holds (listing.read line)) {listing : Listing}
    (holds : Holds listing) (lines : List Line) : Holds (listing.run lines) := by
  induction lines generalizing listing with
  | nil => exact holds
  | cons line others inductionHypothesis =>
      unfold run
      split
      · exact step listing line holds
      · exact inductionHypothesis (step listing line holds)

/-- What a line brings about and later lines keep holds at the end, whether or not the
line is the last to be read. -/
theorem run_cons_preserves (Holds : Listing → Prop)
    (step : ∀ listing line, Holds listing → Holds (listing.read line)) {listing : Listing}
    {line : Line} (holds : Holds (listing.read line)) (others : List Line) :
    Holds (listing.run (line :: others)) := by
  unfold run
  split
  · exact holds
  · exact run_preserves Holds step holds others

def readAll (listing : Listing) (lines : List Line) : Listing :=
  lines.foldl read listing

theorem readAll_cons (listing : Listing) (line : Line) (others : List Line) :
    listing.readAll (line :: others) = (listing.read line).readAll others :=
  rfl

theorem readAll_append (listing : Listing) (front back : List Line) :
    listing.readAll (front ++ back) = (listing.readAll front).readAll back :=
  List.foldl_append

theorem run_append {front : List Line} (unended : ∀ line ∈ front, line.content ≠ .final)
    (listing : Listing) (back : List Line) :
    listing.run (front ++ back) = (listing.readAll front).run back := by
  induction front generalizing listing with
  | nil => rfl
  | cons line others inductionHypothesis =>
      obtain ⟨first, later⟩ := List.forall_mem_cons.mp unended
      rw [List.cons_append, run, if_neg first, readAll_cons]
      exact inductionHypothesis later _

end Listing

/-! ### Counting -/

def countStatements (lines : List Line) : Nat :=
  lines.countP (fun line => line.content.isStatement)

/-- `late` is what follows the last successful `START`, which gave the value `base`; it is
all lines, and the value zero, if there is none. -/
def Since (lines : List Line) (base : Int) (late : List Line) : Prop :=
  (∀ line ∈ late, line.content.restart? = none) ∧
    ((base = 0 ∧ late = lines) ∨
      ∃ early line, lines = early ++ line :: late ∧ line.content.restart? = some base)

theorem exists_since (lines : List Line) : ∃ base late, Since lines base late := by
  induction lines with
  | nil => exact ⟨0, [], nofun, Or.inl ⟨rfl, rfl⟩⟩
  | cons line others inductionHypothesis =>
      obtain ⟨base, late, still, whole | ⟨early, start, divided, restarts⟩⟩ := inductionHypothesis
      · cases restart : line.content.restart? with
        | some address =>
            rw [whole.2] at still
            exact ⟨address, others, still, Or.inr ⟨[], line, rfl, restart⟩⟩
        | none =>
            rw [whole.2] at still
            exact ⟨0, line :: others, List.forall_mem_cons.mpr ⟨restart, still⟩,
              Or.inl ⟨rfl, rfl⟩⟩
      · exact ⟨base, late, still,
          Or.inr ⟨line :: early, start, by rw [divided]; rfl, restarts⟩⟩

theorem Content.advance_of_still {content : Content} (still : content.restart? = none)
    (counter : Int) :
    content.advance counter = counter + 2 * (if content.isStatement then 1 else 0) := by
  cases content with
  | statement command operands => rfl
  | blank => exact (Int.add_zero counter).symm
  | final => exact (Int.add_zero counter).symm
  | start operand =>
      change (Content.start operand).restart?.getD counter = _
      rw [still]
      exact (Int.add_zero counter).symm

theorem Content.advance_of_restart {content : Content} {base : Int}
    (restarts : content.restart? = some base) (counter : Int) :
    content.advance counter = base := by
  cases content with
  | start operand =>
      change (Content.start operand).restart?.getD counter = base
      rw [restarts]
      rfl
  | blank => cases restarts
  | final => cases restarts
  | statement command operands => cases restarts

theorem Content.length_listed (content : Content) (counter : Int) :
    (content.listed counter).length = if content.isStatement then 1 else 0 := by
  cases content <;> rfl

namespace Listing

theorem readAll_counter_of_still {late : List Line}
    (still : ∀ line ∈ late, line.content.restart? = none) (listing : Listing) :
    (listing.readAll late).counter = listing.counter + 2 * countStatements late := by
  induction late generalizing listing with
  | nil => exact (Int.add_zero _).symm
  | cons line others inductionHypothesis =>
      obtain ⟨first, later⟩ := List.forall_mem_cons.mp still
      rw [readAll_cons, inductionHypothesis later, read_counter,
        Content.advance_of_still first]
      unfold countStatements
      rw [List.countP_cons, Int.natCast_add]
      split
      · omega
      · omega

theorem readAll_counter {lines late : List Line} {base : Int} (since : Since lines base late) :
    (empty.readAll lines).counter = base + 2 * countStatements late := by
  obtain ⟨still, ⟨zero, whole⟩ | ⟨early, start, divided, restarts⟩⟩ := since
  · rw [← whole, zero]
    exact readAll_counter_of_still still empty
  · -- whatever the lines before it did, the last `START` sets the counter anew
    rw [divided, readAll_append, readAll_cons, readAll_counter_of_still still, read_counter,
      Content.advance_of_restart restarts]

theorem readAll_length (listing : Listing) (lines : List Line) :
    (listing.readAll lines).statements.length =
      listing.statements.length + countStatements lines := by
  induction lines generalizing listing with
  | nil => rfl
  | cons line others inductionHypothesis =>
      rw [readAll_cons, inductionHypothesis, read_statements, List.length_append,
        Content.length_listed]
      unfold countStatements
      rw [List.countP_cons]
      omega

theorem find?_readAll {lines : List Line} {name : String} (other : name ≠ "END")
    (undefined : ∀ line ∈ lines, line.label ≠ some name) (listing : Listing) :
    (listing.readAll lines).symbols.find? name = listing.symbols.find? name := by
  induction lines generalizing listing with
  | nil => rfl
  | cons line others inductionHypothesis =>
      obtain ⟨first, later⟩ := List.forall_mem_cons.mp undefined
      rw [readAll_cons, inductionHypothesis later, find?_read listing line other, if_neg first,
        Option.or_none]

/-! ### Positions -/

/-- A statement is listed behind the statements of the lines in front, at the counter that
they leave. -/
theorem statement_run {front : List Line} (unended : ∀ line ∈ front, line.content ≠ .final)
    {line : Line} {command : String} {operands : List String}
    (content : line.content = .statement command operands) (back : List Line) :
    (empty.run (front ++ line :: back)).statements[countStatements front]? =
      some
        { command := command
          operands := operands
          address := (empty.readAll front).counter } := by
  have count : (empty.readAll front).statements.length = countStatements front := by
    rw [readAll_length]
    exact Nat.zero_add _
  have placed : ((empty.readAll front).read line).statements[countStatements front]? =
      some
        { command := command
          operands := operands
          address := (empty.readAll front).counter } := by
    rw [read_statements, content, ← count]
    exact List.getElem?_concat_length
  rw [run_append unended]
  refine run_cons_preserves (fun listing => listing.statements[countStatements front]? = _)
    ?_ placed back
  intro listing later found
  have bound := (List.getElem?_eq_some_iff.mp found).1
  rw [read_statements, List.getElem?_append_left bound]
  exact found

theorem label_run {front : List Line} (unended : ∀ line ∈ front, line.content ≠ .final)
    {line : Line} {name : String} (label : line.label = some name) (other : name ≠ "END")
    (first : ∀ earlier ∈ front, earlier.label ≠ some name) (back : List Line) :
    (empty.run (front ++ line :: back)).symbols.find? name =
      some (empty.readAll front).counter := by
  have bound : ((empty.readAll front).read line).symbols.find? name =
      some (empty.readAll front).counter := by
    rw [find?_read _ _ other, find?_readAll other first, if_pos label]
    rfl
  rw [run_append unended]
  refine run_cons_preserves (fun listing => listing.symbols.find? name = _) ?_ bound back
  intro listing later found
  rw [find?_read _ _ other, found]
  rfl

theorem nodup_run (lines : List Line) : (empty.run lines).symbols.names.Nodup := by
  have distinct : empty.symbols.names.Nodup := List.nodup_nil
  exact run_preserves (fun listing => listing.symbols.names.Nodup)
    (fun _listing line distinct => nodup_read distinct line) distinct lines

end Listing

theorem Content.still_of_isIdle {content : Content} (idle : content.isIdle = true) :
    content.restart? = none ∧ content.isStatement = false := by
  cases content with
  | blank => exact ⟨rfl, rfl⟩
  | start operand => exact ⟨Option.isNone_iff_eq_none.mp idle, rfl⟩
  | final => cases idle
  | statement command operands => cases idle

theorem Listing.readAll_idle {between : List Line}
    (idle : ∀ line ∈ between, line.content.isIdle = true) (listing : Listing) :
    (listing.readAll between).counter = listing.counter := by
  have none : countStatements between = 0 := by
    apply List.countP_eq_zero.mpr
    intro line member
    rw [(Content.still_of_isIdle (idle line member)).2]
    decide
  rw [readAll_counter_of_still
    (fun line member => (Content.still_of_isIdle (idle line member)).1), none]
  exact Int.add_zero _

/-! ### Labels on lines of their own -/

theorem Content.ofText_blanks {blanks : List Char}
    (blank : ∀ c ∈ blanks, Text.isBlank c = true) (text : List Char) :
    Content.ofText (blanks ++ text) = Content.ofText text := by
  unfold Content.ofText Text.firstWord
  rw [List.dropWhile_append_of_pos blank]

theorem Line.ofText_labelled {label : List Char} (plain : ':' ∉ label) (text : List Char) :
    Line.ofText (label ++ ':' :: text) =
      { label := some (String.ofList (Text.trim label)), content := .ofText text } := by
  unfold Line.ofText
  rw [Text.cut?_append plain]

theorem Line.ofText_unlabelled {text : List Char} (plain : ':' ∉ text) :
    Line.ofText text = { label := none, content := .ofText text } := by
  unfold Line.ofText
  rw [Text.cut?_of_not_mem plain]

namespace Listing

/-- A label does its work before the rest of its line is read. -/
theorem run_split (listing : Listing) (label : Option String) (content : Content)
    (others : List Line) :
    listing.run ({ label := label, content := .blank } ::
        { label := none, content := content } :: others) =
      listing.run ({ label := label, content := content } :: others) :=
  rfl

theorem run_append_congr {one other : List Line}
    (same : ∀ listing : Listing, listing.run one = listing.run other) (listing : Listing)
    (front : List Line) : listing.run (front ++ one) = listing.run (front ++ other) := by
  induction front generalizing listing with
  | nil => exact same listing
  | cons line others inductionHypothesis =>
      rw [List.cons_append, List.cons_append, run, run, inductionHypothesis]

end Listing

/-- A text with a labelled line: what stands in front of the line and behind it, the label,
and the rest of the line. -/
structure LabelledLine where
  front : String
  label : String
  rest : String
  back : String
  closed : ∀ c ∈ front.toList.getLast?, Text.isBreak c = true
  opened : ∀ c ∈ back.toList.head?, Text.isBreak c = true
  named : ∀ c ∈ label.toList, c ≠ ':' ∧ c ≠ ';' ∧ Text.isBreak c = false
  plain : ∀ c ∈ rest.toList, c ≠ ':' ∧ Text.isBreak c = false

namespace LabelledLine

variable (text : LabelledLine)

def joined : String :=
  text.front ++ text.label ++ ": " ++ text.rest ++ text.back

/-- The label on a line of its own. -/
def split : String :=
  text.front ++ text.label ++ ":\n" ++ text.rest ++ text.back

theorem lines_label (later : List Char) :
    Text.lines (text.front.toList ++ (text.label.toList ++ ':' :: later)) =
      Text.lines text.front.toList ++ Text.lines (text.label.toList ++ ':' :: later) := by
  apply Text.lines_append_of_break text.closed
  intro behind same
  cases spelled : text.label.toList with
  | nil =>
      rw [spelled] at same
      exact absurd (List.cons.inj same).1 (by decide)
  | cons c others =>
      rw [spelled] at same
      have unbroken := (text.named c (by rw [spelled]; exact List.mem_cons_self)).2.2
      rw [(List.cons.inj same).1] at unbroken
      exact absurd unbroken (by decide)

theorem label_unbroken : ∀ c ∈ text.label.toList ++ [':'], Text.isBreak c = false :=
  List.forall_mem_append.mpr
    ⟨fun c member => (text.named c member).2.2, List.forall_mem_singleton.mpr (by decide)⟩

theorem label_plain {mark : Char} (marked : mark = ':' ∨ mark = ';') :
    mark ∉ text.label.toList := by
  intro member
  obtain ⟨noColon, noComment, _⟩ := text.named mark member
  rcases marked with colon | comment
  · exact noColon colon
  · exact noComment comment

def line : Line :=
  { label := some (String.ofList (Text.trim text.label.toList))
    content := .ofText (Text.before ';' text.rest.toList) }

theorem ofLine_label (later : List Char) :
    Line.ofLine (text.label.toList ++ ':' :: later) =
      { label := text.line.label, content := .ofText (Text.before ';' later) } := by
  unfold Line.ofLine
  rw [Text.before_append (text.label_plain (Or.inr rfl))]
  exact Line.ofText_labelled (text.label_plain (Or.inl rfl)) _

theorem ofLine_joined :
    Line.ofLine (text.label.toList ++ ':' :: ' ' :: text.rest.toList) = text.line := by
  rw [ofLine_label]
  exact congrArg (Line.mk text.line.label) (Content.ofText_blanks Text.blank_space _)

theorem ofLine_rest :
    Line.ofLine text.rest.toList = { label := none, content := text.line.content } := by
  apply Line.ofText_unlabelled
  intro member
  exact (text.plain ':' ((List.takeWhile_prefix _).subset member)).1 rfl

/-- The lines of both texts.  An empty rest at the end of the text is no line. -/
theorem exists_lines :
    ∃ others,
      Text.lines text.joined.toList =
          Text.lines text.front.toList ++
            (text.label.toList ++ ':' :: ' ' :: text.rest.toList) :: others ∧
        (Text.lines text.split.toList =
            Text.lines text.front.toList ++
              (text.label.toList ++ [':']) :: text.rest.toList :: others ∨
          text.rest.toList = [] ∧
            Text.lines text.split.toList =
              Text.lines text.front.toList ++ (text.label.toList ++ [':']) :: others) := by
  have restUnbroken : ∀ c ∈ text.rest.toList, Text.isBreak c = false :=
    fun c member => (text.plain c member).2
  have joinedText : text.joined.toList = text.front.toList ++
      (text.label.toList ++ ':' :: ' ' :: (text.rest.toList ++ text.back.toList)) := by
    unfold joined
    simp
  have splitText : text.split.toList = text.front.toList ++
      (text.label.toList ++ ':' :: '\n' :: (text.rest.toList ++ text.back.toList)) := by
    unfold split
    simp
  obtain ⟨others, behind⟩ := Text.lines_append_of_opened text.opened
  refine ⟨others, ?_, ?_⟩
  · have unbroken : ∀ c ∈ text.label.toList ++ ':' :: ' ' :: text.rest.toList,
        Text.isBreak c = false := by
      rw [List.append_cons]
      exact List.forall_mem_append.mpr
        ⟨text.label_unbroken, List.forall_mem_cons.mpr ⟨by decide, restUnbroken⟩⟩
    rw [joinedText, lines_label]
    rcases behind _ unbroken with same | ⟨empty, _⟩
    · rw [← same]
      simp
    · simp at empty
  · have label : Text.lines (text.label.toList ++ ':' :: '\n' :: (text.rest.toList ++
        text.back.toList)) =
          (text.label.toList ++ [':']) :: Text.lines (text.rest.toList ++ text.back.toList) := by
      rw [List.append_cons, Text.lines_append_of_unbroken text.label_unbroken]
      exact (Text.foldr_growLine _ [] _).trans (by rw [List.append_nil])
    rw [splitText, lines_label, label]
    rcases behind _ restUnbroken with same | ⟨empty, same⟩
    · exact Or.inl (by rw [same])
    · exact Or.inr ⟨empty, by rw [same]⟩

theorem ofSource_split : Listing.ofSource text.split = Listing.ofSource text.joined := by
  obtain ⟨others, joined, split⟩ := text.exists_lines
  unfold Listing.ofSource Line.all
  rw [joined, List.map_append, List.map_cons, ofLine_joined]
  rcases split with split | ⟨empty, split⟩
  · rw [split, List.map_append, List.map_cons, List.map_cons, ofLine_label, ofLine_rest]
    apply Listing.run_append_congr
    intro listing
    exact listing.run_split text.line.label text.line.content _
  · rw [split, List.map_append, List.map_cons, ofLine_label]
    unfold line
    rw [empty]

end LabelledLine

/-- A line of a program that is met before the end. -/
structure Occurrence (program : List Line) where
  front : List Line
  line : Line
  back : List Line
  divided : program = front ++ line :: back
  reached : ∀ earlier ∈ front, earlier.content ≠ .final

/-- The line is the first to define a name, which is not the one that `END` binds. -/
structure Occurrence.Defines {program : List Line} (place : Occurrence program)
    (name : String) : Prop where
  label : place.line.label = some name
  other : name ≠ "END"
  first : ∀ earlier ∈ place.front, earlier.label ≠ some name

/-- Addresses and labels of a program in its listing. -/
structure Listing.Locates (listing : Listing) (program : List Line) : Prop where
  origin : ∀ place : Occurrence program, ∃ base late, Since place.front base late
  statement : ∀ (place : Occurrence program) {command operands},
    place.line.content = .statement command operands →
      ∀ {base late}, Since place.front base late →
        listing.statements[countStatements place.front]? =
          some
            { command := command
              operands := operands
              address := base + 2 * countStatements late }
  distinct : listing.symbols.names.Nodup
  label : ∀ (place : Occurrence program) {name}, place.Defines name →
    ∀ {base late}, Since place.front base late →
      listing.symbols.find? name = some (base + 2 * countStatements late)
  next : ∀ (place later : Occurrence program) {name between}, place.Defines name →
    later.front = place.front ++ between → (∀ line ∈ between, line.content.isIdle = true) →
      ∀ {command operands}, later.line.content = .statement command operands →
        ∃ statement, listing.statements[countStatements later.front]? = some statement ∧
          listing.symbols.find? name = some statement.address

theorem Listing.locates_run (program : List Line) : (empty.run program).Locates program where
  origin := fun place => exists_since place.front
  statement := by
    intro place command operands content base late since
    have listed := statement_run place.reached content place.back
    rw [← place.divided, readAll_counter since] at listed
    exact listed
  distinct := nodup_run program
  label := by
    intro place name defines base late since
    have bound := label_run place.reached defines.label defines.other defines.first place.back
    rw [← place.divided, readAll_counter since] at bound
    exact bound
  next := by
    intro place later name between defines apart idle command operands content
    have listed := statement_run later.reached content later.back
    have bound := label_run place.reached defines.label defines.other defines.first place.back
    rw [← later.divided] at listed
    rw [← place.divided] at bound
    refine ⟨_, listed, ?_⟩
    have counter : (empty.readAll later.front).counter = (empty.readAll place.front).counter := by
      rw [apart, readAll_append]
      exact readAll_idle idle _
    rw [bound, counter]

/-- Addresses and labels for every source text and all three assemblers: each shows the
listing of the text, whose statements and labels stand where the lines of the text put
them, and none sees whether a label has a line of its own. -/
theorem assemble_positions (source : String) :
    (∀ settings ∈ [Compact.unary, Compact.binary], ∃ assembly,
        Compact.assemble settings source = .ok assembly ∧
          assembly.Shows (.ofSource source)
            (Compact.encoder settings (Listing.ofSource source).symbols).words) ∧
      (Extended.assemble source).Shows (.ofSource source)
        (Extended.encoder (Listing.ofSource source).symbols).words ∧
      (Listing.ofSource source).Locates (Line.all source) ∧
      ∀ text : LabelledLine, text.joined = source →
        (∀ settings ∈ [Compact.unary, Compact.binary],
            Compact.assemble settings text.split = Compact.assemble settings source) ∧
          Extended.assemble text.split = Extended.assemble source := by
  have marked : ∀ settings ∈ [Compact.unary, Compact.binary],
      settings.commentMark = some ';' := by
    decide
  refine ⟨?_, ?_, Listing.locates_run _, ?_⟩
  · intro settings member
    exact ⟨_, Compact.assemble_eq (marked settings member) source,
      Listing.shows_assemble _ _⟩
  · rw [Extended.assemble_eq]
    exact Listing.shows_assemble _ _
  · rintro text rfl
    constructor
    · intro settings member
      rw [Compact.assemble_eq (marked settings member), text.ofSource_split,
        ← Compact.assemble_eq (marked settings member)]
    · rw [Extended.assemble_eq, text.ofSource_split, ← Extended.assemble_eq]

/-- A `START` that fails moves nothing, and a label that is defined again keeps its value. -/
theorem assemble_positions_bad_start :
    let source := "A:\nSTART zz\nB: MOV R1, A ; ;\nSTART 0x10\nA: JMP B\nEND\nC: RET"
    let split := "A:\nSTART zz\nB:\nMOV R1, A ; ;\nSTART 0x10\nA: JMP B\nEND\nC: RET"
    (∃ statement, (Listing.ofSource source).statements[0]? = some statement ∧
        (Listing.ofSource source).symbols.find? "A" = some statement.address) ∧
      (Listing.ofSource source).statements[1]? =
        some { command := "JMP", operands := ["B"], address := 0x10 } ∧
      Extended.assemble split = Extended.assemble source := by
  intro source split
  obtain ⟨_, _, located, splits⟩ := assemble_positions source
  let label : Occurrence (Line.all source) :=
    { front := []
      line := { label := some "A", content := .blank }
      back := (Line.all source).drop 1
      divided := by decide
      reached := nofun }
  let move : Occurrence (Line.all source) :=
    { front := (Line.all source).take 2
      line := { label := some "B", content := .statement "MOV" ["R1", "A"] }
      back := (Line.all source).drop 3
      divided := by decide
      reached := by decide }
  let jump : Occurrence (Line.all source) :=
    { front := (Line.all source).take 4
      line := { label := some "A", content := .statement "JMP" ["B"] }
      back := (Line.all source).drop 5
      divided := by decide
      reached := by decide }
  have plain : "MOV R1, A ; ;".toList.all
      (fun c => decide (c ≠ ':' ∧ Text.isBreak c = false)) = true := by
    decide
  let line : LabelledLine :=
    { front := "A:\nSTART zz\n"
      label := "B"
      rest := "MOV R1, A ; ;"
      back := "\nSTART 0x10\nA: JMP B\nEND\nC: RET"
      closed := by rintro c ⟨⟩; decide
      opened := by rintro c ⟨⟩; decide
      named := List.forall_mem_singleton.mpr (by decide)
      plain := fun c member => of_decide_eq_true (List.all_eq_true.mp plain c member) }
  refine ⟨?_, ?_, (splits line rfl).2⟩
  · have defines : label.Defines "A" := { label := rfl, other := by decide, first := nofun }
    have count : countStatements move.front = 0 := by
      decide
    rw [← count]
    exact located.next label move defines rfl (by decide) rfl
  · have since : Since jump.front 0x10 [] :=
      ⟨nofun, Or.inr ⟨(Line.all source).take 3, { label := none, content := .start "0x10" },
        by decide, by decide⟩⟩
    have count : countStatements jump.front = 1 := by
      decide
    rw [← count]
    exact located.statement jump rfl since

end Dialect
end Msp430
