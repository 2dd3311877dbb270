import Msp430.Proofs.Positions

/-!
The three assemblers of the dialects side by side.  All of them read a text in one way:
reading complains about a label that an earlier line has and about a `START` that fails,
and encoding complains about neither.  Main statement: the three agree on the symbols and
on the complaints of reading, which come first, and the two compact ones differ by `DADD`
alone.
-/

namespace Msp430
namespace Dialect

/-! ### Complaints of reading -/

def Complaint.isOfReading : Complaint → Bool
  | .duplicateLabel _ => true
  | .badStart => true
  | _ => false

/-- The label of a line if a line in front has it too. -/
def Line.repeated? (front : List Line) (line : Line) : Option String :=
  line.label.filter (fun name => front.any (fun earlier => earlier.label == some name))

def Content.isBadStart : Content → Bool
  | .start operand => (Content.start operand).restart?.isNone
  | _ => false

/-- What is wrong with a line behind the lines in front of it, before it is encoded. -/
def Line.complaints (front : List Line) (line : Line) : List Complaint :=
  (line.repeated? front).toList.map .duplicateLabel ++
    if line.content.isBadStart then [.badStart] else []

/-- What is wrong with lines up to the end, one after the other. -/
def Line.allComplaints (front : List Line) : List Line → List Complaint
  | [] => []
  | line :: others =>
      line.complaints front ++
        if line.content = .final then [] else allComplaints (front ++ [line]) others

theorem Line.complaints_isOfReading (front : List Line) (line : Line) :
    ∀ complaint ∈ line.complaints front, complaint.isOfReading = true := by
  intro complaint member
  rcases List.mem_append.mp member with repeated | bad
  · obtain ⟨name, _, rfl⟩ := List.mem_map.mp repeated
    rfl
  · split at bad
    · rw [List.mem_singleton.mp bad]
      rfl
    · cases bad

theorem Line.allComplaints_isOfReading (front lines : List Line) :
    ∀ complaint ∈ allComplaints front lines, complaint.isOfReading = true := by
  induction lines generalizing front with
  | nil => exact nofun
  | cons line others inductionHypothesis =>
      unfold allComplaints
      refine List.forall_mem_append.mpr ⟨line.complaints_isOfReading front, ?_⟩
      split
      · exact nofun
      · exact inductionHypothesis _

namespace Listing

/-- The names of a listing are the labels of the lines in front. -/
def Knows (listing : Listing) (front : List Line) : Prop :=
  ∀ name, listing.symbols.contains name = front.any (fun line => line.label == some name)

theorem contains_labelled (listing : Listing) (label : Option String) (name : String) :
    (listing.labelled label).symbols.contains name =
      (listing.symbols.contains name || label == some name) := by
  unfold SymbolTable.contains
  rw [find?_labelled, Option.isSome_or]
  by_cases same : label = some name
  · rw [if_pos same, same, beq_self_eq_true]
    rfl
  · rw [if_neg same, beq_eq_false_iff_ne.mpr same]
    rfl

theorem perform_symbols (listing : Listing) {content : Content} (unended : content ≠ .final) :
    (listing.perform content).symbols = listing.symbols := by
  cases content with
  | blank => rfl
  | start operand => exact (startAt_frame listing operand).2
  | final => exact absurd rfl unended
  | statement command operands => rfl

theorem Knows.read {listing : Listing} {front : List Line} (knows : listing.Knows front)
    {line : Line} (unended : line.content ≠ .final) :
    (listing.read line).Knows (front ++ [line]) := by
  intro name
  unfold Listing.read
  rw [perform_symbols _ unended, contains_labelled, knows name, List.any_append, List.any_cons,
    List.any_nil, Bool.or_false]

theorem labelled_complaints {listing : Listing} {front : List Line}
    (knows : listing.Knows front) (line : Line) :
    (listing.labelled line.label).complaints =
      listing.complaints ++ (line.repeated? front).toList.map .duplicateLabel := by
  unfold Line.repeated?
  cases line.label with
  | none => exact (List.append_nil _).symm
  | some name =>
      rw [Option.filter_some, ← knows name]
      change (listing.define name).complaints = _
      unfold define
      cases listing.symbols.contains name with
      | true => rfl
      | false => exact (List.append_nil _).symm

theorem startAt_complaints (listing : Listing) (operand : String) :
    (listing.startAt operand).complaints =
      listing.complaints ++
        if (Content.start operand).isBadStart then [.badStart] else [] := by
  unfold startAt Content.isBadStart Content.restart?
  by_cases empty : operand = ""
  · simp only [if_pos empty]
    exact (List.append_nil _).symm
  · simp only [if_neg empty]
    cases Numeral.hex? operand with
    | some address => exact (List.append_nil _).symm
    | none => rfl

theorem perform_complaints (listing : Listing) (content : Content) :
    (listing.perform content).complaints =
      listing.complaints ++ if content.isBadStart then [.badStart] else [] := by
  cases content with
  | start operand => exact listing.startAt_complaints operand
  | blank => exact (List.append_nil _).symm
  | final => exact (List.append_nil _).symm
  | statement command operands => exact (List.append_nil _).symm

theorem Knows.read_complaints {listing : Listing} {front : List Line}
    (knows : listing.Knows front) (line : Line) :
    (listing.read line).complaints = listing.complaints ++ line.complaints front := by
  unfold Listing.read Line.complaints
  rw [perform_complaints, labelled_complaints knows, List.append_assoc]

theorem Knows.run_complaints {listing : Listing} {front : List Line}
    (knows : listing.Knows front) (lines : List Line) :
    (listing.run lines).complaints = listing.complaints ++ Line.allComplaints front lines := by
  induction lines generalizing listing front with
  | nil => exact (List.append_nil _).symm
  | cons line others inductionHypothesis =>
      unfold run Line.allComplaints
      by_cases final : line.content = .final
      · rw [if_pos final, if_pos final, List.append_nil, knows.read_complaints]
      · rw [if_neg final, if_neg final, inductionHypothesis (knows.read final),
          knows.read_complaints, List.append_assoc]

theorem ofSource_complaints (source : String) :
    (ofSource source).complaints = Line.allComplaints [] (Line.all source) := by
  have knows : empty.Knows [] := fun _name => rfl
  exact knows.run_complaints (Line.all source)

end Listing

/-! ### Complaints of encoding -/

/-- The errors of an assembly begin with given complaints of reading, and no other
complaint of reading is among them. -/
structure Assembly.Opens (assembly : Assembly) (first : List Complaint) : Prop where
  ofReading : ∀ complaint ∈ first, complaint.isOfReading = true
  continued : ∃ later : List Complaint,
    assembly.errors = (first ++ later).map Complaint.message ∧
      ∀ complaint ∈ later, complaint.isOfReading = false

theorem eq_error_of_map {α β : Type} {result : Except Complaint α} {f : α → β}
    {complaint : Complaint} (wrong : result.map f = .error complaint) :
    result = .error complaint := by
  cases result with
  | ok found => cases wrong
  | error found =>
      cases wrong
      rfl

namespace Encoder

theorem mem_complaints_iff {encoder : Encoder} {statement : Statement} {complaint : Complaint} :
    complaint ∈ encoder.complaints statement ↔ encoder statement = .error complaint := by
  unfold complaints
  cases encoder statement with
  | ok found => exact ⟨nofun, nofun⟩
  | error found => rw [List.mem_singleton, Except.error.injEq, eq_comm]

theorem encodeAll_congr {one other : Encoder} {statements : List Statement}
    (same : ∀ statement ∈ statements, one statement = other statement) :
    one.encodeAll statements = other.encodeAll statements := by
  induction statements with
  | nil => rfl
  | cons statement others inductionHypothesis =>
      obtain ⟨first, later⟩ := List.forall_mem_cons.mp same
      rw [encodeAll, encodeAll, inductionHypothesis later, first]

end Encoder

theorem Listing.opens_assemble {listing : Listing} {encoder : SymbolTable → Encoder}
    (ofReading : ∀ complaint ∈ listing.complaints, complaint.isOfReading = true)
    (ofEncoding : ∀ {statement complaint}, encoder listing.symbols statement = .error complaint →
      complaint.isOfReading = false) :
    (listing.assemble encoder).Opens listing.complaints := by
  rw [assemble_eq]
  refine ⟨ofReading, _, rfl, ?_⟩
  intro complaint member
  obtain ⟨statement, _listed, complains⟩ := List.mem_flatMap.mp member
  exact ofEncoding (Encoder.mem_complaints_iff.mp complains)

namespace Compact

theorem value_complaint {symbols : SymbolTable} {text : String} {complaint : Complaint}
    (wrong : value symbols text = .error complaint) : complaint.isOfReading = false := by
  unfold value at wrong
  split at wrong
  · split at wrong <;> cases wrong
    rfl
  · split at wrong
    · cases wrong
    · split at wrong <;> cases wrong
      rfl

theorem encode_complaint {settings : Settings} {symbols : SymbolTable} {statement : Statement}
    {complaint : Complaint} (wrong : encode settings symbols statement = .error complaint) :
    complaint.isOfReading = false := by
  unfold encode at wrong
  split at wrong
  · cases wrong
    rfl
  -- commands with two operands, with one and with none, each with the right number first
  · split at wrong
    · split at wrong
      · cases wrong
        rfl
      · split at wrong
        · next found =>
            cases wrong
            exact value_complaint found
        · cases wrong
    · cases wrong
      rfl
    · split at wrong
      · next found =>
          cases wrong
          exact value_complaint found
      · cases wrong
    · cases wrong
      rfl
    · cases wrong
    · cases wrong
      rfl

/-! ### Two settings -/

theorem command?_eq (one other : Settings) {name : String} (different : name ≠ "DADD") :
    command? one name = command? other name := by
  unfold command?
  split
  case h_17 => exact absurd rfl different
  all_goals rfl

theorem encode_eq (one other : Settings) (symbols : SymbolTable) {statement : Statement}
    (different : statement.command ≠ "DADD") :
    encode one symbols statement = encode other symbols statement := by
  unfold encode
  rw [command?_eq one other different]

theorem assemble_encoder_eq (one other : Settings) {listing : Listing}
    (different : ∀ statement ∈ listing.statements, statement.command ≠ "DADD") :
    listing.assemble (encoder one) = listing.assemble (encoder other) := by
  have same : ∀ statement ∈ listing.statements,
      encoder one listing.symbols statement = encoder other listing.symbols statement := by
    intro statement member
    unfold encoder
    rw [encode_eq one other listing.symbols (different statement member)]
  unfold Listing.assemble
  rw [Encoder.encodeAll_congr same]

end Compact

namespace Extended

theorem operand_complaint {symbols : SymbolTable} {unknown complaint : Complaint} {text : String}
    (late : unknown.isOfReading = false)
    (wrong : operand symbols unknown text = .error complaint) :
    complaint.isOfReading = false := by
  unfold operand at wrong
  split at wrong
  · split at wrong <;> cases wrong
    rfl
  · split at wrong
    · cases wrong
    · split at wrong <;> cases wrong
      exact late

theorem jump_complaint {symbols : SymbolTable} {command text : String} {condition : Nat}
    {address : Int} {complaint : Complaint}
    (wrong : jump symbols command condition text address = .error complaint) :
    complaint.isOfReading = false := by
  unfold jump at wrong
  split at wrong
  · cases wrong
    rfl
  · dsimp only at wrong
    split at wrong <;> cases wrong
    rfl

theorem encode_complaint {symbols : SymbolTable} {statement : Statement} {complaint : Complaint}
    (wrong : encode symbols statement = .error complaint) : complaint.isOfReading = false := by
  unfold encode at wrong
  dsimp only at wrong
  split at wrong
  · cases wrong
    rfl
  -- two operands
  · split at wrong
    · split at wrong
      · cases wrong
        rfl
      · split at wrong
        · next found =>
            cases wrong
            exact operand_complaint rfl found
        · cases wrong
    · cases wrong
      rfl
  -- one operand
  · split at wrong
    · split at wrong
      · next found =>
          cases wrong
          exact operand_complaint rfl found
      · cases wrong
    · cases wrong
      rfl
  -- a jump
  · split at wrong
    · exact jump_complaint (eq_error_of_map wrong)
    · cases wrong
      rfl
  -- no operand
  · split at wrong <;> cases wrong
    rfl

end Extended

/-- The three assemblers leave the same symbols, and the errors of each begin with what the
lines of the text have wrong with them.  Where no statement is a `DADD` the compact ones
give the same words and the same errors. -/
theorem assemblers_agree (source : String) :
    ∃ unary binary : Assembly,
      Compact.assemble Compact.unary source = .ok unary ∧
        Compact.assemble Compact.binary source = .ok binary ∧
        unary.symbols = (Extended.assemble source).symbols ∧
        binary.symbols = (Extended.assemble source).symbols ∧
        (∀ assembly ∈ [unary, binary, Extended.assemble source],
          assembly.Opens (Line.allComplaints [] (Line.all source))) ∧
        ((∀ statement ∈ (Listing.ofSource source).statements, statement.command ≠ "DADD") →
          unary.object = binary.object ∧ unary.errors = binary.errors) := by
  have ofReading := Line.allComplaints_isOfReading [] (Line.all source)
  rw [← Listing.ofSource_complaints] at ofReading ⊢
  rw [Extended.assemble_eq]
  refine ⟨_, _, Compact.assemble_eq rfl source, Compact.assemble_eq rfl source, rfl, rfl, ?_, ?_⟩
  · simp only [List.forall_mem_cons]
    have compact (settings : Compact.Settings) :
        ((Listing.ofSource source).assemble (Compact.encoder settings)).Opens
          (Listing.ofSource source).complaints :=
      Listing.opens_assemble ofReading
        (fun wrong => Compact.encode_complaint (eq_error_of_map wrong))
    exact ⟨compact _, compact _, Listing.opens_assemble ofReading
      (fun wrong => Extended.encode_complaint (eq_error_of_map wrong)), nofun⟩
  · intro different
    rw [Compact.assemble_encoder_eq Compact.unary Compact.binary different]
    exact ⟨rfl, rfl⟩

/-- A `START` that fails on a line whose label is defined again, a statement that lacks an
operand, and a `DADD` that is not reached. -/
theorem assemblers_agree_without_dadd :
    let source := "A: MOV R1, A\nA: START zz\nADD R1\nEND\nDADD R1"
    (∀ statement ∈ (Listing.ofSource source).statements, statement.command ≠ "DADD") ∧
      Line.allComplaints [] (Line.all source) = [.duplicateLabel "A", .badStart] ∧
      ∃ unary binary : Assembly,
        Compact.assemble Compact.unary source = .ok unary ∧
          Compact.assemble Compact.binary source = .ok binary ∧
          unary.object = binary.object ∧ unary.errors = binary.errors := by
  intro source
  have different : ∀ statement ∈ (Listing.ofSource source).statements,
      statement.command ≠ "DADD" := by
    decide
  obtain ⟨unary, binary, first, second, _, _, _, same⟩ := assemblers_agree source
  exact ⟨different, by decide, unary, binary, first, second, same different⟩

end Dialect
end Msp430
