import Msp430.Proofs.Dialects

/-!
Contributions of statements.  An assembly collects what each statement contributes, object lines
or errors, behind the complaints of reading.  In the compact dialect every statement has
exactly one thing to contribute.  Main statement: object lines and errors together are as
many as the statements, the labels defined again and the bad `START` lines.
-/

namespace Msp430
namespace Dialect

/-! ### Lines up to the end -/

/-- The lines that are read, each with the lines in front of it. -/
def Line.visits (front : List Line) : List Line → List (List Line × Line)
  | [] => []
  | line :: others =>
      (front, line) :: if line.content = .final then [] else visits (front ++ [line]) others

/-- The statements of lines, the counter being known at the first of them. -/
def Line.statements (counter : Int) : List Line → List Statement
  | [] => []
  | line :: others =>
      line.content.listed counter ++
        if line.content = .final then []
        else statements (line.content.advance counter) others

theorem Listing.run_statements (listing : Listing) (lines : List Line) :
    (listing.run lines).statements =
      listing.statements ++ Line.statements listing.counter lines := by
  induction lines generalizing listing with
  | nil => exact (List.append_nil _).symm
  | cons line others inductionHypothesis =>
      rw [run, Line.statements]
      by_cases final : line.content = .final
      · rw [if_pos final, if_pos final, List.append_nil, read_statements]
      · rw [if_neg final, if_neg final, inductionHypothesis, read_statements, read_counter,
          List.append_assoc]

theorem Listing.ofSource_statements (source : String) :
    (ofSource source).statements = Line.statements 0 (Line.all source) :=
  empty.run_statements (Line.all source)

theorem Line.length_statements (counter : Int) (front lines : List Line) :
    (statements counter lines).length =
      (visits front lines).countP (fun visit => visit.2.content.isStatement) := by
  induction lines generalizing counter front with
  | nil => rfl
  | cons line others inductionHypothesis =>
      rw [statements, visits, List.countP_cons, List.length_append, Content.length_listed,
        Nat.add_comm]
      by_cases final : line.content = .final
      · rw [if_pos final, if_pos final]
        rfl
      · rw [if_neg final, if_neg final, inductionHypothesis]

theorem Line.length_complaints (front : List Line) (line : Line) :
    (line.complaints front).length =
      (if (line.repeated? front).isSome then 1 else 0) +
        if line.content.isBadStart then 1 else 0 := by
  rw [complaints, List.length_append, List.length_map]
  congr 1
  · cases line.repeated? front <;> rfl
  · split <;> rfl

theorem Line.length_allComplaints (front lines : List Line) :
    (allComplaints front lines).length =
      (visits front lines).countP (fun visit => (visit.2.repeated? visit.1).isSome) +
        (visits front lines).countP (fun visit => visit.2.content.isBadStart) := by
  induction lines generalizing front with
  | nil => rfl
  | cons line others inductionHypothesis =>
      rw [allComplaints, visits, List.countP_cons, List.countP_cons, List.length_append,
        length_complaints]
      dsimp only
      by_cases final : line.content = .final
      · rw [if_pos final, if_pos final, List.countP_nil, List.countP_nil, List.length_nil]
        omega
      · rw [if_neg final, if_neg final, inductionHypothesis]
        omega

/-! ### What a statement contributes -/

structure Contribution where
  object : List String
  errors : List String
  deriving Repr, DecidableEq

/-- The assembly is put together from contributions, in their order. -/
structure Assembly.Collects (assembly : Assembly) (reading : List Complaint)
    (contributions : List Contribution) : Prop where
  object : assembly.object = contributions.flatMap Contribution.object
  errors : assembly.errors =
    reading.map Complaint.message ++ contributions.flatMap Contribution.errors

def Encoder.contribution (encoder : Encoder) (statement : Statement) : Contribution :=
  { object := (encoder.words statement).map ObjectWord.line
    errors := (encoder.complaints statement).map Complaint.message }

theorem Listing.collects_assemble (listing : Listing) (encoder : SymbolTable → Encoder) :
    (listing.assemble encoder).Collects listing.complaints
      (listing.statements.map (encoder listing.symbols).contribution) where
  object := by
    rw [assemble_eq, List.map_flatMap, List.flatMap_map]
    rfl
  errors := by
    rw [assemble_eq, List.flatMap_map]
    dsimp only
    rw [List.map_append, List.map_flatMap]
    rfl

theorem Extended.collects_assemble (source : String) :
    (assemble source).Collects (Line.allComplaints [] (Line.all source))
      ((Line.statements 0 (Line.all source)).map
        (encoder (assemble source).symbols).contribution) := by
  rw [assemble_eq, ← Listing.ofSource_complaints, ← Listing.ofSource_statements]
  exact (Listing.ofSource source).collects_assemble encoder

namespace Compact

/-! ### Statements without fault -/

/-- A number behind its mark, or else a register or a symbol. -/
inductive Readable (symbols : SymbolTable) (text : String) : Prop where
  | number {digits : List Char} {value : Int} (marked : text.toList = '#' :: digits)
      (read : Numeral.hex? (String.ofList digits) = some value)
  | register {register : Register} (unmarked : text.toList.head? ≠ some '#')
      (named : Register.ofName? text = some register)
  | symbol {value : Int} (unmarked : text.toList.head? ≠ some '#')
      (bound : symbols.find? text = some value)

/-- The command is known and has the operands that it takes. -/
inductive Accepts (settings : Settings) (symbols : SymbolTable) (statement : Statement) :
    Prop where
  | two {command : Command} {destination source : String} {register : Register}
      (known : command? settings statement.command = some command)
      (arity : command.arity = .two) (given : statement.operands = [destination, source])
      (named : Register.ofName? destination = some register)
      (readable : Readable symbols source)
  | one {command : Command} {operand : String}
      (known : command? settings statement.command = some command)
      (arity : command.arity = .one) (given : statement.operands = [operand])
      (readable : Readable symbols operand)
  | zero {command : Command} (known : command? settings statement.command = some command)
      (arity : command.arity = .zero) (given : statement.operands = [])

theorem exists_value_iff (symbols : SymbolTable) (text : String) :
    (∃ found, value symbols text = .ok found) ↔ Readable symbols text := by
  constructor
  · rintro ⟨found, valued⟩
    unfold value at valued
    split at valued
    · next digits marked =>
        split at valued
        · next number read => exact .number marked read
        · cases valued
    · next unmarked =>
        have head : text.toList.head? ≠ some '#' := by
          intro marked
          obtain ⟨digits, spelled⟩ := List.head?_eq_some_iff.mp marked
          exact unmarked digits spelled
        split at valued
        · next register named => exact .register head named
        · split at valued
          · next number bound => exact .symbol head bound
          · cases valued
  · intro readable
    unfold value
    cases readable with
    | number marked read =>
        simp only [marked, read]
        exact ⟨_, rfl⟩
    | register unmarked named =>
        split
        · next digits marked =>
            rw [marked] at unmarked
            exact absurd rfl unmarked
        · rw [named]
          exact ⟨_, rfl⟩
    | symbol unmarked bound =>
        split
        · next digits marked =>
            rw [marked] at unmarked
            exact absurd rfl unmarked
        · rw [bound]
          cases Register.ofName? text with
          | some register => exact ⟨_, rfl⟩
          | none => exact ⟨_, rfl⟩

theorem command?_nibble {settings : Settings} {name : String} {command : Command}
    (known : command? settings name = some command) : command.nibble < 16 := by
  unfold command? at known
  split at known
  case h_20 => cases known
  all_goals
    cases known
    simp

theorem value_mode {symbols : SymbolTable} {text : String} {found : Value}
    (valued : value symbols text = .ok found) : found.mode < 16 := by
  unfold value at valued
  split at valued
  · split at valued <;> cases valued
    simp
  · split at valued
    · cases valued
      simp
    · split at valued <;> cases valued
      simp

/-- Whatever the size of the operand, only its low bits enter the word. -/
theorem accepts_of_encode {settings : Settings} {symbols : SymbolTable} {statement : Statement}
    {code : Int} (encoded : encode settings symbols statement = .ok code) :
    Accepts settings symbols statement ∧ 0 ≤ code ∧ code ≤ 0xffff := by
  unfold encode at encoded
  split at encoded
  · cases encoded
  · next command known =>
      have nibble := command?_nibble known
      -- commands with two operands, with one and with none, the right number first
      split at encoded
      · next arity given =>
          split at encoded
          · cases encoded
          · next register named =>
              have field := register.isLt
              split at encoded
              · cases encoded
              · next found valued =>
                  have mode := value_mode valued
                  refine ⟨.two known arity given named
                    ((exists_value_iff _ _).mp ⟨found, valued⟩), ?_⟩
                  cases encoded
                  omega
      · cases encoded
      · next arity given =>
          split at encoded
          · cases encoded
          · next found valued =>
              have mode := value_mode valued
              refine ⟨.one known arity given ((exists_value_iff _ _).mp ⟨found, valued⟩), ?_⟩
              cases encoded
              omega
      · cases encoded
      · next arity given =>
          refine ⟨.zero known arity given, ?_⟩
          cases encoded
          omega
      · cases encoded

theorem Accepts.exists_encode {settings : Settings} {symbols : SymbolTable}
    {statement : Statement} (accepts : Accepts settings symbols statement) :
    ∃ code, encode settings symbols statement = .ok code := by
  unfold encode
  cases accepts with
  | two known arity given named readable =>
      obtain ⟨found, valued⟩ := (exists_value_iff _ _).mpr readable
      simp only [known, arity, given, named, valued]
      exact ⟨_, rfl⟩
  | one known arity given readable =>
      obtain ⟨found, valued⟩ := (exists_value_iff _ _).mpr readable
      simp only [known, arity, given, valued]
      exact ⟨_, rfl⟩
  | zero known arity given =>
      simp only [known, arity, given]
      exact ⟨_, rfl⟩

/-! ### One word or one error -/

/-- A contribution with one object line, its word in sixteen bits, if the statement is without
fault, and else with one error. -/
inductive Accounted (settings : Settings) (symbols : SymbolTable) (statement : Statement) :
    Contribution → Prop where
  | word {code : Int} (accepted : Accepts settings symbols statement) (least : 0 ≤ code)
      (most : code ≤ 0xffff) :
      Accounted settings symbols statement
        { object := [Numeral.hex statement.address ++ ": " ++ Numeral.hex code], errors := [] }
  | error (refused : ¬ Accepts settings symbols statement) (complaint : Complaint) :
      Accounted settings symbols statement { object := [], errors := [complaint.message] }

theorem accounted_contribution (settings : Settings) (symbols : SymbolTable)
    (statement : Statement) :
    Accounted settings symbols statement ((encoder settings symbols).contribution statement) := by
  unfold Encoder.contribution Encoder.words Encoder.complaints encoder
  cases encoded : encode settings symbols statement with
  | ok code =>
      obtain ⟨accepted, least, most⟩ := accepts_of_encode encoded
      exact .word accepted least most
  | error complaint =>
      refine .error ?_ complaint
      intro accepts
      obtain ⟨code, accepted⟩ := accepts.exists_encode
      rw [encoded] at accepted
      cases accepted

theorem Accounted.length {settings : Settings} {symbols : SymbolTable} {statement : Statement}
    {contribution : Contribution} (accounted : Accounted settings symbols statement contribution) :
    contribution.object.length + contribution.errors.length = 1 := by
  cases accounted with
  | word accepted least most => rfl
  | error refused complaint => rfl

theorem length_contributions (settings : Settings) (symbols : SymbolTable)
    (statements : List Statement) :
    ((statements.map (encoder settings symbols).contribution).flatMap
          Contribution.object).length +
        ((statements.map (encoder settings symbols).contribution).flatMap
          Contribution.errors).length =
      statements.length := by
  induction statements with
  | nil => rfl
  | cons statement others inductionHypothesis =>
      have one := (accounted_contribution settings symbols statement).length
      rw [List.map_cons, List.flatMap_cons, List.flatMap_cons, List.length_append,
        List.length_append, List.length_cons]
      omega

/-- Every text is assembled.  Each statement, in order, contributes one object line with its
own address and a word of sixteen bits, or one error; errors come otherwise only from
labels that are defined again and from `START` lines with a bad operand. -/
theorem statements_accounted (source : String) :
    ∀ settings ∈ [unary, binary], ∃ assembly, assemble settings source = .ok assembly ∧
      assembly.Collects (Line.allComplaints [] (Line.all source))
        ((Line.statements 0 (Line.all source)).map
          (encoder settings assembly.symbols).contribution) ∧
      (∀ statement ∈ Line.statements 0 (Line.all source),
        Accounted settings assembly.symbols statement
          ((encoder settings assembly.symbols).contribution statement)) ∧
      assembly.object.length + assembly.errors.length =
        (Line.visits [] (Line.all source)).countP (fun visit => visit.2.content.isStatement) +
          (Line.visits [] (Line.all source)).countP
            (fun visit => (visit.2.repeated? visit.1).isSome) +
          (Line.visits [] (Line.all source)).countP
            (fun visit => visit.2.content.isBadStart) := by
  intro settings member
  have marked : settings.commentMark = some ';' := by
    revert settings
    decide
  have collects := (Listing.ofSource source).collects_assemble (encoder settings)
  rw [Listing.ofSource_complaints, Listing.ofSource_statements] at collects
  refine ⟨_, assemble_eq marked source, collects,
    fun statement _ => accounted_contribution settings _ statement, ?_⟩
  rw [collects.object, collects.errors, List.length_append, List.length_map,
    Line.length_allComplaints, ← Line.length_statements 0 [],
    ← length_contributions settings (Listing.ofSource source).symbols]
  omega

/-- A label that is defined again on a line whose `START` fails, a number that is too large
for its field, a statement that lacks an operand, and one that is not reached. -/
theorem statements_accounted_failing :
    let source := "A: MOV R1, #12345\nA: START zz\nADD R1\nEND\nMOV R1, A"
    unary ∈ [unary, binary] ∧
      { command := "MOV", operands := ["R1", "#12345"], address := 0 } ∈
        Line.statements 0 (Line.all source) ∧
      ∃ assembly, assemble unary source = .ok assembly ∧
        Accounted unary assembly.symbols
          { command := "MOV", operands := ["R1", "#12345"], address := 0 }
          ((encoder unary assembly.symbols).contribution
            { command := "MOV", operands := ["R1", "#12345"], address := 0 }) ∧
        assembly.object = ["0x0: 0x1135"] ∧
        assembly.errors =
          [Complaint.duplicateLabel "A", .badStart, .needsTwoOperands "ADD"].map
            Complaint.message ∧
        assembly.object.length + assembly.errors.length = 4 := by
  intro source
  have member : unary ∈ [unary, binary] := List.mem_cons_self
  have listed : { command := "MOV", operands := ["R1", "#12345"], address := 0 } ∈
      Line.statements 0 (Line.all source) := by
    decide
  obtain ⟨assembly, assembled, _, accounted, count⟩ := statements_accounted source unary member
  have found : (assemble unary source).toOption =
      some { object := ["0x0: 0x1135"]
             errors := [Complaint.duplicateLabel "A", .badStart, .needsTwoOperands "ADD"].map
               Complaint.message
             symbols := { bindings := [("A", 0), ("END", 4)] } } := by
    decide
  rw [assembled] at found
  have same := Option.some.inj found
  refine ⟨member, listed, assembly, assembled, accounted _ listed, ?_, ?_,
    count.trans (by decide)⟩
  · rw [same]
  · rw [same]

end Compact

end Dialect
end Msp430
