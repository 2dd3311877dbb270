import Msp430.Proofs.Deliveries

/-!
Entries that cannot be encoded.  An entry with two operands breaks off at a source that is
not there, at a source that is no number behind its mark, or at such a destination;
`Entry.Breaks` gives the fault and the words that the entry leaves for each of these.  Main
statement: encoding fails exactly if there is such an entry, stops at the first one, and
changes the object code and the diagnostics only.
-/

namespace Msp430
namespace Assembler

/-! ### Components -/

/-- A component with a mark that asks for a word, and the text behind the mark. -/
def Marked (component : Option String) (rest : String) : Prop :=
  component = some ("#" ++ rest) ∨ component = some ("&" ++ rest)

def Lacking (component : Option String) : Prop :=
  component = none ∨ component = some ""

def Unreadable (component : Option String) : Prop :=
  ∃ rest, Marked component rest ∧ Numeral.hex? rest = none

/-- The word that a component brings along, two above the location, if it has a mark. -/
inductive Extension (location : Int) (component : Option String) : List ObjectWord → Prop where
  | absent (plain : ∀ rest, ¬ Marked component rest) : Extension location component []
  | present {rest : String} {value : Int} (marked : Marked component rest)
      (reads : Numeral.hex? rest = some value) :
      Extension location component [{ address := location + 2, code := value }]

theorem marked_some_iff {text rest : String} :
    Marked (some text) rest ↔
      text.toList = '#' :: rest.toList ∨ text.toList = '&' :: rest.toList := by
  unfold Marked
  rw [Option.some.injEq, Option.some.injEq, ← String.toList_inj, ← String.toList_inj,
    String.toList_append, String.toList_append]
  rfl

theorem Marked.inj {component : Option String} {rest other : String}
    (one : Marked component rest) (two : Marked component other) : rest = other := by
  cases component with
  | none => rcases one with impossible | impossible <;> cases impossible
  | some text =>
      rw [marked_some_iff] at one two
      apply String.toList_inj.mp
      rcases one with same | same
      · rw [same] at two
        rcases two with equal | different
        · exact (List.cons.inj equal).2
        · exact absurd (List.cons.inj different).1 (by decide)
      · rw [same] at two
        rcases two with different | equal
        · exact absurd (List.cons.inj different).1 (by decide)
        · exact (List.cons.inj equal).2

theorem Lacking.unmarked {component : Option String} (lacking : Lacking component)
    (rest : String) : ¬ Marked component rest := by
  intro marked
  rcases lacking with absent | empty
  · rw [absent] at marked
    rcases marked with impossible | impossible <;> cases impossible
  · rw [empty, marked_some_iff] at marked
    rcases marked with impossible | impossible <;> cases impossible

inductive Shape (component : Option String) : Option Operand → Prop where
  | lacking (lacking : Lacking component) : Shape component none
  | marked {written : Operand} (takes : written.mode.takesWord = true)
      (marked : Marked component written.text) : Shape component (some written)
  | plain {written : Operand} (takes : written.mode.takesWord = false)
      (present : ¬ Lacking component) (unmarked : ∀ rest, ¬ Marked component rest) :
      Shape component (some written)

theorem Shape.of_first {text : String} {first : Char} {others : List Char}
    (spelled : text.toList = first :: others) (unmarked : first ≠ '#' ∧ first ≠ '&')
    {written : Operand} (takes : written.mode.takesWord = false) :
    Shape (some text) (some written) := by
  refine .plain takes ?_ (fun rest marked => ?_)
  · rintro (absent | empty)
    · cases absent
    · rw [Option.some.inj empty] at spelled
      cases spelled
  · rw [marked_some_iff, spelled] at marked
    rcases marked with same | same
    · exact unmarked.1 (List.cons.inj same).1
    · exact unmarked.2 (List.cons.inj same).1

theorem shape_ofText? (text : String) : Shape (some text) (Operand.ofText? text) := by
  unfold Operand.ofText?
  split
  · next empty =>
      exact .lacking (Or.inr (congrArg some (String.toList_inj.mp empty)))
  · next rest spelled =>
      exact .marked rfl (marked_some_iff.mpr (Or.inl (by rw [spelled, String.toList_ofList])))
  · next rest spelled =>
      exact .marked rfl (marked_some_iff.mpr (Or.inr (by rw [spelled, String.toList_ofList])))
  · next rest spelled =>
      split
      · exact .of_first spelled (by decide) rfl
      · exact .of_first spelled (by decide) rfl
  · next nonempty noNumber noAddress _ =>
      cases spelled : text.toList with
      | nil => exact absurd spelled nonempty
      | cons first others =>
          have unmarked : first ≠ '#' ∧ first ≠ '&' :=
            ⟨fun same => noNumber others (by rw [spelled, same]),
              fun same => noAddress others (by rw [spelled, same])⟩
          split
          · exact .of_first spelled unmarked rfl
          · split
            · exact .of_first spelled unmarked rfl
            · exact .of_first spelled unmarked rfl

theorem shape_read? (component : Option String) : Shape component (Operand.read? component) := by
  cases component with
  | none => exact .lacking (Or.inl rfl)
  | some text => exact shape_ofText? text

theorem lacking_iff (component : Option String) :
    Operand.read? component = none ↔ Lacking component := by
  have shape := shape_read? component
  generalize Operand.read? component = operand at shape ⊢
  cases shape with
  | lacking lacking => exact iff_of_true rfl lacking
  | marked takes marked => exact iff_of_false nofun (fun lacking => lacking.unmarked _ marked)
  | plain takes present unmarked => exact iff_of_false nofun present

theorem Extension.readable {location : Int} {component : Option String}
    {words : List ObjectWord} (extension : Extension location component words) :
    ¬ Unreadable component := by
  rintro ⟨rest, marked, unread⟩
  cases extension with
  | absent plain => exact plain rest marked
  | present other reads =>
      rw [other.inj marked, unread] at reads
      cases reads

theorem operandWords_of_read {component : Option String} {operand : Option Operand}
    (read : Operand.read? component = operand) (location : Int) :
    (∃ rest, Marked component rest ∧ Numeral.hex? rest = none ∧
      operandWords location operand = .error (.badNumeral rest)) ∨
    (∃ words, Extension location component words ∧
      operandWords location operand = .ok words) := by
  have shape := shape_read? component
  rw [read] at shape
  cases shape with
  | lacking lacking => exact Or.inr ⟨[], .absent lacking.unmarked, rfl⟩
  | plain takes present unmarked =>
      refine Or.inr ⟨[], .absent unmarked, ?_⟩
      rw [operandWords, takes]
      rfl
  | @marked written takes marked =>
      rw [operandWords, takes, if_pos rfl]
      cases reads : Numeral.hex? written.text with
      | none => exact Or.inl ⟨written.text, marked, reads, rfl⟩
      | some value => exact Or.inr ⟨_, .present marked reads, rfl⟩

/-! ### One entry -/

def dualNames : List String :=
  ["MOV", "ADD", "SUB", "CMP", "AND", "XOR", "BIC", "BIS", "BIT", "DADD"]

def Operation.isDual : Operation → Bool
  | .dual _ => true
  | _ => false

theorem Operation.mem_dualNames_iff (name : String) :
    name ∈ dualNames ↔ ∃ operation, ofName? name = some (.dual operation) := by
  constructor
  · intro member
    have named : dualNames.all (fun name => (ofName? name).any isDual) = true := by
      decide
    obtain ⟨operation, known, dual⟩ :=
      (Option.any_eq_true _ _).mp (List.all_eq_true.mp named name member)
    cases operation with
    | dual operation => exact ⟨operation, known⟩
    | _ => cases dual
  · rintro ⟨operation, known⟩
    unfold ofName? at known
    split at known <;> cases known
    all_goals decide

namespace Entry

def sourceText (entry : Entry) : Option String :=
  (components entry.operand).1

def destinationText (entry : Entry) : Option String :=
  (components entry.operand).2

/-- An entry with two operands whose source is not there, or one of whose operands has a
mark and no number behind it. -/
def IsBroken (entry : Entry) : Prop :=
  entry.opcode ∈ dualNames ∧
    (Lacking entry.sourceText ∨ Unreadable entry.sourceText ∨ Unreadable entry.destinationText)

/-- The instruction word of an entry with two operands.  Without a source there is none. -/
def instruction? (symbols : SymbolTable) (entry : Entry) : Option ObjectWord :=
  match Operation.ofName? entry.opcode, entry.source? with
  | some (.dual operation), some source =>
      some
        { address := entry.location
          code := dualWord operation source entry.destination?
            ((resolve? symbols (some source)).getD 0)
            ((resolve? symbols entry.destination?).getD 0) }
  | _, _ => none

/-- The ways in which an entry breaks off, each with its fault and with the words that the
entry leaves: no source, a source without its number, a destination without its number. -/
inductive Breaks (symbols : SymbolTable) (entry : Entry) : Fault → List ObjectWord → Prop where
  | missing (dual : entry.opcode ∈ dualNames) (lacking : Lacking entry.sourceText) :
      Breaks symbols entry .missingSource []
  | source {first : ObjectWord} {rest : String}
      (instruction : entry.instruction? symbols = some first)
      (marked : Marked entry.sourceText rest) (unread : Numeral.hex? rest = none) :
      Breaks symbols entry (.badNumeral rest) [first]
  | destination {first : ObjectWord} {extension : List ObjectWord} {rest : String}
      (instruction : entry.instruction? symbols = some first)
      (extended : Extension entry.location entry.sourceText extension)
      (marked : Marked entry.destinationText rest) (unread : Numeral.hex? rest = none) :
      Breaks symbols entry (.badNumeral rest) (first :: extension)

theorem emit_dual_cases (symbols : SymbolTable) {operation : Dual} {entry : Entry}
    (known : Operation.ofName? entry.opcode = some (.dual operation)) :
    (∃ fault, (entry.emit symbols).fault = some fault ∧
        entry.Breaks symbols fault (entry.emit symbols).words) ∨
      ((entry.emit symbols).fault = none ∧ ¬ entry.IsBroken) := by
  have dual : entry.opcode ∈ dualNames := (Operation.mem_dualNames_iff _).mpr ⟨_, known⟩
  have emitted : entry.emit symbols =
      emitDual symbols operation entry.operand entry.location := by
    rw [emit, known]
  rw [emitted]
  unfold emitDual
  cases read : Operand.read? (components entry.operand).1 with
  | none =>
      exact Or.inl ⟨.missingSource, rfl, .missing dual ((lacking_iff entry.sourceText).mp read)⟩
  | some source =>
      have instruction : entry.instruction? symbols =
          some
            { address := entry.location
              code := dualWord operation source entry.destination?
                ((resolve? symbols (some source)).getD 0)
                ((resolve? symbols entry.destination?).getD 0) } := by
        unfold instruction? source?
        rw [known, read]
      have present : ¬ Lacking entry.sourceText := by
        rw [← lacking_iff, sourceText, read]
        exact Option.some_ne_none source
      rcases operandWords_of_read read entry.location with
        ⟨rest, marked, unread, failed⟩ | ⟨extension, extended, encoded⟩
      · simp only [failed]
        exact Or.inl ⟨_, rfl, .source instruction marked unread⟩
      · rcases operandWords_of_read (Eq.refl entry.destination?) entry.location with
          ⟨rest, marked, unread, failed⟩ | ⟨_, extended', encoded'⟩
        · unfold destination? at failed
          simp only [encoded, failed]
          exact Or.inl ⟨_, rfl, .destination instruction extended marked unread⟩
        · unfold destination? at encoded'
          simp only [encoded, encoded']
          refine Or.inr ⟨trivial, ?_⟩
          rintro ⟨_, lacking | unreadable | unreadable⟩
          · exact present lacking
          · exact extended.readable unreadable
          · exact extended'.readable unreadable

theorem dual_of_instruction? {symbols : SymbolTable} {entry : Entry} {first : ObjectWord}
    (instruction : entry.instruction? symbols = some first) : entry.opcode ∈ dualNames := by
  unfold instruction? at instruction
  split at instruction
  · next operation source known read => exact (Operation.mem_dualNames_iff _).mpr ⟨_, known⟩
  · cases instruction

theorem Breaks.isBroken {symbols : SymbolTable} {entry : Entry} {fault : Fault}
    {words : List ObjectWord} (breaks : entry.Breaks symbols fault words) : entry.IsBroken := by
  cases breaks with
  | missing dual lacking => exact ⟨dual, Or.inl lacking⟩
  | source instruction marked unread =>
      exact ⟨dual_of_instruction? instruction, Or.inr (Or.inl ⟨_, marked, unread⟩)⟩
  | destination instruction extended marked unread =>
      exact ⟨dual_of_instruction? instruction, Or.inr (Or.inr ⟨_, marked, unread⟩)⟩

theorem emit_cases (symbols : SymbolTable) (entry : Entry) :
    (∃ fault, (entry.emit symbols).fault = some fault ∧
        entry.Breaks symbols fault (entry.emit symbols).words) ∨
      ((entry.emit symbols).fault = none ∧ ¬ entry.IsBroken) := by
  by_cases dual : entry.opcode ∈ dualNames
  · obtain ⟨operation, known⟩ := (Operation.mem_dualNames_iff _).mp dual
    exact emit_dual_cases symbols known
  · refine Or.inr ⟨?_, fun broken => dual broken.1⟩
    rw [Operation.mem_dualNames_iff] at dual
    rw [emit_fault, fault?]
    split
    · next operation known => exact absurd ⟨operation, known⟩ dual
    · rfl

theorem emit_of_sound (symbols : SymbolTable) {entry : Entry} (sound : ¬ entry.IsBroken) :
    (entry.emit symbols).fault = none := by
  rcases entry.emit_cases symbols with ⟨_, _, breaks⟩ | ⟨unfaulty, _⟩
  · exact absurd breaks.isBroken sound
  · exact unfaulty

theorem emit_of_broken (symbols : SymbolTable) {entry : Entry} (broken : entry.IsBroken) :
    ∃ fault, (entry.emit symbols).fault = some fault ∧
      entry.Breaks symbols fault (entry.emit symbols).words := by
  rcases entry.emit_cases symbols with breaks | ⟨_, sound⟩
  · exact breaks
  · exact absurd broken sound

end Entry

/-! ### All entries -/

/-- Entries in front of the first broken one emit all their words, and those behind it
none. -/
theorem emitAll_of_broken (symbols : SymbolTable) {earlier : List Entry} {entry : Entry}
    (sound : ∀ other ∈ earlier, ¬ other.IsBroken) (broken : entry.IsBroken)
    (later : List Entry) :
    (emitAll symbols (earlier ++ entry :: later)).fault = (entry.emit symbols).fault ∧
      (emitAll symbols (earlier ++ entry :: later)).words =
        earlier.flatMap (Entry.words symbols) ++ entry.words symbols := by
  induction earlier with
  | nil =>
      obtain ⟨fault, faulty, _⟩ := Entry.emit_of_broken symbols broken
      rw [List.nil_append, emitAll, faulty]
      exact ⟨faulty, rfl⟩
  | cons first others inductionHypothesis =>
      obtain ⟨whole, rest⟩ := List.forall_mem_cons.mp sound
      obtain ⟨faults, words⟩ := inductionHypothesis rest
      rw [List.cons_append, emitAll, Entry.emit_of_sound symbols whole]
      refine ⟨faults, ?_⟩
      rw [List.flatMap_cons, List.append_assoc, ← words]
      rfl

theorem emitAll_fault_ne_none_iff (symbols : SymbolTable) (entries : List Entry) :
    (emitAll symbols entries).fault ≠ none ↔ ∃ entry ∈ entries, entry.IsBroken := by
  constructor
  · intro failed
    refine Classical.byContradiction (fun unbroken => failed ?_)
    apply emitAll_fault_eq_none
    intro entry member
    exact Entry.emit_of_sound symbols (fun broken => unbroken ⟨entry, member, broken⟩)
  · rintro ⟨entry, member, broken⟩ unfaulty
    rw [emitAll_fault] at unfaulty
    obtain ⟨fault, faulty, _⟩ := Entry.emit_of_broken symbols broken
    rw [entry.emit_fault, List.findSome?_eq_none_iff.mp unfaulty entry member] at faulty
    cases faulty

namespace State

/-- Encoding fails exactly if an entry is broken.  It then ends with the fault of the first
such entry, and the object code has grown by the words of the entries in front of it and by
those that it leaves itself.  The rest of the memory stays as it is. -/
theorem encode_breaks (state : State) :
    (state.encode.2 ≠ none ↔ ∃ entry ∈ state.entries, entry.IsBroken) ∧
      (∀ earlier entry later, state.entries = earlier ++ entry :: later →
        (∀ other ∈ earlier, ¬ other.IsBroken) → entry.IsBroken →
          ∃ fault words, entry.Breaks state.symbols fault words ∧
            state.encode.2 = some fault ∧
            state.encode.1.object =
              state.object ++ earlier.flatMap (Entry.words state.symbols) ++ words) ∧
      state.encode.1.symbols = state.symbols ∧ state.encode.1.entries = state.entries ∧
      state.encode.1.counter = state.counter ∧ state.encode.1.start = state.start ∧
      state.encode.1.length = state.length := by
  refine ⟨emitAll_fault_ne_none_iff state.symbols state.entries, ?_, rfl, rfl, rfl, rfl, rfl⟩
  intro earlier entry later divided sound broken
  obtain ⟨fault, faulty, breaks⟩ := Entry.emit_of_broken state.symbols broken
  obtain ⟨faults, words⟩ := emitAll_of_broken state.symbols sound broken later
  refine ⟨fault, _, breaks, ?_, ?_⟩
  · change (emitAll state.symbols state.entries).fault = _
    rw [divided, faults, faulty]
  · change state.object ++ (emitAll state.symbols state.entries).words = _
    rw [divided, words, List.append_assoc]
    rfl

/-- A destination that does not read, behind a source that does and in front of an entry
without a source. -/
theorem encode_breaks_destination :
    let rotate : Entry := { label := none, opcode := "RRC", operand := some "R4", location := 2 }
    let move : Entry :=
      { label := some "L", opcode := "MOV", operand := some "#12, &zz", location := 8 }
    let add : Entry := { label := none, opcode := "ADD", operand := none, location := 10 }
    let state : State := { fresh with entries := [rotate, move, add] }
    (¬ rotate.IsBroken ∧ move.IsBroken ∧ add.IsBroken) ∧
      (∃ fault words, move.Breaks state.symbols fault words ∧ state.encode.2 = some fault ∧
        state.encode.1.object =
          state.object ++ [rotate].flatMap (Entry.words state.symbols) ++ words) ∧
      state.encode.2 = some (.badNumeral "zz") ∧
      state.encode.1.object =
        [{ address := 2, code := 0x1000 }, { address := 8, code := 0x40b0 },
          { address := 10, code := 0x12 }] := by
  intro rotate move add state
  have sound : ¬ rotate.IsBroken := fun broken => absurd broken.1 (by decide)
  have broken : move.IsBroken :=
    ⟨by decide, Or.inr (Or.inr ⟨"zz", Or.inr (by decide), by decide⟩)⟩
  have lacking : add.IsBroken := ⟨by decide, Or.inl (Or.inl (by decide))⟩
  refine ⟨⟨sound, broken, lacking⟩, ?_, by decide, by decide⟩
  exact state.encode_breaks.2.1 [rotate] move [add] rfl
    (List.forall_mem_singleton.mpr sound) broken

end State
end Assembler
end Msp430
