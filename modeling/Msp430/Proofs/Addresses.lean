import Mathlib.Data.List.Chain
import Msp430.Proofs.Locations

/-!
The addresses of object words.  The instruction word of an entry stands at the
address behind the entry, so it never stands where the entry's label points to,
and an operand word can fall on the instruction word that follows.  Main
statements: how far the first word lies behind the label, and exactly when all
addresses are distinct.
-/

namespace Msp430
namespace Assembler

/-! ### Labels -/

/-- The first word of a labelled statement lies as many bytes behind the value of
the label as the statement reserves, two for each of its words, and so never at
that value. -/
theorem first_word_behind_label {source : String} {placed encoded : State}
    (assembled : Assembles source placed encoded) (quiet : placed.diagnostics = []) :
    placed.entries.map Entry.statement = Statement.body (Statement.all source) ∧
      encoded.object = placed.entries.flatMap (Entry.words placed.symbols) ∧
      ∀ entry ∈ placed.entries, ∀ name, entry.statement.symbol? = some name →
        ∀ first others, entry.words placed.symbols = first :: others →
          ∃ value, placed.symbols.find? name = some value ∧
            first.address = value + 2 * (others.length + 1) ∧
            first.address ≠ value := by
  refine ⟨assembled.entries_eq quiet, assembled.object_eq, ?_⟩
  intro entry member name label first others emitted
  obtain ⟨operation, known⟩ := assembled.known quiet entry member
  have coded : operation ≠ .reserving := by
    intro reserving
    rw [reserving] at known
    rw [(Entry.words_of_reserving known).1] at emitted
    cases emitted
  obtain ⟨count, addresses, counted, room⟩ :=
    Entry.words_addresses known coded (assembled.unfaulty entry member)
  rw [emitted, List.map_cons, List.cons.injEq] at addresses
  rw [emitted, List.length_cons] at counted
  have location : first.address = entry.location := addresses.1
  refine ⟨entry.location - entry.room, assembled.labelsBound entry member name label, ?_, ?_⟩
  · rw [location, room]
    omega
  · rw [location, room]
    omega

/-- A label in front of an immediate move: its value is 256, the first word
stands at 260. -/
theorem first_word_behind_label_immediate :
    let source := "START 100\nL: MOV #12, R4\nEND"
    let placed := (State.fresh.layout source).state
    Assembles source placed placed.encode.1 ∧ placed.diagnostics = [] ∧
      ∃ entry ∈ placed.entries, entry.statement.symbol? = some "L" ∧
        ∃ first others, entry.words placed.symbols = first :: others ∧
          ∃ value, placed.symbols.find? "L" = some value ∧ value = 0x100 ∧
            first.address = value + 4 ∧ first.address ≠ value := by
  intro source placed
  have assembled : Assembles source placed placed.encode.1 :=
    Assembles.ofSource (by decide) (by decide)
  have quiet : placed.diagnostics = [] := by decide
  let entry : Entry :=
    { label := some "L", opcode := "MOV", operand := some "#12, R4", location := 0x104 }
  have member : entry ∈ placed.entries := by decide
  have emitted : entry.words placed.symbols =
      [{ address := 0x104, code := 0x4034 }, { address := 0x106, code := 0x12 }] := by decide
  have bound : placed.symbols.find? "L" = some 0x100 := by decide
  obtain ⟨value, found, behind, different⟩ :=
    (first_word_behind_label assembled quiet).2.2 entry member "L" (by decide) _ _ emitted
  rw [bound] at found
  exact ⟨assembled, quiet, entry, member, by decide, _, _, emitted, value, by rw [bound, found],
    (Option.some.inj found).symm, behind, different⟩

/-! ### Distinct addresses -/

/-- The addresses of all words of entries. -/
def addresses (symbols : SymbolTable) (entries : List Entry) : List Int :=
  (entries.flatMap (Entry.words symbols)).map ObjectWord.address

/-- Two neighbours whose words do not meet: the second is not a single word right
behind an operand word. -/
def Apart (symbols : SymbolTable) (first second : Entry) : Prop :=
  ¬ ((first.words symbols).length = 2 ∧ (second.words symbols).length = 1)

instance (symbols : SymbolTable) (first second : Entry) :
    Decidable (Apart symbols first second) :=
  inferInstanceAs (Decidable (¬ _))

/-- An entry whose operation is known and that can be encoded. -/
structure Entry.Sound (symbols : SymbolTable) (entry : Entry) : Prop where
  known : ∃ operation, Operation.ofName? entry.opcode = some operation
  unfaulty : (entry.emit symbols).fault = none

section Addresses

variable {symbols : SymbolTable}

theorem addresses_cons (entry : Entry) (others : List Entry) :
    addresses symbols (entry :: others) =
      (entry.words symbols).map ObjectWord.address ++ addresses symbols others := by
  unfold addresses
  rw [List.flatMap_cons, List.map_append]

/-- A sound entry either reserves two bytes for nothing or two for each word. -/
theorem Entry.Sound.cases {entry : Entry} (sound : entry.Sound symbols) :
    (entry.words symbols = [] ∧ entry.room = 2) ∨
      ∃ count : Nat,
        (entry.words symbols).map ObjectWord.address =
            entry.location :: List.replicate count (entry.location + 2) ∧
          (entry.words symbols).length = count + 1 ∧
          entry.room = 2 * (count + 1) := by
  obtain ⟨operation, known⟩ := sound.known
  by_cases coded : operation = .reserving
  · subst operation
    exact Or.inl (Entry.words_of_reserving known)
  · exact Or.inr (Entry.words_addresses known coded sound.unfaulty)

theorem Entry.Sound.room_pos {entry : Entry} (sound : entry.Sound symbols) :
    2 ≤ entry.room := by
  rcases sound.cases with ⟨_, room⟩ | ⟨count, _, _, room⟩
  · omega
  · omega

theorem Entry.Sound.location_le {entry : Entry} (sound : entry.Sound symbols) {address : Int}
    (member : address ∈ (entry.words symbols).map ObjectWord.address) :
    entry.location ≤ address := by
  rcases sound.cases with ⟨nothing, _⟩ | ⟨count, own, _, _⟩
  · rw [nothing] at member
    cases member
  · rw [own] at member
    rcases List.mem_cons.mp member with same | operand
    · omega
    · have above := List.eq_of_mem_replicate operand
      omega

/-- Words of consecutive entries lie at least one word above the base. -/
theorem addresses_above {base final : Int} {entries : List Entry}
    (placed : Consecutive base entries final) (sound : ∀ entry ∈ entries, entry.Sound symbols) :
    ∀ address ∈ addresses symbols entries, base + 2 ≤ address := by
  induction entries generalizing base with
  | nil =>
      intro address member
      cases member
  | cons entry others inductionHypothesis =>
      intro address member
      have entrySound := sound entry List.mem_cons_self
      have room := entrySound.room_pos
      have location := placed.1
      rw [addresses_cons] at member
      rcases List.mem_append.mp member with own | later
      · have atLeast := entrySound.location_le own
        omega
      · have above := inductionHypothesis placed.2
          (fun other present => sound other (List.mem_cons_of_mem entry present)) address later
        omega

/-- The word right above the base is taken exactly by a first entry of one word. -/
theorem mem_addresses_base_iff {base final : Int} {entries : List Entry}
    (placed : Consecutive base entries final) (sound : ∀ entry ∈ entries, entry.Sound symbols) :
    base + 2 ∈ addresses symbols entries ↔
      ∃ entry ∈ entries.head?, (entry.words symbols).length = 1 := by
  cases entries with
  | nil =>
      simp [addresses]
  | cons entry others =>
      have entrySound := sound entry List.mem_cons_self
      have location := placed.1
      have later : base + 2 ∉ addresses symbols others := by
        intro member
        have above := addresses_above placed.2
          (fun other present => sound other (List.mem_cons_of_mem entry present)) _ member
        have room := entrySound.room_pos
        omega
      rw [addresses_cons, List.mem_append, or_iff_left later]
      simp only [List.head?_cons, Option.mem_some_iff, exists_eq_left']
      constructor
      · intro own
        have atLeast := entrySound.location_le own
        rcases entrySound.cases with ⟨nothing, _⟩ | ⟨count, _, counted, room⟩
        · rw [nothing] at own
          cases own
        · omega
      · intro single
        rcases entrySound.cases with ⟨nothing, _⟩ | ⟨count, own, counted, room⟩
        · rw [nothing] at single
          cases single
        · rw [own]
          apply List.mem_cons.mpr
          left
          omega

/-- An entry's own words are distinct and apart from those behind it exactly when
it has at most one operand word and that one meets no single word. -/
private theorem own_distinct_iff {base final : Int} {entry : Entry} {others : List Entry}
    (placed : Consecutive base (entry :: others) final)
    (sound : ∀ other ∈ entry :: others, other.Sound symbols) :
    (((entry.words symbols).map ObjectWord.address).Nodup ∧
        ∀ address ∈ (entry.words symbols).map ObjectWord.address,
          address ∉ addresses symbols others) ↔
      (entry.words symbols).length ≤ 2 ∧ ∀ next ∈ others.head?, Apart symbols entry next := by
  have laterSound : ∀ other ∈ others, other.Sound symbols :=
    fun other present => sound other (List.mem_cons_of_mem entry present)
  have above := addresses_above placed.2 laterSound
  have meets := mem_addresses_base_iff placed.2 laterSound
  have atLocation : entry.location ∉ addresses symbols others := by
    intro member
    have bound := above _ member
    omega
  rcases (sound entry List.mem_cons_self).cases with ⟨nothing, _⟩ | ⟨count, own, counted, _⟩
  · simp [nothing, Apart]
  · rw [own, counted]
    match count with
    | 0 =>
        simp [Apart, counted, atLocation]
    | 1 =>
        rw [List.replicate_one]
        constructor
        · rintro ⟨_, free⟩
          refine ⟨Nat.le_refl 2, ?_⟩
          intro next present clash
          have taken := meets.mpr ⟨next, present, clash.2⟩
          exact free _ (List.mem_cons_of_mem _ (List.mem_singleton.mpr rfl)) taken
        · rintro ⟨_, apart⟩
          have different : entry.location ≠ entry.location + 2 := by omega
          refine ⟨by simp [different], ?_⟩
          intro address member later
          rcases List.mem_cons.mp member with same | operand
          · rw [same] at later
            exact atLocation later
          · rw [List.mem_singleton.mp operand] at later
            obtain ⟨next, present, single⟩ := meets.mp later
            exact apart next present ⟨counted, single⟩
    | further + 2 =>
        constructor
        · rintro ⟨distinct, _⟩
          rw [List.nodup_cons, List.nodup_replicate] at distinct
          omega
        · rintro ⟨small, _⟩
          omega

theorem isChain_apart_cons (entry : Entry) (others : List Entry) :
    (entry :: others).IsChain (Apart symbols) ↔
      (∀ next ∈ others.head?, Apart symbols entry next) ∧ others.IsChain (Apart symbols) := by
  cases others with
  | nil => simp
  | cons next rest => simp

theorem nodup_addresses_iff {base final : Int} {entries : List Entry}
    (placed : Consecutive base entries final) (sound : ∀ entry ∈ entries, entry.Sound symbols) :
    (addresses symbols entries).Nodup ↔
      (∀ entry ∈ entries, (entry.words symbols).length ≤ 2) ∧
        entries.IsChain (Apart symbols) := by
  induction entries generalizing base with
  | nil =>
      simp [addresses]
  | cons entry others inductionHypothesis =>
      have tail := inductionHypothesis placed.2
        (fun other present => sound other (List.mem_cons_of_mem entry present))
      have own := own_distinct_iff placed sound
      rw [addresses_cons, List.nodup_append, tail, isChain_apart_cons, List.forall_mem_cons]
      constructor
      · rintro ⟨distinct, ⟨small, chain⟩, apart⟩
        have parts := own.mp
          ⟨distinct, fun address present later => apart address present address later rfl⟩
        exact ⟨⟨parts.1, small⟩, parts.2, chain⟩
      · rintro ⟨⟨entrySmall, small⟩, apart, chain⟩
        obtain ⟨distinct, free⟩ := own.mpr ⟨entrySmall, apart⟩
        refine ⟨distinct, ⟨small, chain⟩, ?_⟩
        intro address present later laterPresent same
        rw [same] at present
        exact free later present laterPresent

end Addresses

/-- The addresses of the object code are distinct exactly when no statement has
two operand words and none with an operand word is followed directly by a
statement of a single word. -/
theorem object_addresses_nodup_iff {source : String} {placed encoded : State}
    (assembled : Assembles source placed encoded) (quiet : placed.diagnostics = [])
    (startFirst : ∀ statement ∈ (Statement.all source).tail, statement.opcode ≠ "START") :
    (encoded.object.map ObjectWord.address).Nodup ↔
      (∀ entry ∈ placed.entries, (entry.words placed.symbols).length ≤ 2) ∧
        placed.entries.IsChain (Apart placed.symbols) := by
  rw [assembled.object_eq]
  apply nodup_addresses_iff (assembled.filled startFirst)
  intro entry member
  exact
    { known := assembled.known quiet entry member
      unfaulty := assembled.unfaulty entry member }

/-- The operand word of an immediate move and the instruction word behind it share
an address; with a second immediate move in its place none is shared. -/
theorem object_addresses_nodup_iff_immediate :
    let clashing := "MOV #12, R4\nMOV R4, R5\nEND"
    let spaced := "MOV #12, R4\nMOV #13, R5\nEND"
    let placed := (State.fresh.layout clashing).state
    let other := (State.fresh.layout spaced).state
    (Assembles clashing placed placed.encode.1 ∧ placed.diagnostics = [] ∧
      (∀ statement ∈ (Statement.all clashing).tail, statement.opcode ≠ "START") ∧
      ¬ (placed.encode.1.object.map ObjectWord.address).Nodup) ∧
    (Assembles spaced other other.encode.1 ∧ other.diagnostics = [] ∧
      (∀ statement ∈ (Statement.all spaced).tail, statement.opcode ≠ "START") ∧
      (other.encode.1.object.map ObjectWord.address).Nodup) := by
  intro clashing spaced placed other
  constructor
  · have assembled : Assembles clashing placed placed.encode.1 :=
      Assembles.ofSource (by decide) (by decide)
    have quiet : placed.diagnostics = [] := by decide
    have startFirst :
        ∀ statement ∈ (Statement.all clashing).tail, statement.opcode ≠ "START" := by
      decide
    refine ⟨assembled, quiet, startFirst, ?_⟩
    rw [object_addresses_nodup_iff assembled quiet startFirst]
    decide
  · have assembled : Assembles spaced other other.encode.1 :=
      Assembles.ofSource (by decide) (by decide)
    have quiet : other.diagnostics = [] := by decide
    have startFirst :
        ∀ statement ∈ (Statement.all spaced).tail, statement.opcode ≠ "START" := by
      decide
    refine ⟨assembled, quiet, startFirst, ?_⟩
    rw [object_addresses_nodup_iff assembled quiet startFirst]
    decide

end Assembler
end Msp430
