import Mathlib.Data.List.Nodup
import Msp430.Proofs.Contributions
import Msp430.Proofs.ObjectFiles

/-!
Overlapping words in the extended dialect.  A statement moves the counter by two bytes whether
or not an operand brings a word along, so the word of an operand has the address of the next
statement.  Main statement: in a text without errors whose `START`, if any, comes first, the
object lines have different addresses exactly if no statement but the last brings a word
along.
-/

namespace Msp430
namespace Dialect

/-! ### Statements two bytes apart -/

def Content.isStart : Content → Bool
  | .start _ => true
  | _ => false

/-- What the lines up to the end ask for, blank ones left out. -/
def Line.asked : List Line → List Content
  | [] => []
  | line :: others =>
      (if line.content = .blank then [] else [line.content]) ++
        if line.content = .final then [] else asked others

/-- There is at most one `START`, and nothing but labels in front of it. -/
def StartsFirst (lines : List Line) : Prop :=
  ∀ content ∈ (Line.asked lines).tail, content.isStart = false

/-- From an address on, each statement stands two bytes behind the one before it. -/
def Adjacent (address : Int) : List Statement → Prop
  | [] => True
  | statement :: others => statement.address = address ∧ Adjacent (address + 2) others

theorem adjacent_of_unstarted {lines : List Line}
    (unstarted : ∀ content ∈ Line.asked lines, content.isStart = false) (counter : Int) :
    Adjacent counter (Line.statements counter lines) := by
  induction lines generalizing counter with
  | nil => trivial
  | cons line others inductionHypothesis =>
      rw [Line.asked] at unstarted
      rw [Line.statements]
      cases content : line.content with
      | blank =>
          rw [content] at unstarted
          exact inductionHypothesis unstarted counter
      | start operand =>
          rw [content] at unstarted
          cases unstarted (.start operand) List.mem_cons_self
      | final => trivial
      | statement command operands =>
          rw [content] at unstarted
          exact ⟨rfl, inductionHypothesis (List.forall_mem_cons.mp unstarted).2 (counter + 2)⟩

theorem StartsFirst.exists_adjacent {lines : List Line} (first : StartsFirst lines)
    (counter : Int) : ∃ base, Adjacent base (Line.statements counter lines) := by
  induction lines generalizing counter with
  | nil => exact ⟨counter, trivial⟩
  | cons line others inductionHypothesis =>
      unfold StartsFirst at first inductionHypothesis
      rw [Line.asked] at first
      rw [Line.statements]
      cases content : line.content with
      | blank =>
          rw [content] at first
          exact inductionHypothesis first counter
      | start operand =>
          rw [content] at first
          exact ⟨_, adjacent_of_unstarted first _⟩
      | final => exact ⟨counter, trivial⟩
      | statement command operands =>
          rw [content] at first
          exact ⟨counter, rfl, adjacent_of_unstarted first (counter + 2)⟩

namespace Extended

/-! ### Words of adjacent statements -/

def addressesFrom (address : Int) (codes : List Int) : List Int :=
  (locate address codes).map ObjectWord.address

theorem addressesFrom_above {address : Int} {codes : List Int} :
    ∀ taken ∈ addressesFrom address codes, address ≤ taken := by
  induction codes generalizing address with
  | nil => exact nofun
  | cons code others inductionHypothesis =>
      refine List.forall_mem_cons.mpr ⟨Int.le_refl address, fun taken member => ?_⟩
      have above := inductionHypothesis taken member
      omega

theorem nodup_addressesFrom (address : Int) (codes : List Int) :
    (addressesFrom address codes).Nodup := by
  induction codes generalizing address with
  | nil => exact List.nodup_nil
  | cons code others inductionHypothesis =>
      refine List.nodup_cons.mpr ⟨fun member => ?_, inductionHypothesis (address + 2)⟩
      have above := addressesFrom_above address member
      omega

section Codes

variable {codes : Statement → List Int} {base : Int} {statements : List Statement}

/-- The addresses of words, each statement given its codes. -/
def wordAddresses (codes : Statement → List Int) (statements : List Statement) : List Int :=
  statements.flatMap (fun statement => addressesFrom statement.address (codes statement))

theorem wordAddresses_above (adjacent : Adjacent base statements) :
    ∀ taken ∈ wordAddresses codes statements, base ≤ taken := by
  induction statements generalizing base with
  | nil => exact nofun
  | cons statement others inductionHypothesis =>
      obtain ⟨placed, later⟩ := adjacent
      intro taken member
      rcases List.mem_append.mp member with own | behind
      · have above := addressesFrom_above taken own
        omega
      · have above := inductionHypothesis later taken behind
        omega

/-- The first address is taken by the first statement. -/
theorem base_mem_wordAddresses {statement : Statement}
    (adjacent : Adjacent base (statement :: statements)) (coded : codes statement ≠ []) :
    base ∈ wordAddresses codes (statement :: statements) := by
  obtain ⟨code, others, same⟩ := List.exists_cons_of_ne_nil coded
  have own : base ∈ addressesFrom statement.address (codes statement) := by
    rw [same, adjacent.1]
    exact List.mem_cons_self
  exact List.mem_append_left _ own

/-- The words of a statement and those behind it meet exactly if it has a second word and is
not the last statement. -/
theorem disjoint_behind_iff {statement : Statement}
    (adjacent : Adjacent base (statement :: statements))
    (coded : ∀ other ∈ statement :: statements, codes other ≠ []) :
    (∀ taken ∈ addressesFrom statement.address (codes statement),
        taken ∉ wordAddresses codes statements) ↔
      statements = [] ∨ (codes statement).length = 1 := by
  obtain ⟨placed, later⟩ := adjacent
  obtain ⟨own, coded⟩ := List.forall_mem_cons.mp coded
  obtain ⟨first, further, spelled⟩ := List.exists_cons_of_ne_nil own
  have free : statement.address ∉ wordAddresses codes statements := by
    intro member
    have above := wordAddresses_above later _ member
    omega
  rw [spelled]
  cases further with
  | nil => exact iff_of_true (List.forall_mem_singleton.mpr free) (Or.inr rfl)
  | cons second others =>
      cases statements with
      | nil => exact iff_of_true (fun _taken _member => List.not_mem_nil) (Or.inl rfl)
      | cons next rest =>
          refine iff_of_false (fun apart => ?_) (by simp)
          have meets := base_mem_wordAddresses later (coded next List.mem_cons_self)
          rw [← placed] at meets
          exact apart _ (List.mem_cons_of_mem _ List.mem_cons_self) meets

theorem nodup_wordAddresses_iff (adjacent : Adjacent base statements)
    (coded : ∀ statement ∈ statements, codes statement ≠ []) :
    (wordAddresses codes statements).Nodup ↔
      ∀ statement ∈ statements.dropLast, (codes statement).length = 1 := by
  induction statements generalizing base with
  | nil => exact iff_of_true List.nodup_nil nofun
  | cons statement others inductionHypothesis =>
      have apart := disjoint_behind_iff adjacent coded
      have tail := inductionHypothesis adjacent.2 (List.forall_mem_cons.mp coded).2
      have split : (wordAddresses codes (statement :: others)).Nodup ↔
          (others = [] ∨ (codes statement).length = 1) ∧
            (wordAddresses codes others).Nodup := by
        rw [← apart]
        change (addressesFrom _ _ ++ wordAddresses codes others).Nodup ↔ _
        rw [List.nodup_append]
        constructor
        · rintro ⟨_own, later, different⟩
          exact ⟨fun taken own behind => different taken own taken behind rfl, later⟩
        · rintro ⟨free, later⟩
          refine ⟨nodup_addressesFrom _ _, later, ?_⟩
          rintro taken own _other behind rfl
          exact free taken own behind
      rw [split, tail]
      cases others with
      | nil => exact iff_of_true ⟨Or.inl rfl, nofun⟩ nofun
      | cons next rest =>
          rw [List.dropLast_cons_cons, List.forall_mem_cons]
          exact and_congr_left' (or_iff_right (List.cons_ne_nil next rest))

end Codes

/-! ### Operands that bring a word -/

def Command.takesOperand : Command → Bool
  | .dual _ => true
  | .single _ => true
  | _ => false

/-- The last operand is no register although the command is no jump: it is a number or a
symbol, unless the statement is wrong. -/
def bringsWord (statement : Statement) : Bool :=
  (command? statement.command).any Command.takesOperand &&
    statement.operands.getLast?.any (fun text => (Register.ofFullName? text).isNone)

theorem unmarked_of_ofFullName? {text : String} {register : Register}
    (named : Register.ofFullName? text = some register) : text.toList.head? ≠ some '#' := by
  unfold Register.ofFullName? at named
  split at named
  case h_5 =>
    unfold Register.ofNumberedName? at named
    split at named
    case h_17 => cases named
    all_goals decide
  all_goals decide

theorem operand_length {symbols : SymbolTable} {unknown : Complaint} {text : String}
    {found : Operand} (read : operand symbols unknown text = .ok found) :
    found.words.length = if (Register.ofFullName? text).isNone then 1 else 0 := by
  unfold operand at read
  split at read
  · next rest marked =>
      have unnamed : Register.ofFullName? text = none := by
        cases named : Register.ofFullName? text with
        | none => rfl
        | some register =>
            have unmarked := unmarked_of_ofFullName? named
            rw [marked] at unmarked
            exact absurd rfl unmarked
      rw [unnamed]
      split at read
      · cases read
        rfl
      · cases read
  · split at read
    · next register named =>
        cases read
        rw [named]
        rfl
    · next unnamed =>
        rw [unnamed]
        split at read
        · cases read
          rfl
        · cases read

theorem encode_length {symbols : SymbolTable} {statement : Statement} {codes : List Int}
    (encoded : encode symbols statement = .ok codes) :
    codes.length = if bringsWord statement then 2 else 1 := by
  unfold encode at encoded
  unfold bringsWord
  dsimp only at encoded
  split at encoded
  · cases encoded
  -- two operands
  · next nibble known =>
      split at encoded
      · next destination source given =>
          split at encoded
          · cases encoded
          · split at encoded
            · cases encoded
            · next found read =>
                have brought := operand_length read
                cases encoded
                rw [known, given, List.length_cons, brought]
                cases named : Register.ofFullName? source <;> simp [named, Command.takesOperand]
      · cases encoded
  -- one operand
  · next nibble known =>
      split at encoded
      · next text given =>
          split at encoded
          · cases encoded
          · next found read =>
              have brought := operand_length read
              cases encoded
              rw [known, given, List.length_cons, brought]
              cases named : Register.ofFullName? text <;> simp [named, Command.takesOperand]
      · cases encoded
  -- a jump
  · next condition known =>
      rw [known]
      split at encoded
      · next text given =>
          cases jumped : jump symbols statement.command condition text statement.address with
          | ok word =>
              rw [jumped] at encoded
              cases encoded
              rfl
          | error complaint =>
              rw [jumped] at encoded
              cases encoded
      · cases encoded
  -- no operand
  · next nibble known =>
      rw [known]
      split at encoded <;> cases encoded
      rfl

/-! ### Object lines -/

/-- What an object line has in front of its mark. -/
def lineAddress (line : String) : List Char :=
  Text.before ':' line.toList

theorem lineAddress_line (word : ObjectWord) :
    lineAddress word.line = (Numeral.hex word.address).toList := by
  have spelled : word.line.toList =
      (Numeral.hex word.address).toList ++ ':' :: ' ' :: (Numeral.hex word.code).toList := by
    unfold ObjectWord.line
    simp
  unfold lineAddress
  rw [spelled, Text.before_append (Numeral.colon_not_mem_hex word.address)]
  exact List.append_nil _

theorem nodup_lineAddress_iff (words : List ObjectWord) :
    ((words.map ObjectWord.line).map lineAddress).Nodup ↔
      (words.map ObjectWord.address).Nodup := by
  have shown : lineAddress ∘ ObjectWord.line =
      (fun address => (Numeral.hex address).toList) ∘ ObjectWord.address :=
    funext lineAddress_line
  have injective : Function.Injective (fun address => (Numeral.hex address).toList) := by
    intro first second same
    have read := Numeral.hex?_hex first
    rw [String.toList_inj.mp same, Numeral.hex?_hex] at read
    exact (Option.some.inj read).symm
  rw [List.map_map, shown, ← List.map_map, List.nodup_map_iff injective]

def codesOf (symbols : SymbolTable) (statement : Statement) : List Int :=
  match encode symbols statement with
  | .ok codes => codes
  | .error _ => []

theorem words_encoder (symbols : SymbolTable) (statement : Statement) :
    (encoder symbols).words statement =
      locate statement.address (codesOf symbols statement) := by
  unfold Encoder.words encoder codesOf
  cases encode symbols statement <;> rfl

theorem assemble_addresses (source : String) :
    ((assemble source).object.map lineAddress).Nodup ↔
      (wordAddresses (codesOf (assemble source).symbols)
        (Line.statements 0 (Line.all source))).Nodup := by
  have shows := (Listing.ofSource source).shows_assemble encoder
  rw [← assemble_eq] at shows
  rw [shows.object, shows.symbols, nodup_lineAddress_iff, List.map_flatMap,
    Listing.ofSource_statements]
  unfold wordAddresses addressesFrom
  simp only [words_encoder]

/-- Without errors every statement has words, two of them if it brings one along. -/
theorem length_codesOf_of_clean {source : String} (clean : (assemble source).errors = []) :
    ∀ statement ∈ Line.statements 0 (Line.all source),
      (codesOf (assemble source).symbols statement).length =
        if bringsWord statement then 2 else 1 := by
  intro statement member
  have errors := (collects_assemble source).errors
  rw [clean] at errors
  obtain ⟨_reading, nothing⟩ := List.append_eq_nil_iff.mp errors.symm
  have accepted := List.flatMap_eq_nil_iff.mp nothing _ (List.mem_map_of_mem member)
  unfold codesOf
  cases encoded : encode (assemble source).symbols statement with
  | ok codes => exact encode_length encoded
  | error complaint =>
      unfold Encoder.contribution Encoder.complaints encoder at accepted
      rw [encoded] at accepted
      cases accepted

/-- In a text without errors whose `START`, if any, comes first, the object lines have
different addresses exactly if no statement but the last brings a word along. -/
theorem object_lines_apart_iff {source : String} (first : StartsFirst (Line.all source))
    (clean : (assemble source).errors = []) :
    ((assemble source).object.map lineAddress).Nodup ↔
      ∀ statement ∈ (Line.statements 0 (Line.all source)).dropLast,
        bringsWord statement = false := by
  have length := length_codesOf_of_clean clean
  have coded : ∀ statement ∈ Line.statements 0 (Line.all source),
      codesOf (assemble source).symbols statement ≠ [] := by
    intro statement member nothing
    have counted := length statement member
    rw [nothing] at counted
    split at counted <;> cases counted
  obtain ⟨base, adjacent⟩ := first.exists_adjacent 0
  rw [assemble_addresses, nodup_wordAddresses_iff adjacent coded]
  refine forall₂_congr (fun statement member => ?_)
  rw [length statement (List.dropLast_subset _ member)]
  cases bringsWord statement <;> simp

/-- The number of a move and the instruction behind it share an address; with the move at the
end no address is shared. -/
theorem object_lines_apart_iff_immediate :
    let clashing := "START 4400\nMOV R5, #1\nRET"
    let spaced := "L: START 4400\nRET\nMOV R5, L\nEND"
    (StartsFirst (Line.all clashing) ∧ (assemble clashing).errors = [] ∧
      ¬ ((assemble clashing).object.map lineAddress).Nodup) ∧
    (StartsFirst (Line.all spaced) ∧ (assemble spaced).errors = [] ∧
      ((assemble spaced).object.map lineAddress).Nodup) := by
  intro clashing spaced
  constructor
  · have first : StartsFirst (Line.all clashing) := by
      unfold StartsFirst
      decide
    have clean : (assemble clashing).errors = [] := by
      decide
    refine ⟨first, clean, ?_⟩
    rw [object_lines_apart_iff first clean]
    decide
  · have first : StartsFirst (Line.all spaced) := by
      unfold StartsFirst
      decide
    have clean : (assemble spaced).errors = [] := by
      decide
    refine ⟨first, clean, ?_⟩
    rw [object_lines_apart_iff first clean]
    decide

end Extended
end Dialect
end Msp430
