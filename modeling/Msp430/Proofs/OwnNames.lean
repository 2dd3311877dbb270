import Msp430.Disassembler.Draft

/-!
Own names read backwards.  A two-operand instruction that is shown under a name of its own
can be spelled out again: the name stands for an operation and for the operands it leaves
out.  `DualInstruction.origin?_shown` says what is found in this way; only two names, of a move that
does nothing and of a branch, do not tell whether there was an extension word.  Main
statement: without extension words no two instructions are shown alike.
-/

namespace Msp430
namespace Disassembler

def dualMnemonics : List String :=
  (List.range' 4 12).map dualOperation

theorem dualOperation_mem (code : Nat) : dualOperation code ∈ dualMnemonics := by
  unfold dualOperation
  split <;> decide

/-- A two-operand instruction before a name of its own is put in. -/
structure DualInstruction where
  operation : String
  extended : Bool
  size : String
  source : String
  destination : String
  known : operation ∈ dualMnemonics

/-- What a shown instruction tells about the operation and the operands behind it; the
extension is unknown where the name is the same with and without one. -/
structure Origin where
  operation : String
  extended : Option Bool
  source : String
  destination : String
  deriving DecidableEq

/-- A mnemonic without the mark of an extension word, and whether it had one. -/
def unmarked (mnemonic : String) : String × Bool :=
  if mnemonic.toList.getLast? = some 'x' then
    (String.ofList mnemonic.toList.dropLast, true)
  else (mnemonic, false)

namespace Instruction

/-- The operation and the source that a name with one operand stands for. -/
def impliedSource? : String → Option (String × String)
  | "inc" => some ("add", "#1")
  | "incd" => some ("add", "#2")
  | "adc" => some ("addc", "#0")
  | "dadc" => some ("dadd", "#0")
  | "dec" => some ("sub", "#1")
  | "decd" => some ("sub", "#2")
  | "sbc" => some ("subc", "#0")
  | "inv" => some ("xor", "#-1")
  | "clr" => some ("mov", "#0")
  | "pop" => some ("mov", "@SP+")
  | "tst" => some ("cmp", "#0")
  | _ => none

/-- The operation and the source that a name without operands stands for where its
destination is the status register. -/
def impliedBit? : String → Option (String × String)
  | "dint" => some ("bic", "#8")
  | "clrc" => some ("bic", "#1")
  | "clrn" => some ("bic", "#4")
  | "clrz" => some ("bic", "#2")
  | "eint" => some ("bis", "#8")
  | "setc" => some ("bis", "#1")
  | "setn" => some ("bis", "#4")
  | "setz" => some ("bis", "#2")
  | _ => none

/-- Spell out what a mnemonic and the operands that are shown with it stand for. -/
def spellOut? (mnemonic : String) (extended : Bool) (source destination : Option String) :
    Option Origin :=
  match source, destination with
  | some source, some destination => some ⟨mnemonic, some extended, source, destination⟩
  | none, some operand =>
      match mnemonic with
      | "rla" => some ⟨"add", some extended, operand, operand⟩
      | "rlc" => some ⟨"addc", some extended, operand, operand⟩
      | "br" => some ⟨"mov", none, operand, "PC"⟩
      | _ =>
          (impliedSource? mnemonic).map (fun implied =>
            ⟨implied.1, some extended, implied.2, operand⟩)
  | none, none =>
      match mnemonic with
      | "nop" => some ⟨"mov", none, "#0", "R3"⟩
      | "ret" => some ⟨"mov", some extended, "@SP+", "PC"⟩
      | _ =>
          (impliedBit? mnemonic).map (fun implied =>
            ⟨implied.1, some extended, implied.2, "SR"⟩)
  | some _, none => none

def origin? (instruction : Instruction) : Option Origin :=
  let (mnemonic, extended) := unmarked instruction.name
  spellOut? mnemonic extended instruction.source instruction.destination

end Instruction

def mark (extended : Bool) : String :=
  if extended then "x" else ""

theorem unmarked_append_mark {mnemonic : String} (plain : mnemonic.toList.getLast? ≠ some 'x')
    (extended : Bool) : unmarked (mnemonic ++ mark extended) = (mnemonic, extended) := by
  unfold unmarked
  cases extended with
  | false =>
      have same : mnemonic ++ mark false = mnemonic := String.append_empty
      rw [same, if_neg plain]
  | true =>
      have spelled : (mnemonic ++ mark true).toList = mnemonic.toList ++ ['x'] :=
        String.toList_append
      rw [spelled, if_pos List.getLast?_concat, List.dropLast_concat, String.ofList_toList]

theorem origin?_marked {mnemonic : String} (plain : mnemonic.toList.getLast? ≠ some 'x')
    (extended : Bool) (size : String) (source destination : Option String) :
    Instruction.origin?
        { name := mnemonic ++ mark extended
          size := size
          source := source
          destination := destination } =
      Instruction.spellOut? mnemonic extended source destination := by
  unfold Instruction.origin?
  rw [unmarked_append_mark plain]

namespace DualInstruction

def name (dual : DualInstruction) : String :=
  dual.operation ++ mark dual.extended

def spelled (dual : DualInstruction) : Instruction :=
  { name := dual.name
    size := dual.size
    source := some dual.source
    destination := some dual.destination }

def shown (dual : DualInstruction) : Instruction :=
  dual.spelled.underOwnName

/-- A move that does nothing and a branch have one name with and without an extension
word. -/
def HidesExtension (dual : DualInstruction) : Prop :=
  dual.operation = "mov" ∧
    (dual.source = "#0" ∧ dual.destination = "R3" ∨
      dual.source ≠ "#0" ∧ dual.source ≠ "@SP+" ∧ dual.destination = "PC")

instance (dual : DualInstruction) : Decidable dual.HidesExtension :=
  inferInstanceAs (Decidable (dual.operation = "mov" ∧
    (dual.source = "#0" ∧ dual.destination = "R3" ∨
      dual.source ≠ "#0" ∧ dual.source ≠ "@SP+" ∧ dual.destination = "PC")))

def origin (dual : DualInstruction) : Origin :=
  { operation := dual.operation
    extended := if dual.HidesExtension then none else some dual.extended
    source := dual.source
    destination := dual.destination }

theorem origin_of_hidden {dual : DualInstruction} (hidden : dual.HidesExtension) :
    dual.origin = ⟨dual.operation, none, dual.source, dual.destination⟩ := by
  unfold origin
  rw [if_pos hidden]

theorem origin_of_told {dual : DualInstruction} (told : ¬ dual.HidesExtension) :
    dual.origin = ⟨dual.operation, some dual.extended, dual.source, dual.destination⟩ := by
  unfold origin
  rw [if_neg told]

end DualInstruction

/-! ### The families of names -/

/-- What the search for an own name has to give for its result to tell an origin: a name
from which the origin is read back, or no name where the mnemonic itself tells all. -/
def Origin.ToldBy (origin : Origin) : Option (String × Option String) → Prop
  | none => origin.extended ≠ none
  | some (own, operand) =>
      ∀ size, Instruction.origin?
        { name := own, size := size, source := none, destination := operand } = some origin

theorem Origin.toldBy_marked {origin : Origin} {own : String} {operand : Option String}
    {extended : Bool} (plain : own.toList.getLast? ≠ some 'x')
    (read : Instruction.spellOut? own extended none operand = some origin) :
    origin.ToldBy (some (own ++ mark extended, operand)) :=
  fun size => (origin?_marked plain extended size none operand).trans read

theorem Origin.toldBy_unmarked {origin : Origin} {own : String} {operand : Option String}
    (plain : own.toList.getLast? ≠ some 'x')
    (read : Instruction.spellOut? own false none operand = some origin) :
    origin.ToldBy (some (own, operand)) := by
  have told := Origin.toldBy_marked plain read
  rwa [show own ++ mark false = own from String.append_empty] at told

section Families

open Instruction.ownName? DualInstruction

variable (extended : Bool) (source destination : String)

theorem toldBy_implied {operation implied own : String}
    {others : Option (String × Option String)} (plain : own.toList.getLast? ≠ some 'x')
    (read : Instruction.spellOut? own extended none (some destination) =
      some ⟨operation, some extended, implied, destination⟩)
    (elsewhere : Origin.ToldBy ⟨operation, some extended, source, destination⟩ others) :
    Origin.ToldBy ⟨operation, some extended, source, destination⟩
      (if some source = some implied then some (own ++ mark extended, some destination)
        else others) := by
  split
  · next same =>
      cases same
      exact Origin.toldBy_marked plain read
  · exact elsewhere

theorem toldBy_doubled {operation own : String} (plain : own.toList.getLast? ≠ some 'x')
    (read : Instruction.spellOut? own extended none (some destination) =
      some ⟨operation, some extended, destination, destination⟩) :
    Origin.ToldBy ⟨operation, some extended, source, destination⟩
      (if some source = some destination then some (own ++ mark extended, some destination)
        else none) := by
  split
  · next same =>
      cases same
      exact Origin.toldBy_marked plain read
  · exact nofun

theorem toldBy_bySource {operation implied own : String}
    (plain : own.toList.getLast? ≠ some 'x')
    (read : Instruction.spellOut? own extended none (some destination) =
      some ⟨operation, some extended, implied, destination⟩) :
    Origin.ToldBy ⟨operation, some extended, source, destination⟩
      (bySource (some source) (some destination) implied (own ++ mark extended)) :=
  toldBy_implied extended source destination plain read nofun

theorem toldBy_additive :
    Origin.ToldBy ⟨"add", some extended, source, destination⟩
      (additive (some source) (some destination) (mark extended)) := by
  unfold additive
  refine toldBy_implied extended source destination (by decide) rfl ?_
  refine toldBy_implied extended source destination (by decide) rfl ?_
  exact toldBy_doubled extended source destination (by decide) rfl

theorem toldBy_carrying :
    Origin.ToldBy ⟨"addc", some extended, source, destination⟩
      (carrying (some source) (some destination) (mark extended)) := by
  unfold carrying
  refine toldBy_implied extended source destination (by decide) rfl ?_
  exact toldBy_doubled extended source destination (by decide) rfl

theorem toldBy_subtractive :
    Origin.ToldBy ⟨"sub", some extended, source, destination⟩
      (subtractive (some source) (some destination) (mark extended)) := by
  unfold subtractive
  refine toldBy_implied extended source destination (by decide) rfl ?_
  exact toldBy_implied extended source destination (by decide) rfl nofun

theorem toldBy_bit {operation implied own : String} {others : Option (String × Option String)}
    (plain : own.toList.getLast? ≠ some 'x')
    (read : Instruction.spellOut? own false none none =
      some ⟨operation, some false, implied, "SR"⟩)
    (elsewhere : Origin.ToldBy ⟨operation, some false, source, "SR"⟩ others) :
    Origin.ToldBy ⟨operation, some false, source, "SR"⟩
      (if some source = some implied then some (own, none) else others) := by
  split
  · next same =>
      cases same
      exact Origin.toldBy_unmarked plain read
  · exact elsewhere

/-- The names of the status bits have no mark: they are not used with an extension word. -/
theorem toldBy_status {operation interrupt carry negative zero : String}
    (read : ∀ bit ∈ [("#8", interrupt), ("#1", carry), ("#4", negative), ("#2", zero)],
      bit.2.toList.getLast? ≠ some 'x' ∧
        Instruction.spellOut? bit.2 false none none =
          some ⟨operation, some false, bit.1, "SR"⟩) :
    Origin.ToldBy ⟨operation, some false, source, destination⟩
      (status (some source) (some destination) interrupt carry negative zero) := by
  simp only [List.forall_mem_cons] at read
  obtain ⟨⟨plain8, read8⟩, ⟨plain1, read1⟩, ⟨plain4, read4⟩, ⟨plain2, read2⟩, _⟩ := read
  unfold status
  split
  · next register =>
      cases register
      refine toldBy_bit source plain8 read8 ?_
      refine toldBy_bit source plain1 read1 ?_
      refine toldBy_bit source plain4 read4 ?_
      exact toldBy_bit source plain2 read2 nofun
  · exact nofun

theorem toldBy_moving {dual : DualInstruction} (move : dual.operation = "mov") :
    dual.origin.ToldBy
      (moving (some dual.source) (some dual.destination) (mark dual.extended)) := by
  obtain ⟨operation, extended, size, source, destination, known⟩ := dual
  cases move
  unfold moving
  split
  · next zero =>
      cases zero
      split
      · next register =>
          cases register
          exact Origin.toldBy_unmarked (by decide) rfl
      · next other =>
          have told : ¬ HidesExtension ⟨"mov", extended, size, "#0", destination, known⟩ := by
            simp_all [HidesExtension]
          rw [origin_of_told told]
          exact Origin.toldBy_marked (by decide) rfl
  · next nonzero =>
      split
      · next popped =>
          cases popped
          have told : ¬ HidesExtension ⟨"mov", extended, size, "@SP+", destination, known⟩ := by
            simp [HidesExtension]
          rw [origin_of_told told]
          split
          · next counter =>
              cases counter
              exact Origin.toldBy_marked (by decide) rfl
          · exact Origin.toldBy_marked (by decide) rfl
      · next unpopped =>
          split
          · next counter =>
              cases counter
              have hidden : HidesExtension ⟨"mov", extended, size, source, "PC", known⟩ := by
                simp_all [HidesExtension]
              rw [origin_of_hidden hidden]
              exact Origin.toldBy_unmarked (by decide) rfl
          · next elsewhere =>
              have told : ¬ HidesExtension ⟨"mov", extended, size, source, destination, known⟩ := by
                simp_all [HidesExtension]
              rw [origin_of_told told]
              exact nofun

end Families

theorem dual_cases {operation : String} (known : operation ∈ dualMnemonics) :
    operation = "mov" ∨ operation = "add" ∨ operation = "addc" ∨ operation = "subc" ∨
      operation = "sub" ∨ operation = "cmp" ∨ operation = "dadd" ∨ operation = "bit" ∨
      operation = "bic" ∨ operation = "bis" ∨ operation = "xor" ∨ operation = "and" := by
  have listed : dualMnemonics = ["mov", "add", "addc", "subc", "sub", "cmp", "dadd", "bit",
    "bic", "bis", "xor", "and"] := rfl
  simpa only [listed, List.mem_cons, List.not_mem_nil, or_false] using known

namespace DualInstruction

theorem toldBy_ownName? (dual : DualInstruction) :
    dual.origin.ToldBy
      (Instruction.ownName? dual.name (some dual.source) (some dual.destination)) := by
  obtain ⟨operation, extended, size, source, destination, known⟩ := dual
  by_cases move : operation = "mov"
  · have moving := @toldBy_moving ⟨operation, extended, size, source, destination, known⟩ move
    cases move
    cases extended <;> exact moving
  · rw [origin_of_told (fun hidden => move hidden.1)]
    change Origin.ToldBy ⟨operation, some extended, source, destination⟩
      (Instruction.ownName? (operation ++ mark extended) (some source) (some destination))
    -- A row of the table is found by the whole name, so each case needs to know the mark.
    rcases dual_cases known with rfl | rfl | rfl | rfl | rfl | rfl | rfl | rfl | rfl | rfl |
      rfl | rfl
    · exact absurd rfl move
    · cases extended <;> exact toldBy_additive _ source destination
    · cases extended <;> exact toldBy_carrying _ source destination
    · have told := toldBy_bySource extended source destination
        (by decide : "sbc".toList.getLast? ≠ some 'x') rfl
      cases extended <;> exact told
    · cases extended <;> exact toldBy_subtractive _ source destination
    · have told := toldBy_bySource extended source destination
        (by decide : "tst".toList.getLast? ≠ some 'x') rfl
      cases extended <;> exact told
    · have told := toldBy_bySource extended source destination
        (by decide : "dadc".toList.getLast? ≠ some 'x') rfl
      cases extended <;> exact told
    · cases extended <;> exact (nofun : some _ ≠ none)
    · cases extended with
      | true => exact (nofun : some true ≠ none)
      | false =>
          have told := @toldBy_status source destination "bic" "dint" "clrc" "clrn" "clrz"
            (by decide)
          exact told
    · cases extended with
      | true => exact (nofun : some true ≠ none)
      | false =>
          have told := @toldBy_status source destination "bis" "eint" "setc" "setn" "setz"
            (by decide)
          exact told
    · have told := toldBy_bySource extended source destination
        (by decide : "inv".toList.getLast? ≠ some 'x') rfl
      cases extended <;> exact told
    · cases extended <;> exact (nofun : some _ ≠ none)

theorem shown_of_named {dual : DualInstruction} {own : String} {operand : Option String}
    (named : Instruction.ownName? dual.name (some dual.source) (some dual.destination) =
      some (own, operand)) :
    dual.shown = { name := own, size := dual.size, source := none, destination := operand } := by
  unfold shown Instruction.underOwnName spelled
  rw [named]

theorem shown_of_unnamed {dual : DualInstruction}
    (unnamed : Instruction.ownName? dual.name (some dual.source) (some dual.destination) =
      none) :
    dual.shown = dual.spelled := by
  unfold shown Instruction.underOwnName spelled
  rw [unnamed]

theorem shown_resize (dual : DualInstruction) (size : String) :
    ({ dual with size := size } : DualInstruction).shown = { dual.shown with size := size } := by
  cases named :
      Instruction.ownName? dual.name (some dual.source) (some dual.destination) with
  | some entry =>
      rw [shown_of_named named]
      exact shown_of_named named
  | none =>
      rw [shown_of_unnamed named]
      exact shown_of_unnamed named

/-- What is shown tells the operation, both operands and, but for two names, the
extension. -/
theorem origin?_shown (dual : DualInstruction) : dual.shown.origin? = some dual.origin := by
  have told := dual.toldBy_ownName?
  cases named :
      Instruction.ownName? dual.name (some dual.source) (some dual.destination) with
  | some entry =>
      rw [named] at told
      rw [shown_of_named named]
      exact told dual.size
  | none =>
      -- No operation ends like the mark, so the mark of a spelled name can be taken off.
      have plain : ∀ operation ∈ dualMnemonics, operation.toList.getLast? ≠ some 'x' := by
        decide
      have visible : ¬ dual.HidesExtension := by
        intro hidden
        rw [named, origin_of_hidden hidden] at told
        exact told rfl
      rw [shown_of_unnamed named, origin_of_told visible]
      exact origin?_marked (plain dual.operation dual.known) dual.extended dual.size
        (some dual.source) (some dual.destination)

theorem origin_eq_of_shown {first second : DualInstruction}
    (names : first.shown.name = second.shown.name)
    (sources : first.shown.source = second.shown.source)
    (destinations : first.shown.destination = second.shown.destination) :
    first.origin = second.origin := by
  have read := first.origin?_shown
  unfold Instruction.origin? at read
  rw [names, sources, destinations] at read
  exact Option.some.inj (read.symm.trans second.origin?_shown)

/-- Where the extension is not told, it makes no difference. -/
theorem shown_extend {dual : DualInstruction} (hidden : dual.HidesExtension) (extended : Bool) :
    ({ dual with extended := extended } : DualInstruction).shown = dual.shown := by
  obtain ⟨operation, earlier, size, source, destination, known⟩ := dual
  obtain ⟨move, idle | ⟨nonzero, unpopped, counter⟩⟩ := hidden
  · obtain ⟨zero, register⟩ := idle
    cases move
    cases zero
    cases register
    cases extended <;> cases earlier <;> rfl
  · cases move
    cases counter
    have branch : ∀ suffix,
        Instruction.ownName?.moving (some source) (some "PC") suffix =
          some ("br", some source) := by
      intro suffix
      unfold Instruction.ownName?.moving
      rw [if_neg (fun same => nonzero (Option.some.inj same)),
        if_neg (fun same => unpopped (Option.some.inj same)), if_pos rfl]
    have named : ∀ extended,
        Instruction.ownName? ("mov" ++ mark extended) (some source) (some "PC") =
          some ("br", some source) := by
      intro extended
      cases extended <;> exact branch _
    rw [@shown_of_named ⟨"mov", earlier, size, source, "PC", known⟩ _ _ (named earlier)]
    exact shown_of_named (named extended)

/-- Two instructions are shown under the same name with the same operands exactly where they
have the same operation and the same operands and their extensions agree or are not told. -/
theorem shown_alike_iff {first second : DualInstruction} :
    (first.shown.name = second.shown.name ∧ first.shown.source = second.shown.source ∧
        first.shown.destination = second.shown.destination) ↔
      first.operation = second.operation ∧ first.source = second.source ∧
        first.destination = second.destination ∧
        (first.extended = second.extended ∨ first.HidesExtension) := by
  constructor
  · rintro ⟨names, sources, destinations⟩
    have origins := origin_eq_of_shown names sources destinations
    refine ⟨congrArg Origin.operation origins, congrArg Origin.source origins,
      congrArg Origin.destination origins, ?_⟩
    by_cases hidden : first.HidesExtension
    · exact Or.inr hidden
    · have told : some first.extended = second.origin.extended := by
        rw [← origins, origin_of_told hidden]
      unfold origin at told
      split at told
      · cases told
      · exact Or.inl (Option.some.inj told)
  · obtain ⟨operation, extended, size, source, destination, known⟩ := second
    rintro ⟨operations, sources, destinations, extensions⟩
    cases operations
    cases sources
    cases destinations
    have extend : ({ first with extended := extended } : DualInstruction).shown = first.shown := by
      rcases extensions with same | hidden
      · cases same
        rfl
      · exact shown_extend hidden extended
    have resize := ({ first with extended := extended } : DualInstruction).shown_resize size
    rw [extend] at resize
    rw [resize]
    exact ⟨rfl, rfl, rfl⟩

def unextended {operation : String} (known : operation ∈ dualMnemonics)
    (size source destination : String) : DualInstruction :=
  { operation := operation
    extended := false
    size := size
    source := source
    destination := destination
    known := known }

theorem make_unextended {operation : String} (known : operation ∈ dualMnemonics)
    (size source destination : String) :
    Instruction.make none operation size (some source) (some destination) =
      .ok (unextended known size source destination).shown := by
  have name : (unextended known size source destination).name = operation := String.append_empty
  unfold shown spelled
  rw [name]
  rfl

end DualInstruction

/-- Two instructions without extension words are shown under the same name with the same
operands only if they have the same operation and the same operands, whatever their sizes
are. -/
theorem Instruction.make_dual_inj {first second : String} (firstKnown : first ∈ dualMnemonics)
    (secondKnown : second ∈ dualMnemonics) (firstSize secondSize : String)
    (firstSource firstDestination secondSource secondDestination : String) :
    ∃ firstShown secondShown : Instruction,
      Instruction.make none first firstSize (some firstSource) (some firstDestination) =
          .ok firstShown ∧
        Instruction.make none second secondSize (some secondSource) (some secondDestination) =
          .ok secondShown ∧
        ((firstShown.name, firstShown.source, firstShown.destination) =
            (secondShown.name, secondShown.source, secondShown.destination) ↔
          (first, firstSource, firstDestination) =
            (second, secondSource, secondDestination)) := by
  refine ⟨_, _, DualInstruction.make_unextended firstKnown firstSize firstSource firstDestination,
    DualInstruction.make_unextended secondKnown secondSize secondSource secondDestination, ?_⟩
  simp only [Prod.mk.injEq]
  rw [DualInstruction.shown_alike_iff]
  constructor
  · rintro ⟨operations, sources, destinations, _⟩
    exact ⟨operations, sources, destinations⟩
  · rintro ⟨operations, sources, destinations⟩
    exact ⟨operations, sources, destinations, Or.inl rfl⟩

/-- A return and a branch through a register are both moves to the program counter, under
names of their own and without the operand that the name implies. -/
theorem Instruction.make_dual_inj_return :
    "mov" ∈ dualMnemonics ∧
      ∃ returning branching : Instruction,
        Instruction.make none "mov" "" (some "@SP+") (some "PC") = .ok returning ∧
          Instruction.make none "mov" "" (some "SP") (some "PC") = .ok branching ∧
          (returning.name, returning.source, returning.destination) = ("ret", none, none) ∧
          (branching.name, branching.source, branching.destination) =
            ("br", none, some "SP") ∧
          (returning.name, returning.source, returning.destination) ≠
            (branching.name, branching.source, branching.destination) := by
  have known : "mov" ∈ dualMnemonics := by
    decide
  obtain ⟨returning, branching, returned, branched, same⟩ :=
    Instruction.make_dual_inj known known "" "" "@SP+" "PC" "SP" "PC"
  have ret : Instruction.make none "mov" "" (some "@SP+") (some "PC") =
      .ok { name := "ret", size := "", source := none, destination := none } := rfl
  have br : Instruction.make none "mov" "" (some "SP") (some "PC") =
      .ok { name := "br", size := "", source := none, destination := some "SP" } := rfl
  refine ⟨known, returning, branching, returned, branched, ?_, ?_, fun alike =>
    absurd (same.mp alike) (by decide)⟩
  · rw [← Except.ok.inj (ret.symm.trans returned)]
  · rw [← Except.ok.inj (br.symm.trans branched)]

end Disassembler
end Msp430
