import Msp430.Proofs.Drafts
import Msp430.Proofs.Numerals
import Msp430.Proofs.OwnNames
import Msp430.Proofs.Words

/-!
Texts of instructions read back.  The two columns of a text are told apart by its spaces,
the operands by their comma and the size by its point, so a text tells all that is printed.
Main statement: of a decoded two-operand instruction this is the operation and the operands,
the extension but for two names, and the size unless the name stands for both operands.
-/

namespace Msp430
namespace Text

/-- The two columns of a line: what stands before the first space, and what follows the
spaces. -/
def columns (text : List Char) : List Char × List Char :=
  (before ' ' text, (text.dropWhile (fun c => c != ' ')).dropWhile (fun c => c == ' '))

theorem dropWhile_append_of_not_mem {mark : Char} {front : List Char} (absent : mark ∉ front)
    (back : List Char) :
    (front ++ back).dropWhile (fun c => c != mark) = back.dropWhile (fun c => c != mark) := by
  apply List.dropWhile_append_of_pos
  intro c member
  rw [bne_iff_ne]
  exact fun same => absent (same ▸ member)

theorem columns_padded {front back : List Char} (solid : ' ' ∉ front) {count : Nat}
    (apart : back ≠ [] → 0 < count) (visible : back.head? ≠ some ' ') :
    columns (front ++ (List.replicate count ' ' ++ back)) = (front, back) := by
  have spaces : ∀ c ∈ List.replicate count ' ', (c == ' ') = true := by
    intro c member
    rw [List.eq_of_mem_replicate member]
    rfl
  have first : before ' ' (List.replicate count ' ' ++ back) = [] ∧
      (List.replicate count ' ' ++ back).dropWhile (fun c => c != ' ') =
        List.replicate count ' ' ++ back := by
    cases count with
    | zero =>
        cases back with
        | nil => exact ⟨rfl, rfl⟩
        | cons c rest => exact absurd (apart (List.cons_ne_nil c rest)) (Nat.lt_irrefl 0)
    | succ count => exact ⟨rfl, rfl⟩
  unfold columns
  rw [before_append solid, first.1, List.append_nil, dropWhile_append_of_not_mem solid, first.2,
    List.dropWhile_append_of_pos spaces]
  cases back with
  | nil => rfl
  | cons c rest =>
      have other : ¬ (c == ' ') = true := fun same => visible (congrArg some (eq_of_beq same))
      exact congrArg (Prod.mk front) (List.dropWhile_cons_of_neg other)

theorem toList_padRight (width : Nat) (text : String) :
    (padRight width text).toList =
      text.toList ++ List.replicate (width - text.length) ' ' := by
  unfold padRight
  rw [String.toList_append, String.toList_ofList]

theorem toList_padRight_append (width : Nat) (text rest : String) :
    (padRight width text ++ " " ++ rest).toList =
      text.toList ++ (List.replicate (width - text.length + 1) ' ' ++ rest.toList) := by
  rw [String.toList_append, String.toList_append, toList_padRight, List.replicate_succ',
    List.append_assoc, List.append_assoc, List.append_assoc]
  rfl

end Text

namespace Disassembler

open Text

namespace Instruction

/-- What the text of an instruction tells: the size is left out where no operand is shown. -/
def printed (instruction : Instruction) : Instruction :=
  match instruction.destination with
  | none => { instruction with size := "" }
  | some _ => instruction

theorem text_printed (instruction : Instruction) :
    instruction.printed.text = instruction.text := by
  obtain ⟨name, size, source, destination⟩ := instruction
  cases source <;> cases destination <;> rfl

def readOperands (column : List Char) : Option String × Option String :=
  match column, cut? ',' column with
  | [], _ => (none, none)
  | _, none => (none, some (String.ofList column))
  | _, some (source, destination) =>
      (some (String.ofList source), some (String.ofList (destination.drop 1)))

def read (text : String) : Instruction :=
  let (mnemonic, operands) := columns text.toList
  { name := String.ofList (before '.' mnemonic)
    size := String.ofList (mnemonic.dropWhile (fun c => c != '.'))
    source := (readOperands operands).1
    destination := (readOperands operands).2 }

end Instruction

/-- Texts without the marks between columns and operands. -/
def Clean (text : String) : Prop :=
  ' ' ∉ text.toList ∧ ',' ∉ text.toList

instance (text : String) : Decidable (Clean text) :=
  inferInstanceAs (Decidable (' ' ∉ text.toList ∧ ',' ∉ text.toList))

/-- Texts that stay one operand in a line. -/
def Legible (operand : String) : Prop :=
  operand.toList ≠ [] ∧ Clean operand

instance (operand : String) : Decidable (Legible operand) :=
  inferInstanceAs (Decidable (operand.toList ≠ [] ∧ Clean operand))

theorem Legible.head_ne_space {operand : String} (legible : Legible operand)
    (rest : List Char) : (operand.toList ++ rest).head? ≠ some ' ' := by
  obtain ⟨present, solid, _⟩ := legible
  obtain ⟨c, others, spelled⟩ := List.exists_cons_of_ne_nil present
  rw [spelled] at solid ⊢
  intro space
  exact solid (Option.some.inj space ▸ List.mem_cons_self)

/-- What has to hold of an instruction for its text to be read back. -/
structure Instruction.Printable (instruction : Instruction) : Prop where
  name : ' ' ∉ instruction.name.toList ∧ '.' ∉ instruction.name.toList
  size : instruction.size.toList = [] ∨ instruction.size.toList.head? = some '.'
  solid : ' ' ∉ instruction.size.toList
  source : ∀ operand ∈ instruction.source, Legible operand
  destination : ∀ operand ∈ instruction.destination, Legible operand
  whole : instruction.destination = none → instruction.source = none

namespace Instruction

/-- The point of a size is the first one in a mnemonic. -/
theorem cut_mnemonic {instruction : Instruction} (printable : instruction.Printable) :
    before '.' (instruction.name ++ instruction.size).toList = instruction.name.toList ∧
      (instruction.name ++ instruction.size).toList.dropWhile (fun c => c != '.') =
        instruction.size.toList := by
  have pointless := printable.name.2
  rw [String.toList_append, before_append pointless, dropWhile_append_of_not_mem pointless]
  cases spelled : instruction.size.toList with
  | nil => exact ⟨List.append_nil _, rfl⟩
  | cons c rest =>
      have point : c = '.' := by
        rcases printable.size with empty | first
        · rw [spelled] at empty
          cases empty
        · rw [spelled] at first
          exact Option.some.inj first
      subst point
      exact ⟨List.append_nil _, rfl⟩

theorem read_of_columns {text : String} {instruction : Instruction}
    (printable : instruction.Printable) {operands : List Char}
    (split : columns text.toList = ((instruction.name ++ instruction.size).toList, operands))
    (found : readOperands operands = (instruction.source, instruction.destination)) :
    read text = instruction := by
  obtain ⟨front, back⟩ := cut_mnemonic printable
  unfold read
  simp only [split, front, back, found, String.ofList_toList]

theorem printable_printed {instruction : Instruction} (printable : instruction.Printable) :
    instruction.printed.Printable := by
  obtain ⟨name, size, source, destination⟩ := instruction
  cases destination with
  | some operand => exact printable
  | none => exact { printable with size := Or.inl rfl, solid := List.not_mem_nil }

theorem readOperands_one {operand : String} (legible : Legible operand) :
    readOperands operand.toList = (none, some operand) := by
  obtain ⟨present, _, commaless⟩ := legible
  obtain ⟨c, rest, spelled⟩ := List.exists_cons_of_ne_nil present
  have uncut := cut?_of_not_mem commaless
  have whole : String.ofList (c :: rest) = operand := by
    rw [← spelled, String.ofList_toList]
  rw [spelled] at uncut ⊢
  unfold readOperands
  rw [uncut]
  exact congrArg (fun text => (none, some text)) whole

theorem readOperands_two {source : String} (legible : Legible source) (destination : String) :
    readOperands (source ++ ", " ++ destination).toList = (some source, some destination) := by
  obtain ⟨present, _, commaless⟩ := legible
  obtain ⟨c, rest, first⟩ := List.exists_cons_of_ne_nil present
  have spelled : (source ++ ", " ++ destination).toList =
      source.toList ++ ',' :: ' ' :: destination.toList := by
    rw [String.toList_append, String.toList_append, List.append_assoc]
    rfl
  have cut : cut? ',' (source ++ ", " ++ destination).toList =
      some (source.toList, ' ' :: destination.toList) := by
    rw [spelled, cut?_append commaless]
  rw [spelled, first, List.cons_append] at cut ⊢
  unfold readOperands
  rw [cut]
  change (some (String.ofList (c :: rest)), some (String.ofList destination.toList)) = _
  rw [← first, String.ofList_toList, String.ofList_toList]

theorem Printable.mnemonic_solid {instruction : Instruction}
    (printable : instruction.Printable) :
    ' ' ∉ (instruction.name ++ instruction.size).toList := by
  rw [String.toList_append, List.mem_append, not_or]
  exact ⟨printable.name.1, printable.solid⟩

theorem read_text {instruction : Instruction} (printable : instruction.Printable) :
    read instruction.text = instruction.printed := by
  have printableText := printable_printed printable
  have solid := printableText.mnemonic_solid
  rw [← text_printed]
  obtain ⟨name, size, source, destination⟩ := instruction
  cases destination with
  | none =>
      cases printable.whole rfl
      have found : readOperands [] = (none, none) := rfl
      apply read_of_columns printableText _ found
      have spelled : (padRight mnemonicWidth name).toList =
          (name ++ "").toList ++ (List.replicate (mnemonicWidth - name.length) ' ' ++ []) := by
        rw [toList_padRight, String.append_empty, List.append_nil]
      change columns (padRight mnemonicWidth name).toList = _
      rw [spelled]
      exact columns_padded solid (fun absent => absurd rfl absent) nofun
  | some destination =>
      have target := printable.destination destination rfl
      cases source with
      | none =>
          apply read_of_columns printableText _ (readOperands_one target)
          change columns (padRight mnemonicWidth (name ++ size) ++ " " ++ destination).toList = _
          rw [toList_padRight_append]
          apply columns_padded solid (fun _ => Nat.succ_pos _)
          rw [← List.append_nil destination.toList]
          exact target.head_ne_space []
      | some source =>
          have origin := printable.source source rfl
          apply read_of_columns printableText _ (readOperands_two origin destination)
          have joined : padRight mnemonicWidth (name ++ size) ++ " " ++ source ++ ", " ++
              destination = padRight mnemonicWidth (name ++ size) ++ " " ++
                (source ++ ", " ++ destination) := by
            simp only [String.append_assoc]
          change columns (padRight mnemonicWidth (name ++ size) ++ " " ++ source ++ ", " ++
            destination).toList = _
          rw [joined, toList_padRight_append]
          apply columns_padded solid (fun _ => Nat.succ_pos _)
          rw [String.append_assoc, String.toList_append]
          exact origin.head_ne_space _

/-- Two texts are the same exactly where all that is printed is the same. -/
theorem text_eq_iff {first second : Instruction} (firstPrintable : first.Printable)
    (secondPrintable : second.Printable) :
    first.text = second.text ↔ first.printed = second.printed := by
  constructor
  · intro same
    rw [← read_text firstPrintable, same, read_text secondPrintable]
  · intro same
    rw [← text_printed, same, text_printed]

theorem printed_eq_iff {first second : Instruction} :
    first.printed = second.printed ↔
      (first.name = second.name ∧ first.source = second.source ∧
        first.destination = second.destination) ∧
        (first.size = second.size ∨ first.destination = none) := by
  obtain ⟨name, size, source, destination⟩ := first
  obtain ⟨name', size', source', destination'⟩ := second
  cases destination with
  | none => cases destination' <;> simp [printed]
  | some operand => cases destination' <;> simp [printed, and_left_comm, and_comm]

/-- An own name has neither a space nor a point, and it leaves an operand as it is or leaves
it out. -/
theorem ownName?_spelled {name own : String} {source destination operand : Option String}
    (named : ownName? name source destination = some (own, operand)) :
    (' ' ∉ own.toList ∧ '.' ∉ own.toList) ∧
      (operand = none ∨ operand = source ∨ operand = destination) := by
  unfold ownName? ownName?.bySource ownName?.additive ownName?.carrying ownName?.subtractive
    ownName?.moving ownName?.status at named
  repeat' split at named
  all_goals cases named
  all_goals exact ⟨by decide, by simp⟩

end Instruction

/-! ### Operands -/

theorem clean_append {front back : String} (frontClean : Clean front) (backClean : Clean back) :
    Clean (front ++ back) := by
  unfold Clean at *
  rw [String.toList_append, List.mem_append, List.mem_append, not_or, not_or]
  exact ⟨⟨frontClean.1, backClean.1⟩, ⟨frontClean.2, backClean.2⟩⟩

theorem clean_zeroFill {base : Nat} (sixteen : base ≤ 16) (two : 2 ≤ base)
    (width number : Nat) : Clean (zeroFill width (Numeral.digits base number)) := by
  have apart : ∀ digit : Fin 16, ' ' ≠ Nat.digitChar digit ∧ ',' ≠ Nat.digitChar digit := by
    decide
  constructor
  · intro member
    obtain ⟨digit, same⟩ := Numeral.exists_digit_of_mem_zeroFill sixteen two member
    exact (apart digit).1 same
  · intro member
    obtain ⟨digit, same⟩ := Numeral.exists_digit_of_mem_zeroFill sixteen two member
    exact (apart digit).2 same

theorem clean_write (format : NumberFormat) (number : Nat) : Clean (format.write number) := by
  cases format with
  | hex width =>
      change Clean (Numeral.hexField width number)
      rw [Numeral.hexField_natCast]
      exact clean_zeroFill (Nat.le_refl 16) (by decide) width number
  | decimal =>
      change Clean (Numeral.decimal number)
      rw [Numeral.decimal_natCast, ← Numeral.zeroFill_zero (Numeral.digits 10 number)]
      exact clean_zeroFill (by decide) (by decide) 0 number

theorem legible_append_left {front back : String} (legible : Legible front)
    (clean : Clean back) : Legible (front ++ back) := by
  refine ⟨?_, clean_append legible.2 clean⟩
  rw [String.toList_append]
  exact List.append_ne_nil_of_left_ne_nil legible.1 _

theorem legible_append_right {front back : String} (clean : Clean front)
    (legible : Legible back) : Legible (front ++ back) := by
  refine ⟨?_, clean_append clean legible.2⟩
  rw [String.toList_append]
  exact List.append_ne_nil_of_right_ne_nil _ legible.1

theorem legible_shown : ∀ register : Register, Legible register.shown ∧
    Legible ("@" ++ register.shown) ∧ Legible ("@" ++ register.shown ++ "+") ∧
    Legible ("(" ++ register.shown ++ ")") := by
  decide

theorem legible_marked {opening closing : String} (legible : Legible opening)
    (clean : Clean closing) (format : NumberFormat) (number : Nat) :
    Legible ((Template.number opening format closing).fill number) :=
  legible_append_left (legible_append_left legible (clean_write format number)) clean

theorem legible_sourceTemplate (byteWide : Bool) (mode : SourceMode) (register : Register)
    (number : Nat) : Legible ((sourceTemplate byteWide mode register).fill number) := by
  obtain ⟨direct, indirect, increment, indexed⟩ := legible_shown register
  unfold sourceTemplate
  split
  case h_6 =>
      rw [Template.fill]
      cases byteWide <;> decide
  case h_7 => exact direct
  case h_8 => exact legible_marked (by decide) (by decide) _ _
  case h_9 => exact legible_marked (by decide) (by decide) _ _
  case h_10 => exact legible_marked (by decide) indexed.2 _ _
  case h_11 => exact indirect
  case h_12 => exact legible_marked (by decide) (by decide) _ _
  case h_13 => exact increment
  all_goals
    rw [Template.fill]
    decide

theorem legible_destinationTemplate (indexed : Bool) (register : Register) (number : Nat) :
    Legible ((destinationTemplate indexed register).fill number) := by
  obtain ⟨direct, _, _, behind⟩ := legible_shown register
  unfold destinationTemplate
  cases indexed with
  | false => exact direct
  | true =>
      rw [if_pos rfl]
      split
      · exact legible_marked (by decide) (by decide) _ _
      · exact legible_marked (by decide) (by decide) _ _
      · exact legible_append_right (clean_append (by decide) (clean_write _ number)) behind

/-! ### Two-operand instructions -/

def sizeNames : List String :=
  ["", ".b", ".a", ".illegal"]

theorem sizeName_mem (extension : Option Nat) (byteWide : Bool) :
    sizeName extension byteWide ∈ sizeNames := by
  unfold sizeName
  simp only
  split <;> decide

theorem sizeNames_spelled : ∀ size ∈ sizeNames,
    (size.toList = [] ∨ size.toList.head? = some '.') ∧ ' ' ∉ size.toList := by
  decide

namespace DualInstruction

/-- The names that stand for both operands are shown without the size. -/
def HidesSize (dual : DualInstruction) : Prop :=
  dual.operation = "mov" ∧
      (dual.source = "#0" ∧ dual.destination = "R3" ∨
        dual.source = "@SP+" ∧ dual.destination = "PC") ∨
    (dual.operation = "bic" ∨ dual.operation = "bis") ∧ dual.extended = false ∧
      dual.source ∈ ["#1", "#2", "#4", "#8"] ∧ dual.destination = "SR"

theorem shown_size (dual : DualInstruction) : dual.shown.size = dual.size := by
  have resized := dual.shown_resize dual.size
  exact congrArg Instruction.size resized

theorem shown_destination_eq_none {dual : DualInstruction} (hides : dual.HidesSize) :
    dual.shown.destination = none := by
  obtain ⟨operation, extended, size, source, destination, known⟩ := dual
  rcases hides with ⟨move, operands⟩ | ⟨status, plain, bit, register⟩
  · cases move
    rcases operands with ⟨zero, idle⟩ | ⟨popped, counter⟩
    · cases zero
      cases idle
      cases extended <;> rfl
    · cases popped
      cases counter
      cases extended <;> rfl
  · cases plain
    cases register
    simp only [List.mem_cons, List.not_mem_nil, or_false] at bit
    rcases status with clear | set
    · cases clear
      rcases bit with rfl | rfl | rfl | rfl <;> rfl
    · cases set
      rcases bit with rfl | rfl | rfl | rfl <;> rfl

theorem impliedBit?_mem {mnemonic operation bit : String}
    (implied : Instruction.impliedBit? mnemonic = some (operation, bit)) :
    (operation = "bic" ∨ operation = "bis") ∧ bit ∈ ["#1", "#2", "#4", "#8"] := by
  unfold Instruction.impliedBit? at implied
  split at implied
  all_goals cases implied
  all_goals decide

/-- With an extension word the status bits have no names of their own. -/
theorem shown_of_extended_status {dual : DualInstruction}
    (status : dual.operation = "bic" ∨ dual.operation = "bis") (marked : dual.extended = true) :
    dual.shown = dual.spelled := by
  apply shown_of_unnamed
  unfold name
  rw [marked]
  rcases status with clear | set
  · rw [clear]
    rfl
  · rw [set]
    rfl

theorem hidesSize_of_shown {dual : DualInstruction} (bare : dual.shown.destination = none) :
    dual.HidesSize := by
  have told := dual.origin?_shown
  unfold Instruction.origin? Instruction.spellOut? at told
  rw [bare] at told
  cases alone : dual.shown.source with
  | some source =>
      rw [alone] at told
      cases told
  | none =>
      rw [alone] at told
      simp only at told
      -- The names without operands: a move that does nothing, a return, a status bit.
      split at told
      · have origin := Option.some.inj told
        exact Or.inl ⟨(congrArg Origin.operation origin).symm, Or.inl
          ⟨(congrArg Origin.source origin).symm, (congrArg Origin.destination origin).symm⟩⟩
      · have origin := Option.some.inj told
        exact Or.inl ⟨(congrArg Origin.operation origin).symm, Or.inr
          ⟨(congrArg Origin.source origin).symm, (congrArg Origin.destination origin).symm⟩⟩
      · obtain ⟨⟨operation, bit⟩, implied, origin⟩ := Option.map_eq_some_iff.mp told
        obtain ⟨status, listed⟩ := impliedBit?_mem implied
        have operations : operation = dual.operation := congrArg Origin.operation origin
        have bits : bit = dual.source := congrArg Origin.source origin
        rw [operations] at status
        rw [bits] at listed
        refine Or.inr ⟨status, ?_, listed, (congrArg Origin.destination origin).symm⟩
        cases marked : dual.extended with
        | false => rfl
        | true =>
            rw [shown_of_extended_status status marked] at bare
            cases bare

theorem shown_printable {dual : DualInstruction} (sized : dual.size ∈ sizeNames)
    (source : Legible dual.source) (destination : Legible dual.destination) :
    dual.shown.Printable := by
  obtain ⟨size, solid⟩ := sizeNames_spelled dual.size sized
  cases named :
      Instruction.ownName? dual.name (some dual.source) (some dual.destination) with
  | none =>
      have spelled : ∀ operation ∈ dualMnemonics, ∀ extended,
          ' ' ∉ (operation ++ mark extended).toList ∧
            '.' ∉ (operation ++ mark extended).toList := by
        decide
      rw [shown_of_unnamed named]
      exact
        { name := spelled dual.operation dual.known dual.extended
          size := size
          solid := solid
          source := fun operand same => Option.some.inj same ▸ source
          destination := fun operand same => Option.some.inj same ▸ destination
          whole := nofun }
  | some entry =>
      obtain ⟨spelled, kept⟩ := Instruction.ownName?_spelled named
      rw [shown_of_named named]
      refine
        { name := spelled
          size := size
          solid := solid
          source := nofun
          destination := ?_
          whole := fun _ => rfl }
      intro operand present
      change entry.2 = some operand at present
      rw [present] at kept
      rcases kept with absent | same | same
      · cases absent
      · exact Option.some.inj same ▸ source
      · exact Option.some.inj same ▸ destination

/-- Two instructions have the same text exactly where operation and operands agree, and
extension and size agree or are not shown. -/
theorem text_eq_iff {first second : DualInstruction} (firstPrintable : first.shown.Printable)
    (secondPrintable : second.shown.Printable) :
    first.shown.text = second.shown.text ↔
      first.operation = second.operation ∧ first.source = second.source ∧
        first.destination = second.destination ∧
        (first.extended = second.extended ∨ first.HidesExtension) ∧
        (first.size = second.size ∨ first.HidesSize) := by
  have bare : first.shown.destination = none ↔ first.HidesSize :=
    ⟨hidesSize_of_shown, shown_destination_eq_none⟩
  rw [Instruction.text_eq_iff firstPrintable secondPrintable, Instruction.printed_eq_iff,
    shown_alike_iff, shown_size, shown_size, bare]
  simp only [and_assoc]

end DualInstruction

/-- The words of a two-operand instruction: extension words, the instruction word and the
operand words that it asks for. -/
structure DualWords (wide : Bool) where
  extensions : List Nat
  opcode : Nat
  operands : List Nat
  extended : ∀ word ∈ extensions, Extends wide word
  dual : 0x4000 ≤ opcode
  counted : operands.length = (dualDraft extensions.getLast? opcode).furtherWords

namespace DualWords

variable {wide : Bool} (words : DualWords wide)

def stream : List Nat :=
  words.extensions ++ words.opcode :: words.operands

def draft : Draft :=
  dualDraft words.extensions.getLast? words.opcode

/-- What the decoder makes of the words before a name of its own is put in. -/
def handed : DualInstruction :=
  { operation := dualOperation (words.opcode / 4096)
    extended := words.extensions.getLast?.isSome
    size := words.draft.size
    source := (words.draft.sourceText words.operands).getD ""
    destination := (words.draft.destinationText words.operands).getD ""
    known := dualOperation_mem _ }

theorem filled_draft : words.draft.filled words.operands = words.handed.spelled := by
  have name : words.draft.name = words.handed.name := by
    change extendedName words.extensions.getLast? _ = _ ++ mark words.extensions.getLast?.isSome
    unfold extendedName mark
    cases words.extensions.getLast? with
    | none => exact String.append_empty.symm
    | some word => rfl
  unfold DualInstruction.spelled
  rw [← name]
  rfl

theorem decodes : Decodes (bare wide) words.stream (.plain words.handed.shown) := by
  have announced : announce wide words.extensions.getLast? words.opcode =
      .instruction words.draft := if_pos words.dual
  unfold DualInstruction.shown
  rw [← filled_draft]
  exact decodes_of_announced rfl words.extended announced words.counted

theorem handed_printable : words.handed.shown.Printable := by
  apply DualInstruction.shown_printable
  · exact sizeName_mem _ _
  · exact legible_sourceTemplate _ _ _ _
  · exact legible_destinationTemplate _ _ _

end DualWords

/-- The first instructions of two streams, both with two operands, have the same text exactly
where operation and operands are the same, the extension is the same or the instruction is a
move that does nothing or a branch, and the size is the same or the name stands for both
operands. -/
theorem dual_text_eq_iff {firstWide secondWide : Bool} (first : DualWords firstWide)
    (second : DualWords secondWide) :
    ∃ firstShown secondShown : Instruction,
      Instruction.make none first.handed.name first.handed.size (some first.handed.source)
          (some first.handed.destination) = .ok firstShown ∧
        Instruction.make none second.handed.name second.handed.size (some second.handed.source)
          (some second.handed.destination) = .ok secondShown ∧
        Decodes (bare firstWide) first.stream (.plain firstShown) ∧
        Decodes (bare secondWide) second.stream (.plain secondShown) ∧
        (firstShown.text = secondShown.text ↔
          first.handed.operation = second.handed.operation ∧
            first.handed.source = second.handed.source ∧
            first.handed.destination = second.handed.destination ∧
            (first.handed.extended = second.handed.extended ∨ first.handed.HidesExtension) ∧
            (first.handed.size = second.handed.size ∨ first.handed.HidesSize)) :=
  ⟨first.handed.shown, second.handed.shown, rfl, rfl, first.decodes, second.decodes,
    DualInstruction.text_eq_iff first.handed_printable second.handed_printable⟩

def wordReturn : DualWords false :=
  ⟨[], 0x4130, [], by decide, by decide, by decide⟩

def byteReturn : DualWords false :=
  ⟨[], 0x4170, [], by decide, by decide, by decide⟩

/-- The text of a return does not tell how much is popped. -/
theorem dual_text_eq_iff_return :
    ∃ wordShown byteShown : Instruction,
      Instruction.make none "mov" "" (some "@SP+") (some "PC") = .ok wordShown ∧
        Instruction.make none "mov" ".b" (some "@SP+") (some "PC") = .ok byteShown ∧
        Decodes (bare false) [0x4130] (.plain wordShown) ∧
        Decodes (bare false) [0x4170] (.plain byteShown) ∧
        wordShown.text = byteShown.text := by
  have handed : wordReturn.handed.name = "mov" ∧ byteReturn.handed.name = "mov" ∧
      wordReturn.handed.size = "" ∧ byteReturn.handed.size = ".b" ∧
      wordReturn.handed.source = "@SP+" ∧ byteReturn.handed.source = "@SP+" ∧
      wordReturn.handed.destination = "PC" ∧ byteReturn.handed.destination = "PC" := by
    decide
  obtain ⟨wordShown, byteShown, wordMade, byteMade, wordDecodes, byteDecodes, same⟩ :=
    dual_text_eq_iff wordReturn byteReturn
  obtain ⟨wordName, byteName, wordSize, byteSize, wordSource, byteSource, wordTarget,
    byteTarget⟩ := handed
  rw [wordName, wordSize, wordSource, wordTarget] at wordMade
  rw [byteName, byteSize, byteSource, byteTarget] at byteMade
  refine ⟨wordShown, byteShown, wordMade, byteMade, wordDecodes, byteDecodes, same.mpr ?_⟩
  rw [wordSource, byteSource, wordTarget, byteTarget]
  exact ⟨rfl, rfl, rfl, Or.inl rfl, Or.inr (Or.inl ⟨rfl, Or.inr ⟨wordSource, wordTarget⟩⟩)⟩

end Disassembler
end Msp430
