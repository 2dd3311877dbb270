import Mathlib.Logic.Equiv.Basic
import Msp430.Proofs.Renaming

/-!
Renaming in the text.  A name is replaced where it stands, in a label or as an operand
component, and the line around it stays: blanks, marks, comment.  A replaced name takes
no part in how the line is divided, so the line is read as the statement it was, with
its names changed.  Main statement: a program and the program renamed in its text have
the same object code.
-/

namespace Msp430
namespace Assembler

open Text

namespace Renaming

variable {alphabet : Alphabet} (mapping : Renaming alphabet) (everywhere : Bool)

/-! ### Lines -/

/-- Rename the components on both sides of the first comma. -/
def pair (field : List Char) : List Char :=
  match cut? ',' field with
  | none => mapCore isBlank mapping.component field
  | some sides =>
      mapCore isBlank mapping.component sides.1 ++
        ',' :: mapCore isBlank mapping.component sides.2

/-- Rename the operands of an operation.  Operations that encoding knows by their name
alone are renamed only `everywhere`, and what is no operation never. -/
def field (opcode : String) (field : List Char) : List Char :=
  match Operation.ofName? opcode with
  | some (.jump _) => mapCore isBlank mapping.component field
  | some (.dual _) => mapping.pair field
  | some _ => if everywhere then mapping.pair field else field
  | none => field

def statement (text : List Char) : List Char :=
  (opening text).blanks ++ (opening text).word ++
    mapping.field everywhere (String.ofList (opening text).word) (opening text).rest

def nameOf (word : List Char) : List Char :=
  trimBy (fun c => c == ':') word

/-- A word is a label if it ends in a colon and is not of colons only. -/
def isLabel (word : List Char) : Bool :=
  word.getLast? == some ':' && !(nameOf word).isEmpty

def label (word : List Char) : List Char :=
  mapCore (fun c => c == ':') mapping.apply word

def code (text : List Char) : List Char :=
  if isLabel (opening text).word then
    (opening text).blanks ++ mapping.label (opening text).word ++
      mapping.statement everywhere (opening text).rest
  else mapping.statement everywhere text

/-- Rename a line in front of its comment. -/
def line (line : List Char) : List Char :=
  mapping.code everywhere (before ';' line) ++ line.dropWhile (fun c => c != ';')

/-! ### No mark comes in -/

/-- Everything in the second text is a letter or stands in the first. -/
def Within (alphabet : Alphabet) (text image : List Char) : Prop :=
  ∀ c ∈ image, c ∈ text ∨ alphabet.letter c = true

theorem Within.not_mem {text image : List Char} (within : Within alphabet text image) {mark : Char}
    (marked : mark ∈ marks) (absent : mark ∉ text) : mark ∉ image := by
  intro member
  rcases within mark member with own | letter
  · exact absent own
  · exact (alphabet.plain mark letter).2 marked

theorem Within.refl (text : List Char) : Within alphabet text text :=
  fun _c member => Or.inl member

theorem Within.append {first second one other : List Char} (left : Within alphabet first one)
    (right : Within alphabet second other) : Within alphabet (first ++ second) (one ++ other) := by
  intro c member
  rw [List.mem_append]
  rcases List.mem_append.mp member with own | own
  · exact (left c own).imp_left Or.inl
  · exact (right c own).imp_left Or.inr

theorem within_apply (text : List Char) : Within alphabet text (mapping.apply text) := by
  cases named : alphabet.isName text with
  | true =>
      have still := (mapping.isName_apply text).trans named
      exact fun c member => Or.inr ((Alphabet.isName_iff.mp still).2 c member)
  | false =>
      rw [mapping.apply_of_unnamed named]
      exact Within.refl text

theorem within_component (text : List Char) : Within alphabet text (mapping.component text) := by
  rcases component_forms text with ⟨rest, same⟩ | ⟨rest, same, plain⟩ | unmarked
  · rw [same, component_increment]
    exact (Within.refl ['@']).append ((mapping.within_apply rest).append (Within.refl ['+']))
  · rw [same, mapping.component_indirect plain]
    exact (Within.refl ['@']).append (mapping.within_apply rest)
  · rw [mapping.component_direct unmarked]
    exact mapping.within_apply text

theorem within_mapCore (dropped : Char → Bool) {change : List Char → List Char}
    (within : ∀ text, Within alphabet text (change text)) (text : List Char) :
    Within alphabet text (mapCore dropped change text) := by
  obtain ⟨front, back, _, _, same, changed⟩ := exists_ends dropped text
  have whole : Within alphabet (front ++ trimBy dropped text ++ back)
      (front ++ change (trimBy dropped text) ++ back) :=
    ((Within.refl front).append (within (trimBy dropped text))).append (Within.refl back)
  rw [← same, ← changed] at whole
  exact whole

theorem within_pair (field : List Char) : Within alphabet field (mapping.pair field) := by
  unfold pair
  cases sides : cut? ',' field with
  | none => exact within_mapCore isBlank mapping.within_component field
  | some sides =>
      rw [(cut?_eq_some sides).1]
      exact (within_mapCore isBlank mapping.within_component _).append
        ((Within.refl [',']).append (within_mapCore isBlank mapping.within_component _))

theorem within_field (opcode : String) (field : List Char) :
    Within alphabet field (mapping.field everywhere opcode field) := by
  unfold Renaming.field
  split
  · exact within_mapCore isBlank mapping.within_component field
  · exact mapping.within_pair field
  · split
    · exact mapping.within_pair field
    · exact Within.refl field
  · exact Within.refl field

theorem within_statement (text : List Char) :
    Within alphabet text (mapping.statement everywhere text) := by
  have whole := (Within.refl ((opening text).blanks ++ (opening text).word)).append
    (mapping.within_field everywhere (String.ofList (opening text).word) (opening text).rest)
  rw [opening_append] at whole
  exact whole

theorem within_code (text : List Char) : Within alphabet text (mapping.code everywhere text) := by
  unfold code
  split
  · have whole := ((Within.refl (opening text).blanks).append
      (within_mapCore (fun c => c == ':') mapping.within_apply (opening text).word)).append
      (mapping.within_statement everywhere (opening text).rest)
    rw [opening_append] at whole
    exact whole
  · exact mapping.within_statement everywhere text

/-- The comment of a renamed line begins where it began. -/
theorem before_line (line : List Char) :
    before ';' (mapping.line everywhere line) = mapping.code everywhere (before ';' line) := by
  have absent : ';' ∉ before ';' line := by
    intro member
    exact absurd (List.mem_takeWhile_imp member) (by decide)
  have still := (mapping.within_code everywhere _).not_mem (by decide : ';' ∈ marks) absent
  have stopped : before ';' (line.dropWhile (fun c => c != ';')) = [] := by
    have first := List.head?_dropWhile_not (fun c => c != ';') line
    cases rest : line.dropWhile (fun c => c != ';') with
    | nil => rfl
    | cons c others =>
        rw [rest] at first
        exact List.takeWhile_cons_of_neg (by rw [first]; decide)
  unfold Renaming.line
  rw [before_append still, stopped, List.append_nil]

/-! ### Operands -/

def fieldOf (text : List Char) : Option String :=
  Statement.field? ((words text).map String.ofList)

theorem fieldOf_eq (text : List Char) :
    fieldOf text = if squeezed text = [] then none else some (String.ofList (squeezed text)) := by
  have solid : ∀ word ∈ words text, word ≠ [] := fun word member => (mem_words member).1
  unfold fieldOf squeezed
  generalize words text = pieces at solid
  cases pieces with
  | nil => rfl
  | cons word others =>
      have nonempty : List.intercalate [' '] (word :: others) ≠ [] := by
        rw [intercalate_cons]
        exact List.append_ne_nil_of_left_ne_nil (solid word List.mem_cons_self) _
      rw [if_neg nonempty]
      apply congrArg some
      apply String.toList_injective
      rw [String.toList_intercalate, String.toList_ofList, List.map_map]
      simp [Function.comp_def]

theorem squeezed_component (text : List Char) :
    squeezed (mapCore isBlank mapping.component text) = mapping.component (squeezed text) :=
  squeezed_mapCore (fun _ => mapping.component_of_unsolid) (fun _ => mapping.solid_component)
    mapping.component_eq_nil_iff text

theorem fieldOf_component (text : List Char) :
    fieldOf (mapCore isBlank mapping.component text) =
      (fieldOf text).map mapping.componentText := by
  rw [fieldOf_eq, fieldOf_eq, squeezed_component]
  by_cases empty : squeezed text = []
  · rw [if_pos empty, if_pos ((mapping.component_eq_nil_iff _).mpr empty)]
    rfl
  · rw [if_neg empty, if_neg (fun none => empty ((mapping.component_eq_nil_iff _).mp none)),
      Option.map_some]
    unfold componentText
    rw [String.toList_ofList]

theorem components_fieldOf_of_not_mem {text : List Char} (absent : ',' ∉ text) :
    components (fieldOf text) = (fieldOf text, none) := by
  have uncut : cut? ',' (squeezed text) = none := by
    apply cut?_of_not_mem
    intro member
    rcases mem_squeezed member with space | own
    · exact absurd space (by decide)
    · exact absent own
  rw [fieldOf_eq]
  split
  · rfl
  · simp only [components, String.toList_ofList, uncut]

/-- With a comma it is cut there, blanks squeezed or not. -/
theorem components_fieldOf_append {front : List Char} (absent : ',' ∉ front)
    (back : List Char) :
    components (fieldOf (front ++ ',' :: back)) =
      (some (String.ofList (squeezed front)), some (String.ofList (squeezed back))) := by
  obtain ⟨first, second, same, trimFirst, trimSecond, inside⟩ :=
    squeezed_append_mark (by decide : isBlank ',' = false) front back
  have early : ',' ∉ first := by
    intro member
    rcases inside ',' member with space | own
    · exact absurd space (by decide)
    · exact absent own
  rw [fieldOf_eq, same, if_neg (by simp)]
  simp only [components, String.toList_ofList, cut?_append early, trimFirst, trimSecond]

theorem operands_pair (field : List Char) :
    components (fieldOf (mapping.pair field)) =
      ((components (fieldOf field)).1.map mapping.componentText,
        (components (fieldOf field)).2.map mapping.componentText) := by
  unfold pair
  cases divided : cut? ',' field with
  | none =>
      have absent := not_mem_of_cut?_eq_none divided
      have still := (within_mapCore isBlank mapping.within_component field).not_mem
        (by decide : ',' ∈ marks) absent
      rw [components_fieldOf_of_not_mem absent, components_fieldOf_of_not_mem still,
        fieldOf_component]
      rfl
  | some sides =>
      obtain ⟨same, absent⟩ := cut?_eq_some divided
      have still := (within_mapCore isBlank mapping.within_component sides.1).not_mem
        (by decide : ',' ∈ marks) absent
      rw [same, components_fieldOf_append absent, components_fieldOf_append still,
        squeezed_component, squeezed_component]
      simp only [Option.map_some, componentText, String.toList_ofList]

theorem operands_field (opcode : String) (field : List Char) :
    mapping.Operands opcode (fieldOf field) (fieldOf (mapping.field everywhere opcode field)) where
  address := by
    intro start
    unfold Renaming.field
    rw [start]
    rfl
  target := by
    intro operation known
    unfold Renaming.field
    rw [known]
    exact mapping.fieldOf_component field
  pair := by
    intro operation known
    unfold Renaming.field
    rw [known]
    exact mapping.operands_pair field

/-! ### Where the operands begin -/

theorem mapCore_head? {change : List Char → List Char} (empty : change [] = [])
    {text : List Char} {c : Char} (first : text.head? = some c) (blank : isBlank c = true) :
    (mapCore isBlank change text).head? = some c := by
  obtain ⟨front, back, _, _, same, changed⟩ := exists_ends isBlank text
  rw [changed]
  rw [same] at first
  cases front with
  | cons d others => exact first
  | nil =>
      cases core : (trimBy isBlank text).head? with
      | none =>
          rw [List.head?_eq_none_iff.mp core, empty]
          rw [List.head?_eq_none_iff.mp core] at first
          exact first
      | some d =>
          have visible := trimBy_head? isBlank core
          rw [List.nil_append, List.head?_append, core] at first
          rw [Option.some.inj first, blank] at visible
          cases visible

theorem component_nil : mapping.component [] = [] :=
  (mapping.component_eq_nil_iff []).mpr rfl

theorem pair_head? {text : List Char} {c : Char} (first : text.head? = some c)
    (blank : isBlank c = true) : (mapping.pair text).head? = some c := by
  unfold pair
  cases divided : cut? ',' text with
  | none => exact mapCore_head? mapping.component_nil first blank
  | some sides =>
      rw [(cut?_eq_some divided).1, List.head?_append] at first
      cases own : sides.1.head? with
      | none =>
          rw [own] at first
          rw [← Option.some.inj first] at blank
          exact absurd blank (by decide)
      | some d =>
          rw [own] at first
          rw [List.head?_append,
            mapCore_head? mapping.component_nil (own.trans first) blank]
          rfl

theorem field_head? (opcode : String) {text : List Char} {c : Char}
    (first : text.head? = some c) (blank : isBlank c = true) :
    (mapping.field everywhere opcode text).head? = some c := by
  unfold Renaming.field
  split
  · exact mapCore_head? mapping.component_nil first blank
  · exact mapping.pair_head? first blank
  · split
    · exact mapping.pair_head? first blank
    · exact first
  · exact first

theorem field_nil (opcode : String) : mapping.field everywhere opcode [] = [] := by
  have core : mapCore isBlank mapping.component [] = [] :=
    (List.append_nil _).trans mapping.component_nil
  unfold Renaming.field
  split
  · exact core
  · exact core
  · split
    · exact core
    · rfl
  · rfl

/-- A text that is apart from the word in front of it stays so. -/
theorem field_apart (opcode : String) {text : List Char}
    (apart : ∀ c ∈ text.head?, isBlank c = true) :
    ∀ c ∈ (mapping.field everywhere opcode text).head?, isBlank c = true := by
  cases first : text.head? with
  | none =>
      rw [List.head?_eq_none_iff.mp first, field_nil]
      intro c member
      cases member
  | some c =>
      rw [mapping.field_head? everywhere opcode first (apart c first)]
      intro d member
      rw [← Option.some.inj member]
      exact apart c first

/-! ### Statements -/

theorem statement_of_blank {text : List Char} (wordless : (opening text).word = []) :
    mapping.statement everywhere text = text := by
  have whole := opening_append text
  unfold statement
  rw [wordless] at whole ⊢
  exact whole

theorem words_statement {text : List Char} (present : (opening text).word ≠ []) :
    words (mapping.statement everywhere text) =
      (opening text).word ::
        words (mapping.field everywhere (String.ofList (opening text).word)
          (opening text).rest) :=
  words_of_first (opening_blanks text) present (opening_solid text)
    (mapping.field_apart everywhere _ (opening_apart text))

theorem statement_apart {text : List Char} (apart : ∀ c ∈ text.head?, isBlank c = true) :
    ∀ c ∈ (mapping.statement everywhere text).head?, isBlank c = true := by
  cases text with
  | nil =>
      rw [mapping.statement_of_blank everywhere rfl]
      exact apart
  | cons c others =>
      have blank := apart c rfl
      have first : (opening (c :: others)).blanks = c :: others.takeWhile isBlank :=
        List.takeWhile_cons_of_pos blank
      unfold statement
      rw [first]
      exact apart

theorem ofWords_of_not_isLabel {word : List Char} (unlabelled : isLabel word = false)
    (others : List String) :
    (Statement.ofWords (String.ofList word) others).symbol? = none ∧
      (Statement.ofWords (String.ofList word) others).opcode = String.ofList word ∧
      (Statement.ofWords (String.ofList word) others).operand = Statement.field? others := by
  unfold Statement.ofWords
  rw [String.toList_ofList]
  by_cases colon : word.getLast? = some ':'
  · have colons : nameOf word = [] := by
      unfold isLabel at unlabelled
      rw [colon] at unlabelled
      simpa using unlabelled
    unfold nameOf at colons
    rw [if_pos colon, colons]
    exact ⟨rfl, rfl, rfl⟩
  · rw [if_neg colon]
    exact ⟨rfl, rfl, rfl⟩

theorem isLabel_iff {word : List Char} :
    isLabel word = true ↔ word.getLast? = some ':' ∧ nameOf word ≠ [] := by
  unfold isLabel
  simp

theorem ofWords_of_isLabel {word : List Char} (label : isLabel word = true) :
    Statement.ofWords (String.ofList word) =
      fun others =>
        match others with
        | [] =>
            { label := some (String.ofList (nameOf word))
              opcode := String.ofList word
              operand := none }
        | opcode :: operands =>
            { label := some (String.ofList (nameOf word))
              opcode := opcode
              operand := Statement.field? operands } := by
  obtain ⟨colon, nonempty⟩ := isLabel_iff.mp label
  have named : String.ofList (nameOf word) ≠ "" := by
    intro empty
    have texts := congrArg String.toList empty
    rw [String.toList_ofList] at texts
    exact nonempty texts
  funext others
  unfold Statement.ofWords
  rw [String.toList_ofList, if_pos colon]
  exact if_neg named

theorem symbol?_of_label {statement : Statement} {name : List Char} (nonempty : name ≠ [])
    (label : statement.label = some (String.ofList name)) :
    statement.symbol? = some (String.ofList name) := by
  unfold Statement.symbol?
  rw [label]
  simpa using nonempty

/-- A word that ends in a colon is no operation. -/
theorem ofName?_of_colon {word : List Char} (colon : word.getLast? = some ':') :
    Operation.ofName? (String.ofList word) = none ∧ String.ofList word ≠ "START" ∧
      String.ofList word ≠ "END" := by
  have apart : ∀ name ∈ "START" :: "END" :: (codedNames ++ reservingNames),
      String.ofList word ≠ name := by
    intro name member same
    have last : ∀ name ∈ "START" :: "END" :: (codedNames ++ reservingNames),
        name.toList.getLast? ≠ some ':' := by
      decide
    apply last name member
    rw [← same, String.toList_ofList]
    exact colon
  refine ⟨?_, apart _ (by simp), apart _ (by simp)⟩
  cases known : Operation.ofName? (String.ofList word) with
  | none => rfl
  | some operation =>
      by_cases reserving : operation = .reserving
      · rw [reserving] at known
        exact absurd rfl (apart _ (by simp [(Operation.ofName?_reserving_iff _).mp known]))
      · exact absurd rfl (apart _ (by simp [Operation.mem_codedNames known reserving]))

/-! ### Labels -/

section Label

variable {word : List Char} (labelled : isLabel word = true)
  (named : alphabet.isName (nameOf word) = true)

include labelled

/-- The colons around the name stay, and there is one behind it. -/
theorem exists_colons :
    ∃ front back, (∀ c ∈ front, c = ':') ∧ (∀ c ∈ back, c = ':') ∧
      back.getLast? = some ':' ∧ word = front ++ nameOf word ++ back ∧
      mapping.label word = front ++ mapping.apply (nameOf word) ++ back := by
  obtain ⟨front, back, colonsFront, colonsBack, same, changed⟩ :=
    exists_ends (fun c => c == ':') word
  refine ⟨front, back, fun c member => beq_iff_eq.mp (colonsFront c member),
    fun c member => beq_iff_eq.mp (colonsBack c member), ?_, same, changed mapping.apply⟩
  obtain ⟨colon, nonempty⟩ := isLabel_iff.mp labelled
  rw [same, List.getLast?_append] at colon
  cases last : back.getLast? with
  | some c =>
      rw [last] at colon
      exact colon
  | none =>
      -- the name would end in the colon
      rw [last, List.getLast?_append] at colon
      cases own : (trimBy (fun c => c == ':') word).getLast? with
      | none => exact absurd (List.getLast?_eq_none_iff.mp own) nonempty
      | some c =>
          have plain := trimBy_getLast? (fun c => c == ':') own
          rw [own] at colon
          rw [Option.some.inj colon] at plain
          exact absurd plain (by decide)

theorem solid_label (solid : Solid word) : Solid (mapping.label word) := by
  obtain ⟨front, back, _, _, _, same, changed⟩ := mapping.exists_colons labelled
  rw [same] at solid
  rw [changed]
  obtain ⟨left, right⟩ := List.forall_mem_append.mp solid
  obtain ⟨outer, inner⟩ := List.forall_mem_append.mp left
  exact List.forall_mem_append.mpr
    ⟨List.forall_mem_append.mpr ⟨outer, mapping.solid_apply inner⟩, right⟩

theorem label_getLast? : (mapping.label word).getLast? = some ':' := by
  obtain ⟨_, _, _, _, last, _, changed⟩ := mapping.exists_colons labelled
  rw [changed, List.getLast?_append, last]
  rfl

include named

theorem nameOf_label : nameOf (mapping.label word) = mapping.apply (nameOf word) := by
  obtain ⟨front, back, colonsFront, colonsBack, _, _, changed⟩ := mapping.exists_colons labelled
  have absent := Alphabet.not_mem_of_isName ((mapping.isName_apply _).trans named)
    (by decide : ':' ∈ marks)
  have plain : ∀ c ∈ mapping.apply (nameOf word), (c == ':') = false := by
    intro c member
    rw [beq_eq_false_iff_ne]
    exact fun same => absent (same ▸ member)
  rw [changed]
  unfold nameOf
  rw [trimBy_append_back _ (fun c member => beq_iff_eq.mpr (colonsBack c member)),
    trimBy_append_front _ (fun c member => beq_iff_eq.mpr (colonsFront c member))]
  exact trimBy_of_ends _ (fun c first => plain c (List.mem_of_mem_head? first))
    (fun c last => plain c (List.mem_of_mem_getLast? last))

theorem isLabel_label : isLabel (mapping.label word) = true := by
  refine isLabel_iff.mpr ⟨mapping.label_getLast? labelled, ?_⟩
  rw [mapping.nameOf_label labelled named]
  intro empty
  exact (isLabel_iff.mp labelled).2 ((mapping.apply_eq_nil_iff _).mp empty)

end Label

/-! ### Lines -/

theorem words_code {text : List Char} (labelled : isLabel (opening text).word = true) :
    words (mapping.code everywhere text) =
      mapping.label (opening text).word ::
        words (mapping.statement everywhere (opening text).rest) := by
  have present : mapping.label (opening text).word ≠ [] := by
    intro empty
    have last := mapping.label_getLast? labelled
    rw [empty] at last
    cases last
  unfold code
  rw [if_pos labelled]
  exact words_of_first (opening_blanks text) present
    (mapping.solid_label labelled (opening_solid text))
    (mapping.statement_apart everywhere (opening_apart text))

def read? (text : List Char) : Option Statement :=
  match (words text).map String.ofList with
  | [] => none
  | first :: others => some (Statement.ofWords first others)

theorem respells_unlabelled {text : List Char} (present : (opening text).word ≠ [])
    (unlabelled : isLabel (opening text).word = false) :
    ∃ first second, read? text = some first ∧
      read? (mapping.statement everywhere text) = some second ∧
      mapping.Respells first second := by
  refine ⟨_, _, by rw [read?, words_opening text present]; rfl,
    by rw [read?, mapping.words_statement everywhere present]; rfl, ?_⟩
  obtain ⟨symbol, opcode, operand⟩ :=
    ofWords_of_not_isLabel unlabelled ((words (opening text).rest).map String.ofList)
  obtain ⟨symbolAfter, opcodeAfter, operandAfter⟩ :=
    ofWords_of_not_isLabel unlabelled
      ((words (mapping.field everywhere (String.ofList (opening text).word)
        (opening text).rest)).map String.ofList)
  constructor
  · rw [symbol, symbolAfter]
    rfl
  · rw [opcode, opcodeAfter]
  · rw [opcode, opcodeAfter]
  · rw [opcode, opcodeAfter]
  · rw [opcode, operand, operandAfter]
    exact mapping.operands_field everywhere _ _

theorem symbol?_label {word : List Char} (labelled : isLabel word = true)
    (named : alphabet.isName (nameOf word) = true) {first second : Statement}
    (before : first.label = some (String.ofList (nameOf word)))
    (after : second.label = some (String.ofList (nameOf (mapping.label word)))) :
    second.symbol? = first.symbol?.map mapping.name := by
  rw [symbol?_of_label (isLabel_iff.mp labelled).2 before,
    symbol?_of_label (isLabel_iff.mp (mapping.isLabel_label labelled named)).2 after,
    mapping.nameOf_label labelled named, apply, if_pos named, String.ofList_toList,
    Option.map_some]

theorem present_of_isLabel {word : List Char} (labelled : isLabel word = true) : word ≠ [] := by
  intro empty
  have last := (isLabel_iff.mp labelled).1
  rw [empty] at last
  cases last

theorem read?_labelled {text : List Char} (labelled : isLabel (opening text).word = true) :
    ∃ statement, read? text = some statement ∧
      statement.symbol? = some (String.ofList (nameOf (opening text).word)) := by
  refine ⟨_, by rw [read?, words_opening text (present_of_isLabel labelled)]; rfl, ?_⟩
  apply symbol?_of_label (isLabel_iff.mp labelled).2
  rw [ofWords_of_isLabel labelled]
  cases (words (opening text).rest).map String.ofList with
  | nil => rfl
  | cons opcode operands => rfl

theorem respells_labelled {text : List Char} (labelled : isLabel (opening text).word = true)
    (named : alphabet.isName (nameOf (opening text).word) = true) :
    ∃ first second, read? text = some first ∧
      read? (mapping.code everywhere text) = some second ∧
      mapping.Respells first second := by
  have present := present_of_isLabel labelled
  refine ⟨_, _, by rw [read?, words_opening text present]; rfl,
    by rw [read?, mapping.words_code everywhere labelled]; rfl, ?_⟩
  rw [ofWords_of_isLabel labelled, ofWords_of_isLabel (mapping.isLabel_label labelled named)]
  by_cases wordless : (opening (opening text).rest).word = []
  · -- a label alone is its own operation, unknown under either name
    have blank := words_blanks (blank_of_opening wordless)
    rw [mapping.statement_of_blank everywhere wordless, blank]
    obtain ⟨unknown, noStart, noEnd⟩ := ofName?_of_colon (isLabel_iff.mp labelled).1
    obtain ⟨stillUnknown, stillNoStart, stillNoEnd⟩ :=
      ofName?_of_colon (mapping.label_getLast? labelled)
    constructor
    · exact mapping.symbol?_label labelled named rfl rfl
    · exact stillUnknown.trans unknown.symm
    · exact ⟨fun start => absurd start stillNoStart, fun start => absurd start noStart⟩
    · exact ⟨fun final => absurd final stillNoEnd, fun final => absurd final noEnd⟩
    · constructor
      · exact fun start => absurd start noStart
      · exact fun operation known => rfl
      · exact fun operation known => rfl
  · rw [words_opening _ wordless, mapping.words_statement everywhere wordless]
    constructor
    · exact mapping.symbol?_label labelled named rfl rfl
    · rfl
    · exact Iff.rfl
    · exact Iff.rfl
    · exact mapping.operands_field everywhere _ _

/-- A line is renamed to a line of the renamed statement. -/
theorem respells_line (line : List Char)
    (named : ∀ statement ∈ Statement.ofLine? line, ∀ name ∈ statement.symbol?,
      alphabet.isName name.toList = true) :
    (Statement.ofLine? line = none ∧
        Statement.ofLine? (mapping.line everywhere line) = none) ∨
      ∃ first second, Statement.ofLine? line = some first ∧
        Statement.ofLine? (mapping.line everywhere line) = some second ∧
        mapping.Respells first second := by
  have before : Statement.ofLine? line = read? (Text.before ';' line) := rfl
  have after : Statement.ofLine? (mapping.line everywhere line) =
      read? (mapping.code everywhere (Text.before ';' line)) := by
    rw [← mapping.before_line everywhere line]
    rfl
  rw [before] at named
  rw [before, after]
  generalize Text.before ';' line = text at named
  cases labelled : isLabel (opening text).word with
  | true =>
      obtain ⟨statement, read, symbol⟩ := read?_labelled labelled
      have labelNamed := named statement read _ symbol
      rw [String.toList_ofList] at labelNamed
      exact Or.inr (mapping.respells_labelled everywhere labelled labelNamed)
  | false =>
      have unchanged : mapping.code everywhere text = mapping.statement everywhere text := by
        unfold code
        rw [labelled]
        rfl
      rw [unchanged]
      by_cases wordless : (opening text).word = []
      · left
        rw [mapping.statement_of_blank everywhere wordless, read?,
          words_blanks (blank_of_opening wordless)]
        exact ⟨rfl, rfl⟩
      · exact Or.inr (mapping.respells_unlabelled everywhere wordless labelled)

theorem rewrites_all {labels : List String}
    (named : ∀ label ∈ labels, alphabet.isName label.toList = true) {lines : List (List Char)}
    (labelled : ∀ statement ∈ lines.filterMap Statement.ofLine?, ∀ name ∈ statement.symbol?,
      name ∈ labels)
    (clear : ∀ statement ∈ lines.filterMap Statement.ofLine?, ∀ literal ∈ statement.literals,
      ∀ label ∈ labels, literal ≠ label ∧ literal ≠ mapping.name label) :
    List.Forall₂ (mapping.Rewrites labels) (lines.filterMap Statement.ofLine?)
      ((lines.map (mapping.line everywhere)).filterMap Statement.ofLine?) := by
  induction lines with
  | nil => exact List.Forall₂.nil
  | cons line others inductionHypothesis =>
      have lineNamed : ∀ statement ∈ Statement.ofLine? line, ∀ name ∈ statement.symbol?,
          alphabet.isName name.toList = true := by
        intro statement read name symbol
        apply named name (labelled statement _ name symbol)
        exact List.mem_filterMap.mpr ⟨line, List.mem_cons_self, read⟩
      rw [List.map_cons]
      rcases mapping.respells_line everywhere line lineNamed with
        ⟨before, after⟩ | ⟨first, second, before, after, respelled⟩
      · rw [List.filterMap_cons_none before] at labelled clear ⊢
        rw [List.filterMap_cons_none after]
        exact inductionHypothesis labelled clear
      · rw [List.filterMap_cons_some before] at labelled clear ⊢
        rw [List.filterMap_cons_some after]
        obtain ⟨labelledFirst, labelledOthers⟩ := List.forall_mem_cons.mp labelled
        obtain ⟨clearFirst, clearOthers⟩ := List.forall_mem_cons.mp clear
        exact List.Forall₂.cons
          { toRespells := respelled, labelled := labelledFirst, clear := clearFirst }
          (inductionHypothesis labelledOthers clearOthers)

def labelsOf (source : String) : List String :=
  (Statement.all source).filterMap Statement.symbol?

theorem states_fresh (labels : List String) :
    mapping.States labels State.fresh State.fresh where
  known := by
    intro name member
    cases member
  symbols := rfl
  counter := rfl
  start := rfl
  length := rfl
  entries := List.Forall₂.nil
  object := rfl
  diagnostics := rfl

/-- What cannot be seen of a change of names: the second state is the first but for the
names of its symbols and of what its entries and diagnostics quote. -/
structure Agrees (first second : State) : Prop where
  object : second.object = first.object
  counter : second.counter = first.counter
  start : second.start = first.start
  length : second.length = first.length
  diagnostics : second.diagnostics.length = first.diagnostics.length
  symbols : second.symbols = first.symbols.rename mapping.name

theorem States.agrees {labels : List String} {first second : State}
    (alike : mapping.States labels first second) : mapping.Agrees first second where
  object := alike.object
  counter := alike.counter
  start := alike.start
  length := alike.length
  diagnostics := alike.diagnostics
  symbols := alike.symbols

/-- A program and the program that renaming its lines gives.  Layout and encoding end alike
and leave the same code at the same addresses, as many diagnostics, and the same symbols
under their new names. -/
theorem encode_renamed {source renamed : String}
    (rewritten : lines renamed.toList = (lines source.toList).map (mapping.line everywhere))
    (named : ∀ label ∈ labelsOf source, alphabet.isName label.toList = true)
    (clear : ∀ statement ∈ Statement.all source, ∀ literal ∈ statement.literals,
      ∀ label ∈ labelsOf source, literal ≠ label ∧ literal ≠ mapping.name label) :
    (State.fresh.layout renamed).flow = (State.fresh.layout source).flow ∧
      mapping.Agrees (State.fresh.layout source).state (State.fresh.layout renamed).state ∧
      (State.fresh.layout renamed).state.encode.2 =
        (State.fresh.layout source).state.encode.2 ∧
      mapping.Agrees (State.fresh.layout source).state.encode.1
        (State.fresh.layout renamed).state.encode.1 := by
  have statements : List.Forall₂ (mapping.Rewrites (labelsOf source)) (Statement.all source)
      (Statement.all renamed) := by
    unfold Statement.all
    rw [rewritten]
    apply mapping.rewrites_all everywhere named _ clear
    intro statement member name symbol
    exact List.mem_filterMap.mpr ⟨statement, member, symbol⟩
  obtain ⟨placed, flow⟩ := (mapping.states_fresh _).placeAll named statements
  obtain ⟨encoded, fault⟩ := placed.encode named
  exact ⟨flow, placed.agrees, fault, encoded.agrees⟩

end Renaming

/-- The digits, the letters and the underscore of ASCII. -/
def isWordLetter (c : Char) : Bool :=
  let code := c.toNat
  (0x30 ≤ code && code ≤ 0x39) || (0x41 ≤ code && code ≤ 0x5a) || code == 0x5f ||
    (0x61 ≤ code && code ≤ 0x7a)

theorem visible_of_isWordLetter {c : Char} (letter : isWordLetter c = true) :
    isBlank c = false := by
  simp only [isWordLetter, Bool.or_eq_true, Bool.and_eq_true, decide_eq_true_eq,
    beq_iff_eq] at letter
  simp only [isBlank, Bool.or_eq_false_iff, Bool.and_eq_false_iff, decide_eq_false_iff_not,
    beq_eq_false_iff_ne]
  omega

def Alphabet.ascii : Alphabet where
  letter := isWordLetter
  plain := by
    intro c letter
    refine ⟨visible_of_isWordLetter letter, ?_⟩
    intro member
    have plain : marks.all (fun mark => !isWordLetter mark) = true := by
      decide
    have unlettered := List.all_eq_true.mp plain c member
    rw [letter] at unlettered
    cases unlettered

def Renaming.swap (alphabet : Alphabet) (first second : String)
    (named : alphabet.isName first.toList = true ∧ alphabet.isName second.toList = true)
    (free : Register.ofName? first = none ∧ Register.ofName? second = none) :
    Renaming alphabet where
  name := Equiv.swap first second
  identifier := by
    intro text isName
    rw [Equiv.swap_apply_def]
    split
    · exact named.2
    · split
      · exact named.1
      · exact isName
  injective := fun _ _ _ _ same => (Equiv.swap first second).injective same
  registers := by
    intro text register found
    apply Equiv.swap_apply_of_ne_of_ne
    · intro same
      rw [same, free.1] at found
      cases found
    · intro same
      rw [same, free.2] at found
      cases found

/-- Two labels exchange their names.  A name in a comment and a name within a number stay. -/
theorem Renaming.encode_renamed_swap :
    let source := "A: MOV @B+ , A ; A\nJNE\tB\n B: ADD #A1, C\nEND"
    let renamed := "B: MOV @A+ , B ; A\nJNE\tA\n A: ADD #A1, C\nEND"
    (State.fresh.layout renamed).state.encode.1.object =
        (State.fresh.layout source).state.encode.1.object ∧
      (State.fresh.layout renamed).state.encode.1.symbols.bindings = [("B", 0), ("A", 4)] := by
  intro source renamed
  have rewritten : lines renamed.toList = (lines source.toList).map
      ((swap Alphabet.ascii "A" "B" (by decide) (by decide)).line true) := by
    decide
  have clear : ∀ statement ∈ Statement.all source, ∀ literal ∈ statement.literals,
      ∀ label ∈ labelsOf source, literal ≠ label ∧
        literal ≠ (swap Alphabet.ascii "A" "B" (by decide) (by decide)).name label := by
    decide
  obtain ⟨_, _, _, encoded⟩ := encode_renamed _ true rewritten (by decide) clear
  have symbols : (State.fresh.layout source).state.encode.1.symbols.bindings =
      [("A", 0), ("B", 4)] := by
    decide
  refine ⟨encoded.object, ?_⟩
  rw [encoded.symbols, SymbolTable.rename, symbols]
  decide

end Assembler
end Msp430
