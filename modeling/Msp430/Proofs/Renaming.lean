import Mathlib.Data.List.Forall2
import Msp430.Proofs.Emission
import Msp430.Proofs.Words

/-!
Renaming.  Names are compared and looked up and nothing else is done with them, so an
injective change of names that leaves the registers alone is not seen in the code.  Two
programs whose statements differ by such a change are laid out and encoded side by side:
`Renaming.States` relates the two states, one placement keeps it, and so does a run.
Main statement: both programs have the same object code and end alike.
-/

namespace Msp430

namespace SymbolTable

/-- The table with its names changed, in the order it has. -/
def rename (change : String → String) (table : SymbolTable) : SymbolTable :=
  { bindings := table.bindings.map (fun binding => (change binding.1, binding.2)) }

/-- Look-up in a renamed table, for a name that meets the changed keys where another meets
the keys. -/
theorem find?_rename {change : String → String} {table : SymbolTable} {name image : String}
    (meets : ∀ key ∈ table.names, change key = image ↔ key = name) :
    (table.rename change).find? image = table.find? name := by
  obtain ⟨bindings⟩ := table
  unfold find? rename
  unfold names at meets
  induction bindings with
  | nil => rfl
  | cons binding others inductionHypothesis =>
      obtain ⟨key, value⟩ := binding
      obtain ⟨first, later⟩ := List.forall_mem_cons.mp meets
      simp only [List.map_cons, List.lookup_cons]
      have same : (image == change key) = (name == key) := by
        rw [Bool.eq_iff_iff, beq_iff_eq, beq_iff_eq, eq_comm, first, eq_comm]
      rw [same]
      cases name == key with
      | true => rfl
      | false => exact inductionHypothesis later

end SymbolTable

namespace Assembler

namespace Operand

/-- The mode of a component that begins with none of the marks for a mode. -/
def unmarkedMode (text : String) : Mode :=
  if (Register.ofName? text).isSome then .register
  else if text.toList.contains '(' && text.toList.contains ')' then .indexed
  else .symbolic

theorem ofText?_unmarked {text : String} (nonempty : text.toList ≠ [])
    (unmarked : ∀ mark ∈ ['#', '&', '@'], text.toList.head? ≠ some mark) :
    ofText? text = some { mode := unmarkedMode text, text := text } := by
  simp only [List.forall_mem_cons] at unmarked
  obtain ⟨noHash, noAnd, noAt, _⟩ := unmarked
  unfold ofText? unmarkedMode
  split
  · next same => exact absurd same nonempty
  · next rest same => rw [same] at noHash; exact absurd rfl noHash
  · next rest same => rw [same] at noAnd; exact absurd rfl noAnd
  · next rest same => rw [same] at noAt; exact absurd rfl noAt
  · split
    · rfl
    · split <;> rfl

theorem ofText?_increment {text : String} {rest : List Char}
    (spelled : text.toList = '@' :: (rest ++ ['+'])) :
    ofText? text = some { mode := .indirectIncrement, text := String.ofList rest } := by
  unfold ofText?
  rw [spelled]
  simp only [List.getLast?_concat, if_true, List.dropLast_concat]

theorem ofText?_indirect {text : String} {rest : List Char} (spelled : text.toList = '@' :: rest)
    (plain : rest.getLast? ≠ some '+') :
    ofText? text = some { mode := .indirect, text := String.ofList rest } := by
  unfold ofText?
  rw [spelled]
  simp only [if_neg plain]

def literal? (operand : Operand) : Option String :=
  if operand.mode.takesWord then some operand.text else none

end Operand

/-- What stands behind `#` or `&` in the operands of a two-operand statement. -/
def Statement.literals (statement : Statement) : List String :=
  match Operation.ofName? statement.opcode with
  | some (.dual _) =>
      ((Operand.read? (components statement.operand).1).toList ++
        (Operand.read? (components statement.operand).2).toList).filterMap Operand.literal?
  | _ => []

/-- The characters that have a meaning of their own in a line. -/
def marks : List Char :=
  [':', ';', ',', '#', '&', '@', '+', '(', ')']

/-- The characters that names are made of: visible ones that are no marks. -/
structure Alphabet where
  letter : Char → Bool
  plain : ∀ c, letter c = true → Text.isBlank c = false ∧ c ∉ marks

namespace Alphabet

def isName (alphabet : Alphabet) (text : List Char) : Bool :=
  !text.isEmpty && text.all alphabet.letter

variable {alphabet : Alphabet} {text : List Char}

theorem isName_iff :
    alphabet.isName text = true ↔ text ≠ [] ∧ ∀ c ∈ text, alphabet.letter c = true := by
  unfold isName
  simp

theorem solid_of_isName (named : alphabet.isName text = true) : Text.Solid text :=
  fun c member => (alphabet.plain c ((isName_iff.mp named).2 c member)).1

theorem not_mem_of_isName (named : alphabet.isName text = true) {c : Char} (mark : c ∈ marks) :
    c ∉ text :=
  fun member => (alphabet.plain c ((isName_iff.mp named).2 c member)).2 mark

end Alphabet

/-- A change of names that is injective and leaves the names of registers alone. -/
structure Renaming (alphabet : Alphabet) where
  name : String → String
  identifier : ∀ text, alphabet.isName text.toList = true →
    alphabet.isName (name text).toList = true
  injective : ∀ first second, alphabet.isName first.toList = true →
    alphabet.isName second.toList = true → name first = name second → first = second
  registers : ∀ text register, Register.ofName? text = some register → name text = text

namespace Renaming

variable {alphabet : Alphabet} (mapping : Renaming alphabet)

/-- Rename a name and keep any other text. -/
def apply (text : List Char) : List Char :=
  if alphabet.isName text then (mapping.name (String.ofList text)).toList else text

/-- Rename an operand component: a name, or a name between the marks of indirect modes. -/
def component : List Char → List Char
  | '@' :: rest =>
      if rest.getLast? = some '+' then '@' :: (mapping.apply rest.dropLast ++ ['+'])
      else '@' :: mapping.apply rest
  | text => mapping.apply text

def componentText (text : String) : String :=
  String.ofList (mapping.component text.toList)

def text (text : String) : String :=
  String.ofList (mapping.apply text.toList)

/-! ### Single names -/

theorem isName_apply (text : List Char) :
    alphabet.isName (mapping.apply text) = alphabet.isName text := by
  unfold apply
  cases named : alphabet.isName text with
  | true =>
      rw [if_pos rfl, mapping.identifier _ (by rw [String.toList_ofList]; exact named)]
  | false => simp [named]

theorem apply_of_unnamed {text : List Char} (unnamed : alphabet.isName text = false) :
    mapping.apply text = text := by
  unfold apply
  rw [unnamed]
  rfl

theorem apply_eq_nil_iff (text : List Char) : mapping.apply text = [] ↔ text = [] := by
  cases named : alphabet.isName text with
  | true =>
      have still := (mapping.isName_apply text).trans named
      have first := (Alphabet.isName_iff.mp named).1
      have second := (Alphabet.isName_iff.mp still).1
      exact ⟨fun empty => absurd empty second, fun empty => absurd empty first⟩
  | false => rw [mapping.apply_of_unnamed named]

theorem apply_of_unsolid {text : List Char} (unsolid : ¬ Text.Solid text) :
    mapping.apply text = text := by
  apply mapping.apply_of_unnamed
  apply Bool.eq_false_iff.mpr
  intro named
  exact unsolid (Alphabet.solid_of_isName named)

theorem solid_apply {text : List Char} (solid : Text.Solid text) :
    Text.Solid (mapping.apply text) := by
  cases named : alphabet.isName text with
  | true => exact Alphabet.solid_of_isName ((mapping.isName_apply text).trans named)
  | false =>
      rw [mapping.apply_of_unnamed named]
      exact solid

theorem text_of_name {name : String} (named : alphabet.isName name.toList = true) :
    mapping.text name = mapping.name name := by
  unfold text apply
  rw [if_pos named, String.ofList_toList, String.ofList_toList]

theorem text_of_unnamed {name : String} (unnamed : alphabet.isName name.toList = false) :
    mapping.text name = name := by
  unfold text
  rw [mapping.apply_of_unnamed unnamed, String.ofList_toList]

theorem isName_text (name : String) :
    alphabet.isName (mapping.text name).toList = alphabet.isName name.toList := by
  unfold text
  rw [String.toList_ofList, isName_apply]

/-- A register stays the register it is, and no other name becomes one. -/
theorem ofName?_text (name : String) :
    Register.ofName? (mapping.text name) = Register.ofName? name := by
  cases named : alphabet.isName name.toList with
  | false => rw [mapping.text_of_unnamed named]
  | true =>
      rw [mapping.text_of_name named]
      cases found : Register.ofName? name with
      | some register => rw [mapping.registers name register found, found]
      | none =>
          cases image : Register.ofName? (mapping.name name) with
          | none => rfl
          | some register =>
              have fixed := mapping.injective _ _ (mapping.identifier name named) named
                (mapping.registers _ register image)
              rw [fixed, found] at image
              cases image

/-! ### Components -/

theorem component_forms (text : List Char) :
    (∃ rest, text = '@' :: (rest ++ ['+'])) ∨
      (∃ rest, text = '@' :: rest ∧ rest.getLast? ≠ some '+') ∨ text.head? ≠ some '@' := by
  by_cases marked : text.head? = some '@'
  · obtain ⟨rest, same⟩ := List.head?_eq_some_iff.mp marked
    by_cases last : rest.getLast? = some '+'
    · obtain ⟨inner, inside⟩ := List.getLast?_eq_some_iff.mp last
      exact Or.inl ⟨inner, by rw [same, inside]⟩
    · exact Or.inr (Or.inl ⟨rest, same, last⟩)
  · exact Or.inr (Or.inr marked)

theorem component_increment (rest : List Char) :
    mapping.component ('@' :: (rest ++ ['+'])) = '@' :: (mapping.apply rest ++ ['+']) := by
  rw [component, if_pos List.getLast?_concat, List.dropLast_concat]

theorem component_indirect {rest : List Char} (plain : rest.getLast? ≠ some '+') :
    mapping.component ('@' :: rest) = '@' :: mapping.apply rest := by
  rw [component, if_neg plain]

theorem component_direct {text : List Char} (unmarked : text.head? ≠ some '@') :
    mapping.component text = mapping.apply text := by
  unfold component
  split
  · exact absurd rfl unmarked
  · rfl

theorem component_of_unsolid {text : List Char} (unsolid : ¬ Text.Solid text) :
    mapping.component text = text := by
  rcases component_forms text with ⟨rest, same⟩ | ⟨rest, same, plain⟩ | unmarked
  · have inside : ¬ Text.Solid rest := by
      intro solid
      apply unsolid
      rw [same]
      exact List.forall_mem_cons.mpr
        ⟨by decide, List.forall_mem_append.mpr
          ⟨solid, List.forall_mem_singleton.mpr (by decide)⟩⟩
    rw [same, component_increment, mapping.apply_of_unsolid inside]
  · have inside : ¬ Text.Solid rest := by
      intro solid
      apply unsolid
      rw [same]
      exact List.forall_mem_cons.mpr ⟨by decide, solid⟩
    rw [same, mapping.component_indirect plain, mapping.apply_of_unsolid inside]
  · rw [mapping.component_direct unmarked, mapping.apply_of_unsolid unsolid]

theorem solid_component {text : List Char} (solid : Text.Solid text) :
    Text.Solid (mapping.component text) := by
  rcases component_forms text with ⟨rest, same⟩ | ⟨rest, same, plain⟩ | unmarked
  · rw [same] at solid ⊢
    obtain ⟨first, others⟩ := List.forall_mem_cons.mp solid
    obtain ⟨inner, last⟩ := List.forall_mem_append.mp others
    rw [component_increment]
    exact List.forall_mem_cons.mpr
      ⟨first, List.forall_mem_append.mpr ⟨mapping.solid_apply inner, last⟩⟩
  · rw [same] at solid ⊢
    obtain ⟨first, others⟩ := List.forall_mem_cons.mp solid
    rw [mapping.component_indirect plain]
    exact List.forall_mem_cons.mpr ⟨first, mapping.solid_apply others⟩
  · rw [mapping.component_direct unmarked]
    exact mapping.solid_apply solid

theorem component_eq_nil_iff (text : List Char) : mapping.component text = [] ↔ text = [] := by
  unfold component
  split
  · split <;> simp
  · exact mapping.apply_eq_nil_iff text

/-- An operand that brings no word of its own is renamed. -/
def operand (operand : Operand) : Operand :=
  if operand.mode.takesWord then operand
  else { operand with text := mapping.text operand.text }

theorem operand_mode (operand : Operand) : (mapping.operand operand).mode = operand.mode := by
  unfold Renaming.operand
  split <;> rfl

theorem head?_apply {mark : Char} (marked : mark ∈ marks) {text : List Char}
    (unmarked : text.head? ≠ some mark) : (mapping.apply text).head? ≠ some mark := by
  cases named : alphabet.isName text with
  | false =>
      rw [mapping.apply_of_unnamed named]
      exact unmarked
  | true =>
      intro first
      exact Alphabet.not_mem_of_isName ((mapping.isName_apply text).trans named) marked
        (List.mem_of_mem_head? first)

theorem getLast?_apply {mark : Char} (marked : mark ∈ marks) {text : List Char}
    (unmarked : text.getLast? ≠ some mark) : (mapping.apply text).getLast? ≠ some mark := by
  cases named : alphabet.isName text with
  | false =>
      rw [mapping.apply_of_unnamed named]
      exact unmarked
  | true =>
      intro last
      exact Alphabet.not_mem_of_isName ((mapping.isName_apply text).trans named) marked
        (List.mem_of_getLast? last)

theorem apply_of_mark {mark : Char} (marked : mark ∈ marks) (rest : List Char) :
    mapping.apply (mark :: rest) = mark :: rest := by
  apply mapping.apply_of_unnamed
  apply Bool.eq_false_iff.mpr
  intro named
  exact Alphabet.not_mem_of_isName named marked List.mem_cons_self

theorem contains_text (mark : Char) (marked : mark ∈ marks) (text : String) :
    (mapping.text text).toList.contains mark = text.toList.contains mark := by
  cases named : alphabet.isName text.toList with
  | false => rw [mapping.text_of_unnamed named]
  | true =>
      have absent {name : List Char} (isName : alphabet.isName name = true) :
          name.contains mark = false := by
        simpa using Alphabet.not_mem_of_isName isName marked
      rw [absent named, absent ((mapping.isName_text text).trans named)]

theorem ofText?_text {text : String} (nonempty : text.toList ≠ [])
    (unmarked : ∀ mark ∈ ['#', '&', '@'], text.toList.head? ≠ some mark) :
    Operand.ofText? (mapping.text text) = (Operand.ofText? text).map mapping.operand := by
  have still : (mapping.text text).toList ≠ [] := by
    unfold Renaming.text
    rw [String.toList_ofList, Ne, apply_eq_nil_iff]
    exact nonempty
  have stillUnmarked : ∀ mark ∈ ['#', '&', '@'], (mapping.text text).toList.head? ≠ some mark := by
    intro mark member
    unfold Renaming.text
    rw [String.toList_ofList]
    have known : ['#', '&', '@'] ⊆ marks := by
      decide
    exact mapping.head?_apply (known member) (unmarked mark member)
  rw [Operand.ofText?_unmarked nonempty unmarked, Operand.ofText?_unmarked still stillUnmarked]
  unfold Operand.unmarkedMode
  rw [mapping.ofName?_text, mapping.contains_text '(' (by decide),
    mapping.contains_text ')' (by decide), Option.map_some]
  congr 1
  split
  · rfl
  · split <;> rfl

theorem ofText?_component (text : String) :
    Operand.ofText? (mapping.componentText text) =
      (Operand.ofText? text).map mapping.operand := by
  unfold componentText
  rcases component_forms text.toList with ⟨rest, same⟩ | ⟨rest, same, plain⟩ | unmarked
  · rw [same, component_increment, Operand.ofText?_increment same,
      Operand.ofText?_increment String.toList_ofList]
    simp only [Option.map_some, operand, Mode.takesWord, Renaming.text, String.toList_ofList,
      Bool.false_eq_true, if_false]
  · have stillPlain := mapping.getLast?_apply (by decide) plain
    rw [same, mapping.component_indirect plain, Operand.ofText?_indirect same plain,
      Operand.ofText?_indirect String.toList_ofList stillPlain]
    simp only [Option.map_some, operand, Mode.takesWord, Renaming.text, String.toList_ofList,
      Bool.false_eq_true, if_false]
  · rw [mapping.component_direct unmarked]
    change Operand.ofText? (mapping.text text) = _
    cases spelled : text.toList with
    | nil =>
        rw [mapping.text_of_unnamed (by rw [spelled]; rfl)]
        unfold Operand.ofText?
        rw [spelled]
        rfl
    | cons c rest =>
        by_cases literal : c = '#' ∨ c = '&'
        · have kept : mapping.text text = text := by
            unfold Renaming.text
            rw [spelled, mapping.apply_of_mark (by rcases literal with rfl | rfl <;> decide),
              ← spelled, String.ofList_toList]
          rw [kept]
          unfold Operand.ofText?
          rw [spelled]
          rcases literal with rfl | rfl <;> rfl
        · rw [not_or] at literal
          rw [spelled, List.head?_cons, Ne, Option.some.injEq] at unmarked
          apply mapping.ofText?_text
          · rw [spelled]
            exact List.cons_ne_nil c rest
          · simpa [spelled] using ⟨literal.1, literal.2, unmarked⟩

/-! ### Statements -/

/-- Operands of an operation before and after.  Where an operand is not read, nothing is
asked of it. -/
structure Operands (opcode : String) (first second : Option String) : Prop where
  address : opcode = "START" → second = first
  target : ∀ operation, Operation.ofName? opcode = some (.jump operation) →
    second = first.map mapping.componentText
  pair : ∀ operation, Operation.ofName? opcode = some (.dual operation) →
    components second =
      ((components first).1.map mapping.componentText,
        (components first).2.map mapping.componentText)

/-- The second statement is the first with its names changed. -/
structure Respells (first second : Statement) : Prop where
  symbol : second.symbol? = first.symbol?.map mapping.name
  operation : Operation.ofName? second.opcode = Operation.ofName? first.opcode
  start : second.opcode = "START" ↔ first.opcode = "START"
  final : second.opcode = "END" ↔ first.opcode = "END"
  operands : mapping.Operands first.opcode first.operand second.operand

/-- Statements of a program.  All its labels are among `labels`, and none of these, before
or after, is what a literal operand spells. -/
structure Rewrites (labels : List String) (first second : Statement) : Prop
    extends mapping.Respells first second where
  labelled : ∀ name, first.symbol? = some name → name ∈ labels
  clear : ∀ literal ∈ first.literals, ∀ label ∈ labels,
    literal ≠ label ∧ literal ≠ mapping.name label

def Pairs (labels : List String) (first second : Entry) : Prop :=
  mapping.Rewrites labels first.statement second.statement ∧ second.location = first.location

theorem read?_component (component : Option String) :
    Operand.read? (component.map mapping.componentText) =
      (Operand.read? component).map mapping.operand := by
  cases component with
  | none => rfl
  | some text => exact mapping.ofText?_component text

theorem extraBytes_operand (operand : Option Operand) :
    Operand.extraBytes (operand.map mapping.operand) = Operand.extraBytes operand := by
  cases operand with
  | none => rfl
  | some written =>
      have mode := mapping.operand_mode written
      simp only [Option.map_some, Operand.extraBytes, mode]

variable {mapping} in
theorem Rewrites.reserved {labels : List String} {first second : Statement}
    (rewritten : mapping.Rewrites labels first second) {operation : Operation}
    (known : Operation.ofName? first.opcode = some operation) :
    operation.reserved second.operand = operation.reserved first.operand := by
  cases operation with
  | dual operation =>
      simp only [Operation.reserved, rewritten.operands.pair operation known, read?_component,
        extraBytes_operand]
  | single operation => rfl
  | jump operation => rfl
  | reserving => rfl

variable {mapping} in
theorem Rewrites.clear_of_dual {labels : List String} {first second : Statement}
    (rewritten : mapping.Rewrites labels first second) {operation : Dual}
    (known : Operation.ofName? first.opcode = some (.dual operation)) {written : Operand}
    (own : written ∈ Operand.read? (components first.operand).1 ∨
      written ∈ Operand.read? (components first.operand).2) :
    ∀ literal ∈ written.literal?, ∀ label ∈ labels,
      literal ≠ label ∧ literal ≠ mapping.name label := by
  intro literal spelled
  apply rewritten.clear
  unfold Statement.literals
  rw [known]
  apply List.mem_filterMap.mpr
  exact ⟨written, by simpa using own, spelled⟩

/-! ### Layout -/

/-- Two states side by side. -/
structure States (labels : List String) (first second : State) : Prop where
  known : ∀ name ∈ first.symbols.names, name ∈ labels
  symbols : second.symbols = first.symbols.rename mapping.name
  counter : second.counter = first.counter
  start : second.start = first.start
  length : second.length = first.length
  entries : List.Forall₂ (mapping.Pairs labels) first.entries second.entries
  object : second.object = first.object
  diagnostics : second.diagnostics.length = first.diagnostics.length

section Labels

variable {mapping} {labels : List String}
  (named : ∀ label ∈ labels, alphabet.isName label.toList = true)

include named

theorem find?_of_unnamed {table : SymbolTable} (known : ∀ name ∈ table.names, name ∈ labels)
    {text image : String} (unnamed : alphabet.isName text.toList = false)
    (stillUnnamed : alphabet.isName image.toList = false) :
    (table.rename mapping.name).find? image = table.find? text := by
  apply SymbolTable.find?_rename
  intro key member
  have keyNamed := named key (known key member)
  have apart : key ≠ text := by
    intro same
    rw [same, unnamed] at keyNamed
    cases keyNamed
  have imageApart : mapping.name key ≠ image := by
    intro same
    have imageNamed := mapping.identifier key keyNamed
    rw [same, stillUnnamed] at imageNamed
    cases imageNamed
  exact ⟨fun same => absurd same imageApart, fun same => absurd same apart⟩

/-- Any text finds, renamed, what it found before. -/
theorem find?_text {table : SymbolTable} (known : ∀ name ∈ table.names, name ∈ labels)
    (text : String) :
    (table.rename mapping.name).find? (mapping.text text) = table.find? text := by
  cases isName : alphabet.isName text.toList with
  | true =>
      rw [mapping.text_of_name isName]
      apply SymbolTable.find?_rename
      intro key member
      exact ⟨mapping.injective key text (named key (known key member)) isName,
        fun same => by rw [same]⟩
  | false =>
      exact find?_of_unnamed named known isName ((mapping.isName_text text).trans isName)

theorem find?_of_label {table : SymbolTable} (known : ∀ name ∈ table.names, name ∈ labels)
    {name : String} (label : name ∈ labels) :
    (table.rename mapping.name).find? (mapping.name name) = table.find? name := by
  rw [← mapping.text_of_name (named name label)]
  exact find?_text named known name

/-- So does a component: with a mark for an indirect mode it is no name. -/
theorem find?_componentText {table : SymbolTable} (known : ∀ name ∈ table.names, name ∈ labels)
    (text : String) :
    (table.rename mapping.name).find? (mapping.componentText text) = table.find? text := by
  have marked {characters : List Char} : alphabet.isName ('@' :: characters) = false := by
    apply Bool.eq_false_iff.mpr
    intro isName
    exact Alphabet.not_mem_of_isName isName (by decide) List.mem_cons_self
  rcases component_forms text.toList with ⟨rest, same⟩ | ⟨rest, same, plain⟩ | unmarked
  · apply find?_of_unnamed named known (by rw [same]; exact marked)
    unfold componentText
    rw [String.toList_ofList, same, component_increment]
    exact marked
  · apply find?_of_unnamed named known (by rw [same]; exact marked)
    unfold componentText
    rw [String.toList_ofList, same, mapping.component_indirect plain]
    exact marked
  · unfold componentText
    rw [mapping.component_direct unmarked]
    exact find?_text named known text

namespace States

variable {first second : State}

omit named in
theorem record (alike : mapping.States labels first second) (one other : Diagnostic) :
    mapping.States labels (first.record one) (second.record other) :=
  { alike with
    diagnostics := by
      simp only [State.record, List.length_append, alike.diagnostics, List.length_singleton] }

omit named in
theorem reserve (alike : mapping.States labels first second) {one other : Statement}
    (rewritten : mapping.Rewrites labels one other) (bytes : Int) :
    mapping.States labels (first.reserve one bytes) (second.reserve other bytes) :=
  { alike with
    counter := congrArg (fun counter => counter + bytes) alike.counter
    entries := by
      refine List.rel_append alike.entries (.cons ⟨rewritten, ?_⟩ .nil)
      exact congrArg (fun counter => counter + bytes) alike.counter }

omit named in
theorem startAt (alike : mapping.States labels first second) (operand : Option String) :
    mapping.States labels (first.startAt operand).state (second.startAt operand).state ∧
      (second.startAt operand).flow = (first.startAt operand).flow := by
  have moved : ∀ address : Int,
      mapping.States labels { first with start := address, counter := address }
        { second with start := address, counter := address } :=
    fun _address => { alike with counter := rfl, start := rfl }
  cases operand with
  | none => exact ⟨moved 0, rfl⟩
  | some text =>
      simp only [State.startAt]
      cases Numeral.hex? text with
      | none => exact ⟨alike, rfl⟩
      | some address => exact ⟨moved address, rfl⟩

omit named in
theorem finish (alike : mapping.States labels first second) :
    mapping.States labels first.finish.state second.finish.state :=
  { alike with length := by simp only [State.finish, alike.counter, alike.start] }

omit named in
theorem perform (alike : mapping.States labels first second) {one other : Statement}
    (rewritten : mapping.Rewrites labels one other) :
    mapping.States labels (first.perform one).state (second.perform other).state ∧
      (second.perform other).flow = (first.perform one).flow := by
  unfold State.perform
  by_cases start : one.opcode = "START"
  · rw [if_pos start, if_pos (rewritten.start.mpr start), rewritten.operands.address start]
    exact alike.startAt one.operand
  · rw [if_neg start, if_neg (fun opcode => start (rewritten.start.mp opcode))]
    by_cases final : one.opcode = "END"
    · rw [if_pos final, if_pos (rewritten.final.mpr final)]
      exact ⟨alike.finish, rfl⟩
    · rw [if_neg final, if_neg (fun opcode => final (rewritten.final.mp opcode)),
        rewritten.operation]
      cases known : Operation.ofName? one.opcode with
      | some operation =>
          simp only [rewritten.reserved known]
          exact ⟨alike.reserve rewritten _, trivial⟩
      | none => exact ⟨(alike.record _ _).reserve rewritten 0, rfl⟩

theorem bind (alike : mapping.States labels first second) {name : String}
    (label : name ∈ labels) (absent : first.symbols.contains name = false) :
    mapping.States labels (first.bind name first.counter)
      (second.bind (mapping.name name) second.counter) := by
  have grown : first.symbols.insert name first.counter =
      { bindings := first.symbols.bindings ++ [(name, first.counter)] } :=
    SymbolTable.insert_of_absent absent _
  have stillAbsent : second.symbols.contains (mapping.name name) = false := by
    rw [SymbolTable.contains_eq_false_iff] at absent ⊢
    rw [alike.symbols, find?_of_label named alike.known label, absent]
  refine { alike with known := ?_, symbols := ?_ }
  · intro key member
    simp only [State.bind, grown, SymbolTable.names, List.map_append, List.map_cons, List.map_nil,
      List.mem_append, List.mem_singleton] at member
    rcases member with earlier | own
    · exact alike.known key earlier
    · rw [own]
      exact label
  · change second.symbols.insert (mapping.name name) second.counter =
      (first.symbols.insert name first.counter).rename mapping.name
    rw [SymbolTable.insert_of_absent stillAbsent, grown, alike.symbols, alike.counter]
    simp only [SymbolTable.rename, List.map_append, List.map_cons, List.map_nil]

theorem place (alike : mapping.States labels first second) {one other : Statement}
    (rewritten : mapping.Rewrites labels one other) :
    mapping.States labels (first.place one).state (second.place other).state ∧
      (second.place other).flow = (first.place one).flow := by
  unfold State.place
  rw [rewritten.symbol]
  cases symbol : one.symbol? with
  | none => exact alike.perform rewritten
  | some name =>
      have label := rewritten.labelled name symbol
      have contained : second.symbols.contains (mapping.name name) =
          first.symbols.contains name := by
        unfold SymbolTable.contains
        rw [alike.symbols, find?_of_label named alike.known label]
      simp only [Option.map_some, contained]
      cases present : first.symbols.contains name with
      | true => exact ⟨alike.record _ _, rfl⟩
      | false => exact (alike.bind named label present).perform rewritten

theorem placeAll (alike : mapping.States labels first second) {ones others : List Statement}
    (rewritten : List.Forall₂ (mapping.Rewrites labels) ones others) :
    mapping.States labels (first.placeAll ones).state (second.placeAll others).state ∧
      (second.placeAll others).flow = (first.placeAll ones).flow := by
  induction rewritten generalizing first second with
  | nil => exact ⟨alike, rfl⟩
  | cons head tail inductionHypothesis =>
      rename_i one other ones others
      obtain ⟨next, sameFlow⟩ := alike.place named head
      rw [State.placeAll, State.placeAll]
      generalize first.place one = left at next sameFlow ⊢
      generalize second.place other = right at next sameFlow ⊢
      obtain ⟨left, flow⟩ := left
      obtain ⟨right, _⟩ := right
      cases sameFlow
      cases flow with
      | running => exact inductionHypothesis next
      | ended => exact ⟨next, rfl⟩
      | failed fault => exact ⟨next, rfl⟩

end States

/-! ### Encoding -/

theorem resolve?_operand {table : SymbolTable} (known : ∀ name ∈ table.names, name ∈ labels)
    {operand : Option Operand}
    (clear : ∀ written ∈ operand, ∀ literal ∈ written.literal?, ∀ label ∈ labels,
      literal ≠ label ∧ literal ≠ mapping.name label) :
    resolve? (table.rename mapping.name) (operand.map mapping.operand) =
      resolve? table operand := by
  cases operand with
  | none => rfl
  | some written =>
      unfold resolve?
      simp only [Option.map_some, Option.bind_some]
      cases literal : written.mode.takesWord with
      | true =>
          have kept : mapping.operand written = written := if_pos literal
          have found : (table.rename mapping.name).find? written.text =
              table.find? written.text := by
            apply SymbolTable.find?_rename
            intro key member
            obtain ⟨apart, imageApart⟩ :=
              clear written rfl written.text (if_pos literal) key (known key member)
            exact ⟨fun same => absurd same.symm imageApart, fun same => absurd same.symm apart⟩
          rw [kept, found]
      | false =>
          have renamed : (mapping.operand written).text = mapping.text written.text := by
            unfold Renaming.operand
            rw [literal]
            rfl
          rw [renamed, mapping.ofName?_text, find?_text named known]

omit named in
theorem operandWords_operand (location : Int) (operand : Option Operand) :
    operandWords location (operand.map mapping.operand) = operandWords location operand := by
  cases operand with
  | none => rfl
  | some written =>
      cases literal : written.mode.takesWord with
      | true =>
          have kept : mapping.operand written = written := if_pos literal
          rw [Option.map_some, kept]
      | false =>
          have mode := mapping.operand_mode written
          simp only [Option.map_some, operandWords, mode, literal]
          rfl

/-- The same words and the same end; messages may differ in the names they quote. -/
structure Alike (first second : Emission) : Prop where
  words : second.words = first.words
  diagnostics : second.diagnostics.length = first.diagnostics.length
  fault : second.fault = first.fault

theorem emitDual_alike {table : SymbolTable} (known : ∀ name ∈ table.names, name ∈ labels)
    {one other : Statement} (rewritten : mapping.Rewrites labels one other) {operation : Dual}
    (opcode : Operation.ofName? one.opcode = some (.dual operation)) (location : Int) :
    Alike (emitDual table operation one.operand location)
      (emitDual (table.rename mapping.name) operation other.operand location) := by
  have sourceValue := resolve?_operand named known
    (fun written own => rewritten.clear_of_dual opcode (Or.inl own))
  have destinationValue := resolve?_operand named known
    (fun written own => rewritten.clear_of_dual opcode (Or.inr own))
  unfold emitDual
  rw [rewritten.operands.pair operation opcode]
  simp only [read?_component]
  generalize Operand.read? (components one.operand).1 = source at sourceValue ⊢
  generalize Operand.read? (components one.operand).2 = destination at destinationValue ⊢
  have field : destinationField (destination.map mapping.operand) =
      destinationField destination := by
    cases destination with
    | none => rfl
    | some written =>
        simp only [destinationField, Option.map_some, mapping.operand_mode]
  have recorded : (undefinedOperands (table.rename mapping.name) (source.map mapping.operand)
      (destination.map mapping.operand)).length =
        (undefinedOperands table source destination).length := by
    unfold undefinedOperands
    rw [sourceValue, destinationValue, List.length_append, List.length_append]
    congr 1
    · split <;> rfl
    · split <;> rfl
  rw [operandWords_operand, operandWords_operand, sourceValue, destinationValue]
  cases source with
  | none => exact ⟨rfl, recorded, rfl⟩
  | some written =>
      have word : dualWord operation (mapping.operand written) (destination.map mapping.operand) =
          dualWord operation written destination := by
        unfold dualWord
        rw [mapping.operand_mode, field]
      simp only [Option.map_some, word]
      cases operandWords location (some written) with
      | error fault => exact ⟨rfl, recorded, rfl⟩
      | ok sourceWords =>
          cases operandWords location destination with
          | error fault => exact ⟨rfl, recorded, rfl⟩
          | ok destinationWords => exact ⟨rfl, recorded, rfl⟩

theorem emit_alike {table : SymbolTable} (known : ∀ name ∈ table.names, name ∈ labels)
    {one other : Entry} (paired : mapping.Pairs labels one other) :
    Alike (one.emit table) (other.emit (table.rename mapping.name)) := by
  obtain ⟨rewritten, location⟩ := paired
  have operation : Operation.ofName? other.opcode = Operation.ofName? one.opcode :=
    rewritten.operation
  unfold Entry.emit
  rw [operation, location]
  cases opcode : Operation.ofName? one.opcode with
  | none => exact ⟨rfl, rfl, rfl⟩
  | some operation =>
      cases operation with
      | dual operation => exact emitDual_alike named known rewritten opcode one.location
      | single operation => exact ⟨rfl, rfl, rfl⟩
      | reserving => exact ⟨rfl, rfl, rfl⟩
      | jump operation =>
          have operand : other.operand = one.operand.map mapping.componentText :=
            rewritten.operands.target operation opcode
          have target : other.operand.bind (table.rename mapping.name).find? =
              one.operand.bind table.find? := by
            rw [operand, Option.bind_map]
            exact congrArg (Option.bind one.operand) (funext (find?_componentText named known))
          simp only [jumpWord, target]
          exact ⟨rfl, rfl, rfl⟩

theorem emitAll_alike {table : SymbolTable} (known : ∀ name ∈ table.names, name ∈ labels)
    {ones others : List Entry} (paired : List.Forall₂ (mapping.Pairs labels) ones others) :
    Alike (emitAll table ones) (emitAll (table.rename mapping.name) others) := by
  induction paired with
  | nil => exact ⟨rfl, rfl, rfl⟩
  | cons head tail inductionHypothesis =>
      rename_i one other ones others
      obtain ⟨words, diagnostics, fault⟩ := emit_alike named known head
      rw [emitAll, emitAll]
      simp only [fault]
      cases (one.emit table).fault with
      | some _ => exact ⟨words, diagnostics, fault⟩
      | none =>
          refine ⟨?_, ?_, inductionHypothesis.fault⟩
          · simp only [Emission.append, words, inductionHypothesis.words]
          · simp only [Emission.append, List.length_append, diagnostics,
              inductionHypothesis.diagnostics]

theorem States.encode {first second : State} (alike : mapping.States labels first second) :
    mapping.States labels first.encode.1 second.encode.1 ∧
      second.encode.2 = first.encode.2 := by
  obtain ⟨words, diagnostics, fault⟩ := emitAll_alike named alike.known alike.entries
  rw [← alike.symbols] at words diagnostics fault
  refine ⟨{ alike with object := ?_, diagnostics := ?_ }, fault⟩
  · simp only [State.encode, State.absorb, alike.object, words]
  · simp only [State.encode, State.absorb, List.length_append, alike.diagnostics, diagnostics]

end Labels

end Renaming
end Assembler
end Msp430
