import Msp430.Proofs.Joining
import Msp430.Proofs.Words

/-!
Normal forms of source texts.  Layout reads a text as rows of words; how the words are set
apart, which comments stand behind them and how the lines end is left behind.  The normal
form spells the rows with single spaces and single line feeds, and reading it gives the rows
back.  Main statement: a text and its normal form are laid out alike, and a normal form is
its own normal form.
-/

namespace Msp430
namespace Assembler
namespace Statement

open Text

/-- The words of the lines that have any, line by line. -/
def rows (source : String) : List (List String) :=
  ((lines source.toList).map wordsOf).filter (fun row => !row.isEmpty)

def normalLine (line : List Char) : String :=
  String.intercalate " " (wordsOf line)

/-- Each line is cut at its comment and its words are joined by single spaces; the lines that
become empty are dropped and the others are joined by line feeds. -/
def normal (source : String) : String :=
  String.intercalate "\n"
    (((lines source.toList).map normalLine).filter (fun line => line != ""))

/-! ### Rows of words and their spelling -/

/-- Words that a line can have. -/
structure Regular (row : List String) : Prop where
  nonempty : row ≠ []
  visible : ∀ word ∈ row, word.toList ≠ [] ∧ Solid word.toList
  plain : ∀ word ∈ row, ';' ∉ word.toList

def spelled (given : List (List String)) : String :=
  String.intercalate "\n" (given.map (String.intercalate " "))

theorem regular_wordsOf {line : List Char} (present : wordsOf line ≠ []) :
    Regular (wordsOf line) := by
  have word {text : String} (member : text ∈ wordsOf line) :
      text.toList ∈ words (before ';' line) := by
    obtain ⟨piece, kept, same⟩ := List.mem_map.mp member
    rw [← same, String.toList_ofList]
    exact kept
  refine ⟨present, fun text member => ?_, fun text member mark => ?_⟩
  · obtain ⟨nonempty, solid, _⟩ := mem_words (word member)
    exact ⟨nonempty, solid⟩
  · obtain ⟨_, _, inside⟩ := mem_words (word member)
    have kept := List.mem_takeWhile_imp (inside ';' mark)
    exact absurd kept (by decide)

theorem mem_spelledRow {row : List String} {c : Char}
    (member : c ∈ (String.intercalate " " row).toList) :
    c = ' ' ∨ ∃ word ∈ row, c ∈ word.toList := by
  rw [String.toList_intercalate] at member
  rcases mem_intercalate member with space | ⟨piece, kept, own⟩
  · exact Or.inl space
  · obtain ⟨word, given, same⟩ := List.mem_map.mp kept
    exact Or.inr ⟨word, given, same ▸ own⟩

section Row

variable {row : List String} (regular : Regular row)

include regular

theorem words_spelledRow :
    words (String.intercalate " " row).toList = row.map String.toList := by
  rw [String.toList_intercalate]
  apply words_intercalate
  intro piece member
  obtain ⟨word, given, same⟩ := List.mem_map.mp member
  exact same ▸ regular.visible word given

theorem wordsOf_spelledRow : wordsOf (String.intercalate " " row).toList = row := by
  have plain : ';' ∉ (String.intercalate " " row).toList := by
    intro mark
    rcases mem_spelledRow mark with space | ⟨word, given, own⟩
    · exact absurd space (by decide)
    · exact regular.plain word given own
  unfold wordsOf
  rw [before_of_not_mem plain, words_spelledRow regular, List.map_map]
  exact List.map_id'' (fun _word => String.ofList_toList) row

theorem spelledRow_ne_nil : (String.intercalate " " row).toList ≠ [] := by
  intro empty
  have same := wordsOf_spelledRow regular
  rw [empty] at same
  exact regular.nonempty same.symm

theorem spelledRow_unbroken :
    ∀ c ∈ (String.intercalate " " row).toList, isBreak c = false := by
  intro c member
  rcases mem_spelledRow member with space | ⟨word, given, own⟩
  · rw [space]
    rfl
  · exact isBreak_of_not_isBlank ((regular.visible word given).2 c own)

end Row

theorem regular_of_mem_rows {source : String} {row : List String} (member : row ∈ rows source) :
    Regular row := by
  obtain ⟨kept, present⟩ := List.mem_filter.mp member
  obtain ⟨line, _, same⟩ := List.mem_map.mp kept
  rw [← same] at present ⊢
  exact regular_wordsOf (by simpa using present)

theorem rows_spelled {given : List (List String)} (regular : ∀ row ∈ given, Regular row) :
    rows (spelled given) = given := by
  have divided : lines (spelled given).toList =
      given.map (fun row => (String.intercalate " " row).toList) := by
    unfold spelled
    rw [String.toList_intercalate, List.map_map]
    apply lines_intercalate
    intro piece member
    obtain ⟨row, kept, same⟩ := List.mem_map.mp member
    rw [← same]
    exact ⟨spelledRow_ne_nil (regular row kept), spelledRow_unbroken (regular row kept)⟩
  have read : given.map (wordsOf ∘ fun row => (String.intercalate " " row).toList) =
      given.map id :=
    List.map_congr_left (fun row kept => wordsOf_spelledRow (regular row kept))
  unfold rows
  rw [divided, List.map_map, read, List.map_id, List.filter_eq_self]
  intro row kept
  simpa using (regular row kept).nonempty

/-- A line becomes empty exactly if it has no words. -/
theorem normalLine_ne_empty_iff (line : List Char) :
    normalLine line ≠ "" ↔ wordsOf line ≠ [] := by
  constructor
  · intro nonempty wordless
    rw [normalLine, wordless] at nonempty
    exact nonempty rfl
  · intro present empty
    have characters := spelledRow_ne_nil (regular_wordsOf present)
    rw [← normalLine, empty] at characters
    exact characters rfl

theorem normal_eq_spelled (source : String) : normal source = spelled (rows source) := by
  have kept (line : List Char) : (normalLine line != "") = !(wordsOf line).isEmpty := by
    rw [Bool.eq_iff_iff, bne_iff_ne, normalLine_ne_empty_iff]
    simp
  unfold normal spelled rows
  rw [List.filter_map, List.filter_map, List.map_map]
  congr 2
  exact List.filter_congr (fun line _member => kept line)

theorem rows_normal (source : String) : rows (normal source) = rows source := by
  rw [normal_eq_spelled]
  exact rows_spelled (fun _row member => regular_of_mem_rows member)

/-! ### Statements -/

def ofRow? : List String → Option Statement
  | [] => none
  | first :: others => some (ofWords first others)

theorem ofLine?_eq_ofRow? (line : List Char) : ofLine? line = ofRow? (wordsOf line) := by
  unfold ofLine? ofRow?
  cases wordsOf line <;> rfl

theorem all_eq_rows (source : String) : all source = (rows source).filterMap ofRow? := by
  unfold all rows
  induction lines source.toList with
  | nil => rfl
  | cons line others inductionHypothesis =>
      rw [List.filterMap_cons, ofLine?_eq_ofRow?, List.map_cons, List.filter_cons]
      cases wordsOf line with
      | nil => exact inductionHypothesis
      | cons first words => exact congrArg (List.cons (ofWords first words)) inductionHypothesis

end Statement

namespace State

/-- Layout depends on the words of each line alone: texts with the same rows of words have the
same outcome and leave the same memory.  The normal form has the rows of its text, does not
change any more, and is the same for two texts exactly if their rows are. -/
theorem layout_normal (state : State) (source : String) :
    state.layout (Statement.normal source) = state.layout source ∧
      Statement.normal (Statement.normal source) = Statement.normal source ∧
      ∀ other,
        (Statement.normal other = Statement.normal source ↔
          Statement.rows other = Statement.rows source) ∧
        (Statement.rows other = Statement.rows source →
          state.layout other = state.layout source) := by
  have alike {first second : String} (same : Statement.rows first = Statement.rows second) :
      state.layout first = state.layout second := by
    rw [layout, layout, Statement.all_eq_rows, Statement.all_eq_rows, same]
  refine ⟨alike (Statement.rows_normal source), ?_, fun other => ⟨⟨?_, ?_⟩, alike⟩⟩
  · rw [Statement.normal_eq_spelled (Statement.normal source), Statement.rows_normal,
      ← Statement.normal_eq_spelled]
  · intro same
    rw [← Statement.rows_normal other, same, Statement.rows_normal]
  · intro same
    rw [Statement.normal_eq_spelled, Statement.normal_eq_spelled, same]

/-- Tabs, other spaces, comments and three kinds of line ends are gone in the second text; the
third has them at other places.  All stop at the start address that does not read. -/
theorem layout_normal_separators :
    let spread := "\tL:  MOV #12,\u00a0R4;; load\r\n ;\u2028\u000bSTART\u3000z z ;\u001cEND"
    let plain := "L: MOV #12, R4\nSTART z z\nEND"
    let other := "L: MOV\u2009#12, R4\u0085\u0085START z\tz\rEND; "
    Statement.normal spread = plain ∧ Statement.rows other = Statement.rows spread ∧
      (State.fresh.layout plain).fault? = some (.badNumeral "z z") ∧
      State.fresh.layout plain = State.fresh.layout spread ∧
      State.fresh.layout other = State.fresh.layout spread := by
  intro spread plain other
  have tidied : Statement.normal spread = plain := by
    decide
  have rowsOther : Statement.rows other =
      [["L:", "MOV", "#12,", "R4"], ["START", "z", "z"], ["END"]] := by
    decide
  have rowsSpread : Statement.rows spread =
      [["L:", "MOV", "#12,", "R4"], ["START", "z", "z"], ["END"]] := by
    decide
  have sameRows : Statement.rows other = Statement.rows spread :=
    rowsOther.trans rowsSpread.symm
  obtain ⟨alike, _unchanged, byRows⟩ := State.fresh.layout_normal spread
  rw [tidied] at alike
  exact ⟨tidied, sameRows, by decide, alike, (byRows other).2 sameRows⟩

end State
end Assembler
end Msp430
