import Msp430.Assembler.ObjectFile
import Msp430.Proofs.Joining
import Msp430.Proofs.Numerals

/-!
Object files read back.  A line is cut at its mark and both sides are read as numbers.  Main
statement: reading the lines of a saved file gives the object code it was written for, so
files with the same content come from the same object code.
-/

namespace Msp430
namespace Text

/-- What stands before the first occurrence of a pattern, and what stands behind it. -/
def cutAt? (pattern text : List Char) : Option (List Char × List Char) :=
  (indexOf? pattern text).map
    (fun position => (text.take position, text.drop (position + pattern.length)))

section Pattern

variable {first : Char} {front : List Char} (absent : first ∉ front) (others back : List Char)

include absent

theorem indexOf?_append :
    indexOf? (first :: others) (front ++ (first :: others ++ back)) = some front.length := by
  induction front with
  | nil =>
      have here : (first :: others).isPrefixOf (first :: others ++ back) = true :=
        List.isPrefixOf_iff_prefix.mpr (List.prefix_append _ _)
      rw [List.nil_append, List.cons_append, indexOf?, ← List.cons_append, if_pos here]
      rfl
  | cons c rest inductionHypothesis =>
      rw [List.mem_cons, not_or] at absent
      have later : (first :: others).isPrefixOf
          (c :: (rest ++ (first :: others ++ back))) = false := by
        rw [List.isPrefixOf_cons_cons, beq_false_of_ne absent.1, Bool.false_and]
      rw [List.cons_append, indexOf?, later, inductionHypothesis absent.2]
      rfl

theorem cutAt?_append :
    cutAt? (first :: others) (front ++ (first :: others ++ back)) = some (front, back) := by
  unfold cutAt?
  rw [indexOf?_append absent, Option.map_some, List.take_left, ← List.drop_drop,
    List.drop_left, List.drop_left]

end Pattern

theorem feedLines_append_feed {front : List Char} (unbroken : '\n' ∉ front)
    (back : List Char) : feedLines (front ++ '\n' :: back) = front :: feedLines back := by
  induction front with
  | nil => rw [List.nil_append, feedLines, if_pos rfl]
  | cons c rest inductionHypothesis =>
      rw [List.mem_cons, not_or] at unbroken
      rw [List.cons_append, feedLines, if_neg (fun same => unbroken.1 same.symm),
        inductionHypothesis unbroken.2]
      rfl

theorem toList_unlines_cons (item : String) (others : List String) :
    (unlines (item :: others)).toList = item.toList ++ '\n' :: (unlines others).toList := by
  unfold unlines
  simp

theorem feedLines_unlines {items : List String}
    (unbroken : ∀ item ∈ items, ∀ c ∈ item.toList, isBreak c = false) :
    feedLines (unlines items).toList = items.map String.toList := by
  induction items with
  | nil => rfl
  | cons item others inductionHypothesis =>
      obtain ⟨own, later⟩ := List.forall_mem_cons.mp unbroken
      have feedless : '\n' ∉ item.toList :=
        fun feed => absurd (own '\n' feed) (by decide)
      rw [toList_unlines_cons, feedLines_append_feed feedless, inductionHypothesis later]
      rfl

theorem lines_unlines {items : List String}
    (unbroken : ∀ item ∈ items, ∀ c ∈ item.toList, isBreak c = false) :
    lines (unlines items).toList = items.map String.toList := by
  induction items with
  | nil => rfl
  | cons item others inductionHypothesis =>
      obtain ⟨own, later⟩ := List.forall_mem_cons.mp unbroken
      rw [toList_unlines_cons, lines_append_of_unbroken own, lines_feed, foldr_growLine,
        List.append_nil, inductionHypothesis later]
      rfl

end Text

theorem Numeral.colon_not_mem_hex (value : Int) : ':' ∉ (hex value).toList := by
  have digits : ∀ digit : Fin 16, ':' ≠ Nat.digitChar digit := by
    decide
  intro colon
  rcases mem_hex colon with minus | mark | ⟨digit, same⟩
  · exact absurd minus (by decide)
  · exact absurd mark (by decide)
  · exact digits digit same

namespace ObjectWord

open Text

/-- Read a word from the two sides of the mark. -/
def ofLine? (line : List Char) : Option ObjectWord := do
  let (address, code) ← cutAt? ": ".toList line
  let address ← Numeral.hex? (String.ofList address)
  let code ← Numeral.hex? (String.ofList code)
  return { address := address, code := code }

theorem ofLine?_line (word : ObjectWord) : ofLine? word.line.toList = some word := by
  have absent := Numeral.colon_not_mem_hex word.address
  have cut : cutAt? ": ".toList word.line.toList =
      some ((Numeral.hex word.address).toList, (Numeral.hex word.code).toList) := by
    unfold line
    rw [String.toList_append, String.toList_append, List.append_assoc]
    exact cutAt?_append absent [' '] _
  unfold ofLine?
  rw [cut]
  simp [Numeral.hex?_hex]

theorem line_unbroken (word : ObjectWord) : ∀ c ∈ word.line.toList, isBreak c = false := by
  intro c member
  unfold line at member
  rw [String.toList_append, String.toList_append, List.mem_append, List.mem_append] at member
  rcases member with (address | mark) | code
  · exact isBreak_of_not_isBlank (Numeral.graphic_hex word.address c address).isBlank
  · rw [show ": ".toList = [':', ' '] from rfl, List.mem_cons, List.mem_singleton] at mark
    rcases mark with colon | space
    · rw [colon]
      rfl
    · rw [space]
      rfl
  · exact isBreak_of_not_isBlank (Numeral.graphic_hex word.code c code).isBlank

/-- Read a word from each line. -/
def ofLines? (lines : List (List Char)) : Option (List ObjectWord) :=
  lines.mapM ofLine?

theorem ofLines?_lines (object : List ObjectWord) :
    ofLines? ((object.map line).map String.toList) = some object := by
  unfold ofLines?
  induction object with
  | nil => rfl
  | cons word others inductionHypothesis =>
      rw [List.map_cons, List.map_cons, List.mapM_cons, ofLine?_line, inductionHypothesis]
      rfl

/-- The lines of an object file are the same whether a line feed alone ends a line or any
terminator does, and they are read as the words they were written for. -/
theorem ofLines?_file (object : List ObjectWord) :
    ofLines? (lines (file object).toList) = some object ∧
      ofLines? (feedLines (file object).toList) = some object := by
  have unbroken : ∀ item ∈ object.map line, ∀ c ∈ item.toList, isBreak c = false := by
    intro item member
    obtain ⟨word, _, same⟩ := List.mem_map.mp member
    exact same ▸ word.line_unbroken
  unfold file
  rw [lines_unlines unbroken, feedLines_unlines unbroken]
  exact ⟨ofLines?_lines object, ofLines?_lines object⟩

theorem file_inj {first second : List ObjectWord} (same : file first = file second) :
    first = second := by
  have read := (ofLines?_file first).1
  rw [same, (ofLines?_file second).1] at read
  exact (Option.some.inj read).symm

end ObjectWord

namespace Assembler
namespace State

theorem save_files (state : State) {name : String} (creatable : File.creatable name = true) :
    (state.save name).files = [{ name := name, content := ObjectWord.file state.object }] := by
  unfold save
  rw [if_pos creatable]

/-- The object code is known from the object file: two files have the same content exactly if
they were written for the same words, and reading the file line by line gives its words back,
whatever integers their addresses and codes are. -/
theorem save_determines_object (first second : State) {name other : String}
    (creatable : File.creatable name = true) (creatableOther : File.creatable other = true) :
    ((first.save name).files.map File.content = (second.save other).files.map File.content ↔
      first.object = second.object) ∧
    ∃ content, (first.save name).files = [{ name := name, content := content }] ∧
      ObjectWord.ofLines? (Text.lines content.toList) = some first.object ∧
      ObjectWord.ofLines? (Text.feedLines content.toList) = some first.object := by
  rw [first.save_files creatable, second.save_files creatableOther]
  refine ⟨⟨fun same => ?_, fun same => ?_⟩, _, rfl, ObjectWord.ofLines?_file first.object⟩
  · exact ObjectWord.file_inj (List.singleton_inj.mp same)
  · rw [same]
    rfl

/-- A negative address, a negative code and a code of more than sixteen bits; in the other
memory the same words stand in another order. -/
theorem save_determines_object_wide :
    let low : ObjectWord := { address := -18, code := 0x12345 }
    let high : ObjectWord := { address := 4, code := -1 }
    let state := { fresh with object := [low, high] }
    let content := "-0x12: 0x12345\n0x4: -0x1\n"
    (state.save "output.hex").files = [{ name := "output.hex", content := content }] ∧
      ObjectWord.ofLines? (Text.lines content.toList) = some [low, high] ∧
      (state.save "output.hex").files.map File.content ≠
        ({ fresh with object := [high, low] }.save "b").files.map File.content := by
  intro low high state content
  have written : (state.save "output.hex").files =
      [{ name := "output.hex", content := content }] := by
    decide
  obtain ⟨determined, read, files, words, _feedWords⟩ :=
    state.save_determines_object { fresh with object := [high, low] }
      (by decide : File.creatable "output.hex" = true) (by decide : File.creatable "b" = true)
  rw [written] at files
  cases files
  refine ⟨written, words, fun same => ?_⟩
  exact absurd (determined.mp same) (by decide)

end State
end Assembler
end Msp430
