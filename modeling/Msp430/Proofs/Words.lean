import Mathlib.Data.List.Basic
import Mathlib.Data.List.TakeWhile
import Msp430.Text.Blank
import Msp430.Text.Fields

/-!
Words, cores and cuts.  The words of a text follow from one equation, what a blank
between two texts does; the core of a text is what trimming leaves.  Main statements:
`words_of_first` takes the first word off, `words_mapCore` changes a core in its place,
and `squeezed_append_mark` cuts a text at a mark before or after its blanks are squeezed.
-/

namespace Msp430
namespace Text

theorem blank_space : ∀ c ∈ [' '], isBlank c = true :=
  List.forall_mem_singleton.mpr (by decide)

def Solid (text : List Char) : Prop :=
  ∀ c ∈ text, isBlank c = false

/-! ### Words -/

theorem words_append_blank {c : Char} (blank : isBlank c = true) (front back : List Char) :
    words (front ++ c :: back) = words front ++ words back := by
  unfold words
  rw [List.splitOnP_append_cons front back blank, List.filter_append]

theorem words_nil : words [] = [] := rfl

theorem words_blanks_append {blanks : List Char} (blank : ∀ c ∈ blanks, isBlank c = true)
    (text : List Char) : words (blanks ++ text) = words text := by
  induction blanks with
  | nil => rfl
  | cons c others inductionHypothesis =>
      obtain ⟨first, later⟩ := List.forall_mem_cons.mp blank
      have apart := words_append_blank first [] (others ++ text)
      rw [words_nil, List.nil_append, List.nil_append] at apart
      rw [List.cons_append, apart, inductionHypothesis later]

theorem words_blanks {blanks : List Char} (blank : ∀ c ∈ blanks, isBlank c = true) :
    words blanks = [] := by
  have apart := words_blanks_append blank []
  rw [List.append_nil] at apart
  exact apart

theorem words_append_of_head {text rest : List Char}
    (apart : ∀ c ∈ rest.head?, isBlank c = true) :
    words (text ++ rest) = words text ++ words rest := by
  cases rest with
  | nil => rw [words_nil, List.append_nil, List.append_nil]
  | cons c others =>
      have blank : isBlank c = true := apart c rfl
      have behind := words_append_blank blank [] others
      rw [words_nil, List.nil_append, List.nil_append] at behind
      rw [words_append_blank blank, behind]

theorem words_append_blanks {blanks : List Char} (blank : ∀ c ∈ blanks, isBlank c = true)
    (text : List Char) : words (text ++ blanks) = words text := by
  have apart : ∀ c ∈ blanks.head?, isBlank c = true :=
    fun c first => blank c (List.mem_of_mem_head? first)
  rw [words_append_of_head apart, words_blanks blank, List.append_nil]

theorem words_of_solid {text : List Char} (nonempty : text ≠ []) (solid : Solid text) :
    words text = [text] := by
  unfold words
  rw [List.splitOnP_eq_singleton solid]
  simp [nonempty]

theorem words_of_first {blanks word rest : List Char}
    (blank : ∀ c ∈ blanks, isBlank c = true) (nonempty : word ≠ []) (solid : Solid word)
    (apart : ∀ c ∈ rest.head?, isBlank c = true) :
    words (blanks ++ word ++ rest) = word :: words rest := by
  rw [List.append_assoc, words_blanks_append blank, words_append_of_head apart,
    words_of_solid nonempty solid]
  rfl

theorem solid_of_mem_splitOnP {text word : List Char} (member : word ∈ text.splitOnP isBlank) :
    Solid word ∧ ∀ c ∈ word, c ∈ text := by
  induction text generalizing word with
  | nil =>
      rw [List.splitOnP_nil, List.mem_singleton] at member
      rw [member]
      exact ⟨nofun, nofun⟩
  | cons first others inductionHypothesis =>
      rw [List.splitOnP_cons_eq_if_modifyHead] at member
      obtain ⟨head, tail, pieces⟩ :=
        List.exists_cons_of_ne_nil (List.splitOnP_ne_nil isBlank others)
      have later {piece : List Char} (kept : piece ∈ head :: tail) :
          Solid piece ∧ ∀ c ∈ piece, c ∈ first :: others := by
        obtain ⟨solid, inside⟩ := inductionHypothesis (pieces ▸ kept)
        exact ⟨solid, fun c own => List.mem_cons_of_mem first (inside c own)⟩
      rw [pieces] at member
      split at member
      · rcases List.mem_cons.mp member with same | kept
        · rw [same]
          exact ⟨nofun, nofun⟩
        · exact later kept
      · rename_i visible
        rw [List.modifyHead_cons] at member
        rcases List.mem_cons.mp member with same | kept
        · obtain ⟨solid, inside⟩ := later (List.mem_cons_self : head ∈ head :: tail)
          rw [same]
          exact ⟨List.forall_mem_cons.mpr ⟨by simpa using visible, solid⟩,
            List.forall_mem_cons.mpr ⟨List.mem_cons_self, inside⟩⟩
        · exact later (List.mem_cons_of_mem head kept)

theorem mem_words {text word : List Char} (member : word ∈ words text) :
    word ≠ [] ∧ Solid word ∧ ∀ c ∈ word, c ∈ text := by
  obtain ⟨piece, nonempty⟩ := List.mem_filter.mp member
  exact ⟨by simpa using nonempty, solid_of_mem_splitOnP piece⟩

/-! ### The first word -/

theorem takeWhile_solid (text : List Char) : Solid (text.takeWhile (fun c => !isBlank c)) := by
  intro c member
  simpa using List.mem_takeWhile_imp member

theorem dropWhile_apart (text : List Char) :
    ∀ c ∈ (text.dropWhile (fun c => !isBlank c)).head?, isBlank c = true := by
  intro c first
  have stopped := List.head?_dropWhile_not (fun c => !isBlank c) text
  rw [Option.mem_def.mp first] at stopped
  simpa using stopped

/-- The blanks before the first word of a text, the word, and what stands behind it. -/
structure Opening where
  blanks : List Char
  word : List Char
  rest : List Char

def opening (text : List Char) : Opening :=
  { blanks := text.takeWhile isBlank
    word := (text.dropWhile isBlank).takeWhile (fun c => !isBlank c)
    rest := (text.dropWhile isBlank).dropWhile (fun c => !isBlank c) }

section Opening

variable (text : List Char)

theorem opening_append : (opening text).blanks ++ (opening text).word ++ (opening text).rest =
    text := by
  unfold opening
  rw [List.append_assoc, List.takeWhile_append_dropWhile, List.takeWhile_append_dropWhile]

theorem opening_blanks : ∀ c ∈ (opening text).blanks, isBlank c = true :=
  fun _c member => List.mem_takeWhile_imp member

theorem opening_solid : Solid (opening text).word :=
  takeWhile_solid (text.dropWhile isBlank)

theorem opening_apart : ∀ c ∈ (opening text).rest.head?, isBlank c = true :=
  dropWhile_apart (text.dropWhile isBlank)

theorem blank_of_opening {text : List Char} (wordless : (opening text).word = []) :
    ∀ c ∈ text, isBlank c = true := by
  rw [← List.dropWhile_eq_nil_iff]
  unfold opening at wordless
  cases started : text.dropWhile isBlank with
  | nil => rfl
  | cons c others =>
      have stopped := List.head?_dropWhile_not isBlank text
      rw [started] at stopped wordless
      change isBlank c = false at stopped
      rw [List.takeWhile_cons_of_pos (by rw [stopped]; rfl)] at wordless
      cases wordless

theorem words_opening (present : (opening text).word ≠ []) :
    words text = (opening text).word :: words (opening text).rest := by
  have first := words_of_first (opening_blanks text) present (opening_solid text)
    (opening_apart text)
  rw [opening_append] at first
  exact first

theorem words_ne_nil_of_mem {text : List Char} {c : Char} (member : c ∈ text)
    (visible : isBlank c = false) : words text ≠ [] := by
  have present : (opening text).word ≠ [] := by
    intro wordless
    rw [blank_of_opening wordless c member] at visible
    cases visible
  rw [words_opening text present]
  exact List.cons_ne_nil _ _

end Opening

/-! ### Cores -/

/-- Change what is left of a text when the characters of a class are dropped from both
ends. -/
def mapCore (dropped : Char → Bool) (change : List Char → List Char) (text : List Char) :
    List Char :=
  text.takeWhile dropped ++ change (trimBy dropped text) ++
    ((text.dropWhile dropped).reverse.takeWhile dropped).reverse

section Core

variable (dropped : Char → Bool)

theorem trimBy_append_dropped (text : List Char) :
    trimBy dropped text ++ ((text.dropWhile dropped).reverse.takeWhile dropped).reverse =
      text.dropWhile dropped := by
  unfold trimBy
  rw [← List.reverse_append, List.takeWhile_append_dropWhile, List.reverse_reverse]

/-- Every text is its core between dropped characters, and only the core changes. -/
theorem exists_ends (text : List Char) :
    ∃ front back, (∀ c ∈ front, dropped c = true) ∧ (∀ c ∈ back, dropped c = true) ∧
      text = front ++ trimBy dropped text ++ back ∧
      ∀ change, mapCore dropped change text = front ++ change (trimBy dropped text) ++ back := by
  refine ⟨text.takeWhile dropped, ((text.dropWhile dropped).reverse.takeWhile dropped).reverse,
    fun c member => List.mem_takeWhile_imp member,
    fun c member => List.mem_takeWhile_imp (List.mem_reverse.mp member), ?_, fun _change => rfl⟩
  rw [List.append_assoc, trimBy_append_dropped, List.takeWhile_append_dropWhile]

/-- The core begins and ends in characters that are not dropped. -/
theorem trimBy_head? {text : List Char} {c : Char}
    (first : (trimBy dropped text).head? = some c) : dropped c = false := by
  have stopped := List.head?_dropWhile_not dropped text
  rw [← trimBy_append_dropped, List.head?_append, first] at stopped
  exact stopped

theorem trimBy_getLast? {text : List Char} {c : Char}
    (last : (trimBy dropped text).getLast? = some c) : dropped c = false := by
  have stopped := List.head?_dropWhile_not dropped (text.dropWhile dropped).reverse
  unfold trimBy at last
  rw [List.getLast?_reverse] at last
  rw [last] at stopped
  exact stopped

theorem trimBy_of_ends {text : List Char} (first : ∀ c ∈ text.head?, dropped c = false)
    (last : ∀ c ∈ text.getLast?, dropped c = false) : trimBy dropped text = text := by
  have kept {text : List Char} (first : ∀ c ∈ text.head?, dropped c = false) :
      text.dropWhile dropped = text := by
    cases text with
    | nil => rfl
    | cons c others => exact List.dropWhile_cons_of_neg (by rw [first c rfl]; decide)
  unfold trimBy
  rw [kept first, kept (by rw [List.head?_reverse]; exact last), List.reverse_reverse]

theorem trimBy_append_front {front : List Char} (ends : ∀ c ∈ front, dropped c = true)
    (text : List Char) : trimBy dropped (front ++ text) = trimBy dropped text := by
  unfold trimBy
  rw [List.dropWhile_append_of_pos ends]

theorem trimBy_append_back {back : List Char} (ends : ∀ c ∈ back, dropped c = true)
    (text : List Char) : trimBy dropped (text ++ back) = trimBy dropped text := by
  unfold trimBy
  rw [List.dropWhile_append]
  split
  · rename_i empty
    rw [List.isEmpty_iff.mp empty, List.dropWhile_eq_nil_iff.mpr ends]
  · rw [List.reverse_append, List.dropWhile_append_of_pos
      (fun c member => ends c (List.mem_reverse.mp member))]

end Core

theorem words_trim (text : List Char) : words (trim text) = words text := by
  obtain ⟨front, back, blankFront, blankBack, same, _⟩ := exists_ends isBlank text
  have whole : words text = words (front ++ trimBy isBlank text ++ back) := congrArg words same
  rw [whole, words_append_blanks blankBack, words_blanks_append blankFront]
  rfl

theorem words_mapCore (change : List Char → List Char) (text : List Char) :
    words (mapCore isBlank change text) = words (change (trim text)) := by
  obtain ⟨front, back, blankFront, blankBack, _, changed⟩ := exists_ends isBlank text
  rw [changed, words_append_blanks blankBack, words_blanks_append blankFront]
  rfl

/-- A core with a blank in it has a word on both sides of the blank. -/
theorem two_words_of_blank {text : List Char} (unsolid : ¬ Solid (trim text)) :
    ∃ first second others, words text = first :: second :: others := by
  obtain ⟨c, member, blank⟩ : ∃ c, c ∈ trim text ∧ isBlank c = true := by
    simpa [Solid] using unsolid
  obtain ⟨front, back, same⟩ := List.append_of_mem member
  have before : words front ≠ [] := by
    cases front with
    | nil =>
        have visible := trimBy_head? isBlank (congrArg List.head? same)
        rw [blank] at visible
        cases visible
    | cons d others =>
        have visible := trimBy_head? isBlank (congrArg List.head? same)
        exact words_ne_nil_of_mem List.mem_cons_self visible
  have behind : words back ≠ [] := by
    rcases List.eq_nil_or_concat back with empty | ⟨others, d, last⟩
    · rw [empty] at same
      have visible := trimBy_getLast? isBlank ((congrArg List.getLast? same).trans
        List.getLast?_concat)
      rw [blank] at visible
      cases visible
    · rw [last, List.concat_eq_append, ← List.cons_append, ← List.append_assoc] at same
      have visible := trimBy_getLast? isBlank ((congrArg List.getLast? same).trans
        List.getLast?_concat)
      exact words_ne_nil_of_mem (by rw [last]; simp) visible
  obtain ⟨first, others, some⟩ := List.exists_cons_of_ne_nil before
  obtain ⟨second, later, more⟩ := List.exists_cons_of_ne_nil behind
  rw [← words_trim, same, words_append_blank blank, some, more]
  cases others with
  | nil => exact ⟨first, second, later, rfl⟩
  | cons next rest => exact ⟨first, next, rest ++ second :: later, rfl⟩

/-! ### Squeezed texts -/

/-- The words of a text with single spaces between them. -/
def squeezed (text : List Char) : List Char :=
  List.intercalate [' '] (words text)

theorem intercalate_cons (word : List Char) (others : List (List Char)) :
    List.intercalate [' '] (word :: others) =
      word ++ others.flatMap (fun piece => ' ' :: piece) := by
  induction others generalizing word with
  | nil => simp
  | cons next later inductionHypothesis =>
      rw [List.intercalate_cons_cons, inductionHypothesis]
      simp

theorem intercalate_around (front back : List (List Char)) (word : List Char) :
    List.intercalate [' '] (front ++ word :: back) =
      front.flatMap (fun piece => piece ++ [' ']) ++ word ++
        back.flatMap (fun piece => ' ' :: piece) := by
  induction front with
  | nil => exact intercalate_cons word back
  | cons piece others inductionHypothesis =>
      obtain ⟨next, later, same⟩ : ∃ next later, others ++ word :: back = next :: later :=
        List.exists_cons_of_ne_nil (by simp)
      rw [List.cons_append, same, List.intercalate_cons_cons, ← same, inductionHypothesis]
      simp

theorem mem_intercalate {mark : Char} {pieces : List (List Char)} {c : Char}
    (member : c ∈ List.intercalate [mark] pieces) : c = mark ∨ ∃ piece ∈ pieces, c ∈ piece := by
  induction pieces with
  | nil => simp at member
  | cons piece others inductionHypothesis =>
      cases others with
      | nil =>
          rw [List.intercalate_singleton] at member
          exact Or.inr ⟨piece, List.mem_cons_self, member⟩
      | cons next later =>
          rw [List.intercalate_cons_cons, List.mem_append, List.mem_append,
            List.mem_singleton] at member
          rcases member with (own | between) | behind
          · exact Or.inr ⟨piece, List.mem_cons_self, own⟩
          · exact Or.inl between
          · rcases inductionHypothesis behind with between | ⟨other, kept, own⟩
            · exact Or.inl between
            · exact Or.inr ⟨other, List.mem_cons_of_mem piece kept, own⟩

theorem words_intercalate {pieces : List (List Char)}
    (visible : ∀ piece ∈ pieces, piece ≠ [] ∧ Solid piece) :
    words (List.intercalate [' '] pieces) = pieces := by
  induction pieces with
  | nil => rfl
  | cons piece others inductionHypothesis =>
      obtain ⟨⟨nonempty, solid⟩, later⟩ := List.forall_mem_cons.mp visible
      cases others with
      | nil => rw [List.intercalate_singleton, words_of_solid nonempty solid]
      | cons next rest =>
          rw [List.intercalate_cons_cons, List.append_assoc, List.singleton_append,
            words_append_blank (by decide), words_of_solid nonempty solid,
            inductionHypothesis later]
          rfl

theorem trim_squeezed (text : List Char) : trim (squeezed text) = squeezed text := by
  have solid : ∀ word ∈ words text, word ≠ [] ∧ Solid word :=
    fun word member => ⟨(mem_words member).1, (mem_words member).2.1⟩
  unfold squeezed
  generalize words text = pieces at solid
  apply trimBy_of_ends
  · intro c first
    cases pieces with
    | nil => simp at first
    | cons word others =>
        obtain ⟨nonempty, visible⟩ := solid word List.mem_cons_self
        rw [intercalate_cons, List.head?_append_of_ne_nil _ nonempty] at first
        exact visible c (List.mem_of_mem_head? first)
  · intro c last
    rcases List.eq_nil_or_concat pieces with empty | ⟨others, word, same⟩
    · rw [empty] at last
      simp at last
    · rw [List.concat_eq_append] at same
      obtain ⟨nonempty, visible⟩ := solid word (by rw [same]; simp)
      rw [same, intercalate_around, List.flatMap_nil, List.append_nil,
        List.getLast?_append_of_ne_nil _ nonempty] at last
      exact visible c (List.mem_of_getLast? last)

theorem mem_squeezed {text : List Char} {c : Char} (member : c ∈ squeezed text) :
    c = ' ' ∨ c ∈ text := by
  rcases mem_intercalate member with space | ⟨word, kept, own⟩
  · exact Or.inl space
  · exact Or.inr ((mem_words kept).2.2 c own)

theorem words_append_of_last {front rest : List Char}
    (apart : ∀ c ∈ front.getLast?, isBlank c = true) :
    words (front ++ rest) = words front ++ words rest := by
  rcases List.eq_nil_or_concat front with empty | ⟨earlier, c, same⟩
  · rw [empty]
    rfl
  · rw [List.concat_eq_append] at same
    have blank : isBlank c = true := apart c (by rw [same]; simp)
    have ended := words_append_blank blank earlier []
    rw [words_nil, List.append_nil] at ended
    rw [same, List.append_assoc, List.singleton_append, words_append_blank blank, ended]

theorem exists_solid_head (text : List Char) :
    ∃ head back, text = head ++ back ∧ Solid head ∧ ∀ c ∈ back.head?, isBlank c = true :=
  ⟨text.takeWhile (fun c => !isBlank c), text.dropWhile (fun c => !isBlank c),
    List.takeWhile_append_dropWhile.symm, takeWhile_solid text, dropWhile_apart text⟩

theorem exists_solid_tail (text : List Char) :
    ∃ front tail, text = front ++ tail ∧ Solid tail ∧
      ∀ c ∈ front.getLast?, isBlank c = true := by
  obtain ⟨head, back, same, solid, apart⟩ := exists_solid_head text.reverse
  refine ⟨back.reverse, head.reverse, ?_, ?_, ?_⟩
  · rw [← List.reverse_append, ← same, List.reverse_reverse]
  · exact fun c member => solid c (List.mem_reverse.mp member)
  · rw [List.getLast?_reverse]
    exact apart

/-- Words before a run without blanks: with a space behind each, they are the front of
the squeezed text. -/
theorem trim_before {front tail : List Char} (apart : ∀ c ∈ front.getLast?, isBlank c = true)
    (solid : Solid tail) :
    trim ((words front).flatMap (fun piece => piece ++ [' ']) ++ tail) =
      squeezed (front ++ tail) := by
  have whole := trim_squeezed (front ++ tail)
  have pieces : words (front ++ tail) = words front ++ words tail := words_append_of_last apart
  unfold squeezed at whole ⊢
  rw [pieces] at whole ⊢
  by_cases empty : tail = []
  · subst tail
    rw [words_nil, List.append_nil] at whole ⊢
    rw [List.append_nil]
    rcases List.eq_nil_or_concat (words front) with none | ⟨others, word, same⟩
    · rw [none]
      rfl
    · rw [List.concat_eq_append] at same
      have spaced : (words front).flatMap (fun piece => piece ++ [' ']) =
          List.intercalate [' '] (words front) ++ [' '] := by
        rw [same, intercalate_around]
        simp
      rw [spaced]
      exact (trimBy_append_back isBlank blank_space _).trans whole
  · rw [words_of_solid empty solid, intercalate_around, List.flatMap_nil,
      List.append_nil] at whole ⊢
    exact whole

theorem trim_behind {head back : List Char} (apart : ∀ c ∈ back.head?, isBlank c = true)
    (solid : Solid head) :
    trim (head ++ (words back).flatMap (fun piece => ' ' :: piece)) =
      squeezed (head ++ back) := by
  have whole := trim_squeezed (head ++ back)
  have pieces : words (head ++ back) = words head ++ words back := words_append_of_head apart
  unfold squeezed at whole ⊢
  rw [pieces] at whole ⊢
  by_cases empty : head = []
  · subst head
    rw [words_nil, List.nil_append] at whole ⊢
    rw [List.nil_append]
    cases same : words back with
    | nil => rfl
    | cons word others =>
        have spaced : (word :: others).flatMap (fun piece => ' ' :: piece) =
            [' '] ++ List.intercalate [' '] (word :: others) := by
          rw [intercalate_cons]
          simp
        rw [same] at whole
        rw [spaced]
        exact (trimBy_append_front isBlank blank_space _).trans whole
  · rw [words_of_solid empty solid, List.singleton_append, intercalate_cons] at whole ⊢
    exact whole

/-- A visible mark keeps its place between the parts of a text when blanks are squeezed. -/
theorem squeezed_append_mark {mark : Char} (visible : isBlank mark = false)
    (first second : List Char) :
    ∃ before behind, squeezed (first ++ mark :: second) = before ++ mark :: behind ∧
      trim before = squeezed first ∧ trim behind = squeezed second ∧
      ∀ c ∈ before, c = ' ' ∨ c ∈ first := by
  -- The mark joins the run of visible characters on its left with that on its right.
  obtain ⟨front, tail, firstEq, tailSolid, frontApart⟩ := exists_solid_tail first
  obtain ⟨head, back, secondEq, headSolid, backApart⟩ := exists_solid_head second
  have joined : Solid (tail ++ mark :: head) :=
    List.forall_mem_append.mpr ⟨tailSolid, List.forall_mem_cons.mpr ⟨visible, headSolid⟩⟩
  have parts : first ++ mark :: second = front ++ ((tail ++ mark :: head) ++ back) := by
    rw [firstEq, secondEq]
    simp
  have pieces : words (first ++ mark :: second) =
      words front ++ (tail ++ mark :: head) :: words back := by
    rw [parts, words_append_of_last frontApart, words_append_of_head backApart,
      words_of_solid (by simp) joined]
    rfl
  refine ⟨(words front).flatMap (fun piece => piece ++ [' ']) ++ tail,
    head ++ (words back).flatMap (fun piece => ' ' :: piece), ?_, ?_, ?_, ?_⟩
  · unfold squeezed
    rw [pieces, intercalate_around]
    simp
  · rw [firstEq]
    exact trim_before frontApart tailSolid
  · rw [secondEq]
    exact trim_behind backApart headSolid
  · intro c member
    rw [firstEq, List.mem_append]
    simp only [List.mem_append, List.mem_flatMap, List.mem_singleton] at member
    rcases member with ⟨piece, kept, own | space⟩ | last
    · exact Or.inr (Or.inl ((mem_words kept).2.2 c own))
    · exact Or.inl space
    · exact Or.inr (Or.inr last)

/-- A change that leaves texts with blanks alone and brings no blanks in may be made
before or after squeezing. -/
theorem squeezed_mapCore {change : List Char → List Char}
    (unsolid : ∀ text, ¬ Solid text → change text = text)
    (solid : ∀ text, Solid text → Solid (change text))
    (nonempty : ∀ text, change text = [] ↔ text = []) (text : List Char) :
    squeezed (mapCore isBlank change text) = change (squeezed text) := by
  unfold squeezed
  rw [words_mapCore]
  by_cases visible : Solid (trim text)
  · by_cases empty : trim text = []
    · have wordless : words text = [] := by
        rw [← words_trim, empty]
        rfl
      rw [empty, (nonempty []).mpr rfl, wordless]
      exact ((nonempty []).mpr rfl).symm
    · have single : words text = [trim text] := by
        rw [← words_trim, words_of_solid empty visible]
      rw [words_of_solid (fun none => empty ((nonempty _).mp none)) (solid _ visible), single,
        List.intercalate_singleton, List.intercalate_singleton]
  · obtain ⟨first, second, others, several⟩ := two_words_of_blank visible
    have spaced : ¬ Solid (List.intercalate [' '] (words text)) := by
      intro all
      rw [several, intercalate_cons] at all
      exact absurd (all ' ' (by simp)) (by decide)
    rw [unsolid _ visible, words_trim, unsolid _ spaced]

/-! ### Cuts -/

theorem before_append {mark : Char} {front : List Char} (absent : mark ∉ front)
    (back : List Char) : before mark (front ++ back) = front ++ before mark back := by
  apply List.takeWhile_append_of_pos
  intro c member
  rw [bne_iff_ne]
  exact fun same => absent (same ▸ member)

theorem before_of_not_mem {mark : Char} {text : List Char} (absent : mark ∉ text) :
    before mark text = text := by
  have cut := before_append absent []
  rwa [List.append_nil, show before mark [] = [] from rfl, List.append_nil] at cut

theorem cut?_of_not_mem {mark : Char} {text : List Char} (absent : mark ∉ text) :
    cut? mark text = none := by
  induction text with
  | nil => rfl
  | cons c others inductionHypothesis =>
      rw [List.mem_cons, not_or] at absent
      rw [cut?, if_neg (fun same => absent.1 same.symm), inductionHypothesis absent.2]
      rfl

theorem cut?_append {mark : Char} {front : List Char} (absent : mark ∉ front)
    (back : List Char) : cut? mark (front ++ mark :: back) = some (front, back) := by
  induction front with
  | nil => rw [List.nil_append, cut?, if_pos rfl]
  | cons c others inductionHypothesis =>
      rw [List.mem_cons, not_or] at absent
      rw [List.cons_append, cut?, if_neg (fun same => absent.1 same.symm),
        inductionHypothesis absent.2]
      rfl

theorem cut?_eq_some {mark : Char} {text : List Char} {sides : List Char × List Char}
    (found : cut? mark text = some sides) :
    text = sides.1 ++ mark :: sides.2 ∧ mark ∉ sides.1 := by
  by_cases present : mark ∈ text
  · obtain ⟨front, back, same, first⟩ := List.eq_append_cons_of_mem present
    rw [same, cut?_append first] at found
    cases found
    exact ⟨same, first⟩
  · rw [cut?_of_not_mem present] at found
    cases found

theorem not_mem_of_cut?_eq_none {mark : Char} {text : List Char}
    (uncut : cut? mark text = none) : mark ∉ text := by
  intro present
  obtain ⟨front, back, same, first⟩ := List.eq_append_cons_of_mem present
  rw [same, cut?_append first] at uncut
  cases uncut

end Text
end Msp430
