import Msp430.Proofs.Placement

/-!
Texts joined at a line feed.  Joining adds at most one empty line between the lines of
the two texts, so the statements of the whole are those of the parts.  Main statement:
laying out the whole is laying out the first text and then, unless that stopped at a
fault or at `END`, the second from the memory the first has left.
-/

namespace Msp430
namespace Text

/-- Every terminator of lines is a blank. -/
theorem isBreak_of_not_isBlank {c : Char} (visible : isBlank c = false) :
    isBreak c = false := by
  unfold isBlank at visible
  unfold isBreak
  simp only [Bool.or_eq_false_iff, Bool.and_eq_false_iff, decide_eq_false_iff_not,
    beq_eq_false_iff_ne] at visible ⊢
  omega

theorem growLine_append (c : Char) {front : List (List Char)} (nonempty : front ≠ [])
    (back : List (List Char)) : growLine c (front ++ back) = growLine c front ++ back := by
  cases front with
  | nil => exact absurd rfl nonempty
  | cons line others => rfl

/-- A character that does not begin the pair of carriage return and line feed. -/
theorem lines_cons {c : Char} {rest : List Char}
    (single : c = '\r' → ∀ later, rest ≠ '\n' :: later) :
    lines (c :: rest) = if isBreak c then [] :: lines rest else growLine c (lines rest) := by
  rw [lines.eq_def]
  split
  · contradiction
  · rename_i later same
    cases same
    exact absurd rfl (single rfl later)
  · rename_i same
    cases same
    rfl

theorem lines_feed (rest : List Char) : lines ('\n' :: rest) = [] :: lines rest :=
  lines_cons (fun carriage => absurd carriage (by decide))

theorem lines_ne_nil {text : List Char} (nonempty : text ≠ []) : lines text ≠ [] := by
  rw [lines.eq_def]
  split
  · exact absurd rfl nonempty
  · exact List.cons_ne_nil _ _
  · split
    · exact List.cons_ne_nil _ _
    · unfold growLine
      split <;> exact List.cons_ne_nil _ _

/-- A carriage return stays single when text comes behind what follows it. -/
theorem single_append {c : Char} {rest : List Char}
    (single : ∀ later, c = '\r' → rest = '\n' :: later → False) (back : List Char)
    (unpaired : c = '\r' → rest = [] → ∀ later, back ≠ '\n' :: later) :
    c = '\r' → ∀ later, rest ++ back ≠ '\n' :: later := by
  intro carriage later same
  cases rest with
  | nil => exact unpaired carriage rfl later same
  | cons d others =>
      rw [List.cons_append, List.cons_eq_cons] at same
      exact single others carriage (by rw [same.1])

/-- A line feed behind a text ends its last line, or makes an empty one if the text ends
in a terminator that is not a carriage return. -/
theorem lines_append_feed (front back : List Char) :
    lines (front ++ '\n' :: back) = lines front ++ lines back ∨
      lines (front ++ '\n' :: back) = lines front ++ [] :: lines back := by
  fun_induction lines front with
  | case1 => exact Or.inr rfl
  | case2 rest inductionHypothesis =>
      rcases inductionHypothesis with same | added
      · exact Or.inl (congrArg (List.cons []) same)
      · exact Or.inr (congrArg (List.cons []) added)
  | case3 c rest single ending inductionHypothesis =>
      by_cases paired : c = '\r' ∧ rest = []
      · rw [paired.1, paired.2]
        exact Or.inl rfl
      · have apart := single_append single ('\n' :: back)
          (fun carriage alone => absurd ⟨carriage, alone⟩ paired)
        rw [List.cons_append, lines_cons apart, if_pos ending]
        rcases inductionHypothesis with same | added
        · exact Or.inl (congrArg (List.cons []) same)
        · exact Or.inr (congrArg (List.cons []) added)
  | case4 c rest single inside inductionHypothesis =>
      have ordinary : c ≠ '\r' := by
        intro carriage
        subst c
        exact inside (by decide)
      rw [List.cons_append, lines_cons (fun carriage => absurd carriage ordinary),
        if_neg inside]
      by_cases last : rest = []
      · rw [last]
        exact Or.inl rfl
      · rcases inductionHypothesis with same | added
        · rw [same, growLine_append c (lines_ne_nil last)]
          exact Or.inl rfl
        · rw [added, growLine_append c (lines_ne_nil last)]
          exact Or.inr rfl

/-- Behind a terminator, or at the beginning, a text has lines of its own. -/
theorem lines_append_of_break {front : List Char}
    (closed : ∀ c ∈ front.getLast?, isBreak c = true) {back : List Char}
    (unpaired : ∀ later, back ≠ '\n' :: later) :
    lines (front ++ back) = lines front ++ lines back := by
  have closedRest {c : Char} {rest : List Char}
      (whole : ∀ d ∈ (c :: rest).getLast?, isBreak d = true) :
      ∀ d ∈ rest.getLast?, isBreak d = true := by
    intro d last
    apply whole
    rw [List.getLast?_cons, Option.mem_def.mp last]
    rfl
  fun_induction lines front with
  | case1 => rfl
  | case2 rest inductionHypothesis =>
      exact congrArg (List.cons []) (inductionHypothesis (closedRest (closedRest closed)))
  | case3 c rest single ending inductionHypothesis =>
      have apart := single_append single back (fun _ _ => unpaired)
      rw [List.cons_append, lines_cons apart, if_pos ending]
      exact congrArg (List.cons []) (inductionHypothesis (closedRest closed))
  | case4 c rest single inside inductionHypothesis =>
      have nonempty : rest ≠ [] := by
        intro empty
        rw [empty] at closed
        exact inside (closed c rfl)
      have apart := single_append single back (fun _ empty => absurd empty nonempty)
      rw [List.cons_append, lines_cons apart, if_neg inside,
        inductionHypothesis (closedRest closed), growLine_append c (lines_ne_nil nonempty)]

theorem lines_append_of_unbroken {front : List Char}
    (unbroken : ∀ c ∈ front, isBreak c = false) (back : List Char) :
    lines (front ++ back) = front.foldr growLine (lines back) := by
  induction front with
  | nil => rfl
  | cons c others inductionHypothesis =>
      obtain ⟨first, later⟩ := List.forall_mem_cons.mp unbroken
      have ordinary : c ≠ '\r' := by
        intro carriage
        rw [carriage] at first
        exact absurd first (by decide)
      rw [List.cons_append, lines_cons (fun carriage => absurd carriage ordinary), first,
        inductionHypothesis later]
      rfl

theorem foldr_growLine (word line : List Char) (others : List (List Char)) :
    word.foldr growLine (line :: others) = (word ++ line) :: others := by
  induction word with
  | nil => rfl
  | cons c rest inductionHypothesis =>
      rw [List.foldr_cons, inductionHypothesis]
      rfl

theorem lines_of_unbroken {text : List Char} (nonempty : text ≠ [])
    (unbroken : ∀ c ∈ text, isBreak c = false) : lines text = [text] := by
  have single := lines_append_of_unbroken unbroken []
  rw [List.append_nil] at single
  rcases List.eq_nil_or_concat text with empty | ⟨front, last, same⟩
  · exact absurd empty nonempty
  · rw [single, same, List.concat_eq_append, List.foldr_append]
    exact foldr_growLine front [last] []

/-- Line feeds between texts that hold no terminator divide the whole into these texts. -/
theorem lines_intercalate {pieces : List (List Char)}
    (unbroken : ∀ piece ∈ pieces, piece ≠ [] ∧ ∀ c ∈ piece, isBreak c = false) :
    lines (List.intercalate ['\n'] pieces) = pieces := by
  induction pieces with
  | nil => rfl
  | cons piece others inductionHypothesis =>
      obtain ⟨⟨nonempty, whole⟩, later⟩ := List.forall_mem_cons.mp unbroken
      cases others with
      | nil => rw [List.intercalate_singleton, lines_of_unbroken nonempty whole]
      | cons next rest =>
          rw [List.intercalate_cons_cons, List.append_assoc, List.singleton_append,
            lines_append_of_unbroken whole, lines_feed, foldr_growLine, List.append_nil,
            inductionHypothesis later]

/-- In front of a terminator, or at the end, a text without terminators is a line; if it
is empty and at the end there is no such line. -/
theorem lines_append_of_opened {back : List Char}
    (opened : ∀ c ∈ back.head?, isBreak c = true) :
    ∃ others, ∀ word, (∀ c ∈ word, isBreak c = false) →
      lines (word ++ back) = word :: others ∨ (word = [] ∧ lines (word ++ back) = others) := by
  cases back with
  | nil =>
      refine ⟨[], fun word unbroken => ?_⟩
      rw [List.append_nil]
      by_cases empty : word = []
      · rw [empty]
        exact Or.inr ⟨rfl, rfl⟩
      · exact Or.inl (lines_of_unbroken empty unbroken)
  | cons c rest =>
      have emptyLine : ∃ others, lines (c :: rest) = [] :: others := by
        rw [lines.eq_def]
        split
        · contradiction
        · exact ⟨_, rfl⟩
        · rename_i same
          cases same
          rw [if_pos (opened c rfl)]
          exact ⟨_, rfl⟩
      obtain ⟨others, divided⟩ := emptyLine
      refine ⟨others, fun word unbroken => Or.inl ?_⟩
      rw [lines_append_of_unbroken unbroken, divided, foldr_growLine, List.append_nil]

end Text

namespace Assembler

/-- The empty line holds no statement, so nothing comes between the statements of two
texts. -/
theorem Statement.all_join (front back : String) :
    all (front ++ "\n" ++ back) = all front ++ all back := by
  have characters : (front ++ "\n" ++ back).toList = front.toList ++ '\n' :: back.toList := by
    simp
  unfold all
  rw [characters]
  rcases Text.lines_append_feed front.toList back.toList with same | added
  · rw [same, List.filterMap_append]
  · rw [added, List.filterMap_append, List.filterMap_cons_none rfl]

namespace State

/-- A run over two parts goes on behind the first unless it stopped there. -/
theorem placeAll_append (state : State) (front back : List Statement) :
    state.placeAll (front ++ back) =
      match (state.placeAll front).flow with
      | .running => (state.placeAll front).state.placeAll back
      | _ => state.placeAll front := by
  induction front generalizing state with
  | nil => rfl
  | cons statement others inductionHypothesis =>
      rw [List.cons_append, placeAll, placeAll]
      cases state.place statement with
      | mk next flow =>
          cases flow with
          | running => exact inductionHypothesis next
          | ended => rfl
          | failed fault => rfl

/-- Layout comes to an `END` that is not skipped for its label. -/
def ReachesEnd (state : State) (statements : List Statement) : Prop :=
  ∃ front statement back, statements = front ++ statement :: back ∧
    (state.placeAll front).flow = .running ∧
    (state.placeAll front).state.Admits statement ∧ statement.opcode = "END"

theorem Places.ended_iff {state : State} {statement : Statement} {progress : Progress}
    (placed : state.Places statement progress) :
    progress.flow = .ended ↔ state.Admits statement ∧ statement.opcode = "END" := by
  cases placed with
  | skipped name value label bound =>
      refine ⟨nofun, ?_⟩
      rintro ⟨admitted, _⟩
      rw [admitted name label] at bound
      cases bound
  | started address admitted opcode reads =>
      refine ⟨nofun, ?_⟩
      rintro ⟨_, final⟩
      rw [opcode] at final
      exact absurd final (by decide)
  | refused text admitted opcode operand unread =>
      refine ⟨nofun, ?_⟩
      rintro ⟨_, final⟩
      rw [opcode] at final
      exact absurd final (by decide)
  | ended admitted opcode => exact ⟨fun _ => ⟨admitted, opcode⟩, fun _ => rfl⟩
  | kept admitted notStart notEnd => exact ⟨nofun, fun reached => absurd reached.2 notEnd⟩

theorem ReachesEnd.cons {state : State} {statement : Statement} {others : List Statement}
    (running : (state.place statement).flow = .running)
    (reached : (state.place statement).state.ReachesEnd others) :
    state.ReachesEnd (statement :: others) := by
  obtain ⟨front, last, back, same, ends⟩ := reached
  refine ⟨statement :: front, last, back, by rw [same]; rfl, ?_⟩
  rw [placeAll_cons_of_running running]
  exact ends

theorem placeAll_ended_iff (state : State) (statements : List Statement) :
    (state.placeAll statements).flow = .ended ↔ state.ReachesEnd statements := by
  constructor
  · intro ended
    induction statements generalizing state with
    | nil => cases ended
    | cons statement others inductionHypothesis =>
        rcases state.placeAll_cons_cases statement others with
          ⟨running, continued⟩ | ⟨_stopped, final⟩
        · rw [continued] at ended
          exact (inductionHypothesis _ ended).cons running
        · rw [final] at ended
          exact ⟨[], statement, others, rfl, rfl,
            (state.places_place statement).ended_iff.mp ended⟩
  · rintro ⟨front, statement, back, same, running, reached⟩
    have ended := ((state.placeAll front).state.places_place statement).ended_iff.mpr reached
    rw [same, placeAll_append, running]
    rcases (state.placeAll front).state.placeAll_cons_cases statement back with
      ⟨goesOn, _continued⟩ | ⟨_stopped, final⟩
    · rw [goesOn] at ended
      cases ended
    · exact (congrArg Progress.flow final).trans ended

theorem layout_append (state : State) (front back : String) :
    state.layout (front ++ "\n" ++ back) =
      match (state.layout front).flow with
      | .running => (state.layout front).state.layout back
      | _ => state.layout front := by
  unfold layout
  rw [Statement.all_join]
  exact state.placeAll_append _ _

/-- Layout of two texts with a line feed between them.  A fault or an `END` in the first
text leaves no part to the second; otherwise the second is laid out from the state that
the first has left, and ends as it would there. -/
theorem layout_join (state : State) (front back : String) :
    (∀ fault, (state.layout front).fault? = some fault →
      (state.layout (front ++ "\n" ++ back)).fault? = some fault ∧
        (state.layout (front ++ "\n" ++ back)).state = (state.layout front).state) ∧
    (state.ReachesEnd (Statement.all front) →
      (state.layout front).fault? = none ∧
        (state.layout (front ++ "\n" ++ back)).fault? = none ∧
        (state.layout (front ++ "\n" ++ back)).state = (state.layout front).state) ∧
    ((state.layout front).fault? = none → ¬ state.ReachesEnd (Statement.all front) →
      (state.layout (front ++ "\n" ++ back)).fault? =
          ((state.layout front).state.layout back).fault? ∧
        (state.layout (front ++ "\n" ++ back)).state =
          ((state.layout front).state.layout back).state) := by
  have ends : (state.layout front).flow = .ended ↔ state.ReachesEnd (Statement.all front) :=
    state.placeAll_ended_iff (Statement.all front)
  rw [state.layout_append front back, ← ends]
  unfold Progress.fault?
  cases flow : (state.layout front).flow with
  | running => simp
  | ended => simp [flow]
  | failed fault => simp [flow]

/-- The first text defines a label and ends in a carriage return; the second has the label
again, which is skipped, and a start address that does not read. -/
theorem layout_join_carriage_return :
    let front := "L: RET\r"
    let back := "L: END\nSTART L"
    (State.fresh.layout front).fault? = none ∧
      ¬ State.fresh.ReachesEnd (Statement.all front) ∧
      (State.fresh.layout (front ++ "\n" ++ back)).fault? = some (.badNumeral "L") ∧
      (State.fresh.layout (front ++ "\n" ++ back)).state =
        ((State.fresh.layout front).state.layout back).state := by
  intro front back
  have placed : (State.fresh.layout front).fault? = none := by
    decide
  have endless : ¬ State.fresh.ReachesEnd (Statement.all front) := by
    rw [← placeAll_ended_iff]
    decide
  obtain ⟨fault, final⟩ := (State.fresh.layout_join front back).2.2 placed endless
  exact ⟨placed, endless, fault.trans (by decide), final⟩

end State
end Assembler
end Msp430
