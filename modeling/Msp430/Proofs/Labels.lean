import Mathlib.Data.List.Basic
import Mathlib.Data.List.Sort
import Msp430.Proofs.Calls
import Msp430.Proofs.Listings
import Msp430.Proofs.Numerals

/-!
Labels of a listing.  The table is a function of the instructions alone: it holds the
targets of those that jump, numbered as they are met.  Printing takes a label out of the
table where it is first used up, so a label is either before the first line at its
address or in the list at the end.  Main statement: a listing that succeeds defines every
label once, at the right place.
-/

namespace Msp430
namespace Disassembler

/-! ### Names -/

namespace Labels

variable {labels : Labels}

theorem name_injective : Function.Injective name := by
  intro first second same
  unfold name at same
  rw [Numeral.decimal_natCast, Numeral.decimal_natCast] at same
  exact Numeral.zeroFill_digits_inj (by decide) (by decide)
    ((String.append_right_inj ".L").mp same)

theorem nameOf_inj {first second : Int} (present : first ∈ labels.addresses)
    (same : labels.nameOf first = labels.nameOf second) : first = second := by
  have places := Nat.succ.inj (name_injective same)
  exact (List.idxOf_inj present).mp places

/-! ### The table -/

/-- Give labels to addresses in turn. -/
def addAll (labels : Labels) (addresses : List Int) : Labels :=
  addresses.foldl add labels

theorem addAll_append (labels : Labels) (front back : List Int) :
    labels.addAll (front ++ back) = (labels.addAll front).addAll back :=
  List.foldl_append

theorem nodup_add (distinct : labels.addresses.Nodup) (address : Int) :
    (labels.add address).addresses.Nodup := by
  unfold add
  split
  · exact distinct
  · next absent =>
      apply distinct.append (List.nodup_singleton address)
      rw [List.disjoint_singleton]
      exact fun present => absent (List.contains_iff_mem.mpr present)

theorem nodup_addAll (distinct : labels.addresses.Nodup) (addresses : List Int) :
    (labels.addAll addresses).addresses.Nodup := by
  induction addresses generalizing labels with
  | nil => exact distinct
  | cons address others inductionHypothesis =>
      exact inductionHypothesis (nodup_add distinct address)

/-- The table holds each address once, in the order in which they come first. -/
theorem addresses_addAll (addresses : List Int) :
    (empty.addAll addresses).addresses = addresses.eraseDups := by
  induction addresses using List.reverseRecOn with
  | nil => rfl
  | append_singleton earlier address inductionHypothesis =>
      have held : address ∈ (empty.addAll earlier).addresses ↔ address ∈ earlier := by
        rw [inductionHypothesis, List.mem_eraseDups]
      rw [addAll_append, List.eraseDups_append, ← inductionHypothesis]
      change ((empty.addAll earlier).add address).addresses = _
      by_cases present : address ∈ earlier
      · rw [add_of_mem (held.mpr present)]
        simp [List.removeAll, present]
      · simp [add, held, List.removeAll, present, List.eraseDups_cons]

/-- The label of an address is that of its place. -/
theorem all_getElem? (distinct : labels.addresses.Nodup) {index : Nat} {address : Int}
    (found : labels.addresses[index]? = some address) :
    labels.all[index]? = some (address, name (index + 1)) := by
  obtain ⟨bound, same⟩ := List.getElem?_eq_some_iff.mp found
  have place : labels.addresses.idxOf address = index := by
    rw [← same]
    exact distinct.idxOf_getElem index bound
  unfold all nameOf
  rw [List.getElem?_map, found, Option.map_some, place]

theorem mem_all {address : Int} {label : String} :
    (address, label) ∈ labels.all ↔ address ∈ labels.addresses ∧ label = labels.nameOf address := by
  unfold all
  rw [List.mem_map]
  constructor
  · rintro ⟨key, present, same⟩
    cases same
    exact ⟨present, rfl⟩
  · rintro ⟨present, same⟩
    exact ⟨address, present, Prod.ext rfl same.symm⟩

theorem names_nodup (distinct : labels.addresses.Nodup) : (labels.all.map Prod.snd).Nodup := by
  unfold all
  rw [List.map_map]
  apply List.Nodup.map_on _ distinct
  intro first present second _ same
  exact nameOf_inj present same

end Labels

/-! ### What a description that succeeds has done -/

/-- Success means that the targets of an input have labels and that its addresses are those
of its lines. -/
structure Covers {α : Type} (describe : Labels → α → Labels × Except Fault (List Line))
    (targets addresses : α → List Int) : Prop where
  labels_eq : ∀ {labels next : Labels} {input : α} {lines : List Line},
    describe labels input = (next, .ok lines) → next = labels.addAll (targets input)
  addresses_eq : ∀ {labels next : Labels} {input : α} {lines : List Line},
    describe labels input = (next, .ok lines) →
      lines.filterMap Line.address = addresses input

theorem inTurn_cons_completed {α : Type}
    {describe : Labels → α → Labels × Except Fault (List Line)} {labels next : Labels} {input : α}
    {others : List α} {lines : List Line}
    (described : inTurn describe labels (input :: others) = (next, .ok lines)) :
    ∃ middle early later, describe labels input = (middle, .ok early) ∧
      inTurn describe middle others = (next, .ok later) ∧ lines = early ++ later := by
  rcases first : describe labels input with ⟨middle, fault | early⟩
  · rw [inTurn_cons_error first] at described
    cases described
  · rw [inTurn_cons_ok first] at described
    rcases rest : inTurn describe middle others with ⟨last, fault | later⟩
    · rw [rest] at described
      cases described
    · rw [rest] at described
      cases described
      exact ⟨middle, early, later, rfl, rest, rfl⟩

theorem Covers.inTurn {α : Type} {describe : Labels → α → Labels × Except Fault (List Line)}
    {targets addresses : α → List Int} (covers : Covers describe targets addresses) :
    Covers (inTurn describe) (List.flatMap targets) (List.flatMap addresses) := by
  constructor
  · intro labels next inputs lines described
    induction inputs generalizing labels lines with
    | nil =>
        cases described
        rfl
    | cons input others inductionHypothesis =>
        obtain ⟨middle, early, later, first, rest, _⟩ := inTurn_cons_completed described
        rw [inductionHypothesis rest, covers.labels_eq first, List.flatMap_cons,
          Labels.addAll_append]
  · intro labels next inputs lines described
    induction inputs generalizing labels lines with
    | nil =>
        cases described
        rfl
    | cons input others inductionHypothesis =>
        obtain ⟨middle, early, later, first, rest, joined⟩ := inTurn_cons_completed described
        rw [joined, List.filterMap_append, covers.addresses_eq first, inductionHypothesis rest,
          List.flatMap_cons]

theorem Item.addresses_block (item : Item) (line : Line) :
    (item.block line).filterMap Line.address = line.address.toList := by
  unfold Item.block
  cases item.decoded.endsBlock with
  | true => cases line with | mk address code source => cases address <;> rfl
  | false => cases line with | mk address code source => cases address <;> rfl

theorem Item.addresses_render {setup : Setup} {label : String} {item : Item}
    {lines : List Line} (rendered : item.render setup label = .ok lines) :
    lines.filterMap Line.address = [item.address] := by
  unfold Item.render at rendered
  rcases jumps : item.decoded.jumps with fault | reached
  · rw [jumps] at rendered
    cases rendered
  · rw [jumps] at rendered
    cases reached with
    | false =>
        cases rendered
        exact item.addresses_block _
    | true =>
        rcases targeted : item.decoded.target (item.address + 2) with fault | target
        · rw [targeted] at rendered
          cases rendered
        · rw [targeted] at rendered
          rcases labelled : item.decoded.labelled label with fault | text
          · rw [labelled] at rendered
            cases rendered
          · rw [labelled] at rendered
            cases rendered
            exact item.addresses_block _

theorem covers_item (setup : Setup) :
    Covers (fun labels (item : Item) => item.describe setup labels)
      (fun item => item.target?.toList) (fun item => [item.address]) := by
  constructor
  · intro labels next item lines described
    cases found : item.target? with
    | none =>
        rw [item.describe_of_no_target setup labels found] at described
        exact (congrArg Prod.fst described).symm
    | some target =>
        rw [item.describe_of_target setup labels found] at described
        exact (congrArg Prod.fst described).symm
  · intro labels next item lines described
    cases found : item.target? with
    | none =>
        rw [item.describe_of_no_target setup labels found] at described
        exact item.addresses_render (congrArg Prod.snd described)
    | some target =>
        rw [item.describe_of_target setup labels found] at described
        exact item.addresses_render (congrArg Prod.snd described)

theorem covers_describeAll (setup : Setup) :
    Covers (describeAll setup) (List.filterMap Item.target?) (List.map Item.address) := by
  have targets : List.filterMap Item.target? =
      List.flatMap (fun item : Item => item.target?.toList) := by
    funext items
    exact List.filterMap_eq_flatMap_toList _ items
  have addresses : List.map Item.address = List.flatMap (fun item : Item => [item.address]) := by
    funext items
    exact List.map_eq_flatMap
  rw [describeAll_eq_inTurn, targets, addresses]
  exact (covers_item setup).inTurn

theorem Segment.describe_completed {setup : Setup} {labels next : Labels} {segment : Segment}
    {lines : List Line} (described : segment.describe setup labels = (next, .ok lines)) :
    ∃ later, describeAll setup labels (segment.decoding setup).items = (next, .ok later) ∧
      lines = segment.heading :: later := by
  cases decoded : (segment.decoding setup).fault with
  | some fault =>
      rw [segment.describe_of_fault labels decoded] at described
      cases described
  | none =>
      rw [segment.describe_of_decoded labels decoded] at described
      rcases listed : describeAll setup labels (segment.decoding setup).items
        with ⟨last, fault | later⟩
      · rw [listed] at described
        cases described
      · rw [listed] at described
        cases described
        exact ⟨later, rfl, rfl⟩

theorem covers_segment (setup : Setup) :
    Covers (fun labels (segment : Segment) => segment.describe setup labels)
      (fun segment => (segment.decoding setup).items.filterMap Item.target?)
      (fun segment => (segment.decoding setup).items.map Item.address) := by
  constructor
  · intro labels next segment lines described
    obtain ⟨later, listed, _⟩ := segment.describe_completed described
    exact (covers_describeAll setup).labels_eq listed
  · intro labels next segment lines described
    obtain ⟨later, listed, headed⟩ := segment.describe_completed described
    rw [headed, List.filterMap_cons_none rfl]
    exact (covers_describeAll setup).addresses_eq listed

/-! ### The order of the segments -/

/-- Segments are sorted by their addresses, and equal ones keep their order. -/
theorem inOrder_eq_insertionSort (segments : List Segment) :
    inOrder segments =
      segments.insertionSort (fun segment other => segment.start ≤ other.start) := by
  have enter : ∀ (segment : Segment) (others : List Segment),
      segment.enter others =
        others.orderedInsert (fun segment other => segment.start ≤ other.start) segment := by
    intro segment others
    induction others with
    | nil => rfl
    | cons other rest inductionHypothesis =>
        rw [Segment.enter, List.orderedInsert_cons, inductionHypothesis]
  induction segments with
  | nil => rfl
  | cons segment others inductionHypothesis =>
      rw [inOrder, enter, inductionHypothesis, List.insertionSort_cons]

/-- The instructions of a memory, by segments in the order of their addresses. -/
def listed (setup : Setup) (segments : List Segment) : List Item :=
  (segments.insertionSort (fun segment other => segment.start ≤ other.start)).flatMap
    (fun segment => (decode setup segment.start (words segment.bytes)).items)

theorem describeSegments_completed {setup : Setup} {segments : List Segment} {labels : Labels}
    {lines : List Line}
    (described : describeSegments setup Labels.empty (inOrder segments) = (labels, .ok lines)) :
    labels = Labels.empty.addAll ((listed setup segments).filterMap Item.target?) ∧
      lines.filterMap Line.address = (listed setup segments).map Item.address := by
  have covers := (covers_segment setup).inTurn
  rw [describeSegments_eq_inTurn, inOrder_eq_insertionSort] at described
  unfold listed
  rw [List.filterMap_flatMap, List.map_flatMap]
  exact ⟨covers.labels_eq described, covers.addresses_eq described⟩

/-! ### Printing -/

/-- The labels before the lines: that of a line's address, as long as it is among the
keys, which it then leaves. -/
def labelColumn (name : Int → String) (keys : List Int) : List Line → List String
  | [] => []
  | line :: others =>
      match line.address with
      | none => "" :: labelColumn name keys others
      | some address =>
          (if address ∈ keys then name address ++ ":" else "") ::
            labelColumn name (keys.filter (fun key => key != address)) others

/-- The keys that are the address of no line. -/
def unlisted (keys : List Int) (lines : List Line) : List Int :=
  keys.filter (fun key => lines.all (fun line => line.address != some key))

theorem mem_unlisted {keys : List Int} {lines : List Line} {key : Int} :
    key ∈ unlisted keys lines ↔ key ∈ keys ∧ ∀ line ∈ lines, line.address ≠ some key := by
  unfold unlisted
  rw [List.mem_filter, List.all_eq_true]
  simp only [bne_iff_ne]

theorem unlisted_cons_none (keys : List Int) {line : Line} (unplaced : line.address = none)
    (others : List Line) : unlisted keys (line :: others) = unlisted keys others := by
  unfold unlisted
  simp only [List.all_cons, unplaced]
  rfl

theorem unlisted_cons_some (keys : List Int) {line : Line} {address : Int}
    (placed : line.address = some address) (others : List Line) :
    unlisted keys (line :: others) =
      unlisted (keys.filter (fun key => key != address)) others := by
  unfold unlisted
  rw [List.filter_filter]
  apply List.filter_congr
  intro key _member
  have same : (line.address != some key) = (key != address) := by
    rw [placed, Bool.eq_iff_iff, bne_iff_ne, bne_iff_ne, ne_eq, ne_eq, Option.some.injEq]
    exact not_congr eq_comm
  rw [List.all_cons, same, Bool.and_comm]

theorem lookup_map_name (name : Int → String) (keys : List Int) (address : Int) :
    (keys.map (fun key => (key, name key))).lookup address =
      if address ∈ keys then some (name address) else none := by
  by_cases member : address ∈ keys
  · rw [if_pos member, List.lookup_graph name member]
  · rw [if_neg member, List.lookup_eq_none_iff]
    intro entry found
    obtain ⟨key, present, same⟩ := List.mem_map.mp found
    rw [← same]
    have different : address ≠ key := fun equal => member (equal ▸ present)
    simp [different]

theorem printLines_eq (sourceOnly : Bool) (name : Int → String) (keys : List Int)
    (lines : List Line) :
    printLines sourceOnly (keys.map (fun key => (key, name key))) lines =
      (String.join (List.zipWith (fun label line => line.print sourceOnly label)
          (labelColumn name keys lines) lines),
        (unlisted keys lines).map (fun key => (key, name key))) := by
  induction lines generalizing keys with
  | nil => simp [printLines, labelColumn, unlisted]
  | cons line others inductionHypothesis =>
      cases placed : line.address with
      | none =>
          have later := inductionHypothesis keys
          rw [unlisted_cons_none keys placed]
          simp [printLines, labelColumn, placed, later]
      | some address =>
          have later := inductionHypothesis (keys.filter (fun key => key != address))
          have rest : (keys.map (fun key => (key, name key))).filter
              (fun entry => entry.1 != address) =
                (keys.filter (fun key => key != address)).map (fun key => (key, name key)) :=
            List.filter_map
          rw [unlisted_cons_some keys placed]
          by_cases member : address ∈ keys
          · simp [printLines, labelColumn, placed, later, rest, lookup_map_name, member]
          · simp [printLines, labelColumn, placed, later, rest, lookup_map_name, member]

theorem length_labelColumn (name : Int → String) (keys : List Int) (lines : List Line) :
    (labelColumn name keys lines).length = lines.length := by
  induction lines generalizing keys with
  | nil => rfl
  | cons line others inductionHypothesis =>
      rw [labelColumn]
      cases line.address with
      | none => exact congrArg Nat.succ (inductionHypothesis keys)
      | some address => exact congrArg Nat.succ (inductionHypothesis _)

theorem mem_labelColumn {name : Int → String} {keys : List Int} {lines : List Line}
    {label : String} (member : label ∈ labelColumn name keys lines) :
    label = "" ∨ ∃ key ∈ keys, (∃ line ∈ lines, line.address = some key) ∧
      label = name key ++ ":" := by
  induction lines generalizing keys with
  | nil => cases member
  | cons line others inductionHypothesis =>
      rw [labelColumn] at member
      cases placed : line.address with
      | none =>
          rw [placed] at member
          rcases List.mem_cons.mp member with here | behind
          · exact Or.inl here
          · rcases inductionHypothesis behind with empty | ⟨key, present, ⟨other, later, start⟩, same⟩
            · exact Or.inl empty
            · exact Or.inr
                ⟨key, present, ⟨other, List.mem_cons_of_mem line later, start⟩, same⟩
      | some address =>
          rw [placed] at member
          rcases List.mem_cons.mp member with here | behind
          · by_cases present : address ∈ keys
            · rw [if_pos present] at here
              exact Or.inr ⟨address, present, ⟨line, List.mem_cons_self, placed⟩, here⟩
            · rw [if_neg present] at here
              exact Or.inl here
          · rcases inductionHypothesis behind with empty | ⟨key, present, ⟨other, later, start⟩, same⟩
            · exact Or.inl empty
            · exact Or.inr ⟨key, List.mem_of_mem_filter present,
                ⟨other, List.mem_cons_of_mem line later, start⟩, same⟩

theorem append_colon_ne_empty (name : String) : name ++ ":" ≠ "" := by
  intro empty
  have spelled := congrArg String.toList empty
  rw [String.toList_append] at spelled
  exact absurd (List.append_eq_nil_iff.mp spelled).2 (by decide)

section Places

variable {name : Int → String} {keys : List Int} {address : Int}
  (distinct : ∀ key, name key = name address → key ∈ keys → key = address)

include distinct

theorem append_colon_mem_labelColumn {lines : List Line}
    (member : name address ++ ":" ∈ labelColumn name keys lines) :
    address ∈ keys ∧ ∃ line ∈ lines, line.address = some address := by
  rcases mem_labelColumn member with empty | ⟨key, present, placed, same⟩
  · exact absurd empty (append_colon_ne_empty _)
  · have equal := distinct key ((String.append_left_inj ":").mp same).symm present
    rw [equal] at present placed
    exact ⟨present, placed⟩

theorem labelColumn_cons_of_ne {line : Line} (elsewhere : line.address ≠ some address)
    (present : address ∈ keys) (others : List Line) :
    ∃ label fewer, labelColumn name keys (line :: others) = label :: labelColumn name fewer others ∧
      label ≠ name address ++ ":" ∧ address ∈ fewer ∧ fewer ⊆ keys := by
  rw [labelColumn]
  cases placed : line.address with
  | none => exact ⟨"", keys, rfl, (append_colon_ne_empty _).symm, present, List.Subset.refl keys⟩
  | some other =>
      have different : address ≠ other := by
        intro equal
        exact elsewhere (equal ▸ placed)
      refine ⟨_, _, rfl, ?_, List.mem_filter.mpr ⟨present, bne_iff_ne.mpr different⟩,
        List.filter_subset_self keys⟩
      by_cases known : other ∈ keys
      · rw [if_pos known]
        intro same
        exact different (distinct other ((String.append_left_inj ":").mp same) known).symm
      · rw [if_neg known]
        exact (append_colon_ne_empty _).symm

/-- A key stands before the first line at its address and before no other. -/
theorem labelColumn_getElem?_iff {lines : List Line} (present : address ∈ keys)
    (placed : ∃ line ∈ lines, line.address = some address) (index : Nat) :
    (labelColumn name keys lines)[index]? = some (name address ++ ":") ↔
      index = lines.findIdx (fun line => line.address == some address) := by
  -- The keys shrink along the lines, so the induction is over every set of them.
  induction lines generalizing keys index with
  | nil =>
      obtain ⟨line, member, _⟩ := placed
      cases member
  | cons line others inductionHypothesis =>
      by_cases here : line.address = some address
      · have column : labelColumn name keys (line :: others) = (name address ++ ":") ::
            labelColumn name (keys.filter (fun key => key != address)) others := by
          rw [labelColumn, here]
          simp only [if_pos present]
        rw [column, List.findIdx_cons, here, beq_self_eq_true, cond_true]
        cases index with
        | zero => simp
        | succ index =>
            constructor
            · intro found
              have again := append_colon_mem_labelColumn
                (fun key same member => distinct key same (List.mem_of_mem_filter member))
                (List.mem_of_getElem? found)
              have removed := (List.mem_filter.mp again.1).2
              exact absurd rfl (bne_iff_ne.mp removed)
            · intro impossible
              cases impossible
      · have later : ∃ other ∈ others, other.address = some address := by
          obtain ⟨other, member, start⟩ := placed
          rcases List.mem_cons.mp member with first | behind
          · exact absurd (first ▸ start) here
          · exact ⟨other, behind, start⟩
        obtain ⟨label, fewer, column, unequal, kept, within⟩ :=
          labelColumn_cons_of_ne distinct here present others
        rw [column, List.findIdx_cons, beq_eq_false_iff_ne.mpr here, cond_false]
        cases index with
        | zero =>
            constructor
            · intro found
              exact absurd (Option.some.inj found) unequal
            · intro impossible
              cases impossible
        | succ index =>
            rw [List.getElem?_cons_succ, Nat.succ_inj]
            exact inductionHypothesis
              (fun key same member => distinct key same (within member)) kept later index

end Places

/-! ### Every label once -/

/-- How a listing defines its labels: `column` has what stands before its lines, `left` what
is listed behind them, and instructions start at `starts`. -/
structure Labels.DefinedOnce (labels : Labels) (starts : List Int) (lines : List Line)
    (column : List String) (left : List (Int × String)) : Prop where
  length_eq : column.length = lines.length
  placed : ∀ address name, (address, name) ∈ labels.all → address ∈ starts →
    (∀ index, column[index]? = some (name ++ ":") ↔
      index = lines.findIdx (fun line => line.address == some address)) ∧
    (address, name) ∉ left
  unplaced : ∀ address name, (address, name) ∈ labels.all → address ∉ starts →
    name ++ ":" ∉ column ∧ left.count (address, name) = 1
  column_only : ∀ label ∈ column, label = "" ∨
    ∃ address name, (address, name) ∈ labels.all ∧ label = name ++ ":"
  left_sublist : left.Sublist labels.all

theorem Labels.definedOnce {labels : Labels} (distinct : labels.addresses.Nodup)
    {starts : List Int} {lines : List Line}
    (started : lines.filterMap Line.address = starts) :
    labels.DefinedOnce starts lines (labelColumn labels.nameOf labels.addresses lines)
      ((unlisted labels.addresses lines).map (fun key => (key, labels.nameOf key))) := by
  have starts_iff : ∀ address, address ∈ starts ↔ ∃ line ∈ lines, line.address = some address := by
    intro address
    rw [← started, List.mem_filterMap]
  have own : ∀ address key, labels.nameOf key = labels.nameOf address →
      key ∈ labels.addresses → key = address :=
    fun address key same present => nameOf_inj present same
  constructor
  case length_eq => exact length_labelColumn labels.nameOf labels.addresses lines
  case placed =>
    intro address name member start
    obtain ⟨present, same⟩ := mem_all.mp member
    rw [starts_iff] at start
    rw [same]
    refine ⟨labelColumn_getElem?_iff (own address) present start, ?_⟩
    intro left
    obtain ⟨key, unlisted, equal⟩ := List.mem_map.mp left
    cases equal
    obtain ⟨line, listed, here⟩ := start
    exact (mem_unlisted.mp unlisted).2 line listed here
  case unplaced =>
    intro address name member start
    obtain ⟨present, same⟩ := mem_all.mp member
    rw [starts_iff] at start
    rw [same]
    constructor
    · intro column
      exact start (append_colon_mem_labelColumn (own address) column).2
    · have unlisted : address ∈ unlisted labels.addresses lines :=
        mem_unlisted.mpr ⟨present, fun line listed here => start ⟨line, listed, here⟩⟩
      apply List.count_eq_one_of_mem
      · apply List.Nodup.map _ (distinct.filter _)
        intro first second equal
        exact congrArg Prod.fst equal
      · exact List.mem_map.mpr ⟨address, unlisted, rfl⟩
  case column_only =>
    intro label member
    rcases mem_labelColumn member with empty | ⟨key, present, _, same⟩
    · exact Or.inl empty
    · exact Or.inr ⟨key, labels.nameOf key, mem_all.mpr ⟨present, rfl⟩, same⟩
  case left_sublist => exact List.filter_sublist.map _

theorem disassemble_completed {setup : Setup} {segments : List Segment} {labels next : Labels}
    {sourceOnly : Bool} {text : String}
    (completed : disassemble setup segments labels sourceOnly = (next, .ok text)) :
    ∃ lines, describeSegments setup labels (inOrder segments) = (next, .ok lines) ∧
      text = (printLines sourceOnly next.all lines).1 ++
        printUnplaced (printLines sourceOnly next.all lines).2 := by
  unfold disassemble at completed
  rcases described : describeSegments setup labels (inOrder segments) with ⟨last, fault | lines⟩
  · rw [described] at completed
    cases completed
  · rw [described] at completed
    cases completed
    exact ⟨lines, rfl, rfl⟩

/-- The table of a first listing that succeeds holds the targets of the instructions that
jump, each once and numbered as they are met; the names are distinct.  Each label is
defined once: before the first line at its address if an instruction starts there, and
else in the list at the end. -/
theorem labels_defined_once {setup : Setup} {segments : List Segment} {sourceOnly : Bool}
    {labels : Labels} {text : String}
    (completed : disassemble setup segments Labels.empty sourceOnly = (labels, .ok text)) :
    labels.addresses = ((listed setup segments).filterMap Item.target?).eraseDups ∧
      (∀ index address, labels.addresses[index]? = some address →
        labels.all[index]? = some (address, Labels.name (index + 1))) ∧
      (labels.all.map Prod.snd).Nodup ∧
      ∃ lines column left,
        describeSegments setup Labels.empty (inOrder segments) = (labels, .ok lines) ∧
        lines.filterMap Line.address = (listed setup segments).map Item.address ∧
        text = String.join (List.zipWith (fun label line => line.print sourceOnly label)
          column lines) ++ printUnplaced left ∧
        labels.DefinedOnce ((listed setup segments).map Item.address) lines column left := by
  obtain ⟨lines, described, written⟩ := disassemble_completed completed
  obtain ⟨table, starts⟩ := describeSegments_completed described
  have distinct : labels.addresses.Nodup := by
    rw [table]
    exact Labels.nodup_addAll List.nodup_nil _
  have printed : printLines sourceOnly labels.all lines = _ :=
    printLines_eq sourceOnly labels.nameOf labels.addresses lines
  refine ⟨?_, ?_, Labels.names_nodup distinct, lines, _, _, described, starts, ?_,
    Labels.definedOnce distinct starts⟩
  · rw [table]
    exact Labels.addresses_addAll _
  · intro index address found
    exact Labels.all_getElem? distinct found
  · rw [written, printed]

/-- Two jumps, one to the other and one to where nothing is. -/
theorem labels_defined_once_two_jumps :
    let segments : List Segment := [{ start := 0x200, bytes := [0x00, 0x3c, 0x01, 0x3c] }]
    let labels : Labels := { addresses := [0x202, 0x206] }
    let text := "; Segment starting at 0x00000200:         \n" ++
      "        jmp     .L0001                       ; ca. 2 cycles +0 --> 0x0202\n" ++
      "         \n" ++
      ".L0001: jmp     .L0002                       ; ca. 2 cycles +2 --> 0x0206\n" ++
      "         \n" ++
      "\nLabels that could not be placed:\n    .L0002 = 0x0206\n"
    disassemble (bare false) segments Labels.empty true = (labels, .ok text) ∧
      labels.all = [(0x202, ".L0001"), (0x206, ".L0002")] ∧
      ∃ lines column left,
        text = String.join (List.zipWith (fun label line => line.print true label)
          column lines) ++ printUnplaced left ∧
        labels.DefinedOnce ((listed (bare false) segments).map Item.address) lines column left := by
  intro segments labels text
  have completed : disassemble (bare false) segments Labels.empty true = (labels, .ok text) := by
    decide +kernel
  obtain ⟨_, _, _, lines, column, left, _, _, written, once⟩ := labels_defined_once completed
  refine ⟨completed, by decide, lines, column, left, written, once⟩

end Disassembler
end Msp430
