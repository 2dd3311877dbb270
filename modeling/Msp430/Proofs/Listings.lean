import Mathlib.Data.List.Infix
import Msp430.Disassembler.Listing

/-!
Listings of one memory, one after the other.  Labels are only ever added behind those
that are there, and a name is read off the place of its address, so a name once given
stays.  A listing is then the same whether its labels are given on the way or before it
begins.  Main statement: every listing of a memory is its first one.
-/

namespace Msp430
namespace Disassembler

/-! ### One input after the other -/

/-- Describe inputs in turn, up to the first failure. -/
def inTurn {α : Type} (describe : Labels → α → Labels × Except Fault (List Line))
    (labels : Labels) : List α → Labels × Except Fault (List Line)
  | [] => (labels, .ok [])
  | input :: others =>
      match describe labels input with
      | (next, .error fault) => (next, .error fault)
      | (next, .ok lines) =>
          ((inTurn describe next others).1,
            (inTurn describe next others).2.map (fun later => lines ++ later))

section InTurn

variable {α : Type} {describe : Labels → α → Labels × Except Fault (List Line)}
  {labels next : Labels} {input : α}

theorem inTurn_cons_error {fault : Fault} (failed : describe labels input = (next, .error fault))
    (others : List α) : inTurn describe labels (input :: others) = (next, .error fault) := by
  rw [inTurn, failed]

theorem inTurn_cons_ok {lines : List Line} (described : describe labels input = (next, .ok lines))
    (others : List α) :
    inTurn describe labels (input :: others) =
      ((inTurn describe next others).1,
        (inTurn describe next others).2.map (fun later => lines ++ later)) := by
  rw [inTurn, described]

end InTurn

theorem describeAll_eq_inTurn (setup : Setup) :
    describeAll setup = inTurn (fun labels item => item.describe setup labels) := by
  funext labels items
  induction items generalizing labels with
  | nil => rfl
  | cons item others inductionHypothesis =>
      rw [describeAll, inTurn]
      rcases item.describe setup labels with ⟨next, fault | lines⟩
      · rfl
      · simp only [← inductionHypothesis next]
        rcases describeAll setup next others with ⟨last, fault | later⟩
        · rfl
        · rfl

theorem describeSegments_eq_inTurn (setup : Setup) :
    describeSegments setup = inTurn (fun labels segment => segment.describe setup labels) := by
  funext labels segments
  induction segments generalizing labels with
  | nil => rfl
  | cons segment others inductionHypothesis =>
      rw [describeSegments, inTurn]
      rcases segment.describe setup labels with ⟨next, fault | lines⟩
      · rfl
      · simp only [← inductionHypothesis next]
        rcases describeSegments setup next others with ⟨last, fault | later⟩
        · rfl
        · rfl

/-! ### Labels that were given stay -/

namespace Labels

variable {labels small big : Labels} {address : Int}

def Within (small big : Labels) : Prop :=
  small.addresses <+: big.addresses

theorem within_add (labels : Labels) (address : Int) : labels.Within (labels.add address) := by
  unfold Within add
  split
  · exact List.prefix_refl _
  · exact List.prefix_append _ _

theorem mem_add_self (labels : Labels) (address : Int) :
    address ∈ (labels.add address).addresses := by
  unfold add
  split
  · next present => exact List.contains_iff_mem.mp present
  · exact List.mem_append_right _ List.mem_cons_self

theorem add_of_mem (present : address ∈ labels.addresses) : labels.add address = labels := by
  unfold add
  rw [if_pos (List.contains_iff_mem.mpr present)]

theorem nameOf_of_within (within : small.Within big) (present : address ∈ small.addresses) :
    big.nameOf address = small.nameOf address := by
  obtain ⟨later, same⟩ := within
  unfold nameOf
  rw [← same, List.idxOf_append_of_mem present]

end Labels

/-! ### Descriptions that can be repeated -/

/-- A description that gives labels on the way and is the same once they are given. -/
structure Stable {α : Type} (describe : Labels → α → Labels × Except Fault (List Line)) :
    Prop where
  grows : ∀ (labels : Labels) (input : α), labels.Within (describe labels input).1
  repeats : ∀ (labels : Labels) (input : α) (big : Labels),
    (describe labels input).1.Within big →
      describe big input = (big, (describe labels input).2)

namespace Stable

variable {α : Type} {describe : Labels → α → Labels × Except Fault (List Line)}
  (stable : Stable describe)

include stable

theorem inTurn_grows (labels : Labels) (inputs : List α) :
    labels.Within (inTurn describe labels inputs).1 := by
  induction inputs generalizing labels with
  | nil => exact List.prefix_refl _
  | cons input others inductionHypothesis =>
      have first := stable.grows labels input
      rcases described : describe labels input with ⟨next, fault | lines⟩
      · rw [described] at first
        rw [inTurn_cons_error described]
        exact first
      · rw [described] at first
        rw [inTurn_cons_ok described]
        exact first.trans (inductionHypothesis next)

theorem inTurn_repeats (labels : Labels) (inputs : List α) (big : Labels)
    (within : (inTurn describe labels inputs).1.Within big) :
    inTurn describe big inputs = (big, (inTurn describe labels inputs).2) := by
  induction inputs generalizing labels with
  | nil => rfl
  | cons input others inductionHypothesis =>
      have first := stable.repeats labels input big
      rcases described : describe labels input with ⟨next, fault | lines⟩
      · rw [described] at first
        rw [inTurn_cons_error described] at within ⊢
        rw [inTurn_cons_error (first within)]
      · rw [described] at first
        rw [inTurn_cons_ok described] at within ⊢
        -- The labels given up to here lie within those given at the end.
        have early : next.Within big := (stable.inTurn_grows next others).trans within
        rw [inTurn_cons_ok (first early), inductionHypothesis next within]

theorem inTurn : Stable (inTurn describe) :=
  ⟨stable.inTurn_grows, stable.inTurn_repeats⟩

end Stable

namespace Item

/-- Where an instruction that jumps goes to. -/
def target? (item : Item) : Option Int :=
  match item.decoded.jumps with
  | .ok true => (item.decoded.target (item.address + 2)).toOption
  | _ => none

/-- A line, and an empty one if a block ends with it. -/
def block (item : Item) (line : Line) : List Line :=
  if item.decoded.endsBlock then [line, { address := none, code := "", source := "\n" }]
  else [line]

/-- The lines of an instruction whose target has its label already. -/
def render (setup : Setup) (label : String) (item : Item) : Except Fault (List Line) :=
  match item.decoded.jumps with
  | .error fault => .error fault
  | .ok false => .ok (item.block (item.line setup item.decoded.text ""))
  | .ok true =>
      match item.decoded.target (item.address + 2) with
      | .error fault => .error fault
      | .ok target =>
          (item.decoded.labelled label).map (fun text =>
            item.block (item.line setup text (item.targetNote setup target)))

variable (setup : Setup) (labels : Labels) {item : Item}

theorem describe_of_target {target : Int} (found : item.target? = some target) :
    item.describe setup labels =
      (labels.add target, item.render setup ((labels.add target).nameOf target)) := by
  unfold target? at found
  unfold describe render
  rcases jumps : item.decoded.jumps with fault | reached
  · rw [jumps] at found
    cases found
  · rw [jumps] at found
    cases reached with
    | false => cases found
    | true =>
        rcases targeted : item.decoded.target (item.address + 2) with fault | place
        · rw [targeted] at found
          cases found
        · rw [targeted] at found
          cases found
          rcases labelled : item.decoded.labelled ((labels.add target).nameOf target)
            with fault | text
          · simp only [labelled]
            rfl
          · simp only [labelled]
            rfl

theorem describe_of_no_target (absent : item.target? = none) :
    item.describe setup labels = (labels, item.render setup "") := by
  unfold target? at absent
  unfold describe render
  rcases jumps : item.decoded.jumps with fault | reached
  · rfl
  · rw [jumps] at absent
    cases reached with
    | false => rfl
    | true =>
        rcases targeted : item.decoded.target (item.address + 2) with fault | place
        · rfl
        · rw [targeted] at absent
          cases absent

end Item

theorem stable_item (setup : Setup) :
    Stable (fun labels (item : Item) => item.describe setup labels) := by
  constructor
  · intro labels item
    cases found : item.target? with
    | none =>
        rw [item.describe_of_no_target setup labels found]
        exact List.prefix_refl _
    | some target =>
        rw [item.describe_of_target setup labels found]
        exact labels.within_add target
  · intro labels item big within
    cases found : item.target? with
    | none =>
        rw [item.describe_of_no_target setup big found,
          item.describe_of_no_target setup labels found]
    | some target =>
        rw [item.describe_of_target setup labels found] at within ⊢
        have given := labels.mem_add_self target
        rw [item.describe_of_target setup big found, Labels.add_of_mem (within.subset given),
          Labels.nameOf_of_within within given]

theorem stable_describeAll (setup : Setup) : Stable (describeAll setup) := by
  rw [describeAll_eq_inTurn]
  exact (stable_item setup).inTurn

namespace Segment

def decoding (setup : Setup) (segment : Segment) : Decoding :=
  decode setup segment.start (words segment.bytes)

variable {setup : Setup} {segment : Segment} (labels : Labels)

theorem describe_of_fault {fault : Fault} (failed : (segment.decoding setup).fault = some fault) :
    segment.describe setup labels = (labels, .error fault) := by
  unfold decoding at failed
  unfold Segment.describe
  simp only [failed]

theorem describe_of_decoded (decoded : (segment.decoding setup).fault = none) :
    segment.describe setup labels =
      ((describeAll setup labels (segment.decoding setup).items).1,
        (describeAll setup labels (segment.decoding setup).items).2.map
          (fun lines => segment.heading :: lines)) := by
  unfold decoding at decoded ⊢
  unfold Segment.describe
  simp only [decoded]
  rcases describeAll setup labels (decode setup segment.start (words segment.bytes)).items
    with ⟨next, fault | lines⟩
  · rfl
  · rfl

end Segment

theorem stable_segment (setup : Setup) :
    Stable (fun labels (segment : Segment) => segment.describe setup labels) := by
  constructor
  · intro labels segment
    cases decoded : (segment.decoding setup).fault with
    | some fault =>
        rw [Segment.describe_of_fault labels decoded]
        exact List.prefix_refl _
    | none =>
        rw [Segment.describe_of_decoded labels decoded]
        exact (stable_describeAll setup).grows labels _
  · intro labels segment big within
    cases decoded : (segment.decoding setup).fault with
    | some fault =>
        rw [Segment.describe_of_fault labels decoded, Segment.describe_of_fault big decoded]
    | none =>
        rw [Segment.describe_of_decoded labels decoded] at within ⊢
        rw [Segment.describe_of_decoded big decoded,
          (stable_describeAll setup).repeats labels _ big within]

theorem stable_describeSegments (setup : Setup) : Stable (describeSegments setup) := by
  rw [describeSegments_eq_inTurn]
  exact (stable_segment setup).inTurn

/-! ### Listings -/

/-- List a memory several times with the labels kept. -/
def listings (setup : Setup) (segments : List Segment) (labels : Labels) :
    List Bool → List (Labels × Except Fault String)
  | [] => []
  | sourceOnly :: others =>
      disassemble setup segments labels sourceOnly ::
        listings setup segments (disassemble setup segments labels sourceOnly).1 others

theorem disassemble_labels (setup : Setup) (segments : List Segment) (labels : Labels)
    (sourceOnly : Bool) :
    (disassemble setup segments labels sourceOnly).1 =
      (describeSegments setup labels (inOrder segments)).1 := by
  unfold disassemble
  rcases describeSegments setup labels (inOrder segments) with ⟨next, fault | lines⟩
  · rfl
  · rfl

theorem disassemble_repeats (setup : Setup) (segments : List Segment) (labels : Labels)
    (first second : Bool) :
    disassemble setup segments (disassemble setup segments labels first).1 second =
      disassemble setup segments labels second := by
  rw [disassemble_labels]
  have repeated := (stable_describeSegments setup).repeats labels (inOrder segments) _
    (List.prefix_refl _)
  unfold disassemble
  rw [repeated]

theorem listings_eq_map (setup : Setup) (segments : List Segment) (labels : Labels)
    (flags : List Bool) :
    listings setup segments labels flags = flags.map (disassemble setup segments labels) := by
  induction flags generalizing labels with
  | nil => rfl
  | cons sourceOnly others inductionHypothesis =>
      rw [listings, inductionHypothesis, List.map_cons]
      congr 1
      apply List.map_congr_left
      intro second _member
      exact disassemble_repeats setup segments labels sourceOnly second

/-- A listing of a memory that has been listed before is what the first listing would
have been, text or failure, and leaves the labels of the first. -/
theorem listings_eq_first (setup : Setup) (segments : List Segment) (flags : List Bool) :
    listings setup segments Labels.empty flags =
      flags.map (fun sourceOnly =>
        ((disassemble setup segments Labels.empty (flags.headD false)).1,
          (disassemble setup segments Labels.empty sourceOnly).2)) := by
  rw [listings_eq_map]
  apply List.map_congr_left
  intro sourceOnly _member
  apply Prod.ext
  · rw [disassemble_labels, disassemble_labels]
  · rfl

end Disassembler
end Msp430
