import Mathlib.Data.Int.Bitwise
import Mathlib.Data.List.Induction
import Msp430.Disassembler.Peripherals

/-!
Numbers shown as the names of bits.  The masks of a register are tried in increasing order,
and each mask that meets what is left of the number is named and cleared.  Everything here is
said bit by bit, so masks may overlap, have several bits, be zero or be negative.  Main
statement: when naming fails, what it answers otherwise, that no bit of the number is lost,
and exactly when none is added.
-/

namespace Msp430
namespace Bits

theorem testBit_both (left right : Int) (i : Nat) :
    (both left right).testBit i = (left.testBit i && right.testBit i) := by
  have apart (first second : Bool) : (first ^^ (first && second)) = (first && !second) := by
    cases first <;> cases second <;> rfl
  cases left with
  | ofNat left =>
      cases right with
      | ofNat right => exact Nat.testBit_and left right i
      | negSucc right =>
          change (left ^^^ (left &&& right)).testBit i = (left.testBit i && !right.testBit i)
          rw [Nat.testBit_xor, Nat.testBit_and, apart]
  | negSucc left =>
      cases right with
      | ofNat right =>
          change (right ^^^ (right &&& left)).testBit i = (!left.testBit i && right.testBit i)
          rw [Nat.testBit_xor, Nat.testBit_and, apart, Bool.and_comm]
      | negSucc right =>
          change (!(left ||| right).testBit i) = (!left.testBit i && !right.testBit i)
          rw [Nat.testBit_or, Bool.not_or]

/-- Far enough to the left, all bits of a number are its sign. -/
theorem eq_of_testBit_eq {first second : Int}
    (same : ∀ i, first.testBit i = second.testBit i) : first = second := by
  have differ (above below : Nat) :
      ¬ ∀ i, (Int.ofNat above).testBit i = (Int.negSucc below).testBit i := by
    intro equal
    have high := equal (max above below)
    change above.testBit (max above below) = !below.testBit (max above below) at high
    have bound {number : Nat} (small : number ≤ max above below) :
        number.testBit (max above below) = false :=
      Nat.testBit_lt_two_pow (Nat.lt_of_le_of_lt small Nat.lt_two_pow_self)
    rw [bound (Nat.le_max_left above below), bound (Nat.le_max_right above below)] at high
    cases high
  cases first with
  | ofNat first =>
      cases second with
      | ofNat second => exact congrArg Int.ofNat (Nat.eq_of_testBit_eq same)
      | negSucc second => exact absurd same (differ first second)
  | negSucc first =>
      cases second with
      | ofNat second => exact absurd (fun i => (same i).symm) (differ second first)
      | negSucc second =>
          exact congrArg Int.negSucc
            (Nat.eq_of_testBit_eq (fun i => Bool.not_inj (same i)))

theorem both_eq_land (left right : Int) : both left right = Int.land left right := by
  apply eq_of_testBit_eq
  intro i
  rw [testBit_both, Int.testBit_land]

theorem without_eq_ldiff (value mask : Int) : without value mask = Int.ldiff value mask := by
  have complement (i : Nat) : (~~~mask).testBit i = !mask.testBit i := Int.testBit_lnot mask i
  apply eq_of_testBit_eq
  intro i
  rw [without, testBit_both, complement, Int.testBit_ldiff]

theorem land_ne_zero_iff {left right : Int} :
    Int.land left right ≠ 0 ↔ ∃ i, left.testBit i = true ∧ right.testBit i = true := by
  have zero (i : Nat) : (0 : Int).testBit i = false := Nat.zero_testBit i
  constructor
  · intro meets
    by_contra none
    refine meets (eq_of_testBit_eq (fun i => ?_))
    rw [Int.testBit_land, zero, Bool.and_eq_false_iff, ← Bool.not_eq_true, ← Bool.not_eq_true]
    exact not_and_or.mp (not_exists.mp none i)
  · rintro ⟨i, inLeft, inRight⟩ empty
    have bit := Int.testBit_land left right i
    rw [empty, zero, inLeft, inRight] at bit
    cases bit

/-- All bits of some masks. -/
def union : List Int → Int
  | [] => 0
  | mask :: others => Int.lor mask (union others)

theorem testBit_union (masks : List Int) (i : Nat) :
    (union masks).testBit i = true ↔ ∃ mask ∈ masks, mask.testBit i = true := by
  induction masks with
  | nil => simp [union, Int.testBit]
  | cons mask others inductionHypothesis =>
      rw [union, Int.testBit_lor, Bool.or_eq_true, inductionHypothesis]
      simp

/-- The bits of one number are among those of another. -/
def Within (inner outer : Int) : Prop :=
  ∀ i, inner.testBit i = true → outer.testBit i = true

end Bits

namespace Disassembler

/-! ### The masks of a register -/

def Increasing (masks : List (Int × String)) : Prop :=
  masks.Pairwise (fun first second => first.1 < second.1)

theorem mem_enterMask {masks : List (Int × String)} (increasing : Increasing masks)
    (mask : Int) (name : String) (entry : Int × String) :
    entry ∈ enterMask mask name masks ↔
      entry = (mask, name) ∨ (entry.1 ≠ mask ∧ entry ∈ masks) := by
  induction masks with
  | nil => simp [enterMask]
  | cons head others inductionHypothesis =>
      obtain ⟨other, otherName⟩ := head
      obtain ⟨least, later⟩ := List.pairwise_cons.mp increasing
      rw [enterMask]
      split
      · next smaller =>
          have apart (member : entry ∈ (other, otherName) :: others) : entry.1 ≠ mask := by
            rcases List.mem_cons.mp member with same | behind
            · rw [same]
              exact Int.ne_of_gt smaller
            · exact Int.ne_of_gt (Int.lt_trans smaller (least entry behind))
          rw [List.mem_cons]
          exact or_congr Iff.rfl ⟨fun member => ⟨apart member, member⟩, And.right⟩
      · split
        · next same =>
            have apart (member : entry ∈ others) : entry.1 ≠ mask := by
              rw [same]
              exact Int.ne_of_gt (least entry member)
            rw [List.mem_cons, List.mem_cons]
            refine or_congr Iff.rfl ⟨fun member => ⟨apart member, Or.inr member⟩, ?_⟩
            rintro ⟨different, head | behind⟩
            · rw [head] at different
              exact absurd same.symm different
            · exact behind
        · next different =>
            rw [List.mem_cons, inductionHypothesis later, List.mem_cons]
            constructor
            · rintro (head | entered | ⟨apart, behind⟩)
              · refine Or.inr ⟨?_, Or.inl head⟩
                rw [head]
                exact fun same => different same.symm
              · exact Or.inl entered
              · exact Or.inr ⟨apart, Or.inr behind⟩
            · rintro (entered | ⟨apart, head | behind⟩)
              · exact Or.inr (Or.inl entered)
              · exact Or.inl head
              · exact Or.inr (Or.inr ⟨apart, behind⟩)

theorem increasing_enterMask {masks : List (Int × String)} (increasing : Increasing masks)
    (mask : Int) (name : String) : Increasing (enterMask mask name masks) := by
  induction masks with
  | nil => exact List.pairwise_singleton _ _
  | cons head others inductionHypothesis =>
      obtain ⟨other, otherName⟩ := head
      obtain ⟨least, later⟩ := List.pairwise_cons.mp increasing
      rw [enterMask]
      split
      · next smaller =>
          refine List.pairwise_cons.mpr ⟨?_, increasing⟩
          exact List.forall_mem_cons.mpr
            ⟨smaller, fun entry member => Int.lt_trans smaller (least entry member)⟩
      · split
        · next same => exact List.pairwise_cons.mpr ⟨same ▸ least, later⟩
        · next different =>
            refine List.pairwise_cons.mpr ⟨fun entry member => ?_, inductionHypothesis later⟩
            rcases (mem_enterMask later mask name entry).mp member with entered | ⟨_, behind⟩
            · rw [entered]
              change other < mask
              omega
            · exact least entry behind

def sortedMasks (bits : List (Int × String)) : List (Int × String) :=
  bits.foldl (fun masks entry => enterMask entry.1 entry.2 masks) []

theorem sortedMasks_concat (bits : List (Int × String)) (entry : Int × String) :
    sortedMasks (bits ++ [entry]) = enterMask entry.1 entry.2 (sortedMasks bits) := by
  unfold sortedMasks
  rw [List.foldl_append]
  rfl

theorem increasing_sortedMasks (bits : List (Int × String)) : Increasing (sortedMasks bits) := by
  induction bits using List.reverseRec with
  | nil => exact List.Pairwise.nil
  | append_singleton bits entry inductionHypothesis =>
      rw [sortedMasks_concat]
      exact increasing_enterMask inductionHypothesis entry.1 entry.2

/-- Of several names for one mask the last is kept. -/
theorem mem_sortedMasks (bits : List (Int × String)) (mask : Int) (name : String) :
    (mask, name) ∈ sortedMasks bits ↔ bits.reverse.lookup mask = some name := by
  induction bits using List.reverseRec with
  | nil => simp [sortedMasks]
  | append_singleton bits entry inductionHypothesis =>
      obtain ⟨other, otherName⟩ := entry
      rw [sortedMasks_concat, mem_enterMask (increasing_sortedMasks bits), inductionHypothesis,
        List.reverse_append, List.reverse_singleton, List.singleton_append, List.lookup_cons]
      by_cases same : mask = other
      · rw [same, beq_self_eq_true]
        simp [eq_comm]
      · rw [beq_false_of_ne same]
        simp [same]

/-! ### Masks that are hit -/

def maskBits (masks : List (Int × String)) : Int :=
  Bits.union (masks.map Prod.fst)

/-- A mask is hit if it meets the bits that the smaller masks leave of the value. -/
def isHit (masks : List (Int × String)) (value : Int) (entry : Int × String) : Bool :=
  let smaller := masks.filter (fun other => other.1 < entry.1)
  Int.land (Int.ldiff value (maskBits smaller)) entry.1 != 0

def hits (masks : List (Int × String)) (value : Int) : List (Int × String) :=
  masks.filter (isHit masks value)

/-- The bits of a value that no mask has. -/
def residue (masks : List (Int × String)) (value : Int) : Int :=
  Int.ldiff value (maskBits masks)

theorem testBit_maskBits (masks : List (Int × String)) (i : Nat) :
    (maskBits masks).testBit i = true ↔ ∃ entry ∈ masks, entry.1.testBit i = true := by
  unfold maskBits
  rw [Bits.testBit_union]
  simp

theorem testBit_residue {masks : List (Int × String)} {value : Int} {i : Nat} :
    (residue masks value).testBit i = true ↔
      value.testBit i = true ∧ ∀ entry ∈ masks, entry.1.testBit i = false := by
  rw [residue, Int.testBit_ldiff, Bool.and_eq_true, Bool.not_eq_true',
    ← Bool.not_eq_true, testBit_maskBits]
  simp

section Increasing

variable {earlier later : List (Int × String)} {entry : Int × String}
  (increasing : Increasing (earlier ++ entry :: later))

include increasing

/-- In increasing order the smaller masks are those that were tried before. -/
theorem filter_smaller :
    (earlier ++ entry :: later).filter (fun other => other.1 < entry.1) = earlier := by
  obtain ⟨_, behind, across⟩ := List.pairwise_append.mp increasing
  have tried : earlier.filter (fun other => other.1 < entry.1) = earlier := by
    rw [List.filter_eq_self]
    exact fun other member => decide_eq_true (across other member entry List.mem_cons_self)
  have untried : (entry :: later).filter (fun other => other.1 < entry.1) = [] := by
    rw [List.filter_eq_nil_iff]
    intro other member
    rw [decide_eq_true_eq]
    rcases List.mem_cons.mp member with same | farther
    · rw [same]
      exact Int.lt_irrefl entry.1
    · exact Int.not_lt.mpr (Int.le_of_lt ((List.pairwise_cons.mp behind).1 other farther))
  rw [List.filter_append, tried, untried, List.append_nil]

theorem isHit_iff (value : Int) :
    isHit (earlier ++ entry :: later) value entry = true ↔
      Int.land (residue earlier value) entry.1 ≠ 0 := by
  unfold isHit
  rw [filter_smaller increasing, bne_iff_ne]
  rfl

end Increasing

/-- Clearing a mask behind others is clearing it with them. -/
theorem ldiff_residue (earlier : List (Int × String)) (entry : Int × String) (value : Int) :
    Int.ldiff (residue earlier value) entry.1 = residue (earlier ++ [entry]) value := by
  apply Bits.eq_of_testBit_eq
  intro i
  rw [Bool.eq_iff_iff, Int.testBit_ldiff, Bool.and_eq_true, testBit_residue, testBit_residue]
  simp only [Bool.not_eq_true', List.forall_mem_append, List.forall_mem_singleton, and_assoc]

theorem residue_of_missed {earlier : List (Int × String)} {value : Int} (entry : Int × String)
    (missed : Int.land (residue earlier value) entry.1 = 0) :
    residue (earlier ++ [entry]) value = residue earlier value := by
  rw [← ldiff_residue]
  apply Bits.eq_of_testBit_eq
  intro i
  have apart : (residue earlier value).testBit i = true → entry.1.testBit i = false := by
    intro left
    by_contra met
    exact Bits.land_ne_zero_iff.mpr ⟨i, left, by simpa using met⟩ missed
  rw [Int.testBit_ldiff]
  cases left : (residue earlier value).testBit i with
  | false => rfl
  | true =>
      rw [apart left]
      rfl

/-- What the loop has done when some masks are still to be tried: the names of those that are
hit, and the bits that no mask has. -/
theorem nameMasks_residue {earlier rest : List (Int × String)}
    (increasing : Increasing (earlier ++ rest)) (value : Int) :
    nameMasks rest (residue earlier value) =
      ((rest.filter (isHit (earlier ++ rest) value)).map Prod.snd,
        residue (earlier ++ rest) value) := by
  -- the invariant: what is left of the value is its residue after the masks tried so far
  induction rest generalizing earlier with
  | nil =>
      rw [List.append_nil]
      rfl
  | cons entry others inductionHypothesis =>
      obtain ⟨mask, name⟩ := entry
      have regrouped : earlier ++ (mask, name) :: others =
          (earlier ++ [(mask, name)]) ++ others := by
        simp
      have next := inductionHypothesis (regrouped ▸ increasing)
      rw [← regrouped] at next
      rw [nameMasks, Bits.both_eq_land, Bits.without_eq_ldiff]
      by_cases met : Int.land (residue earlier value) mask ≠ 0
      · have hit := (isHit_iff increasing value).mpr met
        rw [if_pos met, ldiff_residue earlier (mask, name), next, List.filter_cons_of_pos hit]
        rfl
      · have missed : ¬ isHit (earlier ++ (mask, name) :: others) value (mask, name) = true :=
          fun hit => met ((isHit_iff increasing value).mp hit)
        rw [residue_of_missed (mask, name) (not_not.mp met)] at next
        rw [if_neg met, next, List.filter_cons_of_neg missed]

theorem nameMasks_eq {masks : List (Int × String)} (increasing : Increasing masks)
    (value : Int) :
    nameMasks masks value = ((hits masks value).map Prod.snd, residue masks value) := by
  have whole : residue [] value = value := by
    apply Bits.eq_of_testBit_eq
    intro i
    rw [Bool.eq_iff_iff, testBit_residue]
    simp
  have looped := @nameMasks_residue [] masks increasing value
  rw [whole] at looped
  exact looped

/-! ### Bits kept and bits added -/

section Coverage

variable {masks : List (Int × String)} (increasing : Increasing masks) (value : Int)

include increasing

/-- The first mask that has a bit of the value is hit. -/
theorem testBit_covered {i : Nat} (bit : value.testBit i = true) :
    (residue masks value).testBit i = true ∨
      ∃ entry ∈ hits masks value, entry.1.testBit i = true := by
  cases found : masks.find? (fun entry => entry.1.testBit i) with
  | none =>
      have free : ∀ entry ∈ masks, entry.1.testBit i = false :=
        fun entry member => Bool.eq_false_iff.mpr (List.find?_eq_none.mp found entry member)
      exact Or.inl (testBit_residue.mpr ⟨bit, free⟩)
  | some entry =>
      obtain ⟨met, earlier, later, same, missed⟩ := List.find?_eq_some_iff_append.mp found
      have left : (residue earlier value).testBit i = true :=
        testBit_residue.mpr ⟨bit, fun other member => by simpa using missed other member⟩
      have hit : isHit masks value entry = true := by
        rw [same] at increasing ⊢
        exact (isHit_iff increasing value).mpr (Bits.land_ne_zero_iff.mpr ⟨i, left, met⟩)
      exact Or.inr ⟨entry, List.mem_filter.mpr ⟨by rw [same]; simp, hit⟩, met⟩

theorem lor_hits_residue_iff :
    Int.lor (maskBits (hits masks value)) (residue masks value) = value ↔
      ∀ entry ∈ hits masks value, Bits.Within entry.1 value := by
  constructor
  · intro restored entry hit i bit
    have shown := (testBit_maskBits (hits masks value) i).mpr ⟨entry, hit, bit⟩
    rw [← restored, Int.testBit_lor, shown, Bool.true_or]
  · intro contained
    apply Bits.eq_of_testBit_eq
    intro i
    rw [Bool.eq_iff_iff, Int.testBit_lor, Bool.or_eq_true, testBit_maskBits]
    constructor
    · rintro (⟨entry, hit, bit⟩ | left)
      · exact contained entry hit i bit
      · exact (testBit_residue.mp left).1
    · intro bit
      exact (testBit_covered increasing value bit).symm

end Coverage

/-! ### Names of a number -/

namespace PeripheralRegister

theorem increasing_masks (register : PeripheralRegister) : Increasing register.masks :=
  increasing_sortedMasks (register.bits.getD [])

/-- How the bits that no mask has are written: not at all if there are none, else by their
named value or in hexadecimal. -/
def restNames (register : PeripheralRegister) (left : Int) : List String :=
  if left = 0 then []
  else
    [((register.values.getD []).reverse.lookup left).getD ("0x" ++ Numeral.hexField 0 left)]

theorem nameRest_of_values {register : PeripheralRegister} {values : List (Int × String)}
    (given : register.values = some values) {left : Int} (remains : left ≠ 0) :
    ∃ last, register.nameRest left = .ok last ∧ register.restNames left = [last] := by
  unfold nameRest restNames
  rw [given, if_neg remains, Option.getD_some]
  dsimp only
  cases values.reverse.lookup left with
  | none => exact ⟨_, rfl, rfl⟩
  | some text => exact ⟨_, rfl, rfl⟩

theorem nameBits_eq (register : PeripheralRegister) (value : Int) :
    register.nameBits value =
      if residue register.masks value ≠ 0 ∧ register.values = none then .error .noNamedValues
      else
        .ok ("#" ++ String.intercalate "|" ((hits register.masks value).map Prod.snd ++
          register.restNames (residue register.masks value))) := by
  unfold nameBits
  rw [nameMasks_eq register.increasing_masks]
  dsimp only
  by_cases empty : residue register.masks value = 0
  · rw [if_pos empty, if_neg (fun both => both.1 empty), restNames, if_pos empty,
      List.append_nil]
  · rw [if_neg empty]
    cases given : register.values with
    | none =>
        rw [if_pos ⟨empty, rfl⟩, nameRest, given]
    | some values =>
        obtain ⟨last, named, rest⟩ := nameRest_of_values given empty
        rw [named, rest, if_neg (fun both => Option.some_ne_none values both.2)]

end PeripheralRegister

namespace Peripherals

/-- A number written to a register with a name.  Its masks are tried in increasing order, the
last name for a mask counting.  Naming fails exactly if some bits belong to no mask and the
register has no named values; otherwise the names of the masks that are hit are answered in
order, followed by the bits that are left.  No bit of the number is lost, and none is added
exactly if the masks that are hit lie within it. -/
theorem nameImmediate_accounts {table : Peripherals} {name numeral : String}
    {register : PeripheralRegister} {value : Int}
    (found : table.named? name = some register)
    (read : Numeral.literal? numeral = some value) :
    (Increasing register.masks ∧ ∀ mask text, (mask, text) ∈ register.masks ↔
      (register.bits.getD []).reverse.lookup mask = some text) ∧
    (Fault.message .noNamedValues = "'__values__'" ∧
      (table.nameImmediate ("#" ++ numeral) ("&" ++ name) = .error .noNamedValues ↔
        residue register.masks value ≠ 0 ∧ register.values = none)) ∧
    (¬ (residue register.masks value ≠ 0 ∧ register.values = none) →
      table.nameImmediate ("#" ++ numeral) ("&" ++ name) =
        .ok ("#" ++ String.intercalate "|" ((hits register.masks value).map Prod.snd ++
          register.restNames (residue register.masks value)))) ∧
    (∀ i, value.testBit i = true → (residue register.masks value).testBit i = true ∨
      ∃ entry ∈ hits register.masks value, entry.1.testBit i = true) ∧
    (Int.lor (maskBits (hits register.masks value)) (residue register.masks value) = value ↔
      ∀ entry ∈ hits register.masks value, Bits.Within entry.1 value) := by
  have increasing := register.increasing_masks
  have named : table.nameImmediate ("#" ++ numeral) ("&" ++ name) = register.nameBits value := by
    have operand : ("#" ++ numeral).toList = '#' :: numeral.toList := by
      simp
    have destination : ("&" ++ name).toList = '&' :: name.toList := by
      simp
    simp only [nameImmediate, operand, destination, String.ofList_toList, found, literal, read]
  rw [named, register.nameBits_eq]
  refine ⟨⟨increasing, mem_sortedMasks (register.bits.getD [])⟩, ⟨rfl, ?_⟩,
    fun good => if_neg good, fun i => testBit_covered increasing value,
    lor_hits_residue_iff increasing value⟩
  split
  · next bad => exact ⟨fun _ => bad, fun _ => rfl⟩
  · next good =>
      refine ⟨fun failed => ?_, fun bad => absurd bad good⟩
      cases failed

/-- Masks that overlap, one of them negative and one named twice: all three are hit, bits are
left over, and the negative mask adds bits.  Without named values there is no answer. -/
theorem nameImmediate_accounts_overlapping :
    let bits := [(6, "MODE"), (2, "OLD"), (2, "LOW"), (-256, "HIGH")]
    let register : PeripheralRegister :=
      { name := "P1", address := none, bits := some bits, values := some [(0x10, "SLEEP")] }
    let valueless : PeripheralRegister := { register with values := none }
    let table : Peripherals := { registers := [valueless, register] }
    table.nameImmediate "#0x117" "&P1" = .ok "#HIGH|LOW|MODE|0x11" ∧
      Int.lor (maskBits (hits register.masks 0x117)) (residue register.masks 0x117) ≠ 0x117 ∧
      { registers := [valueless] : Peripherals }.nameImmediate "#0x117" "&P1" =
        .error .noNamedValues := by
  intro bits register valueless table
  have tried : nameMasks register.masks 0x117 = (["HIGH", "LOW", "MODE"], 0x11) := by
    decide
  rw [nameMasks_eq register.increasing_masks, Prod.mk.injEq] at tried
  have hit : (-256, "HIGH") ∈ hits register.masks 0x117 := by
    decide +kernel
  have read : Numeral.literal? "0x117" = some 0x117 := by
    decide
  obtain ⟨_masks, _failed, answered, _covered, restored⟩ :=
    nameImmediate_accounts (by decide : table.named? "P1" = some register) read
  obtain ⟨_masks, ⟨_message, failed⟩, _⟩ := nameImmediate_accounts
    (by decide : { registers := [valueless] : Peripherals }.named? "P1" = some valueless) read
  rw [tried.1, tried.2] at answered
  refine ⟨(answered (by decide)).trans (by decide), fun same => ?_, failed.mpr ⟨?_, rfl⟩⟩
  · exact absurd (restored.mp same _ hit 12 (by decide)) (by decide)
  · exact fun empty => absurd (tried.2.symm.trans empty) (by decide)

end Peripherals
end Disassembler
end Msp430
