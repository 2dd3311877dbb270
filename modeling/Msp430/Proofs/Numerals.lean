import Mathlib.Tactic.Ring
import Msp430.Numeral.Reader
import Msp430.Numeral.Writer

/-!
Numerals that are written and read again.  Digits are read from the left, so what has
been read so far is carried along: `extend?_toDigits` moves it past the digits of a
number.  Main statements: a number written in hexadecimal digits behind the mark is read
back, with any zeros in front, and capital digits stand for one number only.
-/

namespace Msp430
namespace Numeral

open Text

/-! ### Digits -/

private theorem digitValue?_digitChar :
    ∀ value : Fin 16, digitValue? (Nat.digitChar value) = some value.val := by
  decide

private theorem digitChar_ne_underscore : ∀ value : Fin 16, Nat.digitChar value ≠ '_' := by
  decide

private theorem digitChar_graphic :
    ∀ value : Fin 16, 0x21 ≤ (Nat.digitChar value).toNat ∧ (Nat.digitChar value).toNat < 0x7f := by
  decide

private theorem digitChar_toUpper :
    ∀ value : Fin 16, (Nat.digitChar value).toUpper.toLower = Nat.digitChar value ∧
      (Nat.digitChar value).toUpper ≠ '-' := by
  decide

private theorem digit?_toUpper :
    ∀ value : Fin 16, digit? 16 (Nat.digitChar value).toUpper = digit? 16 (Nat.digitChar value) ∧
      (Nat.digitChar value).toUpper ≠ '_' := by
  decide

theorem natural?_cons (base : Nat) {c : Char} (digit : c ≠ '_') (rest : List Char) :
    natural? base (c :: rest) = extend? base 0 (c :: rest) := by
  rw [natural?, extend?]
  · cases digit? base c with
    | none => rfl
    | some value =>
        change extend? base value rest = extend? base (0 * base + value) rest
        rw [Nat.zero_mul, Nat.zero_add]
  · intro second others underscore
    exact absurd underscore digit

section Base

variable {base : Nat} (sixteen : base ≤ 16)

include sixteen

theorem extend?_digitChar {digit : Nat} (bounded : digit < base) (value : Nat)
    (rest : List Char) :
    extend? base value (Nat.digitChar digit :: rest) =
      extend? base (value * base + digit) rest := by
  have small : digit < 16 := by
    omega
  have read : digit? base (Nat.digitChar digit) = some digit := by
    unfold digit?
    rw [digitValue?_digitChar ⟨digit, small⟩, Option.filter_some, if_pos (decide_eq_true bounded)]
  rw [extend?]
  · rw [read]
  · intro second others underscore
    exact absurd underscore (digitChar_ne_underscore ⟨digit, small⟩)

variable (two : 1 < base)

include two

theorem extend?_zeros (count value : Nat) (rest : List Char) :
    extend? base value (List.replicate count '0' ++ rest) =
      extend? base (value * base ^ count) rest := by
  induction count generalizing value with
  | zero => rw [Nat.pow_zero, Nat.mul_one]; rfl
  | succ count inductionHypothesis =>
      have positive : 0 < base := by
        omega
      change extend? base value (Nat.digitChar 0 :: (List.replicate count '0' ++ rest)) = _
      rw [extend?_digitChar sixteen positive, inductionHypothesis, Nat.add_zero, Nat.pow_succ']
      ring_nf

theorem extend?_toDigits (number value : Nat) (rest : List Char) :
    extend? base value (Nat.toDigits base number ++ rest) =
      extend? base (value * base ^ (Nat.toDigits base number).length + number) rest := by
  -- The last digit stands apart from the digits of the quotient.
  induction number using Nat.strongRecOn generalizing rest with
  | ind number inductionHypothesis =>
      by_cases single : number < base
      · rw [Nat.toDigits_of_lt_base single]
        change extend? base value (Nat.digitChar number :: rest) = _
        rw [extend?_digitChar sixteen single, List.length_singleton, Nat.pow_one]
      · have several : base ≤ number := by
          omega
        have smaller : number / base < number := Nat.div_lt_self (by omega) two
        have remainder : number % base < base := Nat.mod_lt number (by omega)
        have whole : base * (number / base) + number % base = number :=
          Nat.div_add_mod number base
        rw [Nat.toDigits_of_base_le two several, List.append_assoc,
          inductionHypothesis _ smaller]
        change extend? base _ (Nat.digitChar (number % base) :: rest) = _
        rw [extend?_digitChar sixteen remainder, List.length_append, List.length_singleton]
        congr 1
        calc (value * base ^ (Nat.toDigits base (number / base)).length + number / base) * base +
              number % base
            = value * base ^ ((Nat.toDigits base (number / base)).length + 1) +
                (base * (number / base) + number % base) := by
              ring
          _ = value * base ^ ((Nat.toDigits base (number / base)).length + 1) + number := by
              rw [whole]

theorem exists_digit_of_mem_toDigits {number : Nat} {c : Char}
    (member : c ∈ Nat.toDigits base number) : ∃ digit : Fin 16, c = Nat.digitChar digit := by
  induction number using Nat.strongRecOn with
  | ind number inductionHypothesis =>
      by_cases single : number < base
      · rw [Nat.toDigits_of_lt_base single, List.mem_singleton] at member
        exact ⟨⟨number, by omega⟩, member⟩
      · have several : base ≤ number := by
          omega
        have remainder : number % base < base := Nat.mod_lt number (by omega)
        rw [Nat.toDigits_of_base_le two several, List.mem_append, List.mem_singleton] at member
        rcases member with early | last
        · exact inductionHypothesis _ (Nat.div_lt_self (by omega) two) early
        · exact ⟨⟨number % base, by omega⟩, last⟩

omit sixteen two in
theorem toList_zeroFill_digits (width number : Nat) :
    (zeroFill width (digits base number)).toList =
      List.replicate (width - (digits base number).length) '0' ++ Nat.toDigits base number := by
  unfold zeroFill digits
  rw [String.toList_append, String.toList_ofList, String.toList_ofList]

omit sixteen two in
theorem zeroFill_zero (text : String) : zeroFill 0 text = text := by
  unfold zeroFill
  rw [Nat.zero_sub]
  exact String.empty_append

theorem exists_digit_of_mem_zeroFill {width number : Nat} {c : Char}
    (member : c ∈ (zeroFill width (digits base number)).toList) :
    ∃ digit : Fin 16, c = Nat.digitChar digit := by
  rw [toList_zeroFill_digits, List.mem_append] at member
  rcases member with zero | written
  · exact ⟨0, List.eq_of_mem_replicate zero⟩
  · exact exists_digit_of_mem_toDigits sixteen two written

/-- Digits behind zeros are read as the number they were written for. -/
theorem natural?_zeroFill (width number : Nat) :
    natural? base (zeroFill width (digits base number)).toList = some number := by
  have read : extend? base 0 (zeroFill width (digits base number)).toList = some number := by
    have digitsRead := extend?_toDigits sixteen two number 0 []
    rw [List.append_nil, Nat.zero_mul, Nat.zero_add] at digitsRead
    rw [toList_zeroFill_digits, extend?_zeros sixteen two, Nat.zero_mul]
    exact digitsRead
  cases text : (zeroFill width (digits base number)).toList with
  | nil =>
      rw [toList_zeroFill_digits] at text
      exact absurd (List.append_eq_nil_iff.mp text).2 Nat.toDigits_ne_nil
  | cons c rest =>
      have first : c ∈ (zeroFill width (digits base number)).toList := by
        rw [text]
        exact List.mem_cons_self
      obtain ⟨digit, same⟩ := exists_digit_of_mem_zeroFill sixteen two first
      rw [text] at read
      rw [natural?_cons base (same ▸ digitChar_ne_underscore digit), read]

theorem zeroFill_digits_inj {width first second : Nat}
    (same : zeroFill width (digits base first) = zeroFill width (digits base second)) :
    first = second := by
  have read := natural?_zeroFill sixteen two width first
  rw [same, natural?_zeroFill sixteen two width second] at read
  exact (Option.some.inj read).symm

end Base

/-! ### Integers -/

/-- The visible characters of ASCII. -/
def Graphic (c : Char) : Prop :=
  0x21 ≤ c.toNat ∧ c.toNat < 0x7f

theorem Graphic.isBlank {c : Char} (graphic : Graphic c) : isBlank c = false := by
  obtain ⟨above, below⟩ := graphic
  unfold Text.isBlank
  simp only [Bool.or_eq_false_iff, Bool.and_eq_false_iff, decide_eq_false_iff_not,
    beq_eq_false_iff_ne, ne_eq]
  omega

theorem Graphic.isMargin {c : Char} (graphic : Graphic c) : isMargin c = false := by
  unfold Numeral.isMargin
  rw [graphic.isBlank, Bool.false_and]

/-- The digits of other scripts begin far above ASCII. -/
theorem Graphic.plainDigit {c : Char} (graphic : Graphic c) : plainDigit c = c := by
  have blocks : ∀ block ∈ digitBlocks, 0x7f ≤ block := by
    decide
  have none : digitBlocks.find? (fun block => block ≤ c.toNat && c.toNat < block + 10) = none := by
    rw [List.find?_eq_none]
    intro block member found
    have above := blocks block member
    have below := graphic.2
    rw [Bool.and_eq_true, decide_eq_true_eq] at found
    omega
  unfold Numeral.plainDigit
  rw [none]

theorem trimBy_of_forall {dropped : Char → Bool} {text : List Char}
    (kept : ∀ c ∈ text, dropped c = false) : trimBy dropped text = text := by
  have same : ∀ characters : List Char, (∀ c ∈ characters, dropped c = false) →
      characters.dropWhile dropped = characters := by
    intro characters all
    cases characters with
    | nil => rfl
    | cons c rest => exact List.dropWhile_cons_of_neg (by rw [all c List.mem_cons_self]; decide)
  unfold trimBy
  rw [same text kept, same text.reverse (fun c member => kept c (List.mem_reverse.mp member)),
    List.reverse_reverse]

theorem read_of_graphic {text : List Char} (graphic : ∀ c ∈ text, Graphic c) :
    (trimBy isMargin text).map plainDigit = text := by
  rw [trimBy_of_forall (fun c member => (graphic c member).isMargin),
    List.map_congr_left (fun c member => (graphic c member).plainDigit), List.map_id']

/-- Visible text without a sign is read as it stands. -/
theorem signed?_of_graphic {unsigned? : List Char → Option Nat} {text : String}
    (graphic : ∀ c ∈ text.toList, Graphic c) (positive : text.toList.head? ≠ some '-')
    (signless : text.toList.head? ≠ some '+') :
    signed? unsigned? text = (unsigned? text.toList).map (fun value => (value : Int)) := by
  unfold signed?
  rw [read_of_graphic graphic]
  split
  · next rest same => rw [same] at positive; exact absurd rfl positive
  · next rest same => rw [same] at signless; exact absurd rfl signless
  · rfl

theorem signed?_of_minus {unsigned? : List Char → Option Nat} {text : String}
    {rest : List Char} (spelled : text.toList = '-' :: rest) (graphic : ∀ c ∈ rest, Graphic c) :
    signed? unsigned? text = (unsigned? rest).map (fun value => -(value : Int)) := by
  have visible : ∀ c ∈ '-' :: rest, Graphic c :=
    List.forall_mem_cons.mpr ⟨⟨by decide, by decide⟩, graphic⟩
  unfold signed?
  rw [spelled, read_of_graphic visible]
  rfl

theorem hexField_natCast (width number : Nat) :
    hexField width (number : Int) = zeroFill width (digits 16 number) := by
  have unsigned : sign (number : Int) = "" := if_neg (by omega)
  unfold hexField
  rw [unsigned, Int.natAbs_natCast]
  exact String.empty_append

theorem decimal_natCast (number : Nat) : decimal (number : Int) = digits 10 number := by
  have unsigned : sign (number : Int) = "" := if_neg (by omega)
  unfold decimal
  rw [unsigned, Int.natAbs_natCast]
  exact String.empty_append

/-- Hexadecimal digits follow their mark without an underscore. -/
theorem afterMark_zeroFill (width number : Nat) :
    afterMark (zeroFill width (digits 16 number)).toList =
      (zeroFill width (digits 16 number)).toList := by
  unfold afterMark
  split
  · next rest underscore =>
      obtain ⟨value, same⟩ := exists_digit_of_mem_zeroFill (Nat.le_refl 16) (by decide)
        (underscore ▸ List.mem_cons_self : '_' ∈ (zeroFill width (digits 16 number)).toList)
      exact absurd same.symm (digitChar_ne_underscore value)
  · rfl

theorem graphic_marked (width number : Nat) :
    ∀ c ∈ '0' :: 'x' :: (zeroFill width (digits 16 number)).toList, Graphic c := by
  intro c member
  rw [List.mem_cons, List.mem_cons] at member
  rcases member with zero | mark | written
  · rw [zero]
    exact ⟨by decide, by decide⟩
  · rw [mark]
    exact ⟨by decide, by decide⟩
  · obtain ⟨value, same⟩ := exists_digit_of_mem_zeroFill (Nat.le_refl 16) (by decide) written
    rw [same]
    exact digitChar_graphic value

/-- Hexadecimal digits behind their mark are read as the number they were written for. -/
theorem literal?_hexField (width number : Nat) :
    literal? ("0x" ++ hexField width number) = some (number : Int) := by
  have spelled : ("0x" ++ hexField width number).toList =
      '0' :: 'x' :: (zeroFill width (digits 16 number)).toList := by
    rw [hexField_natCast, String.toList_append]
    rfl
  unfold literal?
  rw [signed?_of_graphic (spelled ▸ graphic_marked width number) (by simp [spelled])
    (by simp [spelled]), spelled, literalNatural?, afterMark_zeroFill,
    natural?_zeroFill (Nat.le_refl 16) (by decide)]
  rfl

/-- An integer in hexadecimal, with its sign before the mark, is read back. -/
theorem hex?_hex (value : Int) : hex? (hex value) = some value := by
  have filled := zeroFill_zero (digits 16 value.natAbs)
  have graphic := graphic_marked 0 value.natAbs
  have magnitude : hexNatural? ('0' :: 'x' :: (digits 16 value.natAbs).toList) =
      some value.natAbs := by
    rw [← filled, hexNatural?, afterMark_zeroFill, natural?_zeroFill (Nat.le_refl 16) (by decide)]
  rw [filled] at graphic
  unfold hex? hex sign
  by_cases negative : value < 0
  · have spelled : ("-" ++ "0x" ++ digits 16 value.natAbs).toList =
        '-' :: '0' :: 'x' :: (digits 16 value.natAbs).toList := by
      simp
    have below : -(value.natAbs : Int) = value := by
      omega
    rw [if_pos negative, signed?_of_minus spelled graphic, magnitude]
    exact congrArg some below
  · have spelled : ("" ++ "0x" ++ digits 16 value.natAbs).toList =
        '0' :: 'x' :: (digits 16 value.natAbs).toList := by
      simp
    have above : (value.natAbs : Int) = value := by
      omega
    rw [if_neg negative, signed?_of_graphic (spelled ▸ graphic) (by simp)
      (by simp), spelled, magnitude]
    exact congrArg some above

/-- The characters of an integer in hexadecimal. -/
theorem mem_hex {value : Int} {c : Char} (member : c ∈ (hex value).toList) :
    c = '-' ∨ c = 'x' ∨ ∃ digit : Fin 16, c = Nat.digitChar digit := by
  have signed : ∀ {d : Char}, d ∈ (sign value).toList → d = '-' := by
    intro d written
    unfold sign at written
    split at written
    · exact List.mem_singleton.mp written
    · cases written
  unfold hex at member
  rw [String.toList_append, String.toList_append, List.mem_append, List.mem_append] at member
  rcases member with (minus | mark) | written
  · exact Or.inl (signed minus)
  · rcases List.mem_cons.mp mark with zero | rest
    · exact Or.inr (Or.inr ⟨0, zero⟩)
    · exact Or.inr (Or.inl (List.mem_singleton.mp rest))
  · rw [digits, String.toList_ofList] at written
    exact Or.inr (Or.inr (exists_digit_of_mem_toDigits (Nat.le_refl 16) (by decide) written))

theorem graphic_hex (value : Int) : ∀ c ∈ (hex value).toList, Graphic c := by
  intro c member
  rcases mem_hex member with minus | mark | ⟨digit, same⟩
  · rw [minus]
    exact ⟨by decide, by decide⟩
  · rw [mark]
    exact ⟨by decide, by decide⟩
  · rw [same]
    exact digitChar_graphic digit

/-! ### Capital digits -/

/-- Capital digits are those of the number in capitals, and none of them is a sign. -/
theorem capitals_toList (number : Nat) :
    ((digits 16 number).map Char.toUpper).toList.map Char.toLower = Nat.toDigits 16 number ∧
      '-' ∉ ((digits 16 number).map Char.toUpper).toList := by
  have written : ∀ c ∈ Nat.toDigits 16 number, c.toUpper.toLower = c ∧ c.toUpper ≠ '-' := by
    intro c member
    obtain ⟨digit, same⟩ := exists_digit_of_mem_toDigits (Nat.le_refl 16) (by decide) member
    rw [same]
    exact digitChar_toUpper digit
  rw [String.toList_map, digits, String.toList_ofList]
  constructor
  · rw [List.map_map]
    have same : (Nat.toDigits 16 number).map (Char.toLower ∘ Char.toUpper) =
        (Nat.toDigits 16 number).map id :=
      List.map_congr_left (fun c member => (written c member).1)
    rw [same, List.map_id]
  · intro sign
    obtain ⟨c, member, same⟩ := List.mem_map.mp sign
    exact (written c member).2 same

theorem capitals_inj {first second : Nat}
    (same : (digits 16 first).map Char.toUpper = (digits 16 second).map Char.toUpper) :
    first = second := by
  have spelled := (capitals_toList first).1
  rw [same, (capitals_toList second).1] at spelled
  have filled : zeroFill 0 (digits 16 first) = zeroFill 0 (digits 16 second) := by
    unfold digits
    rw [spelled]
  exact zeroFill_digits_inj (Nat.le_refl 16) (by decide) filled

theorem extend?_map {base : Nat} {change : Char → Char} {text : List Char}
    (same : ∀ c ∈ text, digit? base (change c) = digit? base c ∧ change c ≠ '_' ∧ c ≠ '_')
    (value : Nat) : extend? base value (text.map change) = extend? base value text := by
  induction text generalizing value with
  | nil => rfl
  | cons c rest inductionHypothesis =>
      obtain ⟨⟨digit, noneAfter, noneBefore⟩, later⟩ := List.forall_mem_cons.mp same
      rw [List.map_cons, extend?, extend?, digit]
      · cases digit? base c with
        | none => rfl
        | some next => exact inductionHypothesis later _
      · exact fun _ _ underscore => absurd underscore noneBefore
      · exact fun _ _ underscore => absurd underscore noneAfter

/-- Capital digits are read as the number they were written for. -/
theorem natural?_capitals (number : Nat) :
    natural? 16 ((digits 16 number).map Char.toUpper).toList = some number := by
  have plain : extend? 16 0 (Nat.toDigits 16 number) = some number := by
    have read := extend?_toDigits (Nat.le_refl 16) (by decide) number 0 []
    rw [List.append_nil, Nat.zero_mul, Nat.zero_add] at read
    exact read
  have capital : ∀ c ∈ Nat.toDigits 16 number,
      digit? 16 c.toUpper = digit? 16 c ∧ c.toUpper ≠ '_' ∧ c ≠ '_' := by
    intro c member
    obtain ⟨value, same⟩ := exists_digit_of_mem_toDigits (Nat.le_refl 16) (by decide) member
    rw [same]
    exact ⟨(digit?_toUpper value).1, (digit?_toUpper value).2, digitChar_ne_underscore value⟩
  rw [String.toList_map, digits, String.toList_ofList]
  rw [← extend?_map capital] at plain
  cases written : Nat.toDigits 16 number with
  | nil => exact absurd written Nat.toDigits_ne_nil
  | cons c rest =>
      rw [written] at plain capital
      rw [List.map_cons] at plain ⊢
      rw [natural?_cons 16 (capital c List.mem_cons_self).2.1, plain]

/-- A number is known by its capital digits and its sign. -/
theorem upperHex_inj {first second : Int} (same : upperHex first = upperHex second) :
    first = second := by
  have signed : ∀ {value : Int}, value < 0 → '-' ∈ (upperHex value).toList := by
    intro value negative
    unfold upperHex sign
    rw [if_pos negative, String.toList_append]
    exact List.mem_cons_self
  have unsigned : ∀ {value : Int}, ¬ value < 0 →
      upperHex value = (digits 16 value.natAbs).map Char.toUpper := by
    intro value positive
    unfold upperHex sign
    rw [if_neg positive, String.empty_append]
  by_cases negative : first < 0
  · by_cases other : second < 0
    · unfold upperHex sign at same
      rw [if_pos negative, if_pos other, String.append_right_inj] at same
      have magnitude := capitals_inj same
      omega
    · have minus := signed negative
      rw [same, unsigned other] at minus
      exact absurd minus (capitals_toList _).2
  · by_cases other : second < 0
    · have minus := signed other
      rw [← same, unsigned negative] at minus
      exact absurd minus (capitals_toList _).2
    · rw [unsigned negative, unsigned other] at same
      have magnitude := capitals_inj same
      omega

end Numeral
end Msp430
