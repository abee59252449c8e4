import Mathlib.Algebra.Group.Nat.Defs
import Rjcore.Text.CString

/-!
# Numerals

The value of a run of digits in a base of at most sixteen, and `%08lx` as its inverse. `atof`
gives the value of a decimal number whatever stands behind it.
-/

namespace CText

/-- The digits of `%x`. -/
def hexDigits : Bytes := ascii "0123456789abcdef"

/-- The value of a digit. -/
def digitValue (digit : UInt8) : Nat :=
  if digit < 97 then digit.toNat - 48 else digit.toNat - 87

/-- The value of a run of digits in a base. -/
def numeralValue (base : Nat) (digits : Bytes) : Nat :=
  digits.foldl (fun value digit => base * value + digitValue digit) 0

/-- The digits of a number in a base. -/
def numeral (base value : Nat) : Bytes :=
  (Nat.toDigits base value).map fun char => char.val.toUInt8

/-- One more digit. -/
theorem numeralValue_concat (base : Nat) (digits : Bytes) (digit : UInt8) :
    numeralValue base (digits ++ [digit]) =
      base * numeralValue base digits + digitValue digit := by
  simp only [numeralValue, List.foldl_append, List.foldl_cons, List.foldl_nil]

/-- Leading zeros do not count. -/
theorem numeralValue_zeros (base count : Nat) (digits : Bytes) :
    numeralValue base (List.replicate count 48 ++ digits) = numeralValue base digits := by
  induction count with
  | zero => rfl
  | succ count ih =>
    rw [List.replicate_succ, List.cons_append, ← ih]
    rfl

/-- The character of a digit is a digit of `%x` and has its value. -/
theorem digitChar_byte {digit : Nat} (small : digit < 16) :
    digit.digitChar.val.toUInt8 ∈ hexDigits ∧
      digitValue digit.digitChar.val.toUInt8 = digit := by
  have all : ∀ digit : Fin 16, digit.val.digitChar.val.toUInt8 ∈ hexDigits ∧
      digitValue digit.val.digitChar.val.toUInt8 = digit.val := by decide
  exact all ⟨digit, small⟩

/-- The digits of a number in a base, from its last one. -/
theorem numeral_eq {base : Nat} (proper : 1 < base) (value : Nat) :
    numeral base value = if value < base then [value.digitChar.val.toUInt8]
      else numeral base (value / base) ++ [(value % base).digitChar.val.toUInt8] := by
  unfold numeral
  rw [Nat.toDigits_eq_if proper]
  split
  · rfl
  · rw [List.map_append]
    rfl

/-- What holds of a single digit, and of one more digit behind digits of which it holds, holds of
the digits of every number. -/
theorem numeral_induct {base : Nat} (proper : 1 < base) {P : Bytes → Nat → Prop}
    (single : ∀ digit < base, P [digit.digitChar.val.toUInt8] digit)
    (several : ∀ front value, ∀ digit < base, P front value →
      P (front ++ [digit.digitChar.val.toUInt8]) (base * value + digit)) (value : Nat) :
    P (numeral base value) value := by
  induction value using Nat.strongRecOn with
  | ind value ih =>
    rw [numeral_eq proper]
    split
    · rename_i small
      exact single value small
    · rename_i large
      have front := ih (value / base) (Nat.div_lt_self (by omega) proper)
      have whole := several _ _ _ (Nat.mod_lt value (show 0 < base by omega)) front
      rwa [Nat.div_add_mod] at whole

/-- The digits of a number are digits and have its value. -/
theorem numeral_spec {base : Nat} (proper : 1 < base) (small : base ≤ 16) (value : Nat) :
    (∀ digit ∈ numeral base value, digit ∈ hexDigits) ∧
      numeralValue base (numeral base value) = value := by
  refine @numeral_induct base proper (fun digits value => (∀ digit ∈ digits, digit ∈ hexDigits) ∧
    numeralValue base digits = value) ?_ ?_ value
  · intro digit inBase
    obtain ⟨listed, same⟩ := digitChar_byte (show digit < 16 by omega)
    refine ⟨fun byte member => ?_, ?_⟩
    · rw [List.mem_singleton.mp member]
      exact listed
    · change base * 0 + _ = _
      rw [same, Nat.mul_zero, Nat.zero_add]
  · rintro front _ digit inBase ⟨known, rfl⟩
    obtain ⟨listed, same⟩ := digitChar_byte (show digit < 16 by omega)
    refine ⟨fun byte member => ?_, ?_⟩
    · rcases List.mem_append.mp member with before | last
      · exact known byte before
      · rw [List.mem_singleton.mp last]
        exact listed
    · rw [numeralValue_concat, same]

/-- `%08lx` prints digits with the value of its argument. -/
theorem hex8_spec (value : Nat) :
    (∀ digit ∈ hex8 value, digit ∈ hexDigits) ∧ numeralValue 16 (hex8 value) = value := by
  obtain ⟨listed, same⟩ := @numeral_spec 16 (by decide) (by decide) value
  refine ⟨fun digit member => ?_, ?_⟩
  · rcases List.mem_append.mp member with zero | shown
    · rw [(List.mem_replicate.mp zero).2]
      decide
    · exact listed digit shown
  · exact (numeralValue_zeros 16 _ _).trans same

/-- `%08lx` prints eight digits as long as eight are enough. -/
theorem hex8_length {value : Nat} (small : value < 2 ^ 32) : (hex8 value).length = 8 := by
  have most : (Nat.toDigits 16 value).length ≤ 8 :=
    (Nat.length_toDigits_le_iff (by decide) (by decide)).mpr small
  simp only [hex8, List.length_append, List.length_replicate, List.length_map]
  omega

/-- `%08lx` prints at most sixteen digits of a word of 64 bits. -/
theorem hex8_length_le {value : Nat} (small : value < 2 ^ 64) : (hex8 value).length ≤ 16 := by
  have most : (Nat.toDigits 16 value).length ≤ 16 :=
    (Nat.length_toDigits_le_iff (by decide) (by decide)).mpr small
  simp only [hex8, List.length_append, List.length_replicate, List.length_map]
  omega

/-! ## Decimal numbers -/

/-- A digit is no NUL and none of the signs and blanks that may stand in front of a number. -/
theorem isDigit_spec {byte : UInt8} (digit : isDigit byte = true) :
    48 ≤ byte.toNat ∧ byte.toNat ≤ 57 ∧ isSpace byte = false := by
  simp only [isDigit, Bool.and_eq_true, decide_eq_true_eq, UInt8.le_iff_toNat_le] at digit
  obtain ⟨low, high⟩ := digit
  change 48 ≤ byte.toNat at low
  refine ⟨low, high, ?_⟩
  rw [isSpace, Bool.or_eq_false_iff, decide_eq_false_iff_not, Bool.and_eq_false_iff]
  constructor
  · rintro rfl
    exact absurd low (by decide)
  · right
    rw [decide_eq_false_iff_not, UInt8.le_iff_toNat_le]
    change ¬byte.toNat ≤ 13
    omega

/-- The digits. -/
theorem mem_of_isDigit {byte : UInt8} (digit : isDigit byte = true) :
    byte ∈ ascii "0123456789" := by
  have all : ∀ value : Fin 10, UInt8.ofNat (48 + value.val) ∈ ascii "0123456789" := by decide
  obtain ⟨low, high, _⟩ := isDigit_spec digit
  have listed := all ⟨byte.toNat - 48, by omega⟩
  rwa [Nat.add_sub_cancel' low, UInt8.ofNat_toNat] at listed

/-- A number is printed in digits, and these have its value. -/
theorem decimalNat_spec (value : Nat) : decimalNat value ≠ [] ∧
    (∀ digit ∈ decimalNat value, isDigit digit = true) ∧ digitsValue (decimalNat value) = value := by
  have digitByte : ∀ digit : Fin 10, isDigit digit.val.digitChar.val.toUInt8 = true ∧
      digit.val.digitChar.val.toUInt8.toNat - 48 = digit.val := by decide
  refine @numeral_induct 10 (by decide) (fun digits value => digits ≠ [] ∧
    (∀ digit ∈ digits, isDigit digit = true) ∧ digitsValue digits = value) ?_ ?_ value
  · intro digit small
    obtain ⟨isDigit, same⟩ := digitByte ⟨digit, small⟩
    refine ⟨List.cons_ne_nil _ _, fun byte member => ?_, ?_⟩
    · rwa [List.mem_singleton.mp member]
    · change 10 * 0 + _ = _
      rw [same, Nat.mul_zero, Nat.zero_add]
  · rintro front _ digit small ⟨_, known, rfl⟩
    obtain ⟨isDigit, same⟩ := digitByte ⟨digit, small⟩
    refine ⟨by simp, fun byte member => ?_, ?_⟩
    · rcases List.mem_append.mp member with before | last
      · exact known byte before
      · rwa [List.mem_singleton.mp last]
    · rw [digitsValue, List.foldl_append]
      exact congrArg (10 * digitsValue front + ·) same

/-- A number that is not negative is printed in digits, and these have its value. -/
theorem decimal_spec {value : Int} (positive : 0 ≤ value) : decimal value ≠ [] ∧
    (∀ digit ∈ decimal value, isDigit digit = true) ∧ digitsValue (decimal value) = value := by
  obtain ⟨some_digit, digits, same⟩ := decimalNat_spec value.natAbs
  rw [decimal, if_neg (by omega)]
  exact ⟨some_digit, digits, by omega⟩

/-- A number of 32 bits that is not negative has at most ten digits. -/
theorem decimal_length_le {value : Int} (positive : 0 ≤ value)
    (small : value ≤ 2147483647) : (decimal value).length ≤ 10 := by
  rw [decimal, if_neg (by omega), decimalNat, List.length_map]
  exact (Nat.length_toDigits_le_iff (by decide) (by decide)).mpr (by omega)

/-- Digits behind which none follows are read to their end. -/
theorem takeWhile_isDigit {digits rest : Bytes} (inner : ∀ byte ∈ digits, isDigit byte = true)
    (ends : ∀ byte ∈ rest.head?, isDigit byte = false) :
    (digits ++ rest).takeWhile isDigit = digits ∧ (digits ++ rest).dropWhile isDigit = rest := by
  rw [List.takeWhile_append_of_pos inner, List.dropWhile_append_of_pos inner]
  cases rest with
  | nil => simp
  | cons byte rest =>
    have stop := ends byte rfl
    simp [stop]

/-- A decimal number is read up to what follows it. -/
theorem atof_decimal {whole rest : Bytes} {fraction : Option Bytes} (some_whole : whole ≠ [])
    (digits : ∀ byte ∈ whole ++ fraction.getD [], isDigit byte = true)
    (ends : ∀ byte ∈ rest.head?, isDigit byte = false ∧ byte ≠ 46 ∧ byte ≠ 101 ∧ byte ≠ 69) :
    atof (whole ++ ((fraction.map (46 :: ·)).getD [] ++ rest)) =
      digitsValue (whole ++ fraction.getD []) / 10 ^ (fraction.getD []).length := by
  have inWhole := fun byte member => digits byte (List.mem_append_left _ member)
  have inFraction := fun byte member => digits byte (List.mem_append_right _ member)
  have stop : ∀ byte ∈ rest.head?, isDigit byte = false := fun byte first => (ends byte first).1
  have noExponent : takeExponent rest = 0 := by
    cases rest with
    | nil => rfl
    | cons mark rest =>
      have other := (ends mark rfl).2.2
      simp [takeExponent, other]
  have plain : ∀ text : Bytes, takeSign ((whole ++ text).dropWhile isSpace) = (false, whole ++ text) := by
    intro text
    obtain ⟨first, tail, rfl⟩ := List.exists_cons_of_ne_nil some_whole
    obtain ⟨low, _, space⟩ := isDigit_spec (inWhole first List.mem_cons_self)
    rw [List.cons_append, List.dropWhile_cons_of_neg (by simp [space])]
    unfold takeSign
    split
    · rename_i same
      cases same
      exact absurd low (by decide)
    · rename_i same
      cases same
      exact absurd low (by decide)
    · rfl
  have scale : ∀ count : Nat, (10 : Rat) ^ ((0 : Int) - count) = (10 ^ count)⁻¹ := by
    intro count
    rw [Int.zero_sub, Rat.zpow_neg, Rat.zpow_natCast]
  cases fraction with
  | none =>
    obtain ⟨front, behind⟩ := takeWhile_isDigit inWhole stop
    -- `atof` then looks for no fraction
    have noPoint : ∀ tail, rest ≠ 46 :: tail := by
      rintro tail rfl
      exact (ends 46 rfl).2.1 rfl
    simp only [atof, Option.map_none, Option.getD_none, List.nil_append, plain, front, behind,
      Bool.false_eq_true, ↓reduceIte]
    rw [noExponent, scale, Rat.div_def]
  | some fraction =>
    obtain ⟨front, behind⟩ := @takeWhile_isDigit whole (46 :: (fraction ++ rest)) inWhole
      (by rintro byte ⟨⟩; decide)
    obtain ⟨front', behind'⟩ := takeWhile_isDigit inFraction stop
    simp only [atof, Option.map_some, Option.getD_some, List.cons_append, plain, front, behind]
    rw [Option.getD_some] at front' behind'
    simp only [front', behind', noExponent, scale, Rat.div_def, Bool.false_eq_true, ↓reduceIte]

end CText
