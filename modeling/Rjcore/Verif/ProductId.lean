import Rjcore.Text.Digits
import Rjcore.Verif.Decoding

/-!
# The product id

`getNandStoreInfo` prints the four bytes of the product id as one number. Each byte passes
through plain `char` and `int` before it is shifted, so that a byte of 128 or more may become
negative, and its sign then covers every byte in front of it and the upper half of a
64-bit `long`. The number is the big-endian value of the bytes exactly where no sign does.
-/

namespace Rjcore

open Interaction CText

variable (platform : Platform) (bytes : Vector UInt8 4)

/-- The big-endian value of the bytes of a product id. -/
def idValue : Nat :=
  2 ^ 24 * bytes[0].toNat + (2 ^ 16 * bytes[1].toNat + (2 ^ 8 * bytes[2].toNat + bytes[3].toNat))

/-- A device with these bytes reports this product id. -/
def Reports (id : String16) : Prop :=
  ∃ self file rest after, fread file.content productIdOff productIdLen = bytes.toList ∧
    (RjcoreService.getNandStoreInfo platform self).Runs
      (⟨.fopen infoPath (ascii "r+"), some file⟩ :: rest) (after, true) ∧ after.mProductId = id

/-- The reported product id is eight lower-case hexadecimal digits with the value of the bytes. -/
def ReportsExactly : Prop :=
  ∀ id, Reports platform bytes id → ∃ digits : Bytes, id = digits.map UInt8.toUInt16 ∧
    digits.length = 8 ∧ (∀ digit ∈ digits, digit ∈ hexDigits) ∧
    numeralValue 16 digits = idValue bytes

/-- The byte at a position becomes negative when it is shifted as an `int`. -/
def Negative (byte : UInt8) (i : Nat) : Prop :=
  128 ≤ byte ∧ (i = 0 ∨ platform.charSigned = true)

/-- No sign reaches a byte that has a clear bit, nor the upper half of a `long`. -/
def Unsmeared : Prop :=
  ∀ i : Fin 4, Negative platform bytes[i] i →
    platform.wordBits = 32 ∧ ∀ j : Fin 4, j < i → bytes[j] = 255

section Bits

/-- The value a byte adds to the number. -/
def shifted (byte : UInt8) (i : Nat) : BitVec platform.wordBits :=
  ((BitVec.ofInt 32 (platform.charValue byte)) <<< (32 - 8 * (i + 1))).signExtend platform.wordBits

variable {platform} {bytes}

/-- A byte of 128 or more has its last bit set. -/
theorem last_bit (byte : UInt8) : byte.toBitVec[7] = true ↔ 128 ≤ byte := by
  have last := BitVec.getLsbD_last byte.toBitVec
  rw [BitVec.getLsbD_eq_getElem (by decide)] at last
  rw [last, decide_eq_true_iff]
  exact (@UInt8.le_iff_toNat_le 128 byte).symm

/-- A promoted byte keeps its bits and repeats its sign. -/
theorem promoted_bit (byte : UInt8) {k : Nat} (inside : k < 32) :
    (BitVec.ofInt 32 (platform.charValue byte)).getLsbD k = true ↔
      (k < 8 ∧ byte.toBitVec.getLsbD k = true) ∨
        (8 ≤ k ∧ 128 ≤ byte ∧ platform.charSigned = true) := by
  cases sign : platform.charSigned with
  | true =>
    have promoted : BitVec.ofInt 32 (platform.charValue byte) = byte.toBitVec.signExtend 32 := by
      rw [Platform.charValue, sign, if_pos rfl]
      rfl
    have last : byte.toBitVec.msb = byte.toBitVec.getLsbD 7 := rfl
    rw [promoted, BitVec.getLsbD_signExtend, last]
    by_cases low : k < 8
    · simp [inside, low, Nat.not_le.mpr low]
    · simp [inside, low, Nat.not_lt.mp low, last_bit]
  | false =>
    have promoted : BitVec.ofInt 32 (platform.charValue byte) = byte.toBitVec.setWidth 32 := by
      rw [Platform.charValue, sign, if_neg Bool.false_ne_true, BitVec.ofInt_natCast]
      exact BitVec.ofNat_toNat 32 byte.toBitVec
    rw [promoted, BitVec.getLsbD_setWidth]
    by_cases low : k < 8
    · simp [inside, low]
    · simp [low, BitVec.getLsbD_of_ge byte.toBitVec k (Nat.not_lt.mp low)]

/-- The bits a byte adds: its own in its place, and its sign behind them. -/
theorem shifted_bit (byte : UInt8) {i k : Nat} (position : i < 4) (inside : k < platform.wordBits) :
    (shifted platform byte i).getLsbD k = true ↔
      (24 - 8 * i ≤ k ∧ k < 32 - 8 * i ∧ byte.toBitVec.getLsbD (k - (24 - 8 * i)) = true) ∨
        (32 - 8 * i ≤ k ∧ Negative platform byte i) := by
  have place : 32 - 8 * (i + 1) = 24 - 8 * i := by omega
  rw [shifted, place, BitVec.getLsbD_signExtend]
  simp only [inside, decide_true, Bool.true_and]
  by_cases low : k < 32
  · simp only [low, ↓reduceIte, BitVec.getLsbD_shiftLeft, decide_true, Bool.true_and,
      Bool.and_eq_true, Bool.not_eq_true', decide_eq_false_iff_not, Nat.not_lt]
    rw [promoted_bit byte (by omega)]
    by_cases front : i = 0
    · subst front
      have within : k - (24 - 8 * 0) < 8 := by omega
      constructor
      · rintro ⟨above, ⟨_, set⟩ | ⟨beyond, _⟩⟩
        · exact .inl ⟨above, by omega, set⟩
        · omega
      · rintro (⟨above, _, set⟩ | ⟨beyond, _⟩)
        · exact ⟨above, .inl ⟨within, set⟩⟩
        · omega
    · constructor
      · rintro ⟨above, ⟨within, set⟩ | ⟨beyond, large, sign⟩⟩
        · exact .inl ⟨above, by omega, set⟩
        · exact .inr ⟨by omega, large, .inr sign⟩
      · rintro (⟨above, below, set⟩ | ⟨beyond, large, sign⟩)
        · exact ⟨above, .inl ⟨by omega, set⟩⟩
        · exact ⟨by omega, .inr ⟨by omega, large, sign.resolve_left front⟩⟩
  · -- every bit of the upper half is the sign of the shifted value
    have top : ((BitVec.ofInt 32 (platform.charValue byte)) <<< (24 - 8 * i)).msb = true ↔
        Negative platform byte i := by
      change (_ <<< _ : BitVec 32).getLsbD 31 = true ↔ _
      have above : 24 - 8 * i ≤ 31 := by omega
      simp only [BitVec.getLsbD_shiftLeft, Nat.reduceLT, decide_true, Bool.true_and,
        Bool.and_eq_true, Bool.not_eq_true', decide_eq_false_iff_not, Nat.not_lt, above, true_and]
      rw [promoted_bit byte (by omega)]
      by_cases front : i = 0
      · subst front
        simp [Negative, last_bit]
      · have beyond : 8 ≤ 31 - (24 - 8 * i) := by omega
        simp [Negative, front, beyond, Nat.not_lt.mpr beyond]
    rw [if_neg low, top]
    constructor
    · exact fun negative => .inr ⟨by omega, negative⟩
    · rintro (⟨_, below, _⟩ | ⟨_, negative⟩)
      · omega
      · exact negative

/-- One of four positions. -/
theorem exists_position {P : Fin 4 → Prop} : (∃ i, P i) ↔ P 0 ∨ P 1 ∨ P 2 ∨ P 3 := by
  constructor
  · rintro ⟨i, holds⟩
    match i with
    | 0 => exact .inl holds
    | 1 => exact .inr (.inl holds)
    | 2 => exact .inr (.inr (.inl holds))
    | 3 => exact .inr (.inr (.inr holds))
  · rintro (holds | holds | holds | holds)
    · exact ⟨0, holds⟩
    · exact ⟨1, holds⟩
    · exact ⟨2, holds⟩
    · exact ⟨3, holds⟩

/-- The bits of the number the loop computes. -/
theorem convertProductId_bit {k : Nat} :
    (convertProductId platform bytes.toList).getLsbD k = true ↔
      ∃ i : Fin 4, (shifted platform bytes[i] i).getLsbD k = true := by
  obtain ⟨⟨list⟩, length⟩ := bytes
  obtain ⟨first, second, third, fourth, rfl⟩ := List.length_eq_four.mp length
  have folded : convertProductId platform [first, second, third, fourth] =
      BitVec.ofNat platform.wordBits 0 ||| shifted platform first 0 ||| shifted platform second 1 |||
        shifted platform third 2 ||| shifted platform fourth 3 := rfl
  change (convertProductId platform [first, second, third, fourth]).getLsbD k = true ↔ _
  rw [folded, exists_position]
  simp only [BitVec.getLsbD_or, Bool.or_eq_true, BitVec.getLsbD_zero, Bool.false_eq_true, false_or,
    or_assoc]
  rfl

/-- The bits of the big-endian value. -/
theorem idValue_bit (k : Nat) :
    (idValue bytes).testBit k = true ↔ ∃ i : Fin 4,
      24 - 8 * i.val ≤ k ∧ k < 32 - 8 * i.val ∧
        bytes[i].toBitVec.getLsbD (k - (24 - 8 * i.val)) = true := by
  have third := bytes[3].toNat_lt
  have second := bytes[2].toNat_lt
  have first := bytes[1].toNat_lt
  rw [idValue, Nat.testBit_two_pow_mul_add _ (by omega), Nat.testBit_two_pow_mul_add _ (by omega),
    Nat.testBit_two_pow_mul_add _ (by omega), exists_position]
  change (if k < 24 then if k < 16 then if k < 8 then bytes[3].toBitVec.getLsbD k
    else bytes[2].toBitVec.getLsbD (k - 8) else bytes[1].toBitVec.getLsbD (k - 16)
    else bytes[0].toBitVec.getLsbD (k - 24)) = true ↔
      (24 ≤ k ∧ k < 32 ∧ bytes[0].toBitVec.getLsbD (k - 24) = true) ∨
      (16 ≤ k ∧ k < 24 ∧ bytes[1].toBitVec.getLsbD (k - 16) = true) ∨
      (8 ≤ k ∧ k < 16 ∧ bytes[2].toBitVec.getLsbD (k - 8) = true) ∨
      (0 ≤ k ∧ k < 8 ∧ bytes[3].toBitVec.getLsbD k = true)
  by_cases low : k < 24
  · have front : ¬24 ≤ k := by omega
    by_cases lower : k < 16
    · have behind : ¬16 ≤ k := by omega
      by_cases lowest : k < 8
      · have last : ¬8 ≤ k := by omega
        simp only [low, lower, lowest, front, behind, last, ↓reduceIte, false_and, false_or,
          Nat.zero_le, true_and]
      · have third : 8 ≤ k := by omega
        simp only [low, lower, lowest, third, front, behind, ↓reduceIte, false_and, and_false,
          false_or, or_false, true_and]
    · have second : 16 ≤ k := by omega
      have lowest : ¬k < 8 := by omega
      simp only [low, lower, lowest, second, front, ↓reduceIte, false_and, and_false,
        false_or, or_false, true_and]
  · have high : 24 ≤ k := by omega
    have lower : ¬k < 16 := by omega
    have lowest : ¬k < 8 := by omega
    simp only [low, lower, lowest, high, ↓reduceIte, false_and, and_false, or_false, true_and]
    constructor
    · intro set
      refine ⟨?_, set⟩
      by_contra beyond
      rw [BitVec.getLsbD_of_ge _ _ (by omega)] at set
      contradiction
    · exact And.right

/-- A byte whose bits are all set. -/
theorem eq_255_of_bits {byte : UInt8} (all : ∀ k < 8, byte.toBitVec.getLsbD k = true) :
    byte = 255 := by
  apply UInt8.eq_of_toBitVec_eq
  apply BitVec.eq_of_getLsbD_eq
  intro k inside
  rw [all k inside]
  exact ((BitVec.getLsbD_allOnes).trans (decide_eq_true inside)).symm

/-- The value of four bytes fits 32 bits. -/
theorem idValue_lt : idValue bytes < 2 ^ 32 := by
  have fourth := bytes[3].toNat_lt
  have third := bytes[2].toNat_lt
  have second := bytes[1].toNat_lt
  have first := bytes[0].toNat_lt
  unfold idValue
  omega

/-- Four bytes are determined by their value. -/
theorem idValue_injective {others : Vector UInt8 4} (same : idValue bytes = idValue others) :
    bytes = others := by
  have fourth := bytes[3].toNat_lt
  have third := bytes[2].toNat_lt
  have second := bytes[1].toNat_lt
  have fourth' := others[3].toNat_lt
  have third' := others[2].toNat_lt
  have second' := others[1].toNat_lt
  simp only [idValue] at same
  ext i inside
  match i, inside with
  | 0, _ => omega
  | 1, _ => omega
  | 2, _ => omega
  | 3, _ => omega

/-- The bits of the number are those of the value, and the signs. -/
theorem convertProductId_bit_iff {k : Nat} (inside : k < platform.wordBits) :
    (convertProductId platform bytes.toList).getLsbD k = true ↔
      (idValue bytes).testBit k = true ∨
        ∃ i : Fin 4, 32 - 8 * i.val ≤ k ∧ Negative platform bytes[i] i := by
  rw [convertProductId_bit, idValue_bit, ← exists_or]
  exact exists_congr fun i => shifted_bit bytes[i] i.isLt inside

/-- The number is the value of the bytes exactly where no sign is smeared. -/
theorem convertProductId_eq_iff :
    (convertProductId platform bytes.toList).toNat = idValue bytes ↔ Unsmeared platform bytes := by
  have words : 32 ≤ platform.wordBits := by
    rcases platform.wordBits_eq with width | width <;> omega
  constructor
  · intro same i negative
    have bits : ∀ k < platform.wordBits, 32 - 8 * i.val ≤ k → (idValue bytes).testBit k = true := by
      intro k inside behind
      rw [← same]
      exact (convertProductId_bit_iff inside).mpr (.inr ⟨i, behind, negative⟩)
    constructor
    · by_contra wide
      have wordBits : platform.wordBits = 64 := platform.wordBits_eq.resolve_left wide
      have set := bits 32 (by omega) (by omega)
      have clear := Nat.testBit_lt_two_pow (@idValue_lt bytes)
      exact Bool.false_ne_true (clear.symm.trans set)
    · intro j front
      apply eq_255_of_bits
      intro k low
      have below : j.val < i.val := front
      have position := i.isLt
      obtain ⟨other, above, under, set⟩ :=
        (idValue_bit _).mp (bits (24 - 8 * j.val + k) (by omega) (by omega))
      have same : other = j := Fin.ext (by omega)
      subst same
      rwa [Nat.add_sub_cancel_left] at set
  · intro unsmeared
    apply Nat.eq_of_testBit_eq
    intro k
    rw [BitVec.testBit_toNat]
    by_cases inside : k < platform.wordBits
    · rw [Bool.eq_iff_iff, convertProductId_bit_iff inside]
      refine or_iff_left_of_imp ?_
      rintro ⟨i, behind, negative⟩
      obtain ⟨wordBits, front⟩ := unsmeared i negative
      have position := i.isLt
      -- the bit belongs to a byte in front of the negative one
      have early : 3 - k / 8 < i.val := by omega
      have full := front ⟨3 - k / 8, by omega⟩ early
      refine (idValue_bit k).mpr ⟨⟨3 - k / 8, by omega⟩, ?_, ?_, ?_⟩
      · change 24 - 8 * (3 - k / 8) ≤ k
        omega
      · change k < 32 - 8 * (3 - k / 8)
        omega
      · rw [full]
        change (BitVec.allOnes 8).getLsbD (k - (24 - 8 * (3 - k / 8))) = true
        rw [BitVec.getLsbD_allOnes, decide_eq_true_iff]
        omega
    · rw [BitVec.getLsbD_of_ge _ _ (by omega)]
      have beyond : 2 ^ 32 ≤ 2 ^ k := Nat.pow_le_pow_right (by decide) (by omega)
      exact (Nat.testBit_lt_two_pow (Nat.lt_of_lt_of_le idValue_lt beyond)).symm

end Bits

section Reported

variable {platform} {bytes}

/-- What `getNandStoreInfo` makes of the four bytes. -/
def idDigits (platform : Platform) (bytes : Vector UInt8 4) : Bytes :=
  hex8 (convertProductId platform bytes.toList).toNat

/-- The digits are ASCII text that fits the buffer. -/
theorem idText_eq {file : File}
    (stored : fread file.content productIdOff productIdLen = bytes.toList)
    (seekable : file.seekable = true) :
    Nand.idText platform file = some (idDigits platform bytes) := by
  obtain ⟨listed, _⟩ := hex8_spec (convertProductId platform bytes.toList).toNat
  have reached : Nand.Reached file productIdOff productIdLen := by
    refine ⟨seekable, ?_⟩
    rw [Nand.header, stored]
    exact bytes.length_toList
  have word : (convertProductId platform bytes.toList).toNat < 2 ^ 64 := by
    have widest : 2 ^ platform.wordBits ≤ 2 ^ 64 := by
      apply Nat.pow_le_pow_right (by decide)
      rcases platform.wordBits_eq with width | width <;> omega
    exact Nat.lt_of_lt_of_le (convertProductId platform bytes.toList).isLt widest
  have short : (idDigits platform bytes).length ≤ 16 := hex8_length_le word
  have clean : nul ∉ idDigits platform bytes := by
    intro member
    exact absurd (listed nul member) (by decide)
  rw [Nand.idText, if_pos reached, Nand.header, stored]
  change some (cstr (snprintf size1K (idDigits platform bytes))) = _
  rw [snprintf_eq_self (Nat.lt_of_le_of_lt short (by decide)), cstr_of_noNul clean]

/-- The digits are widened as they are. -/
theorem string16_idDigits :
    platform.string16 (idDigits platform bytes) = (idDigits platform bytes).map UInt8.toUInt16 := by
  have ascii : ∀ digit ∈ hexDigits, digit < 128 := List.forall_iff_forall_mem.mp (by decide)
  exact platform.string16_ascii _ fun digit member => ascii digit ((hex8_spec _).1 digit member)

/-- A device reports the digits of its bytes. -/
theorem Reports.eq {id : String16} (reports : Reports platform bytes id) :
    id = (idDigits platform bytes).map UInt8.toUInt16 := by
  obtain ⟨self, file, rest, after, stored, run, rfl⟩ := reports
  obtain ⟨members, whole⟩ := getNandStoreInfo_runs run
  have texts := @identified_of_isSome platform self.mInit _ (List.all_eq_true.mp whole.symm)
  simp only [Nand.texts, List.map_cons, List.map_nil, List.cons.injEq, and_true] at texts
  have fourth := texts.2.2.2
  have seekable : file.seekable = true := by
    by_contra unseekable
    have unreached : ¬Nand.Reached file productIdOff productIdLen := fun reached =>
      unseekable reached.1
    rw [Nand.idText, if_neg unreached] at fourth
    contradiction
  rw [idText_eq stored seekable, Option.map_some, Option.some.injEq, string16_idDigits] at fourth
  rw [members, fourth]

/-- A file with empty records in front of these bytes. -/
def bareFile (bytes : Vector UInt8 4) : File := ⟨zeros productIdOff ++ bytes.toList, true⟩

/-- Every four bytes are reported by some device. -/
theorem reports_digits :
    Reports platform bytes ((idDigits platform bytes).map UInt8.toUInt16) := by
  have stored : fread (bareFile bytes).content productIdOff productIdLen = bytes.toList := by
    have behind : (zeros productIdOff ++ bytes.toList).drop productIdOff = bytes.toList :=
      List.drop_left' List.length_replicate
    rw [bareFile, fread, behind]
    exact List.take_of_length_le (Nat.le_of_eq bytes.length_toList)
  have zero : platform.charValue 0 = 0 := by
    cases sign : platform.charSigned <;> simp [Platform.charValue, sign]
  have empty : ∀ offset length, 0 < length → offset + length ≤ productIdOff →
      (Nand.text platform (bareFile bytes) offset length).isSome = true := by
    intro offset length some_header inside
    have header : Nand.header (bareFile bytes) offset length = List.replicate length nul := by
      rw [Nand.header, bareFile, fread, zeros, List.drop_append_of_le_length, List.drop_replicate,
        List.take_append_of_le_length, List.take_replicate, Nat.min_eq_left]
      all_goals
        try rw [List.length_replicate]
        omega
    have first : (Nand.header (bareFile bytes) offset length).headD 0 = 0 := by
      obtain ⟨more, rfl⟩ : ∃ more, length = more + 1 := ⟨length - 1, by omega⟩
      rw [header]
      rfl
    have payload : Nand.payload platform (bareFile bytes) offset length = [] := by
      have none : platform.toSize 0 = 0 := by rw [Platform.toSize, Int.zero_emod]; rfl
      rw [Nand.payload, first, zero, none, fread, List.take_zero]
    have complete : Nand.Complete platform (bareFile bytes) offset length := by
      rw [Nand.Complete, first, zero, payload]
      rfl
    have reached : Nand.Reached (bareFile bytes) offset length :=
      ⟨rfl, by rw [header, List.length_replicate]⟩
    rw [Nand.text, if_pos ⟨reached, complete⟩]
    rfl
  obtain ⟨rest, ⟨after, result⟩, run⟩ : ∃ rest outcome,
      (RjcoreService.getNandStoreInfo platform ⟨false, [], [], [], []⟩).Runs
        (⟨.fopen infoPath (ascii "r+"), some (bareFile bytes)⟩ :: rest) outcome :=
    @Program.exists_runs_ask os _ _ (.fopen infoPath (ascii "r+")) _ _
  have success : result = true := by
    have whole := (getNandStoreInfo_runs run).2
    simp only [Nand.texts, idText_eq stored rfl, List.all_map, List.all_cons, List.all_nil,
      Function.comp_apply, Option.isSome_map, Option.isSome_some, Bool.and_true,
      empty 0 serialNumberLen (by decide) (by decide),
      empty productTypeOff 1 (by decide) (by decide),
      empty hardwareVersionOff 1 (by decide) (by decide)] at whole
    exact whole
  subst success
  have reports : Reports platform bytes after.mProductId := ⟨_, _, _, _, stored, run, rfl⟩
  rwa [← reports.eq]

end Reported

/-- The product id is exactly the eight digits of its bytes if and only if no sign is smeared
over a byte in front of it or over the upper half of a `long`; and where this is so, devices
with different bytes report different ids. -/
theorem reportsExactly_iff (platform : Platform) :
    (∀ bytes, ReportsExactly platform bytes ↔ Unsmeared platform bytes) ∧
      ∀ bytes others id, Unsmeared platform bytes → Unsmeared platform others →
        Reports platform bytes id → Reports platform others id → bytes = others := by
  have exact_of : ∀ bytes, Unsmeared platform bytes → ReportsExactly platform bytes := by
    intro bytes unsmeared id reports
    have same := convertProductId_eq_iff.mpr unsmeared
    obtain ⟨listed, value⟩ := hex8_spec (convertProductId platform bytes.toList).toNat
    refine ⟨idDigits platform bytes, reports.eq, ?_, listed, value.trans same⟩
    apply hex8_length
    rw [same]
    exact idValue_lt
  refine ⟨fun bytes => ⟨fun exactly => ?_, exact_of bytes⟩, ?_⟩
  · obtain ⟨digits, shown, _, _, value⟩ := exactly _ reports_digits
    have same := List.map_injective_iff.mpr (fun left right => UInt8.toUInt16_inj.mp) shown
    rw [← same, idDigits, (hex8_spec _).2] at value
    exact convertProductId_eq_iff.mp value
  · intro bytes others id unsmeared unsmeared' reports reports'
    obtain ⟨digits, shown, _, _, value⟩ := exact_of bytes unsmeared id reports
    obtain ⟨digits', shown', _, _, value'⟩ := exact_of others unsmeared' id reports'
    have same := List.map_injective_iff.mpr (fun left right => UInt8.toUInt16_inj.mp)
      (shown.symm.trans shown')
    rw [same] at value
    exact idValue_injective (value.symm.trans value')

/-- With signed `char` the last byte 128 covers the three in front of it. -/
theorem not_reportsExactly :
    ¬∀ (platform : Platform) (bytes : Vector UInt8 4), ReportsExactly platform bytes := by
  intro exactly
  obtain ⟨digits, shown, _, _, value⟩ :=
    exactly (.plain true) #v[0, 0, 0, 128] _ reports_digits
  have same := List.map_injective_iff.mpr (fun left right => UInt8.toUInt16_inj.mp) shown
  rw [← same] at value
  exact absurd value (by decide)

end Rjcore
