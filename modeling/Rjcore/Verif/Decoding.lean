import Rjcore.Verif.Identity

/-!
# Decoding the identity block

Where plain `char` is unsigned, `getNandStoreInfo` succeeds on exactly the files that hold
all four records completely. The header of the serial number is two bytes long and only its
first byte is a length, so a serial number of one byte leaves the second header byte in the
buffer behind it; every other field is decoded exactly.
-/

namespace Rjcore

open Interaction CText

/-- The C string that a number of bytes from an offset on hold. -/
def slice (content : Bytes) (offset count : Nat) : Bytes := cstr (fread content offset count)

/-- The length byte of a record. -/
def lengthByte (content : Bytes) (offset : Nat) : UInt8 := content.getD offset 0

/-- A header and as many bytes as its first byte says lie inside the content. -/
def RecordInside (content : Bytes) (offset length : Nat) : Prop :=
  offset + length ≤ content.length ∧
    offset + length + (lengthByte content offset).toNat ≤ content.length

instance (content : Bytes) (offset length : Nat) : Decidable (RecordInside content offset length) :=
  inferInstanceAs (Decidable (_ ∧ _))

/-- Every record lies completely inside the content. -/
def RecordsInside (content : Bytes) : Prop :=
  RecordInside content 0 2 ∧ RecordInside content 32 1 ∧ RecordInside content 48 1 ∧
    62 ≤ content.length

/-- `getNandStoreInfo` succeeds exactly on complete content, and then every field is the
string of its own bytes. -/
def DecodesExactly (content : Bytes) : Prop :=
  ∀ platform self rest after result, platform.charSigned = false →
    (RjcoreService.getNandStoreInfo platform self).Runs
      (⟨.fopen infoPath (ascii "r+"), some ⟨content, true⟩⟩ :: rest) (after, result) →
    (result = true ↔ RecordsInside content) ∧
    (result = true →
      after.mSerialNum = platform.string16 (slice content 2 (lengthByte content 0).toNat) ∧
      after.mProductType = platform.string16 (slice content 33 (lengthByte content 32).toNat) ∧
      after.mHardwareVersion = platform.string16 (slice content 49 (lengthByte content 48).toNat))

section Unsigned

variable {platform : Platform} {content : Bytes} {offset length : Nat}

/-- A byte is its own length. -/
theorem toSize_charValue (unsigned : platform.charSigned = false) (byte : UInt8) :
    platform.toSize (platform.charValue byte) = byte.toNat := by
  have small := byte.toNat_lt
  simp only [Platform.toSize, Platform.charValue, unsigned, Bool.false_eq_true, ↓reduceIte]
  rcases platform.wordBits_eq with width | width <;> rw [width] <;> omega

/-- A number of bytes that one byte can count is its own `int`. -/
theorem toInt_small {size : Nat} (small : size < 256) : Platform.toInt size = size := by
  unfold Platform.toInt
  rw [Int.bmod_def]
  omega

/-- The header of a record begins with its length byte. -/
theorem headD_header (some_header : 0 < length) :
    (Nand.header ⟨content, true⟩ offset length).headD 0 = lengthByte content offset := by
  obtain ⟨more, rfl⟩ : ∃ more, length = more + 1 := ⟨length - 1, by omega⟩
  simp [Nand.header, fread, lengthByte, List.headD_eq_head?_getD, List.getD_eq_getElem?_getD,
    List.head?_take, List.head?_drop]

/-- A header is reached exactly when it lies inside the content. -/
theorem reached_iff (some_header : 0 < length) :
    Nand.Reached ⟨content, true⟩ offset length ↔ offset + length ≤ content.length := by
  simp only [Nand.Reached, Nand.header, fread_length, true_and]
  omega

/-- The bytes that follow a header. -/
theorem payload_eq (unsigned : platform.charSigned = false) (some_header : 0 < length) :
    Nand.payload platform ⟨content, true⟩ offset length =
      fread content (offset + length) (lengthByte content offset).toNat := by
  unfold Nand.payload
  rw [headD_header some_header, toSize_charValue unsigned]

/-- A record can be read exactly when it lies inside the content. -/
theorem text_eq (unsigned : platform.charSigned = false) (some_header : 0 < length) :
    Nand.text platform ⟨content, true⟩ offset length =
      if RecordInside content offset length then
        some (cstr (fread content (offset + length) (lengthByte content offset).toNat ++
          (fread content offset length).drop (lengthByte content offset).toNat))
      else none := by
  have small := (lengthByte content offset).toNat_lt
  have count := fread_length content (offset + length) (lengthByte content offset).toNat
  have complete : Nand.Complete platform ⟨content, true⟩ offset length ↔
      (lengthByte content offset).toNat ≤ content.length - (offset + length) := by
    unfold Nand.Complete
    rw [payload_eq unsigned some_header, headD_header some_header, count,
      toInt_small (by omega)]
    simp only [Platform.charValue, unsigned, Bool.false_eq_true, ↓reduceIte]
    omega
  unfold Nand.text
  simp only [reached_iff some_header, complete, payload_eq unsigned some_header]
  by_cases inside : RecordInside content offset length
  · have whole : (fread content (offset + length) (lengthByte content offset).toNat).length =
        (lengthByte content offset).toNat := by
      rw [count]
      have := inside.2
      omega
    rw [if_pos inside, if_pos ⟨inside.1, by have := inside.2; omega⟩, whole]
    rfl
  · rw [if_neg inside, if_neg]
    rintro ⟨header, follows⟩
    exact inside ⟨header, by omega⟩

/-- Where the length byte covers the header or is zero, the text is the record's own. -/
theorem cstr_residue {payload header : Bytes} {count : Nat}
    (covered : count = 0 ∧ payload = [] ∧ header.headD 0 = 0 ∨ header.length ≤ count) :
    cstr (payload ++ header.drop count) = cstr payload := by
  rcases covered with ⟨rfl, rfl, zero⟩ | covers
  · cases header with
    | nil => rfl
    | cons byte rest =>
      rw [List.headD_cons] at zero
      subst zero
      rfl
  · rw [List.drop_of_length_le covers, List.append_nil]

/-- A record of one length byte is decoded exactly. -/
theorem text_single (unsigned : platform.charSigned = false) :
    Nand.text platform ⟨content, true⟩ offset 1 =
      if RecordInside content offset 1 then
        some (slice content (offset + 1) (lengthByte content offset).toNat)
      else none := by
  rw [text_eq unsigned Nat.one_pos]
  by_cases inside : RecordInside content offset 1
  · rw [if_pos inside, if_pos inside]
    refine congrArg some (cstr_residue ?_)
    by_cases zero : (lengthByte content offset).toNat = 0
    · refine .inl ⟨zero, by rw [zero]; exact List.take_zero, ?_⟩
      exact (headD_header Nat.one_pos).trans (UInt8.toNat_inj.mp zero)
    · refine .inr ?_
      rw [fread_length]
      omega
  · rw [if_neg inside, if_neg inside]

/-- The serial number is decoded exactly, or its one byte is followed by the second byte of
the header. -/
theorem text_serial (unsigned : platform.charSigned = false) (inside : RecordInside content 0 2) :
    Nand.text platform ⟨content, true⟩ 0 2 =
      some (if lengthByte content 0 = 1 then cstr [content.getD 2 0, content.getD 1 0]
        else slice content 2 (lengthByte content 0).toNat) := by
  rw [text_eq unsigned Nat.two_pos, if_pos inside]
  by_cases single : lengthByte content 0 = 1
  · rw [if_pos single]
    have enough := inside.2
    rw [single] at enough ⊢
    rcases content with _ | ⟨first, _ | ⟨second, _ | ⟨third, rest⟩⟩⟩
    · simp at enough
    · simp at enough
    · simp at enough
    · rfl
  · rw [if_neg single]
    refine congrArg some (cstr_residue ?_)
    by_cases zero : (lengthByte content 0).toNat = 0
    · refine .inl ⟨zero, by rw [zero]; exact List.take_zero, ?_⟩
      exact (headD_header Nat.two_pos).trans (UInt8.toNat_inj.mp zero)
    · refine .inr ?_
      have several : (lengthByte content 0).toNat ≠ 1 := fun one =>
        single (UInt8.toNat_inj.mp one)
      rw [fread_length]
      omega

/-- The product id can be read exactly when its bytes lie inside the content. -/
theorem idText_isSome :
    (Nand.idText platform ⟨content, true⟩).isSome = true ↔ 62 ≤ content.length := by
  unfold Nand.idText
  split
  · rename_i reached
    exact iff_of_true rfl ((reached_iff (by decide)).mp reached)
  · rename_i unreached
    exact iff_of_false Bool.false_ne_true fun enough => unreached ((reached_iff (by decide)).mpr enough)

/-- All records can be read exactly when they lie inside the content. -/
theorem texts_isSome (unsigned : platform.charSigned = false) :
    (Nand.texts platform (some ⟨content, true⟩)).all Option.isSome = true ↔
      RecordsInside content := by
  have single : ∀ offset length, 0 < length →
      ((Nand.text platform ⟨content, true⟩ offset length).isSome = true ↔
        RecordInside content offset length) := by
    intro offset length some_header
    rw [text_eq unsigned some_header]
    split
    · exact iff_of_true rfl ‹_›
    · exact iff_of_false Bool.false_ne_true ‹_›
  simp only [Nand.texts, List.all_map, List.all_cons, List.all_nil, Function.comp_apply,
    Option.isSome_map, Bool.and_true, Bool.and_eq_true, idText_isSome, RecordsInside]
  rw [single 0 serialNumberLen (by decide), single productTypeOff 1 (by decide),
    single hardwareVersionOff 1 (by decide)]
  rfl

end Unsigned

/-- The result of `getNandStoreInfo` is determined by the file. -/
theorem getNandStoreInfo_runs {platform : Platform} {opened : Option File} {self after : RjcoreService}
    {result : Bool} {rest : List (Event os)}
    (run : (RjcoreService.getNandStoreInfo platform self).Runs
      (⟨.fopen infoPath (ascii "r+"), opened⟩ :: rest) (after, result)) :
    after = identified platform self.mInit opened ∧
      result = (Nand.texts platform opened).all Option.isSome := by
  obtain ⟨found, same, outcome⟩ := Program.ensures_iff.mp (getNandStoreInfo_ensures self) _ _ run
  simp only [List.cons.injEq, Event.mk.injEq, heq_eq_eq, true_and] at same
  rw [same.1]
  exact Prod.mk.inj outcome

/-- The members decoded from complete content. -/
theorem identified_fields {platform : Platform} {content : Bytes} {mInit : Bool}
    (unsigned : platform.charSigned = false) (inside : RecordsInside content) :
    (identified platform mInit (some ⟨content, true⟩)).mSerialNum = platform.string16
        (if lengthByte content 0 = 1 then cstr [content.getD 2 0, content.getD 1 0]
          else slice content 2 (lengthByte content 0).toNat) ∧
      (identified platform mInit (some ⟨content, true⟩)).mProductType =
        platform.string16 (slice content 33 (lengthByte content 32).toNat) ∧
      (identified platform mInit (some ⟨content, true⟩)).mHardwareVersion =
        platform.string16 (slice content 49 (lengthByte content 48).toNat) := by
  have whole := List.all_eq_true.mp ((texts_isSome unsigned).mpr inside)
  have members := @identified_of_isSome platform mInit _ whole
  simp only [Nand.texts, serialNumberLen, productTypeOff, hardwareVersionOff, List.map_cons,
    text_serial unsigned inside.1, text_single unsigned, inside.2.1, inside.2.2.1, ↓reduceIte,
    Option.map_some, List.cons.injEq, Option.some.injEq] at members
  exact ⟨members.1.symm, members.2.1.symm, members.2.2.1.symm⟩

/-- A second byte shows unless one of the two is a NUL. -/
theorem cstr_pair_eq_iff (first second : UInt8) :
    cstr [first, second] = cstr [first] ↔ second = 0 ∨ first = 0 := by
  by_cases front : first = 0
  · subst front
    exact iff_of_true rfl (.inr rfl)
  · by_cases back : second = 0
    · subst back
      exact iff_of_true (by simp [cstr, nul, front]) (.inl rfl)
    · exact iff_of_false (by simp [cstr, nul, front, back]) (by simp [front, back])

/-- The byte that follows the header of the serial number. -/
theorem slice_single {content : Bytes} (enough : 2 < content.length) :
    slice content 2 1 = cstr [content.getD 2 0] := by
  rcases content with _ | ⟨first, _ | ⟨second, _ | ⟨third, rest⟩⟩⟩
  · simp at enough
  · simp at enough
  · simp at enough
  · rfl

/-- Where plain `char` is unsigned, the identity block is decoded exactly if and only if it is
not a complete block with a serial number of one byte that is not NUL, behind a header whose
second byte is not NUL. -/
theorem decodesExactly_iff (content : Bytes) :
    DecodesExactly content ↔
      ¬(RecordsInside content ∧ lengthByte content 0 = 1 ∧ content.getD 1 0 ≠ 0 ∧
        content.getD 2 0 ≠ 0) := by
  have follows : RecordsInside content → lengthByte content 0 = 1 → 2 < content.length := by
    intro inside single
    have enough := inside.1.2
    rw [single] at enough
    exact enough
  constructor
  · rintro exact ⟨inside, single, header, byte⟩
    obtain ⟨rest, ⟨after, result⟩, run⟩ : ∃ rest outcome,
        (RjcoreService.getNandStoreInfo (.plain false) ⟨false, [], [], [], []⟩).Runs
          (⟨.fopen infoPath (ascii "r+"), some ⟨content, true⟩⟩ :: rest) outcome :=
      @Program.exists_runs_ask os _ _ (.fopen infoPath (ascii "r+")) _ _
    obtain ⟨members, outcome⟩ := getNandStoreInfo_runs run
    have success : result = true := outcome.trans ((texts_isSome rfl).mpr inside)
    have serial := ((exact (.plain false) _ _ _ _ rfl run).2 success).1
    rw [members, (identified_fields rfl inside).1, if_pos single, single] at serial
    have same := List.map_injective_iff.mpr (fun left right => UInt8.toUInt16_inj.mp) serial
    change _ = slice content 2 1 at same
    rw [slice_single (follows inside single), cstr_pair_eq_iff] at same
    exact same.elim header byte
  · intro clean platform self rest after result unsigned run
    obtain ⟨members, outcome⟩ := getNandStoreInfo_runs run
    have success := @texts_isSome platform content unsigned
    rw [← outcome] at success
    refine ⟨success, fun stored => ?_⟩
    have inside := success.mp stored
    obtain ⟨serial, type, hardware⟩ := @identified_fields platform content self.mInit unsigned inside
    rw [members, serial, type, hardware]
    refine ⟨congrArg _ ?_, rfl, rfl⟩
    split
    · rename_i single
      rw [single]
      change _ = slice content 2 1
      rw [slice_single (follows inside single), cstr_pair_eq_iff]
      by_contra shown
      rw [not_or] at shown
      exact clean ⟨inside, single, shown.1, shown.2⟩
    · rfl

/-- A complete block whose serial number is one byte, behind a header byte that is not NUL. -/
def residueBlock : Bytes := [1, 0x58, 0x41] ++ List.replicate 59 0

/-- The serial number read from that block ends in the header byte. -/
theorem not_decodesExactly : ¬∀ content, DecodesExactly content := by
  intro exact
  obtain ⟨rest, ⟨after, result⟩, run⟩ : ∃ rest outcome,
      (RjcoreService.getNandStoreInfo (.plain false) ⟨false, [], [], [], []⟩).Runs
        (⟨.fopen infoPath (ascii "r+"), some ⟨residueBlock, true⟩⟩ :: rest) outcome :=
    @Program.exists_runs_ask os _ _ (.fopen infoPath (ascii "r+")) _ _
  obtain ⟨members, outcome⟩ := getNandStoreInfo_runs run
  have serial := ((exact _ _ _ _ _ _ rfl run).2 (outcome.trans (by decide))).1
  rw [members] at serial
  exact absurd serial (by decide)

end Rjcore
