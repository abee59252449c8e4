import Rjcore.Verif.Buffers
import Rjcore.Verif.ProductId

/-!
# The supported resolutions

`getSupportResolution` puts two bytes together to a number, one bit for each resolution, and
lists the entries of the table whose bits are set. The list is the inverse of splitting it at
the commas and looking every entry up. The number has the right bits unless the sign of the
first byte covers the two lowest bits of the second.
-/

namespace Rjcore

open Interaction CText RjcoreService

/-- The number in the first two bytes of the file. -/
def supportMask (content : Bytes) : Nat :=
  2 ^ 8 * (content.getD 1 0).toNat + (content.getD 0 0).toNat

/-- The indices that `getSupportResolution` looks at. -/
def checkedIndices : List Nat := List.range' 1 (maxResolutionSupport - 1)

/-- The resolutions of a number, in increasing order; the first entry of the table is skipped. -/
def supported (mask : Nat) : List Nat := checkedIndices.filter fun i => mask.testBit i

/-- An entry of the list. -/
def braced (name : Bytes) : Bytes := ascii "\x7b" ++ name ++ ascii "\x7d"

/-- The entries that stand for the resolutions of the table. -/
def bracedIndex : List String16 := resolutionIndex.map fun name => (braced name).map UInt8.toUInt16

/-- The list of some resolutions. -/
def listText (indices : List Nat) : String16 :=
  [44].intercalate (indices.map fun i => bracedIndex.getD i [])

/-- The resolutions in a list: the text is split at the commas, and each entry looked up. -/
def readList (text : String16) : List Nat :=
  if text = [] then [] else (text.splitOn 44).map bracedIndex.idxOf

/-- What is reported for a file says exactly which resolutions it supports. -/
structure ListsSupported (content : Bytes) (reported : String16) : Prop where
  /-- A file that is too short supports none. -/
  short : content.length < resolutionInfoLen → reported = utf16 ""
  /-- Otherwise its resolutions are listed. -/
  listed : resolutionInfoLen ≤ content.length → reported = listText (supported (supportMask content))
  /-- They can be read back from the list. -/
  readBack : resolutionInfoLen ≤ content.length →
    readList reported = supported (supportMask content)
  /-- The list is empty exactly when there are none. -/
  empty : resolutionInfoLen ≤ content.length →
    (reported = utf16 "" ↔ supported (supportMask content) = [])

/-- The sign of the first byte does not show in the number. -/
def SignHidden (platform : Platform) (content : Bytes) : Prop :=
  content.length < resolutionInfoLen ∨ platform.charSigned = false ∨ content.getD 0 0 < 128 ∨
    ((supportMask content).testBit 8 = true ∧ (supportMask content).testBit 9 = true)

variable {platform : Platform} {content : Bytes}

section Lists

/-- An entry is found at its index, has no comma and is not empty. -/
theorem bracedIndex_spec {i : Nat} (inside : i < maxResolutionSupport) :
    bracedIndex.idxOf (bracedIndex.getD i []) = i ∧ (44 : UInt16) ∉ bracedIndex.getD i [] ∧
      bracedIndex.getD i [] ≠ [] := by
  have all : ∀ i < maxResolutionSupport, bracedIndex.idxOf (bracedIndex.getD i []) = i ∧
      (44 : UInt16) ∉ bracedIndex.getD i [] ∧ bracedIndex.getD i [] ≠ [] := by decide
  exact all i inside

variable {indices : List Nat} (inside : ∀ i ∈ indices, i < maxResolutionSupport)

include inside

/-- The list is empty exactly when there is nothing to list. -/
theorem listText_eq_nil_iff : listText indices = [] ↔ indices = [] := by
  cases indices with
  | nil => exact iff_of_true rfl rfl
  | cons first rest =>
    refine iff_of_false (fun blank => ?_) (List.cons_ne_nil _ _)
    cases rest with
    | nil =>
      have head := (bracedIndex_spec (inside first List.mem_cons_self)).2.2
      exact head (List.intercalate_singleton.symm.trans blank)
    | cons second rest =>
      rw [listText, List.map_cons, List.map_cons, List.intercalate_cons_cons] at blank
      have parts := congrArg List.length blank
      simp at parts

/-- A list of resolutions is read back. -/
theorem readList_listText : readList (listText indices) = indices := by
  unfold readList
  cases indices with
  | nil => rfl
  | cons first rest =>
    have some_list := (listText_eq_nil_iff inside).not.mpr (List.cons_ne_nil first rest)
    have noComma : ∀ part ∈ (first :: rest).map fun i => bracedIndex.getD i [], (44 : UInt16) ∉ part := by
      intro part member
      obtain ⟨i, listed, rfl⟩ := List.mem_map.mp member
      exact (bracedIndex_spec (inside i listed)).2.1
    have split := List.splitOn_intercalate (44 : UInt16) noComma (List.cons_ne_nil _ _)
    have looked : ∀ i ∈ first :: rest, bracedIndex.idxOf (bracedIndex.getD i []) = i :=
      fun i listed => (bracedIndex_spec (inside i listed)).1
    rw [if_neg some_list, listText, split, List.map_map]
    exact (List.map_congr_left looked).trans (List.map_id _)

end Lists

section Bits

/-- A single bit as the code shifts it into place. -/
theorem shifted_one {i : Nat} (checked : i ∈ checkedIndices) :
    (1 <<< Int32.ofNat i : Int32).toBitVec = BitVec.twoPow 32 i ∧
      (0x3FF : Int32).toBitVec.getLsbD i = true ∧ i < 10 := by
  have all : ∀ i ∈ checkedIndices, (1 <<< Int32.ofNat i : Int32).toBitVec = BitVec.twoPow 32 i ∧
      (0x3FF : Int32).toBitVec.getLsbD i = true ∧ i < 10 := by decide
  exact all i checked

/-- A bit of the number that the code puts together is a bit of the file, or the sign of the
first byte. -/
theorem supportIndex_bit {i : Nat} (checked : i ∈ checkedIndices) :
    supportIndex platform content &&& (1 <<< Int32.ofNat i) ≠ 0 ↔
      (supportMask content).testBit i = true ∨
        (8 ≤ i ∧ 128 ≤ content.getD 0 0 ∧ platform.charSigned = true) := by
  obtain ⟨single, inMask, below⟩ := shifted_one checked
  have bit : supportIndex platform content &&& (1 <<< Int32.ofNat i) ≠ 0 ↔
      (supportIndex platform content).toBitVec.getLsbD i = true := by
    rw [Ne, ← Int32.toBitVec_inj, Int32.toBitVec_and, single, BitVec.and_twoPow]
    split
    · rename_i set
      refine iff_of_true (fun zero => ?_) set
      have lit := congrArg (BitVec.getLsbD · i) zero
      simp [show i < 32 by omega] at lit
    · rename_i clear
      exact iff_of_false (not_not_intro rfl) clear
  have parts : (supportIndex platform content).toBitVec =
      (BitVec.ofInt 32 (platform.charValue (content.getD 1 0)) <<< 8 |||
        BitVec.ofInt 32 (platform.charValue (content.getD 0 0))) &&& (0x3FF : Int32).toBitVec := rfl
  have low := (content.getD 0 0).toNat_lt
  rw [bit, parts, supportMask, Nat.testBit_two_pow_mul_add _ (by omega), BitVec.getLsbD_and, inMask,
    Bool.and_true, BitVec.getLsbD_or, Bool.or_eq_true, BitVec.getLsbD_shiftLeft]
  rw [@promoted_bit platform (content.getD 0 0) i (by omega)]
  by_cases first : i < 8
  · simp only [first, ↓reduceIte, decide_true, Bool.not_true, Bool.and_false, Bool.false_and,
      Bool.false_eq_true, false_or, true_and, Nat.not_le.mpr first, false_and, or_false]
    rfl
  · have second : i - 8 < 8 := by omega
    have inside : i < 32 := by omega
    simp only [first, inside, decide_true, decide_false, Bool.true_and, Bool.not_false,
      ↓reduceIte, false_and, false_or]
    have high := (@promoted_bit platform (content.getD 1 0) (i - 8) (by omega)).trans
      ((or_iff_left fun beyond => by omega).trans (and_iff_right second))
    rw [high]
    rfl

/-- The front of a file has the same number. -/
theorem supportIndex_fread (content : Bytes) :
    supportIndex platform (fread content 0 resolutionInfoLen) = supportIndex platform content := by
  rcases content with _ | ⟨first, _ | ⟨second, rest⟩⟩
  · rfl
  · rfl
  · rfl

/-- The indices that the loop lists. -/
def listedIndices (platform : Platform) (content : Bytes) : List Nat :=
  checkedIndices.filter fun i => supportIndex platform content &&& (1 <<< Int32.ofNat i) ≠ 0

/-- The loop lists the resolutions of the file exactly when no sign shows. -/
theorem listedIndices_eq_iff (long : resolutionInfoLen ≤ content.length) :
    listedIndices platform content = supported (supportMask content) ↔ SignHidden platform content := by
  have bits : listedIndices platform content = supported (supportMask content) ↔
      ∀ i ∈ checkedIndices, 8 ≤ i → 128 ≤ content.getD 0 0 → platform.charSigned = true →
        (supportMask content).testBit i = true := by
    constructor
    · intro same i member last negative sign
      have listed : i ∈ listedIndices platform content := by
        refine List.mem_filter.mpr ⟨member, decide_eq_true ?_⟩
        exact (supportIndex_bit member).mpr (.inr ⟨last, negative, sign⟩)
      rw [same] at listed
      exact (List.mem_filter.mp listed).2
    · intro hidden
      refine List.filter_congr fun i member => ?_
      rw [Bool.eq_iff_iff, decide_eq_true_eq, supportIndex_bit member]
      exact or_iff_left_of_imp fun spill => hidden i member spill.1 spill.2.1 spill.2.2
  have checked : ∀ i, i ∈ checkedIndices ∧ 8 ≤ i ↔ i = 8 ∨ i = 9 := by
    intro i
    rw [checkedIndices, List.mem_range'_1]
    change (1 ≤ i ∧ i < 10) ∧ 8 ≤ i ↔ _
    omega
  rw [bits]
  constructor
  · intro all
    by_cases unsigned : platform.charSigned = false
    · exact .inr (.inl unsigned)
    by_cases low : content.getD 0 0 < 128
    · exact .inr (.inr (.inl low))
    have set := fun i (known : i = 8 ∨ i = 9) => all i ((checked i).mpr known).1
      ((checked i).mpr known).2 (UInt8.not_lt.mp low) (by simpa using unsigned)
    exact .inr (.inr (.inr ⟨set 8 (.inl rfl), set 9 (.inr rfl)⟩))
  · rintro (short | unsigned | low | ⟨eight, nine⟩) i member last negative sign
    · exact absurd short (Nat.not_lt.mpr long)
    · rw [unsigned] at sign
      contradiction
    · exact absurd low (UInt8.not_lt.mpr negative)
    · rcases (checked i).mp ⟨member, last⟩ with rfl | rfl
      · exact eight
      · exact nine

end Bits

section Loop

/-- The entry that the loop appends. -/
theorem snprintf_braced {i : Nat} (inside : i < maxResolutionSupport) :
    cstr (snprintf 128 (ascii "\x7b" ++ resolutionIndex.getD i [] ++ ascii "\x7d,")) =
      braced (resolutionIndex.getD i []) ++ [44] := by
  have all : ∀ i < maxResolutionSupport,
      cstr (snprintf 128 (ascii "\x7b" ++ resolutionIndex.getD i [] ++ ascii "\x7d,")) =
        braced (resolutionIndex.getD i []) ++ [44] := by decide
  exact all i inside

/-- The text of some entries, each with its comma. -/
def listBytes (indices : List Nat) : Bytes :=
  indices.flatMap fun i => braced (resolutionIndex.getD i []) ++ [44]

/-- The loop appends the entries of the bits that are set. -/
theorem listResolutions_ensures (support : Int32) {indices : List Nat}
    (inside : ∀ i ∈ indices, i < maxResolutionSupport) (res : Bytes) :
    (listResolutions support indices res).Ensures fun _ appended =>
      cstr appended = cstr res ++
        listBytes (indices.filter fun i => support &&& (1 <<< Int32.ofNat i) ≠ 0) := by
  induction indices generalizing res with
  | nil => exact (List.append_nil _).symm
  | cons i rest ih =>
    have later := fun other member => inside other (List.mem_cons_of_mem i member)
    unfold listResolutions
    split
    · rename_i set
      refine Program.Ensures.bind (strcat_ensures _ _ _) ?_
      rintro _ appended ⟨rfl, text⟩
      refine (ih later appended).mono fun _ final listed => ?_
      rw [listed, text, snprintf_braced (inside i List.mem_cons_self), List.append_assoc]
      simp [set, listBytes]
    · rename_i clear
      refine (ih later res).mono fun _ final listed => ?_
      rw [listed]
      simp [clear]

/-- Without the last comma the entries are the list. -/
theorem dropLast_listBytes {indices : List Nat} (inside : ∀ i ∈ indices, i < maxResolutionSupport) :
    (listBytes indices).dropLast.map UInt8.toUInt16 = listText indices := by
  have entry : ∀ i < maxResolutionSupport,
      (braced (resolutionIndex.getD i [])).map UInt8.toUInt16 = bracedIndex.getD i [] := by decide
  induction indices with
  | nil => rfl
  | cons i rest ih =>
    have own := entry i (inside i List.mem_cons_self)
    have later := ih fun other member => inside other (List.mem_cons_of_mem i member)
    cases rest with
    | nil =>
      rw [listBytes, List.flatMap_singleton, List.dropLast_concat, own]
      exact List.intercalate_singleton.symm
    | cons second rest =>
      have some_rest : listBytes (second :: rest) ≠ [] := by simp [listBytes, braced]
      have parts : listBytes (i :: second :: rest) =
          braced (resolutionIndex.getD i []) ++ [44] ++ listBytes (second :: rest) := rfl
      have joined : listText (i :: second :: rest) =
          bracedIndex.getD i [] ++ [44] ++ listText (second :: rest) :=
        List.intercalate_cons_cons
      rw [parts, List.dropLast_append_of_ne_nil some_rest, List.map_append, later, List.map_append,
        own, joined]
      rfl

/-- The last comma is replaced by a NUL. -/
theorem cut_last {indices : List Nat} {res : Bytes} (text : cstr res = listBytes indices) :
    cstr (if (cstr res).length ≠ 0 ∧ res.getD ((cstr res).length - 1) 0 = 44
      then res.set ((cstr res).length - 1) nul else res) = (listBytes indices).dropLast := by
  rcases List.eq_nil_or_concat indices with rfl | ⟨before, i, rfl⟩
  · have none : (cstr res).length = 0 := congrArg List.length text
    rw [if_neg fun some_text => some_text.1 none, text]
    rfl
  · let front := listBytes before ++ braced (resolutionIndex.getD i [])
    have parts : listBytes (before.concat i) = front ++ [44] := by
      simp [listBytes, front]
    rw [parts] at text
    have length : (cstr res).length = front.length + 1 := by
      rw [text, List.length_append, List.length_singleton]
    have comma : res.getD front.length 0 = 44 := by
      obtain ⟨behind, whole⟩ : cstr res <+: res := List.takeWhile_prefix _
      rw [text, List.append_assoc] at whole
      rw [← whole, List.getD_eq_getElem?_getD, List.getElem?_append_right le_rfl, Nat.sub_self]
      rfl
    rw [length, Nat.add_sub_cancel, if_pos ⟨Nat.succ_ne_zero _, comma⟩,
      cstr_set_nul (by omega), text, parts, List.take_left, List.dropLast_concat]

end Loop

/-- What is reported for a file: nothing where it is too short, else the list that the loop
makes. -/
theorem getSupportResolution_ensures (platform : Platform) :
    (getSupportResolution platform).Ensures fun trace reported => ∀ file rest,
      trace = ⟨.fopen lcdinfoPath (ascii "rb"), some file⟩ :: rest →
        (file.content.length < resolutionInfoLen → reported = utf16 "") ∧
        (resolutionInfoLen ≤ file.content.length →
          reported = listText (listedIndices platform file.content)) := by
  have inside : ∀ i ∈ checkedIndices, i < maxResolutionSupport := fun i member =>
    (List.mem_range'_1.mp member).2
  have ascii_listed : ∀ indices : List Nat, (∀ i ∈ indices, i < maxResolutionSupport) →
      platform.string16 (listBytes indices).dropLast = listText indices := by
    intro indices known
    have narrow : ∀ i < maxResolutionSupport,
        (braced (resolutionIndex.getD i []) ++ [44]).Forall (· < 128) := by decide
    rw [platform.string16_ascii, dropLast_listBytes known]
    intro byte member
    obtain ⟨i, listed, inEntry⟩ := List.mem_flatMap.mp (List.mem_of_mem_dropLast member)
    exact List.forall_iff_forall_mem.mp (narrow i (known i listed)) byte inEntry
  intro opened
  cases opened with
  | none =>
    intro file rest same
    cases same
  | some file =>
    have length := fread_length file.content 0 resolutionInfoLen
    rw [Nat.sub_zero] at length
    simp only [Program.bind]
    split
    · rename_i few
      intro _ other rest same
      cases same
      exact ⟨fun _ => rfl, fun enough => absurd (length.trans (Nat.min_eq_left enough)) few⟩
    · rename_i enough
      refine Program.Ensures.bind (listResolutions_ensures _ inside _) ?_
      intro trace res listed _ other rest same
      cases same
      have own : ∀ i ∈ listedIndices platform file.content, i < maxResolutionSupport :=
        fun i member => inside i (List.mem_of_mem_filter member)
      rw [cstr_zeros, List.nil_append, supportIndex_fread] at listed
      refine ⟨fun few => ?_, fun _ => ?_⟩
      · rw [Decidable.not_not, length, Nat.min_eq_right few.le] at enough
        exact absurd enough few.ne
      · refine (congrArg platform.string16 (cut_last listed)).trans ?_
        exact ascii_listed _ own

/-- What is reported says exactly which resolutions a file supports if and only if the sign of
its first byte does not show. -/
theorem listsSupported_iff (platform : Platform) :
    (getSupportResolution platform).Ensures fun trace reported => ∀ file rest,
      trace = ⟨.fopen lcdinfoPath (ascii "rb"), some file⟩ :: rest →
        (ListsSupported file.content reported ↔ SignHidden platform file.content) := by
  refine (getSupportResolution_ensures platform).mono fun trace reported listed file rest opened => ?_
  obtain ⟨short, long⟩ := listed file rest opened
  by_cases few : file.content.length < resolutionInfoLen
  · have never : ¬resolutionInfoLen ≤ file.content.length := Nat.not_le.mpr few
    exact iff_of_true ⟨short, fun enough => absurd enough never, fun enough => absurd enough never,
      fun enough => absurd enough never⟩ (.inl few)
  · have enough := Nat.not_lt.mp few
    have inside : ∀ i ∈ listedIndices platform file.content, i < maxResolutionSupport :=
      fun i member => (List.mem_range'_1.mp (List.mem_of_mem_filter member)).2
    rw [← listedIndices_eq_iff enough, long enough]
    constructor
    · intro right
      rw [← right.readBack enough, readList_listText inside]
    · intro same
      rw [same] at inside ⊢
      exact ⟨fun less => absurd less few, fun _ => rfl, fun _ => readList_listText inside,
        fun _ => listText_eq_nil_iff inside⟩

/-- A first byte of 128 lists two resolutions that the file does not support. -/
theorem not_listsSupported : ¬∀ platform : Platform,
    (getSupportResolution platform).Ensures fun trace reported => ∀ file rest,
      trace = ⟨.fopen lcdinfoPath (ascii "rb"), some file⟩ :: rest →
        ListsSupported file.content reported := by
  intro lists
  obtain ⟨rest, reported, run⟩ : ∃ rest reported, (getSupportResolution (.plain true)).Runs
      (⟨.fopen lcdinfoPath (ascii "rb"), some ⟨[128, 0, 0, 0], true⟩⟩ :: rest) reported :=
    @Program.exists_runs_ask os _ _ (.fopen lcdinfoPath (ascii "rb")) _ _
  have right := Program.ensures_iff.mp (lists (.plain true)) _ _ run _ _ rfl
  have made := (Program.ensures_iff.mp (getSupportResolution_ensures (.plain true)) _ _ run _ _
    rfl).2 le_rfl
  rw [right.listed le_rfl] at made
  exact absurd made (by decide)

end Rjcore
