import Rjcore.Service.Methods

/-!
# The identity file

What the constructor makes of `/proc/sn.info`, as a function of its content. A record can
be read when its header lies inside the file and as many bytes follow as the header says;
its text is what the buffer holds then, which is the bytes that follow and, where these do
not cover the header, what is left of it. The members are filled in the order of the
records up to the first that cannot be read (`construct_ensures`).
-/

namespace Rjcore

open Interaction CText

namespace Nand

variable (platform : Platform) (file : File)

/-- The header of a record. -/
def header (offset length : Nat) : Bytes := fread file.content offset length

/-- The bytes read over the header: as many as it says, or as there are. -/
def payload (offset length : Nat) : Bytes :=
  fread file.content (offset + length)
    (platform.toSize (platform.charValue ((header file offset length).headD 0)))

/-- The header lies inside the file. -/
def Reached (offset length : Nat) : Prop :=
  file.seekable = true ∧ (header file offset length).length = length

/-- As many bytes follow the header as it says. -/
def Complete (offset length : Nat) : Prop :=
  platform.charValue ((header file offset length).headD 0) =
    Platform.toInt (payload platform file offset length).length

instance (offset length : Nat) : Decidable (Reached file offset length) :=
  inferInstanceAs (Decidable (_ ∧ _))

instance (offset length : Nat) : Decidable (Complete platform file offset length) :=
  inferInstanceAs (Decidable (_ = _))

/-- The text of a record, if it can be read. -/
def text (offset length : Nat) : Option Bytes :=
  if Reached file offset length ∧ Complete platform file offset length then
    some (cstr (payload platform file offset length ++
      (header file offset length).drop (payload platform file offset length).length))
  else none

/-- The text of the product id, if its bytes lie inside the file. -/
def idText : Option Bytes :=
  if Reached file productIdOff productIdLen then
    some (cstr (snprintf size1K
      (hex8 (convertProductId platform (header file productIdOff productIdLen)).toNat)))
  else none

/-- The members the records stand for, in the order they are read. -/
def texts : Option File → List (Option String16)
  | none => [none, none, none, none]
  | some file =>
    [text platform file 0 serialNumberLen, text platform file productTypeOff 1,
      text platform file hardwareVersionOff 1, idText platform file].map
        (Option.map platform.string16)

/-- What stands in front of the first gap. -/
def leading {α : Type} : List (Option α) → List α
  | some value :: rest => value :: leading rest
  | _ => []

/-- The members read before the first record that cannot be read. -/
def found (opened : Option File) : List String16 := leading (texts platform opened)

/-- The sizes of the unbounded reads into the buffer while reading one record. -/
def writes (offset length : Nat) : List Nat :=
  if Reached file offset length then [(payload platform file offset length).length] else []

/-- The sizes of all the unbounded reads into the buffer. -/
def fileWrites : Option File → List Nat
  | none => []
  | some file =>
    writes platform file 0 serialNumberLen ++
      if (text platform file 0 serialNumberLen).isSome then
        writes platform file productTypeOff 1 ++
          if (text platform file productTypeOff 1).isSome then
            writes platform file hardwareVersionOff 1 else []
      else []

end Nand

/-- The members after the identity file was found to be this. -/
def identified (platform : Platform) (mInit : Bool) (opened : Option File) : RjcoreService where
  mInit := mInit
  mSerialNum := (Nand.found platform opened).getD 0 []
  mProductType := (Nand.found platform opened).getD 1 []
  mHardwareVersion := (Nand.found platform opened).getD 2 []
  mProductId := (Nand.found platform opened).getD 3 []

variable {platform : Platform} {file : File}

/-- An unbounded write into the buffer of the identity records. -/
def unboundedWrite (used : Nat) : Event os := ⟨.write size1K used, ()⟩

/-- Storing at the front puts the bytes before what they do not cover. -/
theorem overwrite_zero (buffer data : Bytes) :
    overwrite buffer 0 data = data ++ buffer.drop data.length := by
  simp only [overwrite, List.take_zero, List.nil_append, Nat.zero_add]

/-- A record stored over its header reads as the abstract text. -/
theorem cstr_record (size : Nat) (header payload : Bytes) :
    cstr (overwrite (overwrite (zeros size) 0 header) 0 payload) =
      cstr (payload ++ header.drop payload.length) := by
  rw [overwrite_zero, overwrite_zero, List.drop_append, ← List.append_assoc]
  simp only [zeros, List.drop_replicate]
  exact cstr_append_zeros _ _

/-- `readNand` stores the bytes that follow a header over the header. -/
theorem readNand_eq (offset length : Nat) (some_header : 0 < length) :
    readNand platform file offset length (zeros size1K) true =
      if Nand.Reached file offset length then
        .ask (.write size1K (Nand.payload platform file offset length).length) fun _ =>
          .done (if Nand.Complete platform file offset length then
            some (overwrite (overwrite (zeros size1K) 0 (Nand.header file offset length)) 0
              (Nand.payload platform file offset length)) else none)
      else .done none := by
  unfold readNand Nand.Complete Nand.payload Nand.Reached Nand.header
  by_cases seekable : file.seekable = true
  · by_cases inside : (fread file.content offset length).length = length
    · have first : (overwrite (zeros size1K) 0 (fread file.content offset length)).headD 0 =
          (fread file.content offset length).headD 0 := by
        rw [overwrite_zero]
        cases read : fread file.content offset length with
        | nil => simp [read] at inside; omega
        | cons byte rest => rfl
      simp only [seekable, inside, ↓reduceIte, ne_eq, not_true_eq_false, Bool.true_eq_false,
        and_self]
      rw [first]
      refine congrArg (Program.ask _) (funext fun _ => ?_)
      simp only [Program.bind, Program.pure_eq, ite_not]
      split
      · rename_i complete
        exact congrArg Program.done (if_pos complete).symm
      · rename_i incomplete
        exact congrArg Program.done (if_neg incomplete).symm
    · simp only [seekable, inside, ↓reduceIte, ne_eq, not_false_eq_true, and_false,
        Program.pure_eq]
  · simp only [seekable, Bool.false_eq_true, ↓reduceIte, false_and, Program.pure_eq]

/-- `readNand` reads the text of a record. -/
theorem readNand_ensures (offset length : Nat) (some_header : 0 < length) :
    (readNand platform file offset length (zeros size1K) true).Ensures fun trace result =>
      trace = (Nand.writes platform file offset length).map unboundedWrite ∧
        result.map cstr = Nand.text platform file offset length := by
  rw [readNand_eq offset length some_header]
  by_cases reached : Nand.Reached file offset length
  · simp only [reached, ↓reduceIte, Nand.writes, Nand.text, true_and]
    refine fun _ => ⟨rfl, ?_⟩
    by_cases complete : Nand.Complete platform file offset length
    · simp only [complete, ↓reduceIte, Option.map_some, cstr_record]
    · simp only [complete, ↓reduceIte, Option.map_none]
  · simp only [reached, ↓reduceIte, Nand.writes, Nand.text, false_and]
    exact ⟨rfl, rfl⟩

/-- The product id is made of the first bytes of the buffer. -/
theorem convertProductId_append {bytes : Bytes} (four : bytes.length = 4) (rest : Bytes) :
    convertProductId platform (bytes ++ rest) = convertProductId platform bytes := by
  have same : ∀ i ∈ List.range productIdLen, (bytes ++ rest).getD i 0 = bytes.getD i 0 := by
    intro i inside
    rw [List.mem_range] at inside
    simp only [List.getD_eq_getElem?_getD]
    rw [List.getElem?_append_left (by rw [four]; exact inside)]
  unfold convertProductId
  exact List.foldl_ext _ _ _ fun id i inside => by rw [same i inside]

/-- `readNand` reads the bytes of the product id. -/
theorem readNand_id_ensures :
    (readNand platform file productIdOff productIdLen (zeros size1K) false).Ensures
      fun trace result => trace = [] ∧
        (result.map fun res => cstr (snprintf size1K (hex8 (convertProductId platform res).toNat))) =
          Nand.idText platform file := by
  unfold readNand
  by_cases seekable : file.seekable = true
  · by_cases inside : (fread file.content productIdOff productIdLen).length = productIdLen
    · have reached : Nand.Reached file productIdOff productIdLen := ⟨seekable, inside⟩
      simp only [seekable, inside, ↓reduceIte, ne_eq, not_true_eq_false, Nand.idText, reached]
      refine ⟨rfl, ?_⟩
      rw [Option.map_some, overwrite_zero, convertProductId_append inside]
      rfl
    · have unreached : ¬Nand.Reached file productIdOff productIdLen := fun reached =>
        inside reached.2
      simp only [seekable, inside, ↓reduceIte, ne_eq, not_false_eq_true, Nand.idText, unreached]
      exact ⟨rfl, rfl⟩
  · have unreached : ¬Nand.Reached file productIdOff productIdLen := fun reached =>
      seekable reached.1
    simp only [seekable, Bool.false_eq_true, ↓reduceIte, Nand.idText, unreached]
    exact ⟨rfl, rfl⟩

/-- `getNandStoreInfo` fills the members up to the first record that cannot be read, and
closes the file. -/
theorem getNandStoreInfo_ensures (self : RjcoreService) :
    (RjcoreService.getNandStoreInfo platform self).Ensures fun trace result => ∃ opened,
      trace = ⟨.fopen infoPath (ascii "r+"), opened⟩ ::
        ((Nand.fileWrites platform opened).map unboundedWrite ++
          if opened.isSome then [⟨.fclose, ()⟩] else []) ∧
      result = (identified platform self.mInit opened,
        (Nand.texts platform opened).all Option.isSome) := by
  intro opened
  cases opened with
  | none => exact ⟨none, rfl, rfl⟩
  | some file =>
    refine (readNand_ensures 0 serialNumberLen (by decide)).bind fun first serial firstRead => ?_
    obtain ⟨rfl, serialText⟩ := firstRead
    cases serial with
    | none =>
      intro _
      refine ⟨some file, ?_, ?_⟩
      · simp [Nand.fileWrites, ← serialText]
      · simp only [identified, Nand.found, Nand.texts, ← serialText]
        rfl
    | some serial =>
      refine (readNand_ensures productTypeOff 1 (by decide)).bind fun second type secondRead => ?_
      obtain ⟨rfl, typeText⟩ := secondRead
      cases type with
      | none =>
        intro _
        refine ⟨some file, ?_, ?_⟩
        · simp [Nand.fileWrites, ← serialText, ← typeText]
        · simp only [identified, Nand.found, Nand.texts, ← serialText, ← typeText]
          rfl
      | some type =>
        refine (readNand_ensures hardwareVersionOff 1 (by decide)).bind
          fun third hardware thirdRead => ?_
        obtain ⟨rfl, hardwareText⟩ := thirdRead
        cases hardware with
        | none =>
          intro _
          refine ⟨some file, ?_, ?_⟩
          · simp [Nand.fileWrites, ← serialText, ← typeText]
          · simp only [identified, Nand.found, Nand.texts, ← serialText, ← typeText,
              ← hardwareText]
            rfl
        | some hardware =>
          refine readNand_id_ensures.bind fun fourth id fourthRead => ?_
          obtain ⟨rfl, idText⟩ := fourthRead
          cases id with
          | none =>
            intro _
            refine ⟨some file, ?_, ?_⟩
            · simp [Nand.fileWrites, ← serialText, ← typeText]
            · simp only [identified, Nand.found, Nand.texts, ← serialText, ← typeText,
                ← hardwareText, ← idText]
              rfl
          | some id =>
            intro _
            refine ⟨some file, ?_, ?_⟩
            · simp [Nand.fileWrites, ← serialText, ← typeText]
            · simp only [identified, Nand.found, Nand.texts, ← serialText, ← typeText,
                ← hardwareText, ← idText]
              rfl

/-- The constructor fills the members up to the first record that cannot be read, and notes
whether there was none. -/
theorem construct_ensures :
    (RjcoreService.construct platform).Ensures fun trace self => ∃ opened,
      trace = ⟨.fopen infoPath (ascii "r+"), opened⟩ ::
        ((Nand.fileWrites platform opened).map unboundedWrite ++
          if opened.isSome then [⟨.fclose, ()⟩] else []) ∧
      self = identified platform ((Nand.texts platform opened).all Option.isSome) opened := by
  unfold RjcoreService.construct RjcoreService.init
  rw [Program.bind_assoc]
  refine (getNandStoreInfo_ensures _).bind fun trace result filled => ?_
  obtain ⟨opened, rfl, rfl⟩ := filled
  cases all : (Nand.texts platform opened).all Option.isSome with
  | false => exact ⟨opened, List.append_nil _, by rw [all]⟩
  | true => exact ⟨opened, List.append_nil _, by rw [all]; rfl⟩

/-- The members that the constructor leaves when the identity file was found to be this. -/
def Constructed (platform : Platform) (opened : Option File) (self : RjcoreService) : Prop :=
  ∃ rest, (RjcoreService.construct platform).Runs
    (⟨.fopen infoPath (ascii "r+"), opened⟩ :: rest) self

/-- The members are determined by the file. -/
theorem constructed_iff {opened : Option File} {self : RjcoreService} :
    Constructed platform opened self ↔
      self = identified platform ((Nand.texts platform opened).all Option.isSome) opened := by
  have exactly : ∀ trace other, (RjcoreService.construct platform).Runs trace other →
      trace.head? = some ⟨.fopen infoPath (ascii "r+"), opened⟩ →
        other = identified platform ((Nand.texts platform opened).all Option.isSome) opened := by
    intro trace other run first
    obtain ⟨found, rfl, members⟩ := Program.ensures_iff.mp construct_ensures _ _ run
    simp only [List.head?_cons, Option.some.injEq, Event.mk.injEq, heq_eq_eq, true_and] at first
    rw [members, first]
  constructor
  · rintro ⟨rest, run⟩
    exact exactly _ _ run rfl
  · rintro rfl
    obtain ⟨rest, other, run⟩ : ∃ rest other, (RjcoreService.construct platform).Runs
        (⟨.fopen infoPath (ascii "r+"), opened⟩ :: rest) other :=
      @Program.exists_runs_ask os _ _ (.fopen infoPath (ascii "r+")) _ opened
    rw [← exactly _ _ run rfl]
    exact ⟨rest, run⟩

/-! ## All or nothing -/

/-- The constructor initialized every member from the file, or none. -/
def AllOrNothing (platform : Platform) (opened : Option File) (self : RjcoreService) : Prop :=
  self.mInit = true ∧ Nand.texts platform opened = [some self.mSerialNum, some self.mProductType,
      some self.mHardwareVersion, some self.mProductId] ∨
    self.mInit = false ∧ self.mSerialNum = [] ∧ self.mProductType = [] ∧
      self.mHardwareVersion = [] ∧ self.mProductId = []

/-- What a product type permits of the calls that control the device. -/
def Call.Permitted (productType : String16) : Call → Prop
  | .setPowerState _ | .getPowerState => RjcoreService.withoutPowerControl productType = false
  | .setLedStatus _ _ | .getLedStatus _ => productType = utf16 "Rain200S"
  | _ => True

/-- An event that runs a command. -/
def RunsCommand (event : Event os) : Prop :=
  (∃ cmd, event.op = .popen cmd) ∨ ∃ cmd, event.op = .system cmd

/-- The calls that control the device run a command only when the reported product type
permits it. No method writes the members, so this holds from the constructor on. -/
def Gated (platform : Platform) (self : RjcoreService) : Prop :=
  ∀ call trace result, (self.invoke platform call).Runs trace result →
    (∃ event ∈ trace, RunsCommand event) →
      ∀ asked productType, self.getProductType.Runs asked productType → call.Permitted productType

/-- The methods themselves ask for the member. -/
theorem invoke_permitted (self : RjcoreService) (call : Call) :
    (self.invoke platform call).Ensures fun trace _ => (∃ event ∈ trace, RunsCommand event) →
      call.Permitted self.mProductType := by
  cases call with
  | setPowerState powerState =>
    change (self.setPowerState powerState).Ensures _
    unfold RjcoreService.setPowerState
    split
    · simp
    · split
      · simp
      · rename_i permitted
        exact .of_forall fun _ _ _ => Bool.eq_false_iff.mpr permitted
  | getPowerState =>
    change (RjcoreService.getPowerState platform self).Ensures _
    unfold RjcoreService.getPowerState
    split
    · simp
    · rename_i permitted
      exact .of_forall fun _ _ _ => Bool.eq_false_iff.mpr permitted
  | setLedStatus color state =>
    change (self.setLedStatus color state).Ensures _
    unfold RjcoreService.setLedStatus
    split
    · simp
    · split
      · simp
      · split
        · simp
        · rename_i permitted
          exact .of_forall fun _ _ _ => not_not.mp permitted
  | getLedStatus color =>
    change (RjcoreService.getLedStatus platform self color).Ensures _
    unfold RjcoreService.getLedStatus
    split
    · simp
    · split
      · simp
      · rename_i permitted
        exact .of_forall fun _ _ _ => not_not.mp permitted
  | _ => exact .of_forall fun _ _ _ => trivial

/-- The reported product type is the member, once the constructor succeeded. -/
theorem getProductType_runs {self : RjcoreService} {trace : List (Event os)}
    {productType : String16} (run : self.getProductType.Runs trace productType) :
    productType = if self.mInit then self.mProductType else [] := by
  unfold RjcoreService.getProductType RjcoreService.checkInit at run
  cases initialized : self.mInit <;> simp only [initialized, Bool.true_eq_false, ↓reduceIte] at run <;>
    cases run <;> rfl

/-- A gapless list is what stands in front of its first gap. -/
theorem Nand.leading_of_isSome {α : Type} {members : List (Option α)}
    (whole : ∀ member ∈ members, member.isSome) : members = (Nand.leading members).map some := by
  induction members with
  | nil => rfl
  | cons member rest ih =>
    obtain ⟨value, rfl⟩ := Option.isSome_iff_exists.mp (whole member List.mem_cons_self)
    rw [Nand.leading, List.map_cons, ← ih fun other later => whole other (List.mem_cons_of_mem _ later)]

/-- What stands in front of the first gap is no longer than the list. -/
theorem Nand.leading_length_le {α : Type} (members : List (Option α)) :
    (Nand.leading members).length ≤ members.length := by
  induction members with
  | nil => exact Nat.le_refl 0
  | cons member rest ih =>
    cases member with
    | none => exact Nat.zero_le _
    | some value => exact Nat.succ_le_succ ih

/-- There are four records. -/
theorem Nand.texts_length (platform : Platform) (opened : Option File) :
    (Nand.texts platform opened).length = 4 := by
  cases opened <;> rfl

/-- The four members are what was found, in order, where nothing is missing. -/
theorem identified_of_isSome {mInit : Bool} {opened : Option File}
    (whole : ∀ member ∈ Nand.texts platform opened, member.isSome) :
    Nand.texts platform opened =
      [some (identified platform mInit opened).mSerialNum,
        some (identified platform mInit opened).mProductType,
        some (identified platform mInit opened).mHardwareVersion,
        some (identified platform mInit opened).mProductId] := by
  have members := Nand.leading_of_isSome whole
  have length := Nand.texts_length platform opened
  rw [members, List.length_map] at length
  obtain ⟨serial, type, hardware, id, found⟩ := List.length_eq_four.mp length
  simp only [identified, Nand.found, found]
  rw [members, found]
  rfl

/-- The members are empty exactly when everything found is. -/
theorem identified_empty_iff (mInit : Bool) {opened : Option File} :
    ((identified platform mInit opened).mSerialNum = [] ∧
      (identified platform mInit opened).mProductType = [] ∧
      (identified platform mInit opened).mHardwareVersion = [] ∧
      (identified platform mInit opened).mProductId = []) ↔
        ∀ member ∈ Nand.found platform opened, member = [] := by
  have few : (Nand.found platform opened).length ≤ 4 :=
    Nand.texts_length platform opened ▸ Nand.leading_length_le _
  simp only [identified]
  constructor
  · rintro ⟨serial, type, hardware, id⟩ member found
    obtain ⟨position, inside, rfl⟩ := List.getElem_of_mem found
    have entry : (Nand.found platform opened)[position] =
        (Nand.found platform opened).getD position [] := by
      simp [inside]
    rw [entry]
    rcases (by omega : position = 0 ∨ position = 1 ∨ position = 2 ∨ position = 3) with
      rfl | rfl | rfl | rfl
    · exact serial
    · exact type
    · exact hardware
    · exact id
  · intro empty
    have each : ∀ position, (Nand.found platform opened).getD position [] = [] := by
      intro position
      cases found : (Nand.found platform opened)[position]? with
      | none => simp [List.getD_eq_getElem?_getD, found]
      | some member =>
        simpa [List.getD_eq_getElem?_getD, found] using empty member (List.mem_of_getElem? found)
    exact ⟨each 0, each 1, each 2, each 3⟩

/-- Initialization is all or nothing, and the controls follow the reported product type, if
and only if every record of the file can be read, or every record before the first that
cannot be read stands for the empty string. -/
theorem identity_all_or_nothing_iff (platform : Platform) (opened : Option File) :
    (∀ self, Constructed platform opened self →
        AllOrNothing platform opened self ∧ Gated platform self) ↔
      (∀ member ∈ Nand.texts platform opened, member.isSome) ∨
        ∀ member ∈ Nand.found platform opened, member = [] := by
  constructor
  · intro holds
    rcases (holds _ (constructed_iff.mpr rfl)).1 with ⟨initialized, _⟩ | ⟨_, empty⟩
    · exact .inl (List.all_eq_true.mp initialized)
    · exact .inr ((identified_empty_iff _).mp empty)
  · intro condition self constructed
    have members := constructed_iff.mp constructed
    have permits : (self.mInit = false → self.mProductType = []) → Gated platform self := by
      intro unset call trace result run runs asked productType reported
      have permitted := Program.ensures_iff.mp (invoke_permitted self call) _ _ run runs
      rw [getProductType_runs reported]
      cases initialized : self.mInit with
      | true => exact permitted
      | false => exact unset initialized ▸ permitted
    by_cases whole : ∀ member ∈ Nand.texts platform opened, member.isSome
    · have initialized : self.mInit = true := by
        rw [members]
        exact List.all_eq_true.mpr whole
      refine ⟨.inl ⟨initialized, ?_⟩, permits fun unset => ?_⟩
      · rw [members]
        exact identified_of_isSome whole
      · exact absurd (initialized.symm.trans unset) Bool.noConfusion
    · have empty := (identified_empty_iff false).mpr (condition.resolve_left whole)
      have failed : self.mInit = false := by
        rw [members]
        exact Bool.eq_false_iff.mpr fun all => whole (List.all_eq_true.mp all)
      refine ⟨.inr ⟨failed, ?_⟩, permits fun _ => ?_⟩
      · rw [members]
        exact empty
      · rw [members]
        exact empty.2.1

/-- A file that ends in front of the hardware version, of a product with LED control. -/
def truncatedIdentity : File := ⟨List.replicate 32 0 ++ 8 :: ascii "Rain200S", true⟩

/-- Of that file the product type is kept although initialization failed. -/
theorem not_identity_all_or_nothing :
    ¬∀ platform opened self, Constructed platform opened self →
      AllOrNothing platform opened self ∧ Gated platform self := by
  intro holds
  rcases (holds (.plain false) (some truncatedIdentity) _ (constructed_iff.mpr rfl)).1 with
    ⟨initialized, _⟩ | ⟨_, _, type, _⟩
  · exact absurd initialized (by decide)
  · exact absurd type (by decide)

end Rjcore
