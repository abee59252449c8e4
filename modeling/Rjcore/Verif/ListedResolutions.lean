import Rjcore.Verif.SectorIntegrity
import Rjcore.Verif.SupportResolution

/-!
# Setting a listed resolution

A client reads the list of `getSupportResolution`, and sets one of its entries with
`setDeviceResolution`. The two methods have their own tables and limits, and they fit: each entry
is a size in braces that the second method accepts, and after a successful call the sector holds
the size of that entry and of no other.
-/

namespace Rjcore

open Interaction CText RjcoreService

/-- A size as an entry of the list. -/
def sizeEntry (xres yres : Int) : String16 :=
  (braced (decimal xres ++ ascii "x" ++ decimal yres)).map UInt8.toUInt16

/-- The entries of a list. -/
def entries (text : String16) : List String16 := if text = [] then [] else text.splitOn 44

/-- The size in a sector, as an entry of the list. -/
def sectorEntry (sector : Sector) : String16 := sizeEntry (widthIn sector) (heightIn sector)

/-- The size of an entry of the table. -/
def sizeAt (i : Nat) : Int32 × Int32 :=
  [(800, 600), (1024, 768), (1280, 720), (1280, 1024), (1360, 768), (1366, 768), (1440, 900),
    (1600, 900), (1680, 1050), (1920, 1080)].getD i (0, 0)

/-- The table names sizes that `setDeviceResolution` accepts. -/
theorem sizeAt_spec {i : Nat} (inside : i < maxResolutionSupport) :
    bracedIndex.getD i [] = sizeEntry (sizeAt i).1.toInt (sizeAt i).2.toInt ∧
      (800 ≤ (sizeAt i).1 ∧ (sizeAt i).1 ≤ 2560) ∧ 600 ≤ (sizeAt i).2 ∧ (sizeAt i).2 ≤ 1600 := by
  have all : ∀ i < maxResolutionSupport,
      bracedIndex.getD i [] = sizeEntry (sizeAt i).1.toInt (sizeAt i).2.toInt ∧
        (800 ≤ (sizeAt i).1 ∧ (sizeAt i).1 ≤ 2560) ∧
          600 ≤ (sizeAt i).2 ∧ (sizeAt i).2 ≤ 1600 := by decide
  exact all i inside

/-- The entries of a list are those of its resolutions. -/
theorem entries_listText {indices : List Nat} (inside : ∀ i ∈ indices, i < maxResolutionSupport) :
    entries (listText indices) = indices.map fun i => bracedIndex.getD i [] := by
  unfold entries
  cases indices with
  | nil => rfl
  | cons first rest =>
    rw [if_neg ((listText_eq_nil_iff inside).not.mpr (List.cons_ne_nil first rest)), listText]
    refine List.splitOn_intercalate (44 : UInt16) (fun entry member => ?_) (List.cons_ne_nil _ _)
    obtain ⟨i, listed, rfl⟩ := List.mem_map.mp member
    exact (bracedIndex_spec (inside i listed)).2.1

/-- A list names what a client can set: the call passes the checks of its arguments and turns to
the device, and what becomes of it there is up to the driver. -/
def Settable (entry : String16) : Prop :=
  ∃ xres yres : Int32, entry = sizeEntry xres.toInt yres.toInt ∧
    ∀ refresh, 0 ≤ refresh → refresh ≤ 100 → Accepted xres yres refresh 1 ∧
      (∃ next, setDeviceResolution xres yres refresh 1 = .ask (.open rknandDevice) next) ∧
      ∀ sector : Sector, (setDeviceResolution xres yres refresh 1).Within vendorSector sector
        fun steps stored final =>
          (stored = true ↔ StoreDone steps ∧ ¬ReadFailed steps) ∧
          (stored = true → flagByte final = 0xAC ∧ sectorEntry final = entry)

/-- Every entry of the table can be set. -/
theorem settable_of_index {i : Nat} (inside : i < maxResolutionSupport) :
    Settable (bracedIndex.getD i []) := by
  obtain ⟨entry, width, height⟩ := sizeAt_spec inside
  refine ⟨(sizeAt i).1, (sizeAt i).2, entry, fun refresh low high => ?_⟩
  have accepted : Accepted (sizeAt i).1 (sizeAt i).2 refresh 1 :=
    ⟨⟨low, high⟩, .inr rfl, width, height⟩
  refine ⟨accepted, ⟨_, setDeviceResolution_accepted accepted⟩, fun sector => ?_⟩
  refine (setDeviceResolution_within accepted sector).mono fun steps stored final outcome => ?_
  rcases outcome with ⟨unstored, rfl, rfl⟩ | ⟨done, failed, rfl⟩
  · exact ⟨iff_of_false Bool.false_ne_true fun success => unstored success.1,
      fun success => absurd success Bool.false_ne_true⟩
  · constructor
    · rw [and_iff_right done, ← failed, Bool.not_eq_false]
    · intro _
      have holds := @holds_encodeResolution _ _ _ _ sector accepted
      obtain ⟨x, y, _⟩ := hasResolution_of_holds holds
      exact ⟨(holds.2 rfl).1, by rw [sectorEntry, x, y, entry]⟩

/-- Whatever the file of the display holds, every entry that `getSupportResolution` lists is a size
that `setDeviceResolution` accepts at every rate up to 100; a call with it succeeds exactly when
the driver does what is asked, and then the sector holds the size of this entry. -/
theorem listed_settable (platform : Platform) :
    (getSupportResolution platform).Ensures fun _ reported =>
      ∀ entry ∈ entries reported, Settable entry := by
  have inside : ∀ content, ∀ i ∈ listedIndices platform content, i < maxResolutionSupport :=
    fun content i member => (List.mem_range'_1.mp (List.mem_of_mem_filter member)).2
  have reports := getSupportResolution_ensures platform
  intro opened
  cases opened with
  | none => exact fun _ => nofun
  | some file =>
    refine Program.Ensures.mono (reports (some file)) fun rest reported known entry member => ?_
    obtain ⟨short, listed⟩ := known file rest rfl
    rcases Nat.lt_or_ge file.content.length resolutionInfoLen with few | enough
    · rw [short few] at member
      contradiction
    · rw [listed enough, entries_listText (inside _)] at member
      obtain ⟨i, supports, rfl⟩ := List.mem_map.mp member
      exact settable_of_index (inside _ i supports)

end Rjcore
