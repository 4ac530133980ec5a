/-
# The three scans of the root directory

`find_file_location`, `find_file` and `find_empty_root_slot` are three copies of one nested loop
with different stop rules.  Seen on the list of all slots of the root directory, in the order of
their sectors and offsets, the lookups search the slots in front of the first one that was never
used, and the search for an empty slot takes the first one that was never used or was deleted.
An entry that is stored in the slot found empty is found afterwards, since all slots before it
are live.

Nothing is assumed of the drive, and of the parameter block only that the size of the root
directory can be computed.
-/
import SilOS.Fat16.Files

namespace SilOS.Fat16

open Lib

/-- A slot of the root directory with its place. -/
structure Slot where
  lba : ℕ
  offset : ℕ
  bytes : Bytes 32
deriving DecidableEq

namespace Slot

/-- The slot was never used. -/
def Unused (s : Slot) : Prop := s.bytes.byte 0 = 0x00

/-- The entry in the slot was deleted. -/
def Deleted (s : Slot) : Prop := s.bytes.byte 0 = 0xE5

/-- The first eleven bytes are the name and the extension. -/
def Named (filename : Bytes 8) (ext : Bytes 3) (s : Slot) : Prop :=
  s.bytes.slice 0 8 = filename ∧ s.bytes.slice 8 3 = ext

instance : DecidablePred Unused := fun _ => inferInstanceAs (Decidable (_ = _))

instance : DecidablePred Deleted := fun _ => inferInstanceAs (Decidable (_ = _))

instance (filename : Bytes 8) (ext : Bytes 3) : DecidablePred (Named filename ext) :=
  fun _ => inferInstanceAs (Decidable (_ ∧ _))

/-- The entry in the slot. -/
def entry (s : Slot) : DirectoryEntry := DirectoryEntry.ofBytes s.bytes

/-- The first slot, among those before the first that was never used, that is not deleted and
carries the name. -/
def lookup (area : List Slot) (filename : Bytes 8) (ext : Bytes 3) : Option Slot :=
  (area.takeWhile fun s => ¬ s.Unused).find? fun s => ¬ s.Deleted ∧ s.Named filename ext

/-- The first slot that was never used or is deleted. -/
def firstFree (area : List Slot) : Option Slot := area.find? fun s => s.Unused ∨ s.Deleted

end Slot

namespace Fat16FileSystem

variable (fs : Fat16FileSystem)

/-- Slot `j` of the root directory: sixteen slots to a sector. -/
def slot (d : Disk) (j : ℕ) : Slot := ⟨fs.slotLba j, slotOffset j, fs.slotBytes d j⟩

/-- The slots of the root directory, in the order of their sectors and offsets. -/
def rootArea (d : Disk) : List Slot := (List.range fs.slotCount).map (fs.slot d)

variable {fs} {d : Disk} {filename : Bytes 8} {ext : Bytes 3} {j : ℕ}

/-! ### The scans as searches -/

/-- The body of the two lookups, in terms of the slot it looks at. -/
lemma lookupVisit_slot {β : Type} (filename : Bytes 8) (ext : Bytes 3)
    (found : (lba offset : ℕ) → DirectoryEntry → β) (s : Slot) :
    lookupVisit filename ext found s.lba s.offset s.bytes =
      if s.Unused then some none else if s.Deleted then none
      else if s.Named filename ext then some (some (found s.lba s.offset s.entry)) else none := by
  rw [lookupVisit]
  by_cases hunused : s.Unused
  · rw [if_pos hunused]
    exact if_pos hunused
  · rw [if_neg hunused]
    refine (if_neg hunused).trans ?_
    by_cases hdeleted : s.Deleted
    · rw [if_pos hdeleted]
      exact if_pos hdeleted
    · rw [if_neg hdeleted]
      refine (if_neg hdeleted).trans ?_
      by_cases hnamed : s.Named filename ext
      · rw [if_pos hnamed]
        exact if_pos hnamed
      · rw [if_neg hnamed]
        exact if_neg hnamed

lemma lookupScan_eq {β : Type} (h : fs.bpb.rootEntries.toNat ≤ 2032) (d : Disk)
    (filename : Bytes 8) (ext : Bytes 3) (found : (lba offset : ℕ) → DirectoryEntry → β) :
    (fs.scanRoot d (lookupVisit filename ext found)).map Option.join =
      .ok ((Slot.lookup (fs.rootArea d) filename ext).map
        fun s => found s.lba s.offset s.entry) := by
  have hvisit : (fun j => lookupVisit filename ext found (fs.slotLba j) (slotOffset j)
      (fs.slotBytes d j)) = (fun s : Slot => if s.Unused then some none
        else if s.Deleted then none
        else if s.Named filename ext then some (some (found s.lba s.offset s.entry))
        else none) ∘ fs.slot d := by
    funext j
    rw [Function.comp_apply, ← lookupVisit_slot, slot]
  rw [scanRoot_eq h, hvisit, Except.map, Slot.lookup, ← join_findSome?_stop, rootArea,
    List.findSome?_map]

theorem findFileLocation_eq_lookup (h : fs.bpb.rootEntries.toNat ≤ 2032) (d : Disk)
    (filename : Bytes 8) (ext : Bytes 3) :
    fs.findFileLocation d filename ext =
      .ok ((Slot.lookup (fs.rootArea d) filename ext).map fun s => (s.lba, s.offset, s.entry)) :=
  lookupScan_eq h d filename ext fun lba offset entry => (lba, offset, entry)

theorem findFile_eq_lookup (h : fs.bpb.rootEntries.toNat ≤ 2032) (d : Disk) (filename : Bytes 8)
    (ext : Bytes 3) :
    fs.findFile d filename ext = .ok ((Slot.lookup (fs.rootArea d) filename ext).map Slot.entry) :=
  lookupScan_eq h d filename ext fun _ _ entry => entry

theorem findEmptyRootSlot_eq_firstFree (h : fs.bpb.rootEntries.toNat ≤ 2032) (d : Disk) :
    fs.findEmptyRootSlot d =
      .ok ((Slot.firstFree (fs.rootArea d)).map fun s => (s.lba, s.offset)) := by
  have hfree : (fun j => decide (FreeMark ((fs.slotBytes d j).byte 0))) =
      (fun s : Slot => decide (s.Unused ∨ s.Deleted)) ∘ fs.slot d := by
    funext j
    rw [Function.comp_apply, slot, decide_eq_decide]
    exact Iff.rfl
  rw [findEmptyRootSlot_eq h, Slot.firstFree, rootArea, List.find?_map, Option.map_map, hfree]
  congr 1

/-! ### Storing an entry in the empty slot -/

/-- A name is found in the first slot that carries it, if that and all slots before it are live. -/
lemma findFile_of_first (h : fs.bpb.rootEntries.toNat ≤ 2032) (hj : j < fs.slotCount)
    (hlive : ∀ i ≤ j, fs.Live d i) (hname : fs.HasName d filename ext j)
    (hfirst : ∀ i < j, ¬ fs.HasName d filename ext i) :
    fs.findFile d filename ext = .ok (some (fs.slotEntry d j)) := by
  have hscan : (List.range fs.slotCount).findSome? (fun j => lookupVisit filename ext
      (fun _ _ entry => entry) (fs.slotLba j) (slotOffset j) (fs.slotBytes d j)) =
      some (some (fs.slotEntry d j)) := by
    refine findSome?_range_eq_some.mpr ⟨j, hj, ?_, fun i hi => ?_⟩
    · rw [lookupVisit_live (hlive j le_rfl), if_pos hname]
    · rw [lookupVisit_live (hlive i hi.le), if_neg (hfirst i hi)]
  rw [findFile, scanRoot_eq h, ok_bind, hscan]
  rfl

/-- When a name is not found, no slot in front of the first free one carries it. -/
lemma not_hasName_of_findFile (h : fs.bpb.rootEntries.toNat ≤ 2032) (hj : j < fs.slotCount)
    (hlive : ∀ i < j, fs.Live d i) (hnone : fs.findFile d filename ext = .ok none) :
    ∀ i < j, ¬ fs.HasName d filename ext i := by
  intro i hi hname
  -- the first slot with the name would have been found
  have hex : ∃ i, fs.HasName d filename ext i := ⟨i, hname⟩
  have hle : Nat.find hex ≤ i := Nat.find_min' hex hname
  have hfound := findFile_of_first h (by omega) (fun i' hi' => hlive i' (by omega))
    (Nat.find_spec hex) fun i' hi' => Nat.find_min hex hi'
  rw [hfound] at hnone
  exact absurd hnone (by simp)

/-- The slot found empty, by its number. -/
lemma exists_slot_of_findEmptyRootSlot (h : fs.bpb.rootEntries.toNat ≤ 2032) {lba offset : ℕ}
    (hempty : fs.findEmptyRootSlot d = .ok (some (lba, offset))) :
    ∃ j < fs.slotCount, lba = fs.slotLba j ∧ offset = slotOffset j ∧ ∀ i < j, fs.Live d i := by
  rw [findEmptyRootSlot_eq h, Except.ok.injEq, ← findSome?_ite, findSome?_range_eq_some] at hempty
  obtain ⟨j, hj, hfree, hbefore⟩ := hempty
  split_ifs at hfree
  simp only [Option.some.injEq, Prod.mk.injEq] at hfree
  refine ⟨j, hj, hfree.1.symm, hfree.2.symm, fun i hi hmark => ?_⟩
  have hnone := hbefore i hi
  rw [if_pos hmark] at hnone
  exact absurd hnone (by simp)

/-- An entry stored in the slot found empty is found under its name, if nothing was before. -/
theorem findFile_storeEntry_empty (h : fs.bpb.rootEntries.toNat ≤ 2032) {lba offset : ℕ}
    {entry : DirectoryEntry} (hempty : fs.findEmptyRootSlot d = .ok (some (lba, offset)))
    (hmark : ¬ FreeMark (entry.filename.byte 0))
    (hnone : fs.findFile d entry.filename entry.extension = .ok none) :
    fs.findFile (storeEntry d lba offset entry) entry.filename entry.extension =
      .ok (some entry) := by
  obtain ⟨j, hj, rfl, rfl, hlive⟩ := exists_slot_of_findEmptyRootSlot h hempty
  have hsame : ∀ i < j, fs.slotBytes (storeEntry d (fs.slotLba j) (slotOffset j) entry) i =
      fs.slotBytes d i := fun i hi => slotBytes_storeEntry_ne d entry hi.ne
  have hstored : fs.slotEntry (storeEntry d (fs.slotLba j) (slotOffset j) entry) j = entry :=
    slotEntry_storeEntry_same d j entry
  have hlive' : ∀ i ≤ j, fs.Live (storeEntry d (fs.slotLba j) (slotOffset j) entry) i := by
    intro i hi
    rcases hi.lt_or_eq with hi | rfl
    · rw [live_congr (hsame i hi)]
      exact hlive i hi
    · rw [Live, ← byte_filename_slotEntry, hstored]
      exact hmark
  rw [findFile_of_first h hj hlive' ?_ ?_, hstored]
  · rw [HasName, hstored]
    exact ⟨rfl, rfl⟩
  · intro i hi
    rw [HasName, slotEntry_congr (hsame i hi)]
    exact not_hasName_of_findFile h hj hlive hnone i hi

/-- **The scans of the root directory.**  For every drive, every parameter block with at most 2032
root entries and every name: the lookups return the first slot that lies before the first slot never
used, is not deleted and carries the name, with its place and its entry, and nothing exactly if
there is no such slot; the search for an empty slot returns the first slot that was never used or is
deleted; and an entry that is stored there, under a name that was not found and that does not read
as free, is found. -/
theorem root_directory_scans (h : fs.bpb.rootEntries.toNat ≤ 2032) (d : Disk)
    (filename : Bytes 8) (ext : Bytes 3) :
    fs.findFileLocation d filename ext =
      .ok ((Slot.lookup (fs.rootArea d) filename ext).map fun s => (s.lba, s.offset, s.entry)) ∧
    fs.findFile d filename ext =
      .ok ((Slot.lookup (fs.rootArea d) filename ext).map Slot.entry) ∧
    fs.findEmptyRootSlot d =
      .ok ((Slot.firstFree (fs.rootArea d)).map fun s => (s.lba, s.offset)) ∧
    ∀ lba offset entry, fs.findEmptyRootSlot d = .ok (some (lba, offset)) →
      ¬ FreeMark (entry.filename.byte 0) → entry.filename = filename → entry.extension = ext →
      fs.findFile d filename ext = .ok none →
      fs.findFile (storeEntry d lba offset entry) filename ext = .ok (some entry) := by
  refine ⟨findFileLocation_eq_lookup h d filename ext, findFile_eq_lookup h d filename ext,
    findEmptyRootSlot_eq_firstFree h d, ?_⟩
  rintro lba offset entry hempty hmark rfl rfl hnone
  exact findFile_storeEntry_empty h hempty hmark hnone

/-- An entry stored in the first slot of a formatted drive is found. -/
theorem root_directory_scans_formatted :
    ∃ lba offset, formatFs.findEmptyRootSlot (formatDrive blankDrive) = .ok (some (lba, offset)) ∧
      formatFs.findFile (storeEntry (formatDrive blankDrive) lba offset
        (newEntry (letters 0x41) txt 2 [1])) (letters 0x41) txt =
          .ok (some (newEntry (letters 0x41) txt 2 [1])) := by
  have hvol := volume_formatDrive blankDrive fun _ => []
  have hslots : 0 < formatFs.slotCount := by rw [formatFs_slotCount]; omega
  have hempty := findEmptyRootSlot_of_packed formatFs_regular.toAddressable hslots hvol.live
    (hvol.free 0 le_rfl hslots)
  have hnone : formatFs.findFile (formatDrive blankDrive) (letters 0x41) txt = .ok none :=
    (hvol.findFile_eq_none formatFs_regular).mpr (by simp)
  exact ⟨_, _, hempty, (root_directory_scans formatFs_regular.rootEntries _ _ _).2.2.2 _ _ _ hempty
    (by decide) rfl rfl hnone⟩

end Fat16FileSystem

end SilOS.Fat16
