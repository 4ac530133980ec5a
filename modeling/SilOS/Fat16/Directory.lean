/-
# The root directory as a list of slots

The root directory is a row of 32-byte slots, sixteen to a sector.  This file restates the
three scans of `src/fat16.rs` as searches over slot numbers and says what storing an entry
does to the slots.
-/
import SilOS.Fat16.Read

namespace SilOS.Fat16

open Lib

/-- The first byte of a slot that was never used or was deleted. -/
def FreeMark (b : UInt8) : Prop := b = 0x00 ∨ b = 0xE5

instance : DecidablePred FreeMark := fun b => inferInstanceAs (Decidable (b = 0x00 ∨ b = 0xE5))

namespace Fat16FileSystem

variable (fs : Fat16FileSystem)

/-- The number of slots of the root directory. -/
def slotCount : ℕ := fs.rootSectors * 16

/-- The sector of slot `j`. -/
def slotLba (j : ℕ) : ℕ := fs.rootLba + j / 16

/-- The offset of slot `j` in its sector. -/
def slotOffset (j : ℕ) : ℕ := j % 16 * 32

/-- The bytes of slot `j`. -/
def slotBytes (d : Disk) (j : ℕ) : Bytes 32 := (d (fs.slotLba j)).slice (slotOffset j) 32

/-- The entry in slot `j`. -/
def slotEntry (d : Disk) (j : ℕ) : DirectoryEntry := DirectoryEntry.ofBytes (fs.slotBytes d j)

/-- A slot is live if its first byte marks it neither as unused nor as deleted. -/
def Live (d : Disk) (j : ℕ) : Prop := ¬ FreeMark ((fs.slotBytes d j).byte 0)

instance (d : Disk) : DecidablePred (fs.Live d) :=
  fun j => inferInstanceAs (Decidable (¬ FreeMark ((fs.slotBytes d j).byte 0)))

variable {fs}

lemma slotEntry_congr {d d' : Disk} {j : ℕ} (h : fs.slotBytes d' j = fs.slotBytes d j) :
    fs.slotEntry d' j = fs.slotEntry d j := by
  rw [slotEntry, slotEntry, h]

lemma live_congr {d d' : Disk} {j : ℕ} (h : fs.slotBytes d' j = fs.slotBytes d j) :
    fs.Live d' j ↔ fs.Live d j := by
  rw [Live, Live, h]

/-- The first byte of a slot is the first byte of the name in it. -/
lemma byte_filename_slotEntry (d : Disk) (j : ℕ) :
    (fs.slotEntry d j).filename.byte 0 = (fs.slotBytes d j).byte 0 := by
  simp [slotEntry, DirectoryEntry.ofBytes]

/-! ### The scans -/

lemma scanRoot_eq {β : Type} (h : fs.bpb.rootEntries.toNat ≤ 2032) (d : Disk)
    (visit : (lba offset : ℕ) → Bytes 32 → Option β) :
    fs.scanRoot d visit = .ok ((List.range fs.slotCount).findSome? fun j =>
      visit (fs.slotLba j) (slotOffset j) (fs.slotBytes d j)) := by
  rw [scanRoot, rootDirStart_eq, ok_bind, rootDirSectors_eq h, ok_bind]
  rw [findSome?_range_mul (m := 16) (by omega) fs.rootSectors]
  rfl

/-- `find_empty_root_slot` finds the first slot that is not live. -/
theorem findEmptyRootSlot_eq (h : fs.bpb.rootEntries.toNat ≤ 2032) (d : Disk) :
    fs.findEmptyRootSlot d = .ok (((List.range fs.slotCount).find? fun j =>
      decide (FreeMark ((fs.slotBytes d j).byte 0))).map
        fun j => (fs.slotLba j, slotOffset j)) := by
  rw [findEmptyRootSlot, scanRoot_eq h, ← findSome?_ite]
  rfl

/-- When the live slots are the first `k` ones, the empty slot found is slot `k`. -/
lemma findEmptyRootSlot_of_packed (h : fs.Addressable) {d : Disk} {k : ℕ}
    (hk : k < fs.slotCount) (hlive : ∀ j < k, fs.Live d j) (hfree : ¬ fs.Live d k) :
    fs.findEmptyRootSlot d = .ok (some (fs.slotLba k, slotOffset k)) := by
  rw [findEmptyRootSlot_eq h.rootEntries, ← findSome?_ite, findSome?_range_eq_some.mpr]
  refine ⟨k, hk, if_pos (not_not.mp hfree), ?_⟩
  intro j hj
  exact if_neg (hlive j hj)

lemma findEmptyRootSlot_of_full (h : fs.Addressable) {d : Disk}
    (hlive : ∀ j < fs.slotCount, fs.Live d j) : fs.findEmptyRootSlot d = .ok none := by
  rw [findEmptyRootSlot_eq h.rootEntries, ← findSome?_ite, findSome?_range_eq_none.mpr]
  intro j hj
  exact if_neg (hlive j hj)

/-- Slot `j` carries the given name. -/
def HasName (fs : Fat16FileSystem) (d : Disk) (filename : Bytes 8) (ext : Bytes 3) (j : ℕ) :
    Prop := (fs.slotEntry d j).filename = filename ∧ (fs.slotEntry d j).extension = ext

instance (d : Disk) (filename : Bytes 8) (ext : Bytes 3) :
    DecidablePred (fs.HasName d filename ext) :=
  fun _ => inferInstanceAs (Decidable (_ ∧ _))

lemma lookupVisit_live {β : Type} {d : Disk} {j : ℕ} (hlive : fs.Live d j) (filename : Bytes 8)
    (ext : Bytes 3) (found : (lba offset : ℕ) → DirectoryEntry → β) (lba offset : ℕ) :
    lookupVisit filename ext found lba offset (fs.slotBytes d j) =
      if fs.HasName d filename ext j then some (some (found lba offset (fs.slotEntry d j)))
      else none := by
  rw [Live, FreeMark, not_or] at hlive
  rw [lookupVisit, if_neg hlive.1, if_neg hlive.2]
  rfl

lemma lookupVisit_free {β : Type} {d : Disk} {j : ℕ} (hfree : ¬ fs.Live d j) (filename : Bytes 8)
    (ext : Bytes 3) (found : (lba offset : ℕ) → DirectoryEntry → β) (lba offset : ℕ) :
    lookupVisit filename ext found lba offset (fs.slotBytes d j) = some none ∨
      lookupVisit filename ext found lba offset (fs.slotBytes d j) = none := by
  rw [Live, not_not] at hfree
  rw [lookupVisit]
  by_cases h0 : (fs.slotBytes d j).byte 0 = 0x00
  · exact Or.inl (if_pos h0)
  · rw [if_neg h0]
    exact Or.inr (if_pos (hfree.resolve_left h0))

/-- When the live slots are the first `k` ones, a lookup searches exactly them. -/
lemma lookup_of_packed {β : Type} {d : Disk} {k : ℕ} (hk : k ≤ fs.slotCount)
    (hlive : ∀ j < k, fs.Live d j) (hfree : ∀ j, k ≤ j → j < fs.slotCount → ¬ fs.Live d j)
    (filename : Bytes 8) (ext : Bytes 3) (found : (lba offset : ℕ) → DirectoryEntry → β) :
    ((List.range fs.slotCount).findSome? fun j =>
      lookupVisit filename ext found (fs.slotLba j) (slotOffset j) (fs.slotBytes d j)).join =
      ((List.range k).find? fun j => decide (fs.HasName d filename ext j)).map fun j =>
        found (fs.slotLba j) (slotOffset j) (fs.slotEntry d j) := by
  set visit := fun j =>
    lookupVisit filename ext found (fs.slotLba j) (slotOffset j) (fs.slotBytes d j) with hvisit
  have hfirst : (List.range k).findSome? visit =
      ((List.range k).find? fun j => decide (fs.HasName d filename ext j)).map fun j =>
        some (found (fs.slotLba j) (slotOffset j) (fs.slotEntry d j)) := by
    rw [← findSome?_ite]
    apply findSome?_range_congr
    intro j hj
    exact lookupVisit_live (hlive j hj) filename ext found _ _
  have hsplit : List.range fs.slotCount =
      List.range k ++ (List.range (fs.slotCount - k)).map (k + ·) := by
    rw [← List.range_add, Nat.add_sub_cancel' hk]
  rw [hsplit, List.findSome?_append, hfirst]
  cases hfind : (List.range k).find? fun j => decide (fs.HasName d filename ext j) with
  | some j => rfl
  | none =>
      -- the slots behind the live ones never match
      simp only [Option.map_none, Option.none_or]
      cases hrest : ((List.range (fs.slotCount - k)).map (k + ·)).findSome? visit with
      | none => rfl
      | some r =>
          obtain ⟨j, hj, hjr⟩ := List.exists_of_findSome?_eq_some hrest
          obtain ⟨i, hi, rfl⟩ := List.mem_map.mp hj
          rw [List.mem_range] at hi
          rcases lookupVisit_free (hfree (k + i) (by omega) (by omega)) filename ext found
            (fs.slotLba (k + i)) (slotOffset (k + i)) with h | h
          · rw [hvisit] at hjr
            simp only at hjr
            rw [h] at hjr
            obtain rfl : none = r := by simpa using hjr
            rfl
          · rw [hvisit] at hjr
            simp only at hjr
            rw [h] at hjr
            exact absurd hjr (by simp)

/-- `find_file_location`, when the live slots are the first `k` ones. -/
theorem findFileLocation_of_packed (h : fs.Addressable) {d : Disk} {k : ℕ}
    (hk : k ≤ fs.slotCount) (hlive : ∀ j < k, fs.Live d j)
    (hfree : ∀ j, k ≤ j → j < fs.slotCount → ¬ fs.Live d j) (filename : Bytes 8)
    (ext : Bytes 3) :
    fs.findFileLocation d filename ext =
      .ok (((List.range k).find? fun j => decide (fs.HasName d filename ext j)).map fun j =>
        (fs.slotLba j, slotOffset j, fs.slotEntry d j)) := by
  rw [findFileLocation, scanRoot_eq h.rootEntries, ok_bind, lookup_of_packed hk hlive hfree]
  rfl

/-- `find_file`, when the live slots are the first `k` ones. -/
theorem findFile_of_packed (h : fs.Addressable) {d : Disk} {k : ℕ}
    (hk : k ≤ fs.slotCount) (hlive : ∀ j < k, fs.Live d j)
    (hfree : ∀ j, k ≤ j → j < fs.slotCount → ¬ fs.Live d j) (filename : Bytes 8)
    (ext : Bytes 3) :
    fs.findFile d filename ext =
      .ok (((List.range k).find? fun j => decide (fs.HasName d filename ext j)).map
        (fs.slotEntry d)) := by
  rw [findFile, scanRoot_eq h.rootEntries, ok_bind, lookup_of_packed hk hlive hfree]
  rfl

/-! ### Storing an entry -/

/-- The slots after an entry was stored in slot `j`. -/
theorem slotBytes_storeEntry (d : Disk) (j i : ℕ) (entry : DirectoryEntry) :
    fs.slotBytes (storeEntry d (fs.slotLba j) (slotOffset j) entry) i =
      if i = j then entry.toBytes else fs.slotBytes d i := by
  apply Bytes.ext_byte
  intro b hb
  have hlen : entry.toBytes.toList.length = 32 := Vector.length_toList
  by_cases hij : i = j
  · subst hij
    rw [if_pos rfl, slotBytes, storeEntry, writeSectorBytes_same, Bytes.byte_slice, if_pos hb,
      Bytes.byte_copyFromSlice_mem _ _ (by omega) (by omega) (by rw [slotOffset]; omega),
      Nat.add_sub_cancel_left, Bytes.getD_toList]
  · rw [if_neg hij, slotBytes, storeEntry, slotBytes, Bytes.byte_slice, Bytes.byte_slice,
      if_pos hb, if_pos hb]
    by_cases hs : fs.slotLba i = fs.slotLba j
    · -- another slot of the same sector
      rw [hs, writeSectorBytes_same, readSector]
      have hoff : slotOffset i + 32 ≤ slotOffset j ∨ slotOffset j + 32 ≤ slotOffset i := by
        simp only [slotLba] at hs
        simp only [slotOffset]
        omega
      rcases hoff with hoff | hoff
      · rw [Bytes.byte_copyFromSlice_of_lt _ _ (by omega)]
      · rw [Bytes.byte_copyFromSlice_of_le _ _ (by omega)]
    · rw [writeSectorBytes_ne _ _ hs]

lemma slotEntry_storeEntry_same (d : Disk) (j : ℕ) (entry : DirectoryEntry) :
    fs.slotEntry (storeEntry d (fs.slotLba j) (slotOffset j) entry) j = entry := by
  rw [slotEntry, slotBytes_storeEntry, if_pos rfl, DirectoryEntry.ofBytes_toBytes]

lemma slotBytes_storeEntry_ne (d : Disk) {i j : ℕ} (entry : DirectoryEntry) (h : i ≠ j) :
    fs.slotBytes (storeEntry d (fs.slotLba j) (slotOffset j) entry) i = fs.slotBytes d i := by
  rw [slotBytes_storeEntry, if_neg h]

/-- The name of a live slot does not start with a free mark. -/
lemma Live.filename {d : Disk} {j : ℕ} (h : fs.Live d j) :
    ¬ FreeMark ((fs.slotEntry d j).filename.byte 0) := by
  rw [byte_filename_slotEntry]
  exact h

end Fat16FileSystem

end SilOS.Fat16
