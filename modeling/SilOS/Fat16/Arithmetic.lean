/-
# Address arithmetic

The sizes of the root directory and of the FAT are computed in 16 bits before they are widened.
This file says what the address computations of `src/fat16.rs` should give over the integers and for
which parameter blocks they do: the root directory may have at most 2032 entries and the FAT at most
256 sectors.  `init` accepts other blocks as well, and there a computation stops at an overflow.
-/
import SilOS.Fat16.Format

namespace SilOS.Fat16

open Lib

namespace Fat16FileSystem

variable (fs : Fat16FileSystem)

/-- The number of sectors that hold the entries of the root directory. -/
def entrySectors : ℕ := (fs.bpb.rootEntries.toNat * 32) ⌈/⌉ 512

/-- All address computations give their values over the integers. -/
structure ExactArithmetic : Prop where
  lba : ∀ c : UInt16, 2 ≤ c → fs.clusterToLba c =
    .ok (fs.bpb.reservedSectors.toNat + fs.bpb.fatCount.toNat * fs.bpb.sectorsPerFat.toNat +
      fs.entrySectors + (c.toNat - 2) * fs.bpb.sectorsPerCluster.toNat)
  scans : ∀ (β : Type) (d : Disk) (visit : (lba offset : ℕ) → Bytes 32 → Option β),
    fs.scanRoot d visit = .ok ((List.range fs.entrySectors).findSome? fun s =>
      (List.range 16).findSome? fun i =>
        visit (fs.rootLba + s) (i * 32) ((readSector d (fs.rootLba + s)).slice (i * 32) 32))
  free : ∀ d : Disk, fs.findFreeCluster d =
      .ok ((fs.firstFreeWord d).map fun w => UInt16.ofNat (w.1 * 256 + w.2)) ∧
    ∀ w ∈ fs.firstFreeWord d, w.1 * 256 + w.2 < 2 ^ 16

variable {fs} {d : Disk}

/-! ### The root directory -/

lemma entrySectors_eq : fs.entrySectors = fs.rootSectors := by
  rw [entrySectors, Nat.ceilDiv_eq_add_pred_div, Nat.add_sub_assoc (by omega), rootSectors]

/-- With more than 2032 entries their size in bytes, or its sum with what is added for rounding up,
does not fit into 16 bits. -/
lemma clusterToLba_of_gt (hbps : fs.bpb.bytesPerSector = 512)
    (h : 2032 < fs.bpb.rootEntries.toNat) (c : UInt16) : fs.clusterToLba c = .error .panic := by
  have hbps' : fs.bpb.bytesPerSector.toNat = 512 := by rw [hbps]; rfl
  by_cases hbytes : fs.bpb.rootEntries.toNat * 32 < 2 ^ 16
  · rw [clusterToLba, hbps', mulW_eq_ok hbytes, ok_bind, subW_eq_ok (by omega), ok_bind, addW, fit,
      if_neg (by omega), error_bind]
  · rw [clusterToLba, mulW, fit, if_neg hbytes, error_bind]

lemma rootDirSectors_of_gt (h : 2032 < fs.bpb.rootEntries.toNat) :
    fs.rootDirSectors = .error .panic := by
  by_cases hbytes : fs.bpb.rootEntries.toNat * 32 < 2 ^ 16
  · rw [rootDirSectors, mulW_eq_ok hbytes, ok_bind, addW, fit, if_neg (by omega), error_bind]
  · rw [rootDirSectors, mulW, fit, if_neg hbytes, error_bind]

/-! ### The FAT -/

/-- The number of the cluster is exact if it fits into 16 bits. -/
lemma findFreeCluster_of_fits
    (h : ∀ s k, fs.firstFreeWord d = some (s, k) → s * 256 + k < 2 ^ 16) :
    fs.findFreeCluster d =
      .ok ((fs.firstFreeWord d).map fun w => UInt16.ofNat (w.1 * 256 + w.2)) := by
  rcases hword : fs.firstFreeWord d with - | ⟨s, k⟩
  · rw [firstFreeWord] at hword
    simp only [findFreeCluster, hword, Option.map_none]
  · have hlt := h s k hword
    rw [firstFreeWord] at hword
    simp only [findFreeCluster, hword, Option.map_some]
    rw [mulW_eq_ok (Nat.lt_of_le_of_lt (Nat.le_add_right _ k) hlt), ok_bind, addW_eq_ok hlt,
      ok_bind]
    rfl

/-- A FAT whose first 256 sectors are in use. -/
def crowdedFat (fs : Fat16FileSystem) : Disk := fun lba =>
  if lba < fs.bpb.reservedSectors.toNat + 256 then Vector.replicate 512 1 else Bytes.zeros 512

/-- The first free word of such a FAT lies behind the clusters that 16 bits can number. -/
lemma firstFreeWord_crowdedFat (h : 256 < fs.bpb.sectorsPerFat.toNat) :
    fs.firstFreeWord fs.crowdedFat = some (256, 0) := by
  refine findSome?_range_eq_some.mpr ⟨256, h, ?_, fun s hs => ?_⟩
  · refine findSome?_range_eq_some.mpr ⟨0, by omega, if_pos ?_, by omega⟩
    rw [readSector, crowdedFat, if_neg (by omega), Bytes.u16, Bytes.byte_zeros, Bytes.byte_zeros]
    rfl
  · rw [List.findSome?_eq_none_iff]
    intro k hk
    rw [List.mem_range] at hk
    refine if_neg ?_
    rw [readSector, crowdedFat, if_pos (by omega), Bytes.u16, Bytes.byte, Bytes.byte,
      dif_pos (by omega), dif_pos (by omega), Vector.getElem_replicate, Vector.getElem_replicate]
    decide

/-- **Address arithmetic.**  For every parameter block with sectors of 512 bytes, all other fields
arbitrary: `cluster_to_lba`, the scans of the root directory and `find_free_cluster` compute their
values over the integers, on every drive and for every cluster from 2 on, exactly if the root
directory has at most 2032 entries and the FAT at most 256 sectors. -/
theorem exact_arithmetic_iff (hbps : fs.bpb.bytesPerSector = 512) :
    fs.ExactArithmetic ↔
      fs.bpb.rootEntries.toNat ≤ 2032 ∧ fs.bpb.sectorsPerFat.toNat ≤ 256 := by
  constructor
  · intro h
    refine ⟨?_, ?_⟩ <;> by_contra hlt
    · have hlba := h.lba 2 (by decide)
      rw [clusterToLba_of_gt hbps (not_le.mp hlt)] at hlba
      exact absurd hlba (by simp)
    · have hfits := (h.free fs.crowdedFat).2 _ (firstFreeWord_crowdedFat (not_le.mp hlt))
      exact absurd hfits (by decide)
  · rintro ⟨hroot, hfat⟩
    have hfits : ∀ d s k, fs.firstFreeWord d = some (s, k) → s * 256 + k < 2 ^ 16 := by
      intro d s k hword
      have := fs.firstFreeWord_lt hword
      omega
    refine ⟨fun c hc => ?_, fun β d visit => ?_, fun d => ?_⟩
    · rw [clusterToLba_eq ⟨hbps, hroot⟩ hc, dataLba, rootLba, entrySectors_eq]
    · rw [scanRoot, rootDirStart_eq, ok_bind, rootDirSectors_eq hroot, ok_bind, entrySectors_eq]
      rfl
    · exact ⟨findFreeCluster_of_fits (hfits d), fun w hw => hfits d w.1 w.2 hw⟩

/-- The parameters of `format_drive` are in range. -/
theorem exact_arithmetic_iff_formatted : formatFs.ExactArithmetic := by
  refine (exact_arithmetic_iff formatFs_bytesPerSector).mpr ⟨formatFs_regular.rootEntries, ?_⟩
  rw [formatFs_sectorsPerFat]
  decide

/-- The boot sector of `format_drive` with 2033 root entries. -/
def oversizedRoot : Sector := bootSector.copyFromSlice 17 (toLe16 2033)

lemma bytesPerSector_oversizedRoot : (Bpb.ofSector oversizedRoot).bytesPerSector = 512 := by
  change oversizedRoot.u16 11 = 512
  simp [Bytes.u16, oversizedRoot, bootSector, Bytes.byte_setByte, Bytes.byte_copyFromSlice, toLe16,
    fromLe16_toLe16]

lemma rootEntries_oversizedRoot : (Bpb.ofSector oversizedRoot).rootEntries = 2033 := by
  change oversizedRoot.u16 17 = 2033
  simp [Bytes.u16, oversizedRoot, Bytes.byte_copyFromSlice, toLe16, fromLe16_toLe16]

/-- A drive with 2033 root entries is mounted, and then neither the address of a cluster nor the
size of the root directory can be computed. -/
theorem arithmetic_overflows_2033_entries :
    init (fun _ => oversizedRoot) = some ⟨Bpb.ofSector oversizedRoot⟩ ∧
      clusterToLba ⟨Bpb.ofSector oversizedRoot⟩ 2 = .error .panic ∧
      rootDirSectors ⟨Bpb.ofSector oversizedRoot⟩ = .error .panic := by
  have hroot : 2032 < (Bpb.ofSector oversizedRoot).rootEntries.toNat := by
    rw [rootEntries_oversizedRoot]
    decide
  refine ⟨?_, clusterToLba_of_gt bytesPerSector_oversizedRoot hroot 2, rootDirSectors_of_gt hroot⟩
  simp only [init, readSector, bytesPerSector_oversizedRoot]
  rfl

end Fat16FileSystem

end SilOS.Fat16
