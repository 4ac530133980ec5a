/-
# Clusters behind the end of the volume

`format_drive` records 65535 sectors, and gives each FAT 64 sectors, which have words for 16384
clusters.  The data area has room for the clusters 2 to 16344 only; the words of the last 39
clusters stand for sectors that are not part of the volume.  `find_free_cluster` scans all words,
so on an almost full drive it returns one of these clusters.
-/
import SilOS.Fat16.Failure
import SilOS.Fat16.Frame

namespace SilOS.Fat16

open Lib

namespace Fat16FileSystem

variable {fs : Fat16FileSystem} {d d' : Disk} {c : UInt16}

/-- The sectors of the cluster are sectors of the volume, as the boot sector on the drive records
it. -/
def InsideVolume (fs : Fat16FileSystem) (d : Disk) (c : UInt16) : Prop :=
  ∃ lba, fs.clusterToLba c = .ok lba ∧
    ∀ i < fs.bpb.sectorsPerCluster.toNat, lba + i < (Bpb.ofSector (d 0)).totalSectors16.toNat

lemma formatFs_totalSectors16 : formatFs.bpb.totalSectors16 = 65535 :=
  u16_bootSector (by simp [bootSector, Bytes.byte_setByte, Bytes.byte_copyFromSlice, toLe16])

lemma formatFs_dataLba (c : UInt16) : formatFs.dataLba c = 161 + (c.toNat - 2) * 4 := by
  rw [dataLba, formatFs_rootLba, rootSectors, formatFs_rootEntries, formatFs_sectorsPerCluster]
  rfl

/-- The boot sector of a reachable drive is the one that was formatted. -/
theorem Reachable.bootSector (h : fs.Reachable d) : d 0 = bootSector := by
  obtain ⟨d₀, calls, outs, hinit, hrun⟩ := h
  obtain rfl := eq_formatFs hinit
  have hlow : ∀ lba ∈ ({0} : Set ℕ), lba < formatFs.rootLba := by
    rintro lba rfl
    rw [formatFs_rootLba]
    omega
  have hfat : ∀ c, formatFs.InFat c → formatFs.fatSector c ∉ ({0} : Set ℕ) := by
    intro c _ hc
    rw [formatFs_fatSector, Set.mem_singleton_iff] at hc
    omega
  have hkeep := formatFs.machine.run_keeps (G := fun _ _ => True)
    (I := fun d => (∃ k chain, formatFs.Volume d k chain) ∧ d 0 = Fat16.bootSector) ?_ ?_
    (formatFs.machine.along_true _ _) hrun
  · exact hkeep.2
  · rintro d call out d₁ ⟨⟨k, chain, hvol⟩, hboot⟩ - hstep
    refine ⟨(hvol.effect_of_step formatFs_regular hstep).volume formatFs_regular hvol, ?_⟩
    rw [hvol.eqOn_call hlow hfat formatFs_regular hstep rfl, hboot]
  · refine ⟨⟨0, fun _ => [], volume_formatDrive d₀ _⟩, ?_⟩
    rw [formatDrive_apply d₀ (by omega), if_pos rfl]

/-- The clusters inside the volume. -/
lemma insideVolume_iff (hboot : d 0 = bootSector) :
    formatFs.InsideVolume d c ↔ 2 ≤ c.toNat ∧ c.toNat ≤ 16344 := by
  have hreg := formatFs_regular.toAddressable
  have htotal : (Bpb.ofSector (d 0)).totalSectors16.toNat = 65535 := by
    rw [hboot]
    exact congrArg UInt16.toNat formatFs_totalSectors16
  have hspc : formatFs.bpb.sectorsPerCluster.toNat = 4 := by
    rw [formatFs_sectorsPerCluster]
    rfl
  rw [InsideVolume, htotal, hspc]
  constructor
  · rintro ⟨lba, hlba, hin⟩
    have hc : 2 ≤ c := by
      by_contra hc
      rw [clusterToLba_of_lt hreg hc] at hlba
      exact absurd hlba (by simp)
    have hlast := hin 3 (by omega)
    rw [eq_dataLba_of_clusterToLba hreg hlba, formatFs_dataLba] at hlast
    exact ⟨UInt16.le_iff_toNat_le.mp hc, by omega⟩
  · rintro ⟨hc, hle⟩
    refine ⟨_, clusterToLba_eq hreg (UInt16.le_iff_toNat_le.mpr hc), fun i hi => ?_⟩
    rw [formatFs_dataLba]
    omega

lemma formatFs_sectorsPerFat_le : formatFs.bpb.sectorsPerFat.toNat ≤ 256 := by
  have := formatFs_regular.sectorsPerFat
  omega

/-- **Allocation and the end of the volume.**  For every volume reachable from `format_drive`, and
whatever the drive holds behind its boot sector, in particular in the FAT: the cluster that
`find_free_cluster` returns, if it returns one, has all its sectors inside the volume exactly if the
two reserved words are in use and one of the clusters 2 to 16344 is free, or if no word of the FAT
is zero. -/
theorem allocation_inside_volume_iff (hreach : fs.Reachable d) (hboot : d' 0 = d 0) :
    (∀ c, fs.findFreeCluster d' = .ok (some c) → fs.InsideVolume d' c) ↔
      (fs.getFatEntry d' 0 ≠ 0 ∧ fs.getFatEntry d' 1 ≠ 0 ∧
        ∃ c : UInt16, 2 ≤ c.toNat ∧ c.toNat ≤ 16344 ∧ fs.getFatEntry d' c = 0) ∨
      ∀ c : UInt16, c.toNat < 16384 → fs.getFatEntry d' c ≠ 0 := by
  obtain ⟨rfl, -⟩ := hreach.volume
  have hinside (c : UInt16) : formatFs.InsideVolume d' c ↔ 2 ≤ c.toNat ∧ c.toNat ≤ 16344 :=
    insideVolume_iff (hboot.trans hreach.bootSector)
  have hsome (c : UInt16) : formatFs.findFreeCluster d' = .ok (some c) ↔ c.toNat < 16384 ∧
      formatFs.getFatEntry d' c = 0 ∧ ∀ x < c, formatFs.getFatEntry d' x ≠ 0 := by
    rw [formatFs.findFreeCluster_eq_some formatFs_sectorsPerFat_le, formatFs_sectorsPerFat]
    rfl
  have hnone : formatFs.findFreeCluster d' = .ok none ↔
      ∀ c : UInt16, c.toNat < 16384 → formatFs.getFatEntry d' c ≠ 0 := by
    rw [formatFs.findFreeCluster_eq_none formatFs_sectorsPerFat_le, formatFs_sectorsPerFat]
    rfl
  constructor
  · intro hall
    rcases hhead : (formatFs.freeClusters d').head? with - | c
    · exact Or.inr (hnone.mp (by rw [formatFs_regular.findFreeCluster, hhead]))
    · -- the reserved words come before the first free cluster
      have hfind : formatFs.findFreeCluster d' = .ok (some c) := by
        rw [formatFs_regular.findFreeCluster, hhead]
      obtain ⟨h2, hle⟩ := (hinside c).mp (hall c hfind)
      obtain ⟨-, hzero, hfirst⟩ := (hsome c).mp hfind
      have h0 : (0 : UInt16) < c := UInt16.lt_iff_toNat_lt.mpr (by rw [UInt16.toNat_zero]; omega)
      have h1 : (1 : UInt16) < c := UInt16.lt_iff_toNat_lt.mpr (by rw [UInt16.toNat_one]; omega)
      exact Or.inl ⟨hfirst 0 h0, hfirst 1 h1, c, h2, hle, hzero⟩
  · rintro hcond c hfind
    obtain ⟨hc, hfree, hfirst⟩ := (hsome c).mp hfind
    rcases hcond with ⟨h0, h1, x, hx2, hx, hzero⟩ | hused
    · have hle : c ≤ x := UInt16.not_lt.mp fun hlt => hfirst x hlt hzero
      have hne0 : c ≠ 0 := by rintro rfl; exact h0 hfree
      have hne1 : c ≠ 1 := by rintro rfl; exact h1 hfree
      have h2 := UInt16.le_iff_toNat_le.mp (two_le_of_ne hne0 hne1)
      have hle' := UInt16.le_iff_toNat_le.mp hle
      exact (hinside c).mpr ⟨h2, by omega⟩
    · exact absurd hfree (hused c hc)

/-- On a formatted drive the first free cluster is cluster 2, inside the volume. -/
theorem allocation_inside_volume_iff_formatted :
    formatFs.findFreeCluster (formatDrive blankDrive) = .ok (some 2) ∧
      formatFs.InsideVolume (formatDrive blankDrive) 2 := by
  have hreach : formatFs.Reachable (formatDrive blankDrive) :=
    ⟨blankDrive, [], [], init_formatDrive _, rfl⟩
  have hword {c : UInt16} (hc : formatFs.InFat c) :
      formatFs.getFatEntry (formatDrive blankDrive) c =
        if c = 0 then 0xFFF8 else if c = 1 then 0xFFFF else 0 := by
    rw [← table_of_inFat hc, table_formatDrive blankDrive hc]
  have h0 : formatFs.getFatEntry (formatDrive blankDrive) 0 ≠ 0 := by
    rw [hword (formatFs_inFat.mpr (by decide))]
    decide
  have h1 : formatFs.getFatEntry (formatDrive blankDrive) 1 ≠ 0 := by
    rw [hword (formatFs_inFat.mpr (by decide))]
    decide
  have h2 : formatFs.getFatEntry (formatDrive blankDrive) 2 = 0 := by
    rw [hword (formatFs_inFat.mpr (by decide))]
    decide
  have hfind : formatFs.findFreeCluster (formatDrive blankDrive) = .ok (some 2) := by
    rw [formatFs.findFreeCluster_eq_some formatFs_sectorsPerFat_le, formatFs_sectorsPerFat]
    refine ⟨by decide, h2, fun x hx => ?_⟩
    obtain rfl | rfl : x = 0 ∨ x = 1 := by
      have hlt := UInt16.lt_iff_toNat_lt.mp hx
      rw [← UInt16.toNat_inj, ← UInt16.toNat_inj]
      change x.toNat < 2 at hlt
      change x.toNat = 0 ∨ x.toNat = 1
      omega
    · exact h0
    · exact h1
  exact ⟨hfind, (allocation_inside_volume_iff hreach rfl).mpr
    (Or.inl ⟨h0, h1, 2, by decide, by decide, h2⟩) 2 hfind⟩

/-! ### A drive on which the volume is full -/

/-- Seven files of 4 MiB and one that takes the other clusters of the volume. -/
def volumeFull : List (UInt8 × ℕ) :=
  [(0x41, 0x400000), (0x42, 0x400000), (0x43, 0x400000), (0x44, 0x400000), (0x45, 0x400000),
    (0x46, 0x400000), (0x47, 0x400000), (0x48, 0x3EB800)]

/-- When these files have been created, the next cluster lies across the end of the volume: its
sectors are 65533 to 65536, and the volume has the sectors up to 65534. -/
theorem allocation_leaves_volume :
    ∃ outs d, formatFs.machine.run (formatDrive blankDrive) (zeroCalls volumeFull) =
        .ok (outs, d) ∧ formatFs.findFreeCluster d = .ok (some 16345) ∧
      ¬ formatFs.InsideVolume d 16345 ∧ formatFs.clusterToLba 16345 = .ok 65533 ∧
      formatFs.bpb.sectorsPerCluster = 4 ∧ (Bpb.ofSector (d 0)).totalSectors16 = 65535 := by
  have hsum : zeroClusters volumeFull = 16343 := by
    simp only [zeroClusters, volumeFull, List.map_cons, List.map_nil, List.sum_cons, List.sum_nil]
    norm_num
  have hletters : volumeFull.map Prod.fst = [0x41, 0x42, 0x43, 0x44, 0x45, 0x46, 0x47, 0x48] := rfl
  obtain ⟨outs, d, chain, m, hrun, h, hfree⟩ := exists_zeroFiles volumeFull (by decide)
    (by rw [hletters]; simp [FreeMark]) (by rw [hletters]; decide) (by rw [hsum]; omega)
  have hreach : formatFs.Reachable d :=
    ⟨blankDrive, zeroCalls volumeFull, outs, init_formatDrive _, hrun⟩
  refine ⟨outs, d, hrun, ?_, ?_, ?_, formatFs_sectorsPerCluster, ?_⟩
  · rw [formatFs_regular.findFreeCluster, hfree, hsum, List.head?_drop,
      getElem?_freeClusters_formatDrive blankDrive (by omega)]
    rfl
  · rw [insideVolume_iff hreach.bootSector]
    decide
  · rw [clusterToLba_eq formatFs_regular.toAddressable (by decide), formatFs_dataLba]
    rfl
  · rw [hreach.bootSector]
    exact formatFs_totalSectors16

end Fat16FileSystem

end SilOS.Fat16
