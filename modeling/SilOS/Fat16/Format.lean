/-
# A formatted drive

`format_drive` writes a volume with two FATs of 64 sectors, 512 root-directory entries and
clusters of four sectors, whatever the drive held before.  Mounting it gives the file system
`formatFs`, and the drive holds a well-formed volume without files, in which all clusters
from 2 to 16383 are free.
-/
import SilOS.Fat16.Calls

namespace SilOS.Fat16

open Lib

/-- The file system that is mounted from a formatted drive. -/
def formatFs : Fat16FileSystem := ⟨Bpb.ofSector bootSector⟩

/-! ### The parameter block -/

lemma u16_bootSector {off : ℕ} {v : UInt16}
    (h : bootSector.byte off = lo16 v ∧ bootSector.byte (off + 1) = hi16 v) :
    bootSector.u16 off = v := by
  rw [Bytes.u16, h.1, h.2, fromLe16_toLe16]

lemma formatFs_bytesPerSector : formatFs.bpb.bytesPerSector = 512 :=
  u16_bootSector (by simp [bootSector, Bytes.byte_setByte, Bytes.byte_copyFromSlice, toLe16])

lemma formatFs_reservedSectors : formatFs.bpb.reservedSectors = 1 :=
  u16_bootSector (by simp [bootSector, Bytes.byte_setByte, Bytes.byte_copyFromSlice, toLe16])

lemma formatFs_rootEntries : formatFs.bpb.rootEntries = 512 :=
  u16_bootSector (by simp [bootSector, Bytes.byte_setByte, Bytes.byte_copyFromSlice, toLe16])

lemma formatFs_sectorsPerFat : formatFs.bpb.sectorsPerFat = 64 :=
  u16_bootSector (by simp [bootSector, Bytes.byte_setByte, Bytes.byte_copyFromSlice, toLe16])

lemma formatFs_sectorsPerCluster : formatFs.bpb.sectorsPerCluster = 4 := by
  change bootSector.byte 13 = 4
  simp [bootSector, Bytes.byte_setByte, Bytes.byte_copyFromSlice]

lemma formatFs_fatCount : formatFs.bpb.fatCount = 2 := by
  change bootSector.byte 16 = 2
  simp [bootSector, Bytes.byte_setByte, Bytes.byte_copyFromSlice]

lemma formatFs_regular : formatFs.Regular where
  bytesPerSector := formatFs_bytesPerSector
  rootEntries := by rw [formatFs_rootEntries]; decide
  sectorsPerFat := by rw [formatFs_sectorsPerFat]; decide
  fatCount := by rw [formatFs_fatCount]; decide
  sectorsPerCluster := by rw [formatFs_sectorsPerCluster]; decide

/-! ### The geometry -/

lemma formatFs_rootLba : formatFs.rootLba = 129 := by
  rw [Fat16FileSystem.rootLba, formatFs_reservedSectors, formatFs_fatCount, formatFs_sectorsPerFat]
  rfl

lemma formatFs_slotCount : formatFs.slotCount = 512 := by
  rw [Fat16FileSystem.slotCount, Fat16FileSystem.rootSectors, formatFs_rootEntries]
  rfl

lemma formatFs_bytesPerCluster : formatFs.bytesPerCluster = 2048 := by
  rw [Fat16FileSystem.bytesPerCluster, formatFs_sectorsPerCluster]
  rfl

lemma formatFs_clustersFor (data : List UInt8) :
    formatFs.clustersFor data = max 1 ((data.length + 2047) / 2048) := by
  rw [Fat16FileSystem.clustersFor, formatFs_bytesPerCluster]
  congr 2

lemma formatFs_inFat {c : UInt16} : formatFs.InFat c ↔ c.toNat < 16384 := by
  rw [Fat16FileSystem.InFat, formatFs_sectorsPerFat]
  rfl

lemma formatFs_fatSector (c : UInt16) : formatFs.fatSector c = 1 + c.toNat * 2 / 512 := by
  rw [Fat16FileSystem.fatSector, formatFs_reservedSectors]
  rfl

/-! ### The sectors -/

/-- The sectors of a formatted drive up to the end of the root directory. -/
lemma formatDrive_apply (d : Disk) {lba : ℕ} (hlba : lba < 161) :
    formatDrive d lba =
      if lba = 0 then bootSector
      else if lba < 65 then freshFatSector (lba - 1)
      else if lba < 129 then freshFatSector (lba - 65)
      else Bytes.zeros 512 := by
  have htwo : List.range 2 = [0, 1] := rfl
  simp only [formatDrive, htwo, List.foldl_cons, List.foldl_nil]
  rw [foldl_writeSectorBytes (fun _ => Bytes.zeros 512), foldl_writeSectorBytes freshFatSector,
    foldl_writeSectorBytes freshFatSector]
  by_cases h0 : lba = 0
  · subst h0
    simp [writeSectorBytes_same]
  · by_cases h65 : lba < 65
    · rw [if_neg (by omega), if_neg (by omega), if_pos (by omega), if_neg h0, if_pos h65]
    · by_cases h129 : lba < 129
      · rw [if_neg (by omega), if_pos (by omega), if_neg h0, if_neg h65, if_pos h129]
      · rw [if_pos (by omega), if_neg h0, if_neg h65, if_neg h129]

/-- **Mounting.**  Every formatted drive can be mounted, always with the same parameters. -/
theorem init_formatDrive (d : Disk) : init (formatDrive d) = some formatFs := by
  have hboot : readSector (formatDrive d) 0 = bootSector := by
    rw [readSector, formatDrive_apply d (by omega), if_pos rfl]
  have hbps : (Bpb.ofSector bootSector).bytesPerSector = 512 := formatFs_bytesPerSector
  simp only [init, hboot, hbps]
  rfl

/-- The FAT of a formatted drive: two reserved words, all others free. -/
lemma table_formatDrive (d : Disk) {c : UInt16} (hc : formatFs.InFat c) :
    formatFs.table (formatDrive d) c = if c = 0 then 0xFFF8 else if c = 1 then 0xFFFF else 0 := by
  have hc' := formatFs_inFat.mp hc
  rw [Fat16FileSystem.table_of_inFat hc, Fat16FileSystem.getFatEntry, readSector,
    formatFs_fatSector, formatDrive_apply d (by omega), if_neg (by omega), if_pos (by omega),
    Nat.add_sub_cancel_left, freshFatSector]
  by_cases h0 : c = 0
  · subst h0
    simp [Bytes.u16, Bytes.byte_setByte, fromLe16]
  · by_cases h1 : c = 1
    · subst h1
      simp [Bytes.u16, Bytes.byte_setByte, fromLe16]
    · -- behind the four bytes of the reserved words
      have h2 : 2 ≤ c.toNat := UInt16.le_iff_toNat_le.mp (Fat16FileSystem.two_le_of_ne h0 h1)
      rw [if_neg h0, if_neg h1]
      by_cases hs : c.toNat * 2 / 512 = 0
      · rw [if_pos hs, Bytes.u16]
        simp (disch := omega) only [Bytes.byte_setByte_ne, Bytes.byte_zeros]
        rfl
      · rw [if_neg hs, Bytes.u16, Bytes.byte_zeros, Bytes.byte_zeros]
        rfl

lemma reservedInUse_formatDrive (d : Disk) : formatFs.ReservedInUse (formatDrive d) := by
  rw [Fat16FileSystem.ReservedInUse, table_formatDrive d (formatFs_inFat.mpr (by decide)),
    table_formatDrive d (formatFs_inFat.mpr (by decide))]
  decide

/-- The slots of a formatted drive are unused. -/
lemma not_live_formatDrive (d : Disk) {j : ℕ} (hj : j < 512) :
    ¬ formatFs.Live (formatDrive d) j := by
  have hsector : formatDrive d (formatFs.slotLba j) = Bytes.zeros 512 := by
    rw [Fat16FileSystem.slotLba, formatFs_rootLba, formatDrive_apply d (by omega),
      if_neg (by omega), if_neg (by omega), if_neg (by omega)]
  rw [Fat16FileSystem.Live, Fat16FileSystem.slotBytes, hsector, not_not, Bytes.byte_slice,
    if_pos (by omega), Bytes.byte_zeros]
  decide

/-- A formatted drive holds a volume without files. -/
theorem volume_formatDrive (d : Disk) (chain : ℕ → List UInt16) :
    formatFs.Volume (formatDrive d) 0 chain where
  count := Nat.zero_le _
  reserved := reservedInUse_formatDrive d
  live := by simp
  free := fun j _ hj => not_live_formatDrive d (formatFs_slotCount ▸ hj)
  leads := by simp
  nonempty := by simp
  cells := by simp
  nodup := by simp
  disjoint := by simp

/-- All clusters but the two reserved ones are free. -/
lemma freeClusters_formatDrive (d : Disk) :
    formatFs.freeClusters (formatDrive d) = (formatFs.clusters.erase 0).erase 1 := by
  have hnd := formatFs_regular.clusters_nodup
  rw [(hnd.erase 0).erase_eq_filter, hnd.erase_eq_filter, List.filter_filter]
  apply List.filter_congr
  intro c hc
  rw [table_formatDrive d (formatFs_regular.mem_clusters.mp hc)]
  by_cases h0 : c = 0
  · simp [h0]
  · by_cases h1 : c = 1
    · simp [h1]
    · simp [h0, h1]

/-- They are found in ascending order. -/
lemma getElem?_freeClusters_formatDrive (d : Disk) {n : ℕ} (hn : n < 16382) :
    (formatFs.freeClusters (formatDrive d))[n]? = some (UInt16.ofNat (2 + n)) := by
  have hrange : List.range (64 * 256) = 0 :: 1 :: List.range' 2 16382 := by
    rw [List.range_eq_range', List.range'_succ, List.range'_succ]
  have hclusters : formatFs.clusters =
      0 :: 1 :: (List.range' 2 16382).map UInt16.ofNat := by
    rw [Fat16FileSystem.clusters, formatFs_sectorsPerFat]
    exact congrArg (List.map UInt16.ofNat) hrange
  rw [freeClusters_formatDrive, hclusters, List.erase_cons_head, List.erase_cons_head,
    List.getElem?_map, List.getElem?_range' hn, Nat.one_mul]
  rfl

lemma length_freeClusters_formatDrive (d : Disk) :
    (formatFs.freeClusters (formatDrive d)).length = 16382 := by
  have h0 : 0 ∈ formatFs.clusters :=
    formatFs_regular.mem_clusters.mpr (formatFs_inFat.mpr (by decide))
  have h1 : 1 ∈ formatFs.clusters.erase 0 :=
    (List.mem_erase_of_ne (by decide)).mpr
      (formatFs_regular.mem_clusters.mpr (formatFs_inFat.mpr (by decide)))
  rw [freeClusters_formatDrive, List.length_erase_of_mem h1, List.length_erase_of_mem h0,
    Fat16FileSystem.clusters, List.length_map, List.length_range, formatFs_sectorsPerFat]
  rfl

end SilOS.Fat16
