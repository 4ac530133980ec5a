/-
# Reading a file

For every volume whose root directory has at most 2032 entries, `cluster_to_lba` computes the
address of a cluster without overflow, and `read_file` returns the bytes of the clusters of
the chain, joined in order and cut to the size of the file.
-/
import SilOS.Lib.Block
import SilOS.Fat16.Fat

namespace SilOS.Fat16

open Lib

namespace Fat16FileSystem

variable (fs : Fat16FileSystem)

/-- The parameter blocks for which the address arithmetic stays in range: 512-byte sectors
and a root directory whose size in bytes, rounded up, fits into 16 bits. -/
structure Addressable : Prop where
  bytesPerSector : fs.bpb.bytesPerSector = 512
  rootEntries : fs.bpb.rootEntries.toNat ≤ 2032

/-- The first sector of the root directory. -/
def rootLba : ℕ := fs.bpb.reservedSectors.toNat + fs.bpb.fatCount.toNat * fs.bpb.sectorsPerFat.toNat

/-- The number of sectors of the root directory. -/
def rootSectors : ℕ := (fs.bpb.rootEntries.toNat * 32 + 511) / 512

/-- The first sector of a cluster. -/
def dataLba (cluster : UInt16) : ℕ :=
  fs.rootLba + fs.rootSectors + (cluster.toNat - 2) * fs.bpb.sectorsPerCluster.toNat

lemma fatCount_mul_lt : fs.bpb.fatCount.toNat * fs.bpb.sectorsPerFat.toNat ≤ 255 * 65535 := by
  have h1 := fs.bpb.fatCount.toNat_lt
  have h2 := fs.bpb.sectorsPerFat.toNat_lt
  exact Nat.mul_le_mul (by omega) (by omega)

variable {fs}

lemma rootDirStart_eq : fs.rootDirStart = .ok fs.rootLba := by
  have h1 := fs.fatCount_mul_lt
  have h2 := fs.bpb.reservedSectors.toNat_lt
  rw [rootDirStart, mulW_eq_ok (by omega), ok_bind, addW_eq_ok (by omega), rootLba]

lemma rootDirSectors_eq (h : fs.bpb.rootEntries.toNat ≤ 2032) :
    fs.rootDirSectors = .ok fs.rootSectors := by
  rw [rootDirSectors, mulW_eq_ok (by omega), ok_bind, addW_eq_ok (by omega), ok_bind,
    divW_eq_ok (by omega), rootSectors]

/-- `cluster_to_lba` computes the address of a data cluster. -/
theorem clusterToLba_eq (h : fs.Addressable) {c : UInt16} (hc : 2 ≤ c) :
    fs.clusterToLba c = .ok (fs.dataLba c) := by
  have h1 := fs.fatCount_mul_lt
  have h2 := fs.bpb.reservedSectors.toNat_lt
  have h3 := h.rootEntries
  have h4 : 2 ≤ c.toNat := UInt16.le_iff_toNat_le.mp hc
  have h5 : (c.toNat - 2) * fs.bpb.sectorsPerCluster.toNat ≤ 65535 * 255 := by
    have h6 := c.toNat_lt
    have h7 := fs.bpb.sectorsPerCluster.toNat_lt
    exact Nat.mul_le_mul (by omega) (by omega)
  have hbps : fs.bpb.bytesPerSector.toNat = 512 := by rw [h.bytesPerSector]; rfl
  rw [clusterToLba, hbps, mulW_eq_ok (by omega), ok_bind, subW_eq_ok (by omega), ok_bind,
    addW_eq_ok (by omega), ok_bind, divW_eq_ok (by omega), ok_bind, mulW_eq_ok (by omega), ok_bind,
    addW_eq_ok (by omega), ok_bind, addW_eq_ok (by omega), ok_bind, subW_eq_ok (by omega), ok_bind,
    mulW_eq_ok (by omega), ok_bind, addW_eq_ok (by omega), dataLba, rootLba, rootSectors]

/-- Clusters 0 and 1 have no address. -/
lemma clusterToLba_of_lt (h : fs.Addressable) {c : UInt16} (hc : ¬ 2 ≤ c) :
    fs.clusterToLba c = .error .panic := by
  have h1 := fs.fatCount_mul_lt
  have h2 := fs.bpb.reservedSectors.toNat_lt
  have h3 := h.rootEntries
  have h4 : ¬ 2 ≤ c.toNat := fun h2 => hc (UInt16.le_iff_toNat_le.mpr h2)
  have hbps : fs.bpb.bytesPerSector.toNat = 512 := by rw [h.bytesPerSector]; rfl
  rw [clusterToLba, hbps, mulW_eq_ok (by omega), ok_bind, subW_eq_ok (by omega), ok_bind,
    addW_eq_ok (by omega), ok_bind, divW_eq_ok (by omega), ok_bind, mulW_eq_ok (by omega), ok_bind,
    addW_eq_ok (by omega), ok_bind, addW_eq_ok (by omega), ok_bind, subW, if_neg h4, error_bind]

lemma eq_dataLba_of_clusterToLba (h : fs.Addressable) {c : UInt16} {lba : ℕ}
    (hlba : fs.clusterToLba c = .ok lba) : lba = fs.dataLba c := by
  by_cases hc : 2 ≤ c
  · rw [clusterToLba_eq h hc, Except.ok.injEq] at hlba
    exact hlba.symm
  · rw [clusterToLba_of_lt h hc] at hlba
    exact absurd hlba (by simp)

variable (fs)

/-- The bytes of a cluster. -/
def clusterBytes (d : Disk) (c : UInt16) : List UInt8 :=
  (List.range fs.bpb.sectorsPerCluster.toNat).flatMap fun i => (d (fs.dataLba c + i)).toList

lemma length_clusterBytes (d : Disk) (c : UInt16) :
    (fs.clusterBytes d c).length = fs.bytesPerCluster :=
  length_flatMap_blocks (fun _ _ => Vector.length_toList)

/-- The bytes of a cluster only depend on its sectors. -/
lemma clusterBytes_congr {d d' : Disk} {c : UInt16}
    (h : ∀ i < fs.bpb.sectorsPerCluster.toNat, d' (fs.dataLba c + i) = d (fs.dataLba c + i)) :
    fs.clusterBytes d' c = fs.clusterBytes d c := by
  apply List.flatMap_congr
  intro i hi
  rw [h i (List.mem_range.mp hi)]

variable {fs}

/-- The inner loop copies the wanted part of the `n` sectors from `lba` on. -/
lemma readSectors_eq (d : Disk) (n lba remaining : ℕ) (fileData : List UInt8) :
    readSectors d n lba remaining fileData =
      (fileData ++ (((List.range n).flatMap fun i => (d (lba + i)).toList).take remaining),
        remaining - n * 512) := by
  induction n generalizing lba remaining fileData with
  | zero => simp [readSectors]
  | succ n ih =>
      have hflat : ((List.range (n + 1)).flatMap fun i => (d (lba + i)).toList) =
          (d lba).toList ++ (List.range n).flatMap fun i => (d (lba + 1 + i)).toList := by
        rw [List.range_succ_eq_map, List.flatMap_cons, List.flatMap_map, Nat.add_zero]
        congr 1
        apply List.flatMap_congr
        intro i _
        rw [show lba + i.succ = lba + 1 + i by omega]
      have hlen : (d lba).toList.length = 512 := Vector.length_toList
      rw [hflat, List.take_append, hlen]
      simp only [readSectors, readSector]
      by_cases hr : remaining ≤ 512
      · -- the rest of the file ends in this sector
        rw [min_eq_left hr, Nat.sub_self, if_pos rfl, show remaining - 512 = 0 by omega,
          show remaining - (n + 1) * 512 = 0 by omega]
        simp
      · rw [min_eq_right (by omega), if_neg (by omega), ih]
        rw [List.take_of_length_le (i := 512) (by omega),
          List.take_of_length_le (i := remaining) (by omega), List.append_assoc,
          show remaining - 512 - n * 512 = remaining - (n + 1) * 512 by omega]

/-- **The loop of `read_file`** collects the wanted part of the clusters of the chain. -/
lemma readLoop_eq (h : fs.Addressable) (hspc : 0 < fs.bpb.sectorsPerCluster.toNat) {d : Disk}
    {l : List UInt16} {c : UInt16} {fuel remaining : ℕ} {fileData : List UInt8}
    (hl : Leads (fs.getFatEntry d) EndOfChain c l) (h2 : ∀ x ∈ l, 2 ≤ x)
    (hfuel : remaining < fuel) :
    fs.readLoop d fuel c remaining fileData =
      .ok (fileData ++ (l.flatMap (fs.clusterBytes d)).take remaining) := by
  induction l generalizing c fuel remaining fileData with
  | nil =>
      obtain ⟨fuel, rfl⟩ : ∃ k, fuel = k + 1 := ⟨fuel - 1, by omega⟩
      have hstop : ¬ c < 0xFFF8 := fun hc => not_endOfChain.mpr hc hl
      rw [readLoop, if_neg hstop]
      simp
  | cons x l ih =>
      obtain ⟨rfl, hc, hl⟩ := hl
      obtain ⟨fuel, rfl⟩ : ∃ k, fuel = k + 1 := ⟨fuel - 1, by omega⟩
      have hlen := fs.length_clusterBytes d c
      rw [bytesPerCluster] at hlen
      have hbytes : ((List.range fs.bpb.sectorsPerCluster.toNat).flatMap
          fun i => (d (fs.dataLba c + i)).toList) = fs.clusterBytes d c := rfl
      rw [readLoop, if_pos (not_endOfChain.mp hc), clusterToLba_eq h (h2 c (by simp)), ok_bind,
        readSectors_eq, hbytes, List.flatMap_cons, List.take_append, hlen]
      simp only
      by_cases hrem : remaining - fs.bpb.sectorsPerCluster.toNat * 512 = 0
      · rw [if_pos hrem, hrem, List.take_zero, List.append_nil]
        rfl
      · rw [if_neg hrem, ih hl (fun y hy => h2 y (by simp [hy])) (by omega), List.append_assoc]

/-- **`read_file`** returns the bytes of the clusters of the chain, cut to the file size. -/
theorem readFile_eq (h : fs.Addressable) (hspc : 0 < fs.bpb.sectorsPerCluster.toNat) {d : Disk}
    {entry : DirectoryEntry} {l : List UInt16}
    (hl : Leads (fs.getFatEntry d) EndOfChain entry.clusterLow l) (h2 : ∀ x ∈ l, 2 ≤ x) :
    fs.readFile d entry =
      .ok ((l.flatMap (fs.clusterBytes d)).take entry.fileSize.toNat) := by
  rw [readFile, readLoop_eq h hspc hl h2 (by omega), List.nil_append]

end Fat16FileSystem

end SilOS.Fat16
