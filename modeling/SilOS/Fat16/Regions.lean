/-
# The three regions of a volume

The sectors of a volume hold, in this order, the FAT, the root directory and the clusters.
Accordingly a drive is seen through three views: the table of FAT words (`table`), the slots
of the root directory (`slotBytes`) and the bytes of the clusters (`clusterBytes`).  Each
primitive write of the file system changes one view at one place and leaves the other two
alone.
-/
import SilOS.Fat16.Directory

namespace SilOS.Fat16

open Lib

namespace Fat16FileSystem

variable (fs : Fat16FileSystem)

/-- The volumes on which files can be written: the addresses are in range, the FAT covers no
cluster number that is an end mark, and FAT, root directory and clusters do not overlap. -/
structure Regular : Prop extends fs.Addressable where
  sectorsPerFat : fs.bpb.sectorsPerFat.toNat ≤ 255
  fatCount : 1 ≤ fs.bpb.fatCount.toNat
  sectorsPerCluster : 1 ≤ fs.bpb.sectorsPerCluster.toNat

/-- The cluster has a word in the FAT. -/
def InFat (c : UInt16) : Prop := c.toNat < fs.bpb.sectorsPerFat.toNat * 256

instance : DecidablePred fs.InFat := fun _ => inferInstanceAs (Decidable (_ < _))

/-- The words of the first FAT.  A cluster without a word counts as the end of a chain. -/
def table (d : Disk) (c : UInt16) : UInt16 := if fs.InFat c then fs.getFatEntry d c else 0xFFFF

/-- The free clusters, in the order in which they are found. -/
def freeClusters (d : Disk) : List UInt16 := vacant fs.clusters (fs.table d) 0

variable {fs} {d d' : Disk} {c x v : UInt16}

lemma table_of_inFat (h : fs.InFat c) : fs.table d c = fs.getFatEntry d c := if_pos h

lemma Regular.mem_clusters (h : fs.Regular) : c ∈ fs.clusters ↔ fs.InFat c :=
  fs.mem_clusters (by have := h.sectorsPerFat; omega)

lemma Regular.clusters_nodup (h : fs.Regular) : fs.clusters.Nodup :=
  fs.clusters_nodup (by have := h.sectorsPerFat; omega)

lemma mem_freeClusters (h : fs.Regular) :
    c ∈ fs.freeClusters d ↔ fs.InFat c ∧ fs.table d c = 0 := by
  rw [freeClusters, mem_vacant, h.mem_clusters]

lemma freeClusters_nodup (h : fs.Regular) : (fs.freeClusters d).Nodup :=
  vacant_nodup h.clusters_nodup

/-- `find_free_cluster` returns the first free cluster. -/
lemma Regular.findFreeCluster (h : fs.Regular) (d : Disk) :
    fs.findFreeCluster d = .ok (fs.freeClusters d).head? := by
  rw [findFreeCluster_eq fs (by have := h.sectorsPerFat; omega)]
  congr 2
  apply List.filter_congr
  intro x hx
  rw [table_of_inFat (h.mem_clusters.mp hx)]

/-- A cluster with a word in the FAT is not an end mark. -/
lemma Regular.not_endOfChain (h : fs.Regular) (hc : fs.InFat c) : ¬ EndOfChain c := by
  have h1 := h.sectorsPerFat
  rw [InFat] at hc
  rw [Fat16.Fat16FileSystem.not_endOfChain, UInt16.lt_iff_toNat_lt]
  have h2 : (0xFFF8 : UInt16).toNat = 65528 := rfl
  omega

/-- Chains inside the FAT are chains of the words that `get_fat_entry` reads. -/
lemma Leads.of_table {l : List UInt16} (h : Leads (fs.table d) EndOfChain v l)
    (hl : ∀ x ∈ l, fs.InFat x) : Leads (fs.getFatEntry d) EndOfChain v l :=
  h.congr fun x hx => (table_of_inFat (hl x hx)).symm

/-! ### Where the regions lie -/

lemma Regular.fatSector_lt (h : fs.Regular) (hc : fs.InFat c) : fs.fatSector c < fs.rootLba := by
  have h1 : 1 * fs.bpb.sectorsPerFat.toNat ≤ fs.bpb.fatCount.toNat * fs.bpb.sectorsPerFat.toNat :=
    Nat.mul_le_mul_right _ h.fatCount
  rw [InFat] at hc
  rw [fatSector, rootLba]
  omega

lemma rootLba_le_slotLba (fs : Fat16FileSystem) (j : ℕ) : fs.rootLba ≤ fs.slotLba j := by
  rw [slotLba]
  omega

lemma slotLba_lt {j : ℕ} (hj : j < fs.slotCount) : fs.slotLba j < fs.rootLba + fs.rootSectors := by
  rw [slotCount] at hj
  rw [slotLba]
  omega

lemma le_dataLba (fs : Fat16FileSystem) (c : UInt16) :
    fs.rootLba + fs.rootSectors ≤ fs.dataLba c := by
  rw [dataLba]
  omega

/-- Different clusters have different sectors. -/
lemma dataLba_inj {i i' : ℕ} (hc : 2 ≤ c) (hx : 2 ≤ x) (hi : i < fs.bpb.sectorsPerCluster.toNat)
    (hi' : i' < fs.bpb.sectorsPerCluster.toNat) (h : fs.dataLba c + i = fs.dataLba x + i') :
    c = x := by
  have hpos : 0 < fs.bpb.sectorsPerCluster.toNat := by omega
  have hc2 : 2 ≤ c.toNat := UInt16.le_iff_toNat_le.mp hc
  have hx2 : 2 ≤ x.toNat := UInt16.le_iff_toNat_le.mp hx
  have h' : i + (c.toNat - 2) * fs.bpb.sectorsPerCluster.toNat =
      i' + (x.toNat - 2) * fs.bpb.sectorsPerCluster.toNat := by
    rw [dataLba, dataLba] at h
    omega
  have hdiv := congrArg (· / fs.bpb.sectorsPerCluster.toNat) h'
  simp only [Nat.add_mul_div_right _ _ hpos, Nat.div_eq_of_lt hi, Nat.div_eq_of_lt hi',
    Nat.zero_add] at hdiv
  apply UInt16.toNat_inj.mp
  omega

/-! ### Views of drives that agree on a region -/

lemma table_congr (h : fs.Regular) (heq : ∀ lba < fs.rootLba, d' lba = d lba) :
    fs.table d' = fs.table d := by
  funext c
  by_cases hc : fs.InFat c
  · rw [table_of_inFat hc, table_of_inFat hc]
    exact fs.getFatEntry_congr (heq _ (h.fatSector_lt hc))
  · rw [table, table, if_neg hc, if_neg hc]

lemma slotBytes_congr {j : ℕ} (heq : d' (fs.slotLba j) = d (fs.slotLba j)) :
    fs.slotBytes d' j = fs.slotBytes d j := by
  rw [slotBytes, slotBytes, heq]

/-! ### A word of the FAT is written -/

theorem table_setFatEntry (hc : fs.InFat c) :
    fs.table (fs.setFatEntry d c v) = Function.update (fs.table d) c v := by
  funext x
  by_cases hx : fs.InFat x
  · rw [table_of_inFat hx, fs.getFatEntry_setFatEntry]
    by_cases hxc : x = c
    · rw [hxc, Function.update_self, Function.update_self]
    · rw [Function.update_of_ne hxc, Function.update_of_ne hxc, table_of_inFat hx]
  · have hxc : x ≠ c := fun h => hx (h ▸ hc)
    rw [Function.update_of_ne hxc, table, table, if_neg hx, if_neg hx]

theorem slotBytes_setFatEntry (h : fs.Regular) (hc : fs.InFat c) (j : ℕ) :
    fs.slotBytes (fs.setFatEntry d c v) j = fs.slotBytes d j := by
  apply slotBytes_congr
  apply fs.setFatEntry_apply_ne
  have h1 := h.fatSector_lt hc
  have h2 := fs.rootLba_le_slotLba j
  omega

theorem clusterBytes_setFatEntry (h : fs.Regular) (hc : fs.InFat c) (x : UInt16) :
    fs.clusterBytes (fs.setFatEntry d c v) x = fs.clusterBytes d x := by
  apply fs.clusterBytes_congr
  intro i _
  apply fs.setFatEntry_apply_ne
  have h1 := h.fatSector_lt hc
  have h2 := fs.le_dataLba x
  omega

/-! ### An entry is stored in a slot -/

theorem table_storeEntry (h : fs.Regular) (j : ℕ) (entry : DirectoryEntry) :
    fs.table (storeEntry d (fs.slotLba j) (slotOffset j) entry) = fs.table d := by
  apply table_congr h
  intro lba hlba
  have h1 := fs.rootLba_le_slotLba j
  exact writeSectorBytes_ne _ _ (by omega)

theorem clusterBytes_storeEntry {j : ℕ} (hj : j < fs.slotCount) (entry : DirectoryEntry)
    (x : UInt16) :
    fs.clusterBytes (storeEntry d (fs.slotLba j) (slotOffset j) entry) x = fs.clusterBytes d x := by
  apply fs.clusterBytes_congr
  intro i _
  have h1 := slotLba_lt hj
  have h2 := fs.le_dataLba x
  exact writeSectorBytes_ne _ _ (by omega)

/-! ### A chunk is written into a cluster -/

/-- The sectors of a cluster that a chunk of `m` bytes reaches. -/
lemma takeWhile_sectors (n m : ℕ) :
    (List.range n).takeWhile (fun i => i * 512 < m) = List.range (min n ((m + 511) / 512)) := by
  have hpred : (fun i => decide (i * 512 < m)) = fun i => decide (i < (m + 511) / 512) := by
    funext i
    rw [decide_eq_decide]
    omega
  rw [hpred, takeWhile_range_lt]

/-- The sectors after a chunk was written. -/
lemma writeChunk_apply (lba : ℕ) (chunk : List UInt8) (y : ℕ) :
    fs.writeChunk d lba chunk y =
      if lba ≤ y ∧ y < lba + min fs.bpb.sectorsPerCluster.toNat ((chunk.length + 511) / 512) then
        (Bytes.zeros 512).copyFromSlice 0 (piece 512 chunk (y - lba))
      else d y := by
  rw [writeChunk, takeWhile_sectors]
  exact foldl_writeSectorBytes (fun i => (Bytes.zeros 512).copyFromSlice 0 (piece 512 chunk i))
    lba _ d y

lemma writeChunk_apply_ne {lba : ℕ} {chunk : List UInt8} {y : ℕ}
    (h : y < lba ∨ lba + fs.bpb.sectorsPerCluster.toNat ≤ y) :
    fs.writeChunk d lba chunk y = d y := by
  rw [writeChunk_apply, if_neg (by omega)]

theorem table_writeChunk (h : fs.Regular) (c : UInt16) (chunk : List UInt8) :
    fs.table (fs.writeChunk d (fs.dataLba c) chunk) = fs.table d := by
  apply table_congr h
  intro lba hlba
  have h1 := fs.le_dataLba c
  exact writeChunk_apply_ne (by omega)

theorem slotBytes_writeChunk {j : ℕ} (hj : j < fs.slotCount) (c : UInt16) (chunk : List UInt8) :
    fs.slotBytes (fs.writeChunk d (fs.dataLba c) chunk) j = fs.slotBytes d j := by
  apply slotBytes_congr
  have h1 := slotLba_lt hj
  have h2 := fs.le_dataLba c
  exact writeChunk_apply_ne (by omega)

theorem clusterBytes_writeChunk_ne (hc : 2 ≤ c) (hx : 2 ≤ x) (hxc : x ≠ c) (chunk : List UInt8) :
    fs.clusterBytes (fs.writeChunk d (fs.dataLba c) chunk) x = fs.clusterBytes d x := by
  apply fs.clusterBytes_congr
  intro i hi
  apply writeChunk_apply_ne
  by_contra hcon
  have hlt : fs.dataLba x + i - fs.dataLba c < fs.bpb.sectorsPerCluster.toNat := by omega
  exact hxc (dataLba_inj hx hc hi hlt (by omega))

/-- A sector filled from a short list begins with it. -/
lemma take_toList_copyFromSlice (src : List UInt8) (h : src.length ≤ 512) :
    ((Bytes.zeros 512).copyFromSlice 0 src).toList.take src.length = src := by
  apply List.ext_getElem?
  intro i
  by_cases hi : i < src.length
  · rw [List.getElem?_take_of_lt hi, Bytes.getElem?_toList, if_pos (by omega),
      Bytes.byte_copyFromSlice_mem _ _ (by omega) (by omega) (by omega), Nat.sub_zero,
      List.getD_eq_getElem?_getD, List.getElem?_eq_getElem hi]
    rfl
  · rw [List.getElem?_eq_none (by simp; omega), List.getElem?_eq_none (by omega)]

/-- The cluster that was written begins with the chunk. -/
theorem clusterBytes_writeChunk_same {chunk : List UInt8} (h : chunk.length ≤ fs.bytesPerCluster) :
    (fs.clusterBytes (fs.writeChunk d (fs.dataLba c) chunk) c).take chunk.length = chunk := by
  rw [bytesPerCluster] at h
  apply take_flatMap_blocks (B := 512) (fun _ _ => Vector.length_toList) _ h
  intro i hi
  by_cases hin : i * 512 < chunk.length
  · rw [writeChunk_apply, if_pos (by omega), Nat.add_sub_cancel_left]
    exact take_toList_copyFromSlice _ (by rw [length_piece]; omega)
  · have hnil : piece 512 chunk i = [] := by
      apply List.eq_nil_of_length_eq_zero
      rw [length_piece]
      omega
    rw [hnil]
    rfl

end Fat16FileSystem

end SilOS.Fat16
