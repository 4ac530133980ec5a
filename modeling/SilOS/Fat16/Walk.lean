/-
# Reading along arbitrary links

`read_file` follows the links of the FAT from the first cluster of an entry.  It stops at an end
mark or when as many bytes were read as the entry says, and it reads at least one cluster, also for
an empty file.  It does not look whether a link is a data cluster: on the clusters 0 and 1 the
subtraction in `cluster_to_lba` underflows.

On a proper chain the bytes of its clusters are returned (`readFile_of_chain`).  On arbitrary links
reading goes well exactly if the walk passes through data clusters until one of the two ends is
reached (`readFile_safe_iff`); otherwise it panics or, when clusters have no sectors, it goes
around a cycle for ever.
-/
import SilOS.Fat16.Release
import SilOS.Fat16.Slots

namespace SilOS.Fat16

open Lib

namespace Fat16FileSystem

variable {fs : Fat16FileSystem} {d : Disk} {c : UInt16} {entry : DirectoryEntry}
  {fuel n remaining : ℕ} {fileData : List UInt8}

/-! ### Proper chains -/

/-- **Reading a chain.**  For every volume with clusters of at least one sector and at most 2032
root entries, every drive and every entry whose chain is `chain`, `read_file` returns the bytes of
the sectors of these clusters in order, cut to the size of the file or, if that is less, to the size
of the chain. -/
theorem readFile_of_chain (h : fs.Addressable) (hspc : 1 ≤ fs.bpb.sectorsPerCluster.toNat)
    (d : Disk) (entry : DirectoryEntry) {chain : List UInt16}
    (hfirst : chain.head? = some entry.clusterLow) (hrange : ∀ c ∈ chain, 2 ≤ c ∧ c < 0xFFF8)
    (hlinks : chain.IsChain fun c c' => fs.getFatEntry d c = c')
    (hlast : ∀ c ∈ chain.getLast?, 0xFFF8 ≤ fs.getFatEntry d c) :
    ∃ lba : UInt16 → ℕ, (∀ c ∈ chain, fs.clusterToLba c = .ok (lba c)) ∧
      fs.readFile d entry = .ok
        ((chain.flatMap fun c => (List.range fs.bpb.sectorsPerCluster.toNat).flatMap
          fun i => (readSector d (lba c + i)).toList).take
            (min entry.fileSize.toNat (chain.length * fs.bpb.sectorsPerCluster.toNat * 512))) := by
  have hleads : Leads (fs.getFatEntry d) EndOfChain entry.clusterLow chain :=
    leads_of_isChain hfirst (fun c hc => not_endOfChain.mpr (hrange c hc).2) hlinks hlast
  have hlen : (chain.flatMap (fs.clusterBytes d)).length =
      chain.length * fs.bpb.sectorsPerCluster.toNat * 512 := by
    rw [flatMap_eq_flatMap_range chain 0,
      length_flatMap_blocks fun i _ => fs.length_clusterBytes d _, bytesPerCluster, Nat.mul_assoc]
  refine ⟨fs.dataLba, fun c hc => clusterToLba_eq h (hrange c hc).1, ?_⟩
  rw [readFile_eq h hspc hleads fun c hc => (hrange c hc).1, List.take_eq_take_min, hlen]
  rfl

/-- A file of one byte whose chain is longer than it needs. -/
theorem readFile_of_chain_two_clusters :
    ∃ lba : UInt16 → ℕ, (∀ c ∈ [2, 3], formatFs.clusterToLba c = .ok (lba c)) ∧
      formatFs.readFile
        (formatFs.setFatEntry (formatFs.setFatEntry (formatDrive blankDrive) 2 3) 3 0xFFFF)
        (newEntry (letters 0x41) txt 2 [1]) = .ok
        (([2, 3].flatMap fun c => (List.range formatFs.bpb.sectorsPerCluster.toNat).flatMap
          fun i => (readSector (formatFs.setFatEntry
            (formatFs.setFatEntry (formatDrive blankDrive) 2 3) 3 0xFFFF) (lba c + i)).toList).take
            (min (newEntry (letters 0x41) txt 2 [1]).fileSize.toNat
              (([2, 3] : List UInt16).length * formatFs.bpb.sectorsPerCluster.toNat * 512))) := by
  have hrange : ∀ c ∈ ([2, 3] : List UInt16), 2 ≤ c ∧ c < 0xFFF8 := by simp
  exact readFile_of_chain formatFs_regular.toAddressable formatFs_regular.sectorsPerCluster _ _
    rfl hrange (by simp [getFatEntry_setFatEntry]) (by simp [getFatEntry_setFatEntry])

/-! ### Arbitrary links -/

/-- The walk along the links from `c` passes through `n` data clusters and then comes to an end
mark, or `n` is not 0 and the clusters hold `size` bytes. -/
def ReadEnds (fs : Fat16FileSystem) (d : Disk) (c : UInt16) (size n : ℕ) : Prop :=
  (∀ i < n, Followed ((fs.getFatEntry d)^[i] c)) ∧
    (EndOfChain ((fs.getFatEntry d)^[n] c) ∨ 0 < n ∧ size ≤ n * fs.bytesPerCluster)

/-- What one turn of the loop does. -/
lemma readLoop_succ (h : fs.Addressable) (hc : Followed c) :
    fs.readLoop d (fuel + 1) c remaining fileData =
      if remaining - fs.bytesPerCluster = 0 then
        .ok (fileData ++ (fs.clusterBytes d c).take remaining)
      else fs.readLoop d fuel (fs.getFatEntry d c) (remaining - fs.bytesPerCluster)
        (fileData ++ (fs.clusterBytes d c).take remaining) := by
  rw [readLoop, if_pos hc.2, clusterToLba_eq h hc.1, ok_bind, readSectors_eq]
  rfl

lemma readLoop_end (hc : EndOfChain c) :
    fs.readLoop d (fuel + 1) c remaining fileData = .ok fileData := by
  rw [readLoop, if_neg fun hlt => not_endOfChain.mpr hlt hc]

/-- The loop returns when the walk ends, with no more bytes than were asked for. -/
lemma readLoop_of_ends (h : fs.Addressable) (hends : fs.ReadEnds d c remaining n)
    (hfuel : n < fuel) (fileData : List UInt8) :
    ∃ data, fs.readLoop d fuel c remaining fileData = .ok data ∧
      data.length ≤ fileData.length + remaining := by
  obtain ⟨fuel, rfl⟩ : ∃ m, fuel = m + 1 := ⟨fuel - 1, by omega⟩
  induction n generalizing c fuel remaining fileData with
  | zero =>
      have hend : EndOfChain c := hends.2.resolve_right fun h0 => absurd h0.1 (lt_irrefl 0)
      exact ⟨fileData, readLoop_end hend, by omega⟩
  | succ n ih =>
      have hc : Followed c := hends.1 0 (by omega)
      have hlen : ((fs.clusterBytes d c).take remaining).length =
          min remaining fs.bytesPerCluster := by
        rw [List.length_take, fs.length_clusterBytes]
      rw [readLoop_succ h hc]
      by_cases hdone : remaining - fs.bytesPerCluster = 0
      · rw [if_pos hdone]
        exact ⟨_, rfl, by rw [List.length_append, hlen]; omega⟩
      · rw [if_neg hdone]
        have hmul := Nat.add_one_mul n fs.bytesPerCluster
        -- the rest of the walk, for the bytes that are left
        have hrest : fs.ReadEnds d (fs.getFatEntry d c) (remaining - fs.bytesPerCluster) n := by
          refine ⟨fun i hi => hends.1 (i + 1) (by omega), ?_⟩
          rcases hends.2 with hend | ⟨-, hsize⟩
          · exact Or.inl hend
          · have hpos : 0 < n := by
              rcases Nat.eq_zero_or_pos n with rfl | hn
              · omega
              · exact hn
            exact Or.inr ⟨hpos, by omega⟩
        obtain ⟨fuel, rfl⟩ : ∃ m, fuel = m + 1 := ⟨fuel - 1, by omega⟩
        obtain ⟨data, hdata, hle⟩ :=
          ih hrest (fileData ++ (fs.clusterBytes d c).take remaining) fuel (by omega)
        exact ⟨data, hdata, by rw [List.length_append, hlen] at hle; omega⟩

/-- When the loop returns, the walk has ended. -/
lemma ends_of_readLoop (h : fs.Addressable) {data : List UInt8}
    (hread : fs.readLoop d fuel c remaining fileData = .ok data) :
    ∃ n, fs.ReadEnds d c remaining n := by
  induction fuel generalizing c remaining fileData with
  | zero => exact absurd hread (by simp [readLoop])
  | succ fuel ih =>
      by_cases hend : EndOfChain c
      · exact ⟨0, by simp, Or.inl hend⟩
      by_cases hc2 : 2 ≤ c
      · have hc : Followed c := ⟨hc2, not_endOfChain.mp hend⟩
        rw [readLoop_succ h hc] at hread
        by_cases hdone : remaining - fs.bytesPerCluster = 0
        · refine ⟨1, fun i hi => ?_, Or.inr ⟨by omega, by omega⟩⟩
          obtain rfl : i = 0 := by omega
          exact hc
        · rw [if_neg hdone] at hread
          obtain ⟨n, hgo, hstop⟩ := ih hread
          have hmul := Nat.add_one_mul n fs.bytesPerCluster
          refine ⟨n + 1, fun i hi => ?_, ?_⟩
          · cases i with
            | zero => exact hc
            | succ i => exact hgo i (by omega)
          · rcases hstop with hstop | ⟨-, hsize⟩
            · exact Or.inl hstop
            · exact Or.inr ⟨by omega, by omega⟩
      · rw [readLoop, if_pos (not_endOfChain.mp hend), clusterToLba_of_lt h hc2,
          error_bind] at hread
        exact absurd hread (by simp)

/-- A walk that ends, ends after as many clusters as there are bytes or clusters. -/
lemma ReadEnds.exists_le {size : ℕ} (hends : fs.ReadEnds d c size n) :
    ∃ m ≤ size + 65536, fs.ReadEnds d c size m := by
  by_cases hstop : EndOfChain ((fs.getFatEntry d)^[n] c)
  · have hgo : ∀ i < n, ¬ EndOfChain ((fs.getFatEntry d)^[i] c) :=
      fun i hi => not_endOfChain.mpr (hends.1 i hi).2
    have hle := le_card_of_iterate hgo hstop
    have hcard := card_uint16_le
    exact ⟨n, by omega, hends⟩
  · obtain ⟨hpos, hsize⟩ := hends.2.resolve_left hstop
    by_cases hn : n ≤ size + 1
    · exact ⟨n, by omega, hends⟩
    · -- fewer clusters are enough
      refine ⟨size + 1, by omega, fun i hi => hends.1 i (by omega), Or.inr ⟨by omega, ?_⟩⟩
      rcases Nat.eq_zero_or_pos fs.bytesPerCluster with hB | hB
      · rw [hB] at hsize ⊢
        omega
      · have := Nat.le_mul_of_pos_right (size + 1) hB
        omega

/-- **When reading is safe.**  For every drive that can be mounted with at most 2032 root entries,
every FAT and every entry: `read_file` ends without computing the address of cluster 0 or 1 and
returns at most as many bytes as the entry says, exactly if the links from its first cluster pass
through data clusters until an end mark comes or enough clusters were read, at least one.  Without
that, no number of turns is enough. -/
theorem readFile_safe_iff (hinit : init d = some fs) (hroot : fs.bpb.rootEntries.toNat ≤ 2032)
    (entry : DirectoryEntry) :
    ((∃ data, fs.readFile d entry = .ok data ∧ data.length ≤ entry.fileSize.toNat) ↔
      ∃ n, fs.ReadEnds d entry.clusterLow entry.fileSize.toNat n) ∧
    ((¬ ∃ n, fs.ReadEnds d entry.clusterLow entry.fileSize.toNat n) → ∀ fuel data,
      fs.readLoop d fuel entry.clusterLow entry.fileSize.toNat [] ≠ .ok data) := by
  have h : fs.Addressable := by
    rw [init] at hinit
    split_ifs at hinit with hbps
    obtain rfl := Option.some.inj hinit
    exact ⟨not_not.mp hbps, hroot⟩
  refine ⟨⟨?_, ?_⟩, ?_⟩
  · rintro ⟨data, hread, -⟩
    exact ends_of_readLoop h hread
  · rintro ⟨n, hends⟩
    -- the bound on the turns is enough for every walk that ends
    obtain ⟨m, hm, hends⟩ := hends.exists_le
    obtain ⟨data, hdata, hle⟩ := readLoop_of_ends h hends (Nat.lt_succ_of_le hm) []
    exact ⟨data, hdata, by simpa using hle⟩
  · rintro hnone fuel data hread
    exact hnone (ends_of_readLoop h hread)

/-- A file of one byte can be read although its cluster is marked free. -/
theorem readFile_safe_iff_free_cluster :
    ∃ data, formatFs.readFile (formatDrive blankDrive) (newEntry (letters 0x41) txt 2 [1]) =
      .ok data ∧ data.length ≤ 1 := by
  refine ((readFile_safe_iff (init_formatDrive blankDrive) formatFs_regular.rootEntries _).1).mpr
    ⟨1, fun i hi => ?_, Or.inr ⟨Nat.one_pos, ?_⟩⟩
  · obtain rfl : i = 0 := by omega
    decide
  · rw [formatFs_bytesPerCluster]
    decide

/-- The empty file as other systems store it, without a cluster, in the first slot of a formatted
drive: it is found, and reading it panics. -/
theorem readFile_panics_empty_file :
    init (storeEntry (formatDrive blankDrive) 129 0 (newEntry (letters 0x41) txt 0 [])) =
      some formatFs ∧
    formatFs.findFile (storeEntry (formatDrive blankDrive) 129 0
      (newEntry (letters 0x41) txt 0 [])) (letters 0x41) txt =
        .ok (some (newEntry (letters 0x41) txt 0 [])) ∧
    formatFs.readFile (storeEntry (formatDrive blankDrive) 129 0
      (newEntry (letters 0x41) txt 0 [])) (newEntry (letters 0x41) txt 0 []) = .error .panic := by
  have hvol := volume_formatDrive blankDrive fun _ => []
  have hslots : 0 < formatFs.slotCount := by rw [formatFs_slotCount]; omega
  have hempty := findEmptyRootSlot_of_packed formatFs_regular.toAddressable hslots hvol.live
    (hvol.free 0 le_rfl hslots)
  rw [slotLba, formatFs_rootLba] at hempty
  have hnone : formatFs.findFile (formatDrive blankDrive) (letters 0x41) txt = .ok none :=
    (hvol.findFile_eq_none formatFs_regular).mpr (by simp)
  refine ⟨?_, ?_, ?_⟩
  · rw [← init_formatDrive blankDrive, init, init, readSector, readSector, storeEntry,
      writeSectorBytes_ne _ _ (by decide)]
  · exact findFile_storeEntry_empty formatFs_regular.rootEntries hempty (by decide) hnone
  · rw [readFile, readLoop, if_pos (by decide),
      clusterToLba_of_lt formatFs_regular.toAddressable (by decide), error_bind]

end Fat16FileSystem

end SilOS.Fat16
