/-
# Creations that fail

`write_new_file` claims clusters one after the other and stores the directory entry last.  When the
disk is full it returns an error without giving back what it has claimed.  The root directory is
then as before, but every cluster that was free belongs to a chain that no entry names.  Only when
nothing was free, or when the root directory is full, does a failure leave no trace.
-/
import SilOS.Fat16.Failure
import SilOS.Fat16.Frame

namespace SilOS.Fat16

open Lib

namespace Fat16FileSystem

variable {fs : Fat16FileSystem} {d d' : Disk} {k : ℕ} {chain : ℕ → List UInt16}
  {filename : Bytes 8} {ext : Bytes 3} {data : List UInt8} {err : FsError}

/-- A creation that fails stores no entry. -/
lemma eqOn_writeNewFile_error {S : Set ℕ} (hS : fs.Spares S)
    (h : fs.writeNewFile d filename ext data = .ok (.error err, d')) : Set.EqOn d' d S := by
  rw [writeNewFile] at h
  obtain ⟨slot, -, h⟩ := bind_eq_ok.mp h
  rcases slot with - | ⟨dirLba, dirOffset⟩
  · obtain ⟨-, rfl⟩ := Prod.mk.inj (Except.ok.inj h)
    exact Set.eqOn_refl d S
  · obtain ⟨⟨result, d₁⟩, hloop, h⟩ := bind_eq_ok.mp h
    cases result with
    | error e =>
        obtain ⟨-, rfl⟩ := Prod.mk.inj (Except.ok.inj h)
        exact eqOn_writeLoop hS (by simp) hloop
    | ok first =>
        obtain ⟨hout, -⟩ := Prod.mk.inj (Except.ok.inj h)
        exact absurd hout (by simp)

/-- The sectors of the root directory hold neither FAT words nor clusters. -/
lemma spares_rootDirectory : formatFs.Spares (Set.Ico 129 161) := by
  refine ⟨fun c hc hmem => ?_, fun c lba hlba i _ hmem => ?_⟩
  · rw [formatFs_inFat] at hc
    rw [formatFs_fatSector, Set.mem_Ico] at hmem
    omega
  · have h1 := eq_dataLba_of_clusterToLba formatFs_regular.toAddressable hlba
    have h2 := formatFs.le_dataLba c
    have h3 : formatFs.rootSectors = 32 := by
      rw [rootSectors, formatFs_rootEntries]
      rfl
    rw [formatFs_rootLba, h3] at h2
    have h4 := hmem.2
    omega

/-- A creation that fails leaves the root directory as it was. -/
theorem rootDirectory_of_failed_creation
    (hfail : formatFs.writeNewFile d filename ext data = .ok (.error err, d')) :
    ∀ i < 32, d' (129 + i) = d (129 + i) := by
  intro i hi
  exact eqOn_writeNewFile_error spares_rootDirectory hfail ⟨by omega, by omega⟩

/-- The 64 sectors of the first FAT determine which clusters are free. -/
lemma freeClusters_congr (h : ∀ i < 64, d' (1 + i) = d (1 + i)) :
    formatFs.freeClusters d' = formatFs.freeClusters d := by
  rw [freeClusters, freeClusters, vacant, vacant]
  apply List.filter_congr
  intro c hc
  have hin := formatFs_regular.mem_clusters.mp hc
  have hlt := formatFs_inFat.mp hin
  have hsector : d' (formatFs.fatSector c) = d (formatFs.fatSector c) := by
    rw [formatFs_fatSector]
    exact h _ (by omega)
  rw [table_of_inFat hin, table_of_inFat hin, formatFs.getFatEntry_congr hsector]

/-- Without a free cluster nothing is written. -/
lemma writeNewFile_of_full (hreg : fs.Regular) (hfull : fs.freeClusters d = [])
    (h : fs.writeNewFile d filename ext data = .ok (.error err, d')) : d' = d := by
  have hmore : 0 < data.length ∨ data = [] := by
    cases data with
    | nil => exact Or.inr rfl
    | cons b data => exact Or.inl (by simp)
  rw [writeNewFile] at h
  obtain ⟨slot, -, h⟩ := bind_eq_ok.mp h
  rcases slot with - | ⟨dirLba, dirOffset⟩
  · exact (Prod.mk.inj (Except.ok.inj h)).2.symm
  · simp only [writeLoop_full hreg hmore hfull, ok_bind] at h
    exact (Prod.mk.inj (Except.ok.inj h)).2.symm

/-- When a creation fails for lack of clusters, all clusters that were free are in use. -/
lemma Volume.freeClusters_of_createFails (h : formatFs.Volume d k chain)
    (hw : formatFs.Rewrote d d' [] (formatFs.freeClusters d) k data) :
    formatFs.freeClusters d' = [] := by
  have hsplit := hw.freeClusters formatFs_regular h.reserved (by simp)
  rw [freeAfter_nil] at hsplit
  exact List.append_right_eq_self.mp hsplit

/-- With a slot left but too few free clusters a creation fails, and it takes them all. -/
lemma Volume.writeNewFile_diskFull (h : formatFs.Volume d k chain) (hk : k < 512)
    (filename : Bytes 8) (ext : Bytes 3) (data : List UInt8)
    (hneed : (formatFs.freeClusters d).length < formatFs.clustersFor data) :
    ∃ d', formatFs.writeNewFile d filename ext data = .ok (.error .diskFull, d') ∧
      formatFs.freeClusters d' = [] := by
  obtain ⟨out, d', hstep, heff⟩ := h.writeNewFile_effect formatFs_regular filename ext data
  cases heff with
  | directoryFull hfull =>
      rw [formatFs_slotCount] at hfull
      omega
  | createFails _ _ hw => exact ⟨d', hstep, h.freeClusters_of_createFails hw⟩
  | created _ hroom => omega

/-- **What a failed creation leaves behind.**  On every reachable drive, for every name and all
data: if `write_new_file` returns an error, the first FAT and the root directory are as before,
exactly if the root directory has no empty slot, or no cluster is free, or so many are free that
there is no failure. -/
theorem failed_creation_traceless_iff (hreach : fs.Reachable d) (filename : Bytes 8)
    (ext : Bytes 3) (data : List UInt8) :
    (∀ err d', fs.writeNewFile d filename ext data = .ok (.error err, d') →
      (∀ i < 64, d' (1 + i) = d (1 + i)) ∧ ∀ i < 32, d' (129 + i) = d (129 + i)) ↔
      (∀ j < fs.slotCount, fs.Live d j) ∨ fs.freeCount d = 0 ∨ need data ≤ fs.freeCount d := by
  obtain ⟨rfl, k, chain, hvol⟩ := hreach.volume
  have hreg := formatFs_regular
  rw [freeCount_eq hvol.reserved, need, ← formatFs_clustersFor, List.length_eq_zero_iff]
  obtain ⟨out, d₁, hcall, heff⟩ := hvol.writeNewFile_effect hreg filename ext data
  cases heff with
  | directoryFull hk =>
      refine ⟨fun _ => Or.inl (hk ▸ hvol.live), fun _ err d' hfail => ?_⟩
      rw [hcall, Except.ok.injEq, Prod.mk.injEq] at hfail
      obtain ⟨-, rfl⟩ := hfail
      exact ⟨fun _ _ => rfl, fun _ _ => rfl⟩
  | created hk hneed hw hentry =>
      refine ⟨fun _ => Or.inr (Or.inr hneed), fun _ err d' hfail => ?_⟩
      rw [hcall] at hfail
      exact absurd hfail (by simp)
  | createFails hk hneed hw hslot =>
      constructor
      · intro htraceless
        have hsame := (htraceless _ _ hcall).1
        rw [← freeClusters_congr hsame]
        exact Or.inr (Or.inl (hvol.freeClusters_of_createFails hw))
      · rintro (hlive | hfull | hroom) err d' hfail
        · exact absurd (hlive k hk) (hvol.free k le_rfl hk)
        · rw [writeNewFile_of_full hreg hfull hfail]
          exact ⟨fun _ _ => rfl, fun _ _ => rfl⟩
        · omega

/-- On the full drive nothing can be created, and nothing is lost. -/
theorem failed_creation_traceless_iff_full :
    ∃ d d', formatFs.Reachable d ∧
      formatFs.writeNewFile d (letters 0x4A) txt [1] = .ok (.error .diskFull, d') ∧
      (∀ i < 64, d' (1 + i) = d (1 + i)) ∧ ∀ i < 32, d' (129 + i) = d (129 + i) := by
  obtain ⟨outs, d, chain, hrun, h, hfree⟩ := exists_fullDisk
  have hreach : formatFs.Reachable d := ⟨blankDrive, fillCalls, outs, init_formatDrive _, hrun⟩
  obtain ⟨d', hfail, -⟩ := h.volume.writeNewFile_diskFull (by omega) (letters 0x4A) txt [1]
    (by rw [hfree, formatFs_clustersFor]; decide)
  refine ⟨d, d', hreach, hfail,
    (failed_creation_traceless_iff hreach (letters 0x4A) txt [1]).mpr ?_ _ _ hfail⟩
  rw [freeCount_eq h.volume.reserved, hfree]
  exact Or.inr (Or.inl rfl)

/-! ### A drive that is almost full -/

/-- A file of a single byte and seven of 4 MiB. -/
def crowded : List (UInt8 × ℕ) :=
  [(0x41, 1), (0x42, 0x400000), (0x43, 0x400000), (0x44, 0x400000), (0x45, 0x400000),
    (0x46, 0x400000), (0x47, 0x400000), (0x48, 0x400000)]

/-- On the drive with these files 2045 clusters are free. -/
lemma exists_crowded :
    ∃ outs d chain m, formatFs.machine.run (formatDrive blankDrive) (zeroCalls crowded) =
        .ok (outs, d) ∧ formatFs.Stores d 8 chain m ∧ (formatFs.freeClusters d).length = 2045 := by
  have hsum : zeroClusters crowded = 14337 := by
    simp only [zeroClusters, crowded, List.map_cons, List.map_nil, List.sum_cons, List.sum_nil]
    norm_num
  have hletters : crowded.map Prod.fst = [0x41, 0x42, 0x43, 0x44, 0x45, 0x46, 0x47, 0x48] := rfl
  obtain ⟨outs, d, chain, m, hrun, h, hfree⟩ := exists_zeroFiles crowded (by decide)
    (by rw [hletters]; simp [FreeMark]) (by rw [hletters]; decide) (by rw [hsum]; omega)
  refine ⟨outs, d, chain, m, hrun, h, ?_⟩
  rw [hfree, hsum, List.length_drop, length_freeClusters_formatDrive]

/-- An eighth file of 4 MiB cannot be created.  The root directory is as before, but the 2045
clusters that were free are in use. -/
theorem failed_creation_leaks :
    ∃ outs d d', formatFs.machine.run (formatDrive blankDrive) (zeroCalls crowded) =
        .ok (outs, d) ∧
      formatFs.writeNewFile d (letters 0x49) txt (zeroFile 0x49 0x400000).2 =
        .ok (.error .diskFull, d') ∧
      (∀ i < 32, d' (129 + i) = d (129 + i)) ∧ (∃ i < 64, d' (1 + i) ≠ d (1 + i)) ∧
      (formatFs.freeClusters d).length = 2045 ∧ formatFs.freeClusters d' = [] := by
  obtain ⟨outs, d, chain, m, hrun, h, hfree⟩ := exists_crowded
  obtain ⟨d', hfail, hnone⟩ := h.volume.writeNewFile_diskFull (by omega) (letters 0x49) txt
    (zeroFile 0x49 0x400000).2 (by rw [hfree, clustersFor_zeroFile]; norm_num)
  refine ⟨outs, d, d', hrun, hfail, rootDirectory_of_failed_creation hfail, ?_, hfree, hnone⟩
  by_contra hsame
  push Not at hsame
  rw [← freeClusters_congr hsame, hnone] at hfree
  exact absurd hfree (by simp)

end Fat16FileSystem

end SilOS.Fat16
