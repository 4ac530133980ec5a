/-
# Overwrites that fail

`overwrite_file` frees the clusters of the file before it allocates new ones, and it writes the
directory entry only when all data is stored.  When the disk is full the entry is therefore the
old one, but the clusters behind it have been handed out again: the clusters that were free or
belonged to the file hold the new data, in ascending order and as far as they reach, and the
file begins at the place of its old first cluster in that order.  The old contents survive
exactly if they happen to be the same bytes.
-/
import SilOS.Fat16.Space

namespace SilOS.Fat16

open Lib

namespace Fat16FileSystem

variable {fs : Fat16FileSystem} {d d' : Disk} {k j : ℕ} {chain : ℕ → List UInt16}
  {filename : Bytes 8} {ext : Bytes 3} {data : List UInt8} {old N : List UInt16}

/-- The clusters, in ascending order, that are free or among `l`. -/
def reusable (fs : Fat16FileSystem) (d : Disk) (l : List UInt16) : List UInt16 :=
  fs.clusters.filter fun c => c ∈ l ∨ fs.getFatEntry d c = 0

/-- What a file with first cluster `first` and the given size reads as, when the clusters `F`
hold the first bytes of the data. -/
def spoiled (F : List UInt16) (first : UInt16) (size : ℕ) (data : List UInt8) : List UInt8 :=
  ((data.take (F.length * 2048)).drop (F.idxOf first * 2048)).take size

lemma reusable_eq (hreg : fs.Regular) (l : List UInt16) : fs.reusable d l = fs.freeAfter d l := by
  rw [reusable, freeAfter, vacant]
  apply List.filter_congr
  intro c hc
  rw [clear, table_of_inFat (hreg.mem_clusters.mp hc)]
  by_cases hcl : c ∈ l
  · simp [hcl]
  · simp [hcl]

/-! ### The contents after a failure -/

/-- Clusters that were all filled with data, joined. -/
lemma Rewrote.flatMap_full (h : fs.Rewrote d d' old N j data)
    (hfull : N.length * fs.bytesPerCluster ≤ data.length) :
    N.flatMap (fs.clusterBytes d') = data.take (N.length * fs.bytesPerCluster) := by
  rw [flatMap_eq_flatMap_range N 0]
  refine flatMap_blocks_eq_take (fun i _ => fs.length_clusterBytes d' _) ?_ hfull
  intro i hi
  have hpiece : (piece fs.bytesPerCluster data i).length = fs.bytesPerCluster := by
    have hle : (i + 1) * fs.bytesPerCluster ≤ N.length * fs.bytesPerCluster :=
      Nat.mul_le_mul_right _ hi
    rw [Nat.succ_mul] at hle
    rw [length_piece]
    omega
  have hstored := h.stored i (N.getD i 0)
    (by rw [List.getD_eq_getElem _ _ hi, List.getElem?_eq_getElem hi])
  rwa [hpiece, List.take_of_length_le (by rw [fs.length_clusterBytes])] at hstored

/-- The position of the first cluster of a suffix. -/
lemma idxOf_append_leads {A l : List UInt16} {v : UInt16} {next : UInt16 → UInt16}
    (hnd : (A ++ l).Nodup) (hne : l ≠ []) (hl : Leads next EndOfChain v l) :
    (A ++ l).idxOf v = A.length := by
  cases l with
  | nil => exact absurd rfl hne
  | cons x l =>
      obtain ⟨rfl, -, -⟩ := hl
      have hv : v ∉ A := fun hv => (List.nodup_append.mp hnd).2.2 v hv v (by simp) rfl
      rw [List.idxOf_append_of_notMem hv]
      simp

/-- **What the file reads as after a failed overwrite.** -/
theorem Volume.readFile_overwriteFails (h : formatFs.Volume d k chain) (hj : j < k)
    (hneed : (formatFs.freeAfter d (chain j)).length < formatFs.clustersFor data)
    (hw : formatFs.Rewrote d d' (chain j) (formatFs.freeAfter d (chain j)) j data)
    (hslot : formatFs.slotBytes d' j = formatFs.slotBytes d j) :
    formatFs.readFile d' (formatFs.slotEntry d j) =
      .ok (spoiled (formatFs.freeAfter d (chain j)) (formatFs.slotEntry d j).clusterLow
        (formatFs.slotEntry d j).fileSize.toNat data) := by
  have hreg := formatFs_regular
  obtain ⟨A, l, hF, hleads, hvol⟩ := h.overwriteFails hreg hj hw hslot
  have hmem := h.clusterLow_mem_freeAfter hreg hj
  have hne : l ≠ [] := by
    have := hvol.nonempty j hj
    rwa [Function.update_self] at this
  have hdata : data ≠ [] := by
    rintro rfl
    have hpos := List.length_pos_of_mem hmem
    have hone : formatFs.clustersFor [] = 1 := by
      rw [formatFs_clustersFor]
      rfl
    omega
  -- all clusters that were free after the release are full of new data, in their order
  have hfull := mul_lt_length_of_lt hreg hdata hneed
  have hbytes := hw.flatMap_full hfull.le
  have hread := hvol.readFile hreg hj
  rw [Function.update_self, slotEntry_congr hslot] at hread
  have hdrop : l.flatMap (formatFs.clusterBytes d') =
      (data.take ((formatFs.freeAfter d (chain j)).length * 2048)).drop (A.length * 2048) := by
    have hA : (A.flatMap (formatFs.clusterBytes d')).length = A.length * 2048 := by
      rw [flatMap_eq_flatMap_range A 0,
        length_flatMap_blocks fun i _ => formatFs.length_clusterBytes d' _,
        formatFs_bytesPerCluster]
    rw [formatFs_bytesPerCluster] at hbytes
    rw [← hbytes, hF, List.flatMap_append, ← hA, List.drop_left]
  -- the entry still names its old first cluster, which is now somewhere in that order
  have hfirst : (formatFs.freeAfter d (chain j)).idxOf (formatFs.slotEntry d j).clusterLow =
      A.length := by
    have hnd := freeAfter_nodup hreg (chain j) (d := d)
    rw [hF] at hnd ⊢
    exact idxOf_append_leads hnd hne hleads
  rw [hread, hdrop, spoiled, hfirst]

/-- A failed overwrite leaves the entry in place. -/
lemma Volume.find_overwriteFails (h : formatFs.Volume d k chain)
    (hj : formatFs.Finds d k filename ext j)
    (hw : formatFs.Rewrote d d' (chain j) (formatFs.freeAfter d (chain j)) j data)
    (hslot : formatFs.slotBytes d' j = formatFs.slotBytes d j) :
    formatFs.findFile d' filename ext = .ok (some (formatFs.slotEntry d j)) := by
  have hreg := formatFs_regular
  have hcount := h.count
  obtain ⟨-, l, -, -, hvol⟩ := h.overwriteFails hreg hj.1 hw hslot
  have hsame : ∀ i ≤ j, formatFs.slotEntry d' i = formatFs.slotEntry d i := by
    intro i hi
    by_cases hij : i = j
    · rw [hij, slotEntry_congr hslot]
    · have hjk := hj.1
      exact slotEntry_congr (hw.slots i (by omega) hij)
  refine (hvol.findFile_eq_some hreg).mpr ⟨j, ⟨hj.1, ?_, ?_⟩, (hsame j le_rfl).symm⟩
  · rw [HasName, hsame j le_rfl]
    exact hj.2.1
  · intro i hi
    rw [HasName, hsame i hi.le]
    exact hj.2.2 i hi

/-! ### A full drive -/

/-- A file of `n` zeros, named by a letter. -/
@[irreducible] def zeroFile (b : UInt8) (n : ℕ) : (Bytes 8 × Bytes 3) × List UInt8 :=
  ((letters b, txt), List.replicate n 0)

lemma zeroFile_fst (b : UInt8) (n : ℕ) : (zeroFile b n).1 = (letters b, txt) := by
  rw [zeroFile]

lemma clustersFor_zeroFile (b : UInt8) (n : ℕ) :
    formatFs.clustersFor (zeroFile b n).2 = max 1 ((n + 2047) / 2048) := by
  rw [zeroFile, formatFs_clustersFor, List.length_replicate]

lemma letters_injective : Function.Injective letters := by
  intro b b' h
  have hbyte := congrArg (fun name => Bytes.byte name 0) h
  simpa [letters, Bytes.byte] using hbyte

/-- The calls that create files of zeros, given by their letters and sizes. -/
def zeroCalls (files : List (UInt8 × ℕ)) : List Call :=
  (files.map fun file => zeroFile file.1 file.2).map fun file =>
    .writeNewFile file.1.1 file.1.2 file.2

/-- The number of clusters that these files need. -/
def zeroClusters (files : List (UInt8 × ℕ)) : ℕ :=
  (files.map fun file => max 1 ((file.2 + 2047) / 2048)).sum

/-- Files of zeros can be created on a formatted drive while there is room, and they take its
clusters in ascending order. -/
lemma exists_zeroFiles (files : List (UInt8 × ℕ)) (hlen : files.length ≤ 512)
    (hlive : ∀ b ∈ files.map Prod.fst, ¬ FreeMark b) (hnd : (files.map Prod.fst).Nodup)
    (hroom : zeroClusters files ≤ 16382) :
    ∃ outs d chain m, formatFs.machine.run (formatDrive blankDrive) (zeroCalls files) =
        .ok (outs, d) ∧ formatFs.Stores d files.length chain m ∧
      formatFs.freeClusters d =
        (formatFs.freeClusters (formatDrive blankDrive)).drop (zeroClusters files) := by
  have hsum : ((files.map fun file => zeroFile file.1 file.2).map
      fun file => formatFs.clustersFor file.2).sum = zeroClusters files := by
    simp only [List.map_map, zeroClusters, Function.comp_def, clustersFor_zeroFile]
  have hnames : (files.map fun file => zeroFile file.1 file.2).map Prod.fst =
      (files.map Prod.fst).map fun b => (letters b, txt) := by
    simp only [List.map_map, Function.comp_def, zeroFile_fst]
  obtain ⟨outs, d, chain, hrun, h, hfree⟩ := (stores_formatDrive blankDrive).createAll
    (files.map fun file => zeroFile file.1 file.2) (by rw [List.length_map]; omega)
    (by rw [hsum, length_freeClusters_formatDrive]; exact hroom)
    (by
      intro file hfile
      obtain ⟨⟨b, n⟩, hb, rfl⟩ := List.mem_map.mp hfile
      have hbyte : (letters b).byte 0 = b := by simp [letters, Bytes.byte]
      rw [zeroFile_fst, hbyte]
      exact hlive b (List.mem_map_of_mem hb))
    (fun _ _ => rfl)
    (by
      rw [hnames]
      exact hnd.map fun b b' hbb => letters_injective (Prod.mk.inj hbb).1)
  rw [List.length_map, Nat.zero_add] at h
  rw [hsum] at hfree
  exact ⟨outs, d, chain, _, hrun, h, hfree⟩

/-- Files that fill a formatted drive: one of a single byte, seven of 4 MiB and one that takes
the rest. -/
def fullDisk : List ((Bytes 8 × Bytes 3) × List UInt8) :=
  [((letters 0x41, txt), [1]), zeroFile 0x42 0x400000, zeroFile 0x43 0x400000,
    zeroFile 0x44 0x400000, zeroFile 0x45 0x400000, zeroFile 0x46 0x400000,
    zeroFile 0x47 0x400000, zeroFile 0x48 0x400000, zeroFile 0x49 0x3FE800]

/-- The files need all 16382 clusters. -/
lemma sum_clustersFor_fullDisk :
    (fullDisk.map fun file => formatFs.clustersFor file.2).sum = 16382 := by
  have hsmall : formatFs.clustersFor [1] = 1 := by
    rw [formatFs_clustersFor]
    rfl
  simp only [fullDisk, List.map_cons, List.map_nil, clustersFor_zeroFile, List.sum_cons,
    List.sum_nil, hsmall]
  norm_num

lemma map_fst_fullDisk :
    fullDisk.map Prod.fst =
      [0x41, 0x42, 0x43, 0x44, 0x45, 0x46, 0x47, 0x48, 0x49].map fun b => (letters b, txt) := by
  simp only [fullDisk, List.map_cons, List.map_nil, zeroFile_fst]

/-- The calls that fill a formatted drive. -/
def fillCalls : List Call := fullDisk.map fun file => .writeNewFile file.1.1 file.1.2 file.2

/-- The full drive is reachable, and no cluster is free on it. -/
lemma exists_fullDisk :
    ∃ outs d chain, formatFs.machine.run (formatDrive blankDrive) fillCalls = .ok (outs, d) ∧
      formatFs.Stores d 9 chain (Files.empty.putAll fullDisk) ∧
      (formatFs.freeClusters d).length = 0 := by
  have hsum := sum_clustersFor_fullDisk
  have hnames := map_fst_fullDisk
  have hlive : ∀ name ∈ fullDisk.map Prod.fst, ¬ FreeMark (name.1.byte 0) := by
    rw [hnames]
    decide
  obtain ⟨outs, d, chain, hrun, h, hfree⟩ :=
    (stores_formatDrive blankDrive).createAll fullDisk
      (by simp only [fullDisk, List.length_cons, List.length_nil]; omega)
      (by rw [hsum, length_freeClusters_formatDrive])
      (fun file hfile => hlive file.1 (List.mem_map_of_mem hfile)) (fun _ _ => rfl)
      (by rw [hnames]; decide)
  refine ⟨outs, d, chain, hrun, h, ?_⟩
  rw [hfree, hsum, List.length_drop, length_freeClusters_formatDrive]

/-- The small file on the full drive. -/
lemma putAll_fullDisk : Files.empty.putAll fullDisk (letters 0x41, txt) = some [1] := by
  apply Files.putAll_cons_self
  simp only [List.map_cons, List.map_nil, zeroFile_fst]
  decide

/-- A file that reads as a single byte has size one. -/
lemma Volume.fileSize_eq_one (h : formatFs.Volume d k chain) (hj : j < k) {b : UInt8}
    (hread : formatFs.readFile d (formatFs.slotEntry d j) = .ok [b]) :
    (formatFs.slotEntry d j).fileSize.toNat = 1 := by
  rw [h.readFile formatFs_regular hj, Except.ok.injEq] at hread
  have hlen := congrArg List.length hread
  rw [List.length_take, flatMap_eq_flatMap_range (chain j) 0,
    length_flatMap_blocks fun i _ => formatFs.length_clusterBytes d _, formatFs_bytesPerCluster,
    List.length_singleton] at hlen
  omega

/-- A file of size one whose cluster is the only one written reads as the first byte. -/
lemma spoiled_one {F : List UInt16} {first : UInt16} (hF : F.length = 1) (hfirst : first ∈ F)
    {n : ℕ} (hn : 1 ≤ n) (b : UInt8) : spoiled F first 1 (List.replicate n b) = [b] := by
  obtain ⟨x, rfl⟩ := List.length_eq_one_iff.mp hF
  obtain rfl := List.mem_singleton.mp hfirst
  rw [spoiled, hF, List.idxOf_cons_self, Nat.zero_mul, List.drop_zero, List.take_take,
    List.take_replicate]
  have hmin : min (min 1 (1 * 2048)) n = 1 := by omega
  rw [hmin, List.replicate_one]

/-- The small file on the full drive: no cluster but its own can be used again. -/
lemma exists_small_on_fullDisk :
    ∃ outs d k chain j, formatFs.machine.run (formatDrive blankDrive) fillCalls = .ok (outs, d) ∧
      formatFs.Volume d k chain ∧ formatFs.Finds d k (letters 0x41) txt j ∧
      formatFs.readFile d (formatFs.slotEntry d j) = .ok [1] ∧
      (formatFs.freeAfter d (chain j)).length = 1 := by
  have hreg := formatFs_regular
  obtain ⟨outs, d, chain, hrun, h, hfree⟩ := exists_fullDisk
  obtain ⟨entry, hfind, hread⟩ :=
    (h.implements hreg).present (letters 0x41) txt [1] putAll_fullDisk
  obtain ⟨j, hj, rfl⟩ := (h.volume.findFile_eq_some hreg).mp hfind
  have hchain : (chain j).length = 1 := by
    obtain ⟨data, hm, -, hlen⟩ := h.content j hj.1
    rw [hasName_iff.mp hj.2.1, putAll_fullDisk, Option.some.injEq] at hm
    rw [hlen, ← hm, formatFs_clustersFor]
    rfl
  refine ⟨outs, d, 9, chain, j, hrun, h.volume, hj, hread, ?_⟩
  rw [h.volume.length_freeAfter hreg hj.1]
  omega

/-- An overwrite that needs more clusters than can be used again fails. -/
lemma Volume.overwriteFile_diskFull (h : formatFs.Volume d k chain)
    (hj : formatFs.Finds d k filename ext j)
    (hneed : (formatFs.freeAfter d (chain j)).length < formatFs.clustersFor data) :
    ∃ d', formatFs.overwriteFile d filename ext data = .ok (.error .diskFull, d') ∧
      formatFs.findFile d' filename ext = .ok (some (formatFs.slotEntry d j)) ∧
      formatFs.readFile d' (formatFs.slotEntry d j) =
        .ok (spoiled (formatFs.freeAfter d (chain j)) (formatFs.slotEntry d j).clusterLow
          (formatFs.slotEntry d j).fileSize.toNat data) := by
  obtain ⟨out, d', hstep, heff⟩ := h.overwriteFile_effect formatFs_regular filename ext data
  cases heff with
  | notFound hnone => exact absurd hj.2.1 (hnone j hj.1)
  | overwritten hi hroom hw hentry =>
      rw [hi.unique hj] at hroom
      omega
  | overwriteFails hi hneed hw hslot =>
      obtain rfl := hi.unique hj
      exact ⟨d', hstep, h.find_overwriteFails hi hw hslot,
        h.readFile_overwriteFails hi.1 hneed hw hslot⟩

/-- What the small file would read as, after it could not be overwritten. -/
lemma Volume.spoiled_small (h : formatFs.Volume d k chain) (hj : j < k)
    (hread : formatFs.readFile d (formatFs.slotEntry d j) = .ok [1])
    (hF : (formatFs.freeAfter d (chain j)).length = 1) (b : UInt8) :
    spoiled (formatFs.freeAfter d (chain j)) (formatFs.slotEntry d j).clusterLow
      (formatFs.slotEntry d j).fileSize.toNat (List.replicate 2049 b) = [b] := by
  rw [h.fileSize_eq_one hj hread,
    spoiled_one hF (h.clusterLow_mem_freeAfter formatFs_regular hj) (by omega)]

/-- Data that needs a second cluster. -/
lemma clustersFor_replicate_2049 (b : UInt8) :
    formatFs.clustersFor (List.replicate 2049 b) = 2 := by
  rw [formatFs_clustersFor, List.length_replicate]
  rfl

/-! ### When the file is kept -/

/-- **When a failed overwrite keeps the file.**  On every reachable drive, for every existing
file with chain `l` and all new data: if `overwrite_file` fails, then `find_file` and
`read_file` return the same bytes as before the call, exactly if the new data fits, so that
there is no failure, or the new data has the old bytes where the file now begins. -/
theorem overwrite_failure_keeps_iff {entry : DirectoryEntry} {l : List UInt16}
    (hreach : fs.Reachable d) (hfind : fs.findFile d filename ext = .ok (some entry))
    (hl : Leads (fs.getFatEntry d) EndOfChain entry.clusterLow l) (data : List UInt8) :
    (∀ err d', fs.overwriteFile d filename ext data = .ok (.error err, d') →
      ∃ entry', fs.findFile d' filename ext = .ok (some entry') ∧
        fs.readFile d' entry' = fs.readFile d entry) ↔
      need data ≤ (fs.reusable d l).length ∨
        fs.readFile d entry =
          .ok (spoiled (fs.reusable d l) entry.clusterLow entry.fileSize.toNat data) := by
  obtain ⟨rfl, k, chain, hvol⟩ := hreach.volume
  have hreg := formatFs_regular
  obtain ⟨j, hj, rfl, rfl⟩ := hvol.chain_of_find hfind hl
  rw [reusable_eq hreg, need, ← formatFs_clustersFor]
  obtain ⟨out, d₁, hstep, heff⟩ := hvol.overwriteFile_effect hreg filename ext data
  rw [hstep]
  cases heff with
  | notFound hnone => exact absurd hj.2.1 (hnone j hj.1)
  | overwritten hi hneed hw hentry =>
      obtain rfl := hi.unique hj
      refine ⟨fun _ => Or.inl hneed, fun _ err d' hout => ?_⟩
      exact absurd hout (by simp)
  | overwriteFails hi hneed hw hslot =>
      obtain rfl := hi.unique hj
      have hfind₁ := hvol.find_overwriteFails hi hw hslot
      have hread₁ := hvol.readFile_overwriteFails hi.1 hneed hw hslot
      constructor
      · intro hkeep
        obtain ⟨entry', hfind', hread'⟩ := hkeep _ _ rfl
        rw [hfind₁, Except.ok.injEq, Option.some.injEq] at hfind'
        subst hfind'
        exact Or.inr (by rw [← hread', hread₁])
      · rintro (hfits | hsame) err d' hout
        · omega
        · simp only [Except.ok.injEq, Prod.mk.injEq] at hout
          obtain ⟨-, rfl⟩ := hout
          exact ⟨_, hfind₁, by rw [hread₁, hsame]⟩

/-- On the full drive, the file of a single byte cannot be overwritten with data that needs a second
cluster, and the file is kept if the data begins with the same byte. -/
theorem overwrite_failure_keeps_iff_full :
    ∃ d d' entry entry' l, formatFs.Reachable d ∧
      formatFs.findFile d (letters 0x41) txt = .ok (some entry) ∧
      Leads (formatFs.getFatEntry d) EndOfChain entry.clusterLow l ∧
      formatFs.overwriteFile d (letters 0x41) txt (List.replicate 2049 1) =
        .ok (.error .diskFull, d') ∧
      formatFs.findFile d' (letters 0x41) txt = .ok (some entry') ∧
      formatFs.readFile d' entry' = formatFs.readFile d entry := by
  have hreg := formatFs_regular
  obtain ⟨outs, d, k, chain, j, hrun, h, hj, hread, hF⟩ := exists_small_on_fullDisk
  obtain ⟨d', hfail, -, -⟩ := h.overwriteFile_diskFull hj
    (by rw [hF, clustersFor_replicate_2049 1]; omega)
  have hreach : formatFs.Reachable d := ⟨blankDrive, fillCalls, outs, init_formatDrive _, hrun⟩
  have hfind := (h.findFile_eq_some hreg).mpr ⟨j, hj, rfl⟩
  have hl := Leads.of_table (h.leads j hj.1) fun x hx => (h.cells j hj.1 x hx).1
  have hsame := h.spoiled_small hj.1 hread hF 1
  rw [← reusable_eq hreg] at hsame
  obtain ⟨entry', hfind', hread'⟩ := (overwrite_failure_keeps_iff hreach hfind hl _).mpr
    (Or.inr (by rw [hread, hsame])) _ _ hfail
  exact ⟨d, d', _, entry', _, hreach, hfind, hl, hfail, hfind', hread'⟩

/-- **A failed overwrite destroys the file.**  On the full drive, the file of a single byte
cannot be overwritten with data that needs a second cluster; the call returns an error, and
afterwards the file reads as the first byte of the data that could not be stored. -/
theorem overwrite_failure_destroys :
    ∃ outs d d' entry, formatFs.machine.run (formatDrive blankDrive) fillCalls = .ok (outs, d) ∧
      formatFs.findFile d (letters 0x41) txt = .ok (some entry) ∧
      formatFs.readFile d entry = .ok [1] ∧
      formatFs.overwriteFile d (letters 0x41) txt (List.replicate 2049 2) =
        .ok (.error .diskFull, d') ∧
      formatFs.findFile d' (letters 0x41) txt = .ok (some entry) ∧
      formatFs.readFile d' entry = .ok [2] := by
  obtain ⟨outs, d, k, chain, j, hrun, h, hj, hread, hF⟩ := exists_small_on_fullDisk
  obtain ⟨d', hfail, hfind', hread'⟩ := h.overwriteFile_diskFull hj
    (by rw [hF, clustersFor_replicate_2049 2]; omega)
  rw [h.spoiled_small hj.1 hread hF] at hread'
  have hfind := (h.findFile_eq_some formatFs_regular).mpr ⟨j, hj, rfl⟩
  exact ⟨outs, d, d', _, hrun, hfind, hread, hfail, hfind', hread'⟩

end Fat16FileSystem

end SilOS.Fat16
