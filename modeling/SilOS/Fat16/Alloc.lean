/-
# The allocation loop

`write_new_file` and `overwrite_file` share a loop that claims free clusters one by one,
re-scanning the FAT each time, and writes the data into them.  The loop is described by the
list `A` of the clusters claimed so far: `Progress data d₀ d A` says how the drive `d` differs
from the drive `d₀` at the start.  The clusters are claimed in the order of the free list of
`d₀`, so the outcome is known beforehand: the loop succeeds exactly if the data needs no more
clusters than are free, and otherwise all free clusters have been claimed when it fails.
-/
import SilOS.Fat16.Regions

namespace SilOS.Fat16

open Lib

namespace Fat16FileSystem

variable (fs : Fat16FileSystem)

/-- The number of clusters that the data needs: one for each started `bytes_per_cluster`
bytes, and one for the empty file. -/
def clustersFor (data : List UInt8) : ℕ :=
  max 1 ((data.length + fs.bytesPerCluster - 1) / fs.bytesPerCluster)

/-- The drive `d` is the drive `d₀` after the clusters `A` were claimed, in this order, for
the first pieces of the data. -/
structure Progress (data : List UInt8) (d₀ d : Disk) (A : List UInt16) : Prop where
  /-- The claimed clusters are linked, the other words are as before. -/
  table : fs.table d = link (fs.table d₀) 0xFFFF A
  /-- The clusters were claimed in the order of the free list. -/
  taken : A <+: fs.freeClusters d₀
  /-- The root directory is as before. -/
  slots : ∀ j < fs.slotCount, fs.slotBytes d j = fs.slotBytes d₀ j
  /-- The other clusters are as before. -/
  kept : ∀ c, 2 ≤ c → c ∉ A → fs.clusterBytes d c = fs.clusterBytes d₀ c
  /-- The claimed clusters begin with the pieces of the data. -/
  stored : ∀ i c, A[i]? = some c →
    (fs.clusterBytes d c).take (piece fs.bytesPerCluster data i).length =
      piece fs.bytesPerCluster data i

/-- The two reserved words of the FAT are in use. -/
def ReservedInUse (d : Disk) : Prop := fs.table d 0 ≠ 0 ∧ fs.table d 1 ≠ 0

variable {fs} {data : List UInt8} {d₀ d : Disk} {A : List UInt16} {c : UInt16}

lemma two_le_of_ne {c : UInt16} (h0 : c ≠ 0) (h1 : c ≠ 1) : 2 ≤ c := by
  rw [UInt16.le_iff_toNat_le]
  have h0' : c.toNat ≠ (0 : UInt16).toNat := fun h => h0 (UInt16.toNat_inj.mp h)
  have h1' : c.toNat ≠ (1 : UInt16).toNat := fun h => h1 (UInt16.toNat_inj.mp h)
  change 2 ≤ c.toNat
  change c.toNat ≠ 0 at h0'
  change c.toNat ≠ 1 at h1'
  omega

lemma ne_zero_of_two_le {c : UInt16} (h : 2 ≤ c) : c ≠ 0 := by
  rintro rfl
  exact absurd h (by decide)

/-- Free clusters are data clusters. -/
lemma two_le_of_mem_free (h : fs.Regular) (hres : fs.ReservedInUse d) (hc : c ∈ fs.freeClusters d) :
    2 ≤ c := by
  have hzero := ((mem_freeClusters h).mp hc).2
  apply two_le_of_ne
  · rintro rfl
    exact hres.1 hzero
  · rintro rfl
    exact hres.2 hzero

lemma bytesPerCluster_pos (h : fs.Regular) : 0 < fs.bytesPerCluster := by
  have := h.sectorsPerCluster
  rw [bytesPerCluster]
  omega

/-! ### One step -/

lemma Progress.start (data : List UInt8) (d₀ : Disk) : fs.Progress data d₀ d₀ [] where
  table := rfl
  taken := List.nil_prefix
  slots := fun _ _ => rfl
  kept := fun _ _ _ => rfl
  stored := fun i c h => absurd h (by simp)

/-- The clusters that are still free. -/
lemma Progress.freeClusters (h : fs.Regular) (hres : fs.ReservedInUse d₀)
    (hp : fs.Progress data d₀ d A) : A ++ fs.freeClusters d = fs.freeClusters d₀ := by
  obtain ⟨R, hR⟩ := hp.taken
  have hz : (0 : UInt16) ∉ A := by
    intro h0
    have hmem : (0 : UInt16) ∈ fs.freeClusters d₀ := by
      rw [← hR]
      exact List.mem_append_left _ h0
    exact hres.1 ((mem_freeClusters h).mp hmem).2
  have hfree : fs.freeClusters d = R := by
    rw [Fat16FileSystem.freeClusters, hp.table]
    exact vacant_link h.clusters_nodup hR.symm hz (by decide)
  rw [hfree, hR]

/-- The drive after the next cluster `c` was claimed: its word ends the chain, the word of the
previous cluster links to it, and the next piece of the data is in its sectors. -/
def claim (fs : Fat16FileSystem) (d : Disk) (previous : Option UInt16) (c : UInt16)
    (chunk : List UInt8) : Disk :=
  let d := fs.setFatEntry d c 0xFFFF
  let d := match previous with
    | none => d
    | some p => fs.setFatEntry d p c
  fs.writeChunk d (fs.dataLba c) chunk

lemma table_claim_none (h : fs.Regular) (hc : fs.InFat c) (chunk : List UInt8) :
    fs.table (fs.claim d none c chunk) = Function.update (fs.table d) c 0xFFFF := by
  simp only [claim, table_writeChunk h, table_setFatEntry hc]

lemma table_claim_some (h : fs.Regular) (hc : fs.InFat c) {p : UInt16} (hp : fs.InFat p)
    (chunk : List UInt8) :
    fs.table (fs.claim d (some p) c chunk) =
      Function.update (Function.update (fs.table d) c 0xFFFF) p c := by
  simp only [claim, table_writeChunk h, table_setFatEntry hp, table_setFatEntry hc]

lemma slotBytes_claim (h : fs.Regular) (hc : fs.InFat c) {previous : Option UInt16}
    (hprev : ∀ p ∈ previous, fs.InFat p) (chunk : List UInt8) {j : ℕ} (hj : j < fs.slotCount) :
    fs.slotBytes (fs.claim d previous c chunk) j = fs.slotBytes d j := by
  cases previous with
  | none => simp only [claim, slotBytes_writeChunk hj, slotBytes_setFatEntry h hc]
  | some p =>
      have hp : fs.InFat p := hprev p rfl
      simp only [claim, slotBytes_writeChunk hj, slotBytes_setFatEntry h hp,
        slotBytes_setFatEntry h hc]

lemma clusterBytes_claim_ne (h : fs.Regular) (hc : fs.InFat c) (hc2 : 2 ≤ c)
    {previous : Option UInt16} (hprev : ∀ p ∈ previous, fs.InFat p) (chunk : List UInt8)
    {x : UInt16} (hx : 2 ≤ x) (hxc : x ≠ c) :
    fs.clusterBytes (fs.claim d previous c chunk) x = fs.clusterBytes d x := by
  cases previous with
  | none => simp only [claim, clusterBytes_writeChunk_ne hc2 hx hxc, clusterBytes_setFatEntry h hc]
  | some p =>
      have hp : fs.InFat p := hprev p rfl
      simp only [claim, clusterBytes_writeChunk_ne hc2 hx hxc, clusterBytes_setFatEntry h hp,
        clusterBytes_setFatEntry h hc]

lemma clusterBytes_claim_same (previous : Option UInt16) {chunk : List UInt8}
    (hlen : chunk.length ≤ fs.bytesPerCluster) :
    (fs.clusterBytes (fs.claim d previous c chunk) c).take chunk.length = chunk := by
  simp only [claim]
  exact clusterBytes_writeChunk_same hlen

/-- Claiming the first free cluster for the next piece is progress. -/
lemma Progress.step (h : fs.Regular) (hres : fs.ReservedInUse d₀) (hp : fs.Progress data d₀ d A)
    {R : List UInt16} (hfree : fs.freeClusters d = c :: R) :
    fs.Progress data d₀ (fs.claim d A.getLast? c (piece fs.bytesPerCluster data A.length))
      (A ++ [c]) := by
  have hsplit : A ++ c :: R = fs.freeClusters d₀ := by rw [← hfree, hp.freeClusters h hres]
  have hall : ∀ x ∈ A ++ c :: R, fs.InFat x ∧ 2 ≤ x := by
    intro x hx
    rw [hsplit] at hx
    exact ⟨((mem_freeClusters h).mp hx).1, two_le_of_mem_free h hres hx⟩
  have hnd : (A ++ c :: R).Nodup := hsplit ▸ freeClusters_nodup h
  have hAc : (A ++ [c]).Nodup := by
    refine hnd.sublist ?_
    simp
  have hcA : c ∉ A := by
    intro hc
    exact (List.nodup_append.mp hAc).2.2 c hc c (by simp) rfl
  have hc : fs.InFat c ∧ 2 ≤ c := hall c (by simp)
  have hprev : ∀ p ∈ A.getLast?, fs.InFat p := by
    intro p hpA
    exact (hall p (List.mem_append_left _ (List.mem_of_getLast? hpA))).1
  refine ⟨?_, ⟨R, by simpa using hsplit⟩, ?_, ?_, ?_⟩
  · -- the first cluster is only marked as the last one, a later one is also linked to
    rcases List.eq_nil_or_concat' A with rfl | ⟨A', p, rfl⟩
    · rw [List.getLast?_nil, table_claim_none h hc.1, hp.table]
      rfl
    · rw [List.getLast?_concat, table_claim_some h hc.1 (hprev p (by simp)), hp.table,
        List.append_assoc]
      exact (link_append (by simpa using hAc)).symm
  · intro j hj
    rw [slotBytes_claim h hc.1 hprev _ hj, hp.slots j hj]
  · intro x hx hxA
    rw [List.mem_append, List.mem_singleton, not_or] at hxA
    rw [clusterBytes_claim_ne h hc.1 hc.2 hprev _ hx hxA.2, hp.kept x hx hxA.1]
  · intro i x hi
    by_cases hlt : i < A.length
    · rw [List.getElem?_append_left hlt] at hi
      have hxA : x ∈ A := List.mem_of_getElem? hi
      have hxc : x ≠ c := fun hxc => hcA (hxc ▸ hxA)
      rw [clusterBytes_claim_ne h hc.1 hc.2 hprev _ (hall x (List.mem_append_left _ hxA)).2 hxc]
      exact hp.stored i x hi
    · rw [List.getElem?_append_right (by omega), List.getElem?_singleton] at hi
      split_ifs at hi with hi0
      obtain rfl : c = x := by simpa using hi
      have hiA : i = A.length := by omega
      rw [hiA]
      exact clusterBytes_claim_same _ (by rw [length_piece]; omega)

/-! ### The loop -/

variable {fuel bytesWritten : ℕ} {previous : Option UInt16} {first : UInt16}

lemma writeLoop_done (hdone : ¬ (bytesWritten < data.length ∨ data = [])) :
    fs.writeLoop data (fuel + 1) bytesWritten previous first d = .ok (.ok first, d) := by
  rw [writeLoop, if_neg hdone]
  rfl

lemma writeLoop_full (h : fs.Regular) (hmore : bytesWritten < data.length ∨ data = [])
    (hfree : fs.freeClusters d = []) :
    fs.writeLoop data (fuel + 1) bytesWritten previous first d = .ok (.error .diskFull, d) := by
  rw [writeLoop, if_pos hmore, h.findFreeCluster, hfree]
  rfl

lemma writeLoop_claim (h : fs.Regular) (hmore : bytesWritten < data.length ∨ data = [])
    {R : List UInt16} (hfree : fs.freeClusters d = c :: R) (hc : 2 ≤ c) :
    fs.writeLoop data (fuel + 1) bytesWritten previous first d =
      if data = [] then
        .ok (.ok (if previous.isNone then c else first),
          fs.claim d previous c (piece fs.bytesPerCluster data 0))
      else
        fs.writeLoop data fuel (bytesWritten + min (data.length - bytesWritten) fs.bytesPerCluster)
          (some c) (if previous.isNone then c else first)
          (fs.claim d previous c ((data.drop bytesWritten).take fs.bytesPerCluster)) := by
  have htake : (data.drop bytesWritten).take (min (data.length - bytesWritten) fs.bytesPerCluster) =
      (data.drop bytesWritten).take fs.bytesPerCluster := by
    rw [← List.length_drop, min_comm, ← List.take_take, List.take_length]
  rw [writeLoop, if_pos hmore, h.findFreeCluster, hfree, ok_bind]
  simp only [List.head?_cons, clusterToLba_eq h.toAddressable hc, ok_bind, htake]
  by_cases hnil : data = []
  · subst hnil
    rw [if_pos rfl, if_pos rfl]
    simp only [List.drop_nil, List.take_nil, piece]
    rfl
  · rw [if_neg hnil, if_neg hnil]
    rfl

/-- The data still to be written when fewer clusters than needed were claimed. -/
lemma mul_lt_length_of_lt (h : fs.Regular) (hne : data ≠ []) {n : ℕ}
    (hn : n < fs.clustersFor data) : n * fs.bytesPerCluster < data.length := by
  have hB := bytesPerCluster_pos h
  have hlen : 0 < data.length := List.length_pos_iff.mpr hne
  rw [clustersFor, lt_max_iff] at hn
  rcases hn with hn | hn
  · obtain rfl : n = 0 := by omega
    omega
  · have hle : (n + 1) * fs.bytesPerCluster ≤ data.length + fs.bytesPerCluster - 1 :=
      (Nat.le_div_iff_mul_le hB).mp hn
    rw [Nat.succ_mul] at hle
    omega

/-- The clusters needed hold all the data. -/
lemma length_le_clustersFor_mul (h : fs.Regular) (data : List UInt8) :
    data.length ≤ fs.clustersFor data * fs.bytesPerCluster := by
  have hB := bytesPerCluster_pos h
  have hle : (data.length + fs.bytesPerCluster - 1) / fs.bytesPerCluster * fs.bytesPerCluster ≤
      fs.clustersFor data * fs.bytesPerCluster :=
    Nat.mul_le_mul_right _ (le_max_right _ _)
  have hlt := Nat.lt_div_mul_add (a := data.length + fs.bytesPerCluster - 1) hB
  omega

lemma one_le_clustersFor (fs : Fat16FileSystem) (data : List UInt8) :
    1 ≤ fs.clustersFor data := le_max_left _ _

lemma clustersFor_le_length (h : fs.Regular) (hne : data ≠ []) :
    fs.clustersFor data ≤ data.length := by
  have hB := bytesPerCluster_pos h
  by_contra hcon
  have hlt := mul_lt_length_of_lt h hne (n := data.length) (by omega)
  have : data.length * 1 ≤ data.length * fs.bytesPerCluster := Nat.mul_le_mul_left _ hB
  omega

/-- What the loop returns: the first free cluster, or an error if too few are free. -/
def writeResult (fs : Fat16FileSystem) (data : List UInt8) (d : Disk) : Except FsError UInt16 :=
  if fs.clustersFor data ≤ (fs.freeClusters d).length then .ok ((fs.freeClusters d).headD 0)
  else .error .diskFull

/-- The loop on non-empty data, from any point of progress on.  The induction is on the number
`k` of clusters still to be claimed. -/
lemma writeLoop_of_progress (h : fs.Regular) (hres : fs.ReservedInUse d₀) (hne : data ≠ [])
    {k : ℕ} (hp : fs.Progress data d₀ d A) (hk : A.length + k = fs.clustersFor data)
    (hfuel : k < fuel) :
    ∃ d', fs.writeLoop data fuel (min (A.length * fs.bytesPerCluster) data.length) A.getLast?
        (A.headD 0) d = .ok (fs.writeResult data d₀, d') ∧
      fs.Progress data d₀ d' ((fs.freeClusters d₀).take (fs.clustersFor data)) := by
  have hsplit := hp.freeClusters h hres
  -- on the number of clusters still to claim; the claimed ones `A` are a first part of those
  -- that were free at the start
  induction k generalizing A d fuel with
  | zero =>
      obtain ⟨fuel, rfl⟩ : ∃ m, fuel = m + 1 := ⟨fuel - 1, by omega⟩
      have hle := length_le_clustersFor_mul h data
      rw [← hk, Nat.add_zero] at hle
      rw [min_eq_right hle, writeLoop_done (by simp [hne])]
      have hA : (fs.freeClusters d₀).take (fs.clustersFor data) = A := by
        rw [← hk, ← hsplit, Nat.add_zero, List.take_left]
      have hhead : fs.writeResult data d₀ = .ok (A.headD 0) := by
        have hpos := fs.one_le_clustersFor data
        rw [writeResult, if_pos (by rw [← hsplit, List.length_append]; omega), ← hsplit]
        cases A with
        | nil => simp at hk; omega
        | cons a A => rfl
      rw [hhead, hA]
      exact ⟨d, rfl, hp⟩
  | succ k ih =>
      obtain ⟨fuel, rfl⟩ : ∃ m, fuel = m + 1 := ⟨fuel - 1, by omega⟩
      have hlt := mul_lt_length_of_lt h hne (n := A.length) (by omega)
      rw [min_eq_left (by omega)]
      cases hfree : fs.freeClusters d with
      | nil =>
          -- all free clusters are claimed, and more are needed
          rw [hfree, List.append_nil] at hsplit
          rw [writeLoop_full h (Or.inl hlt) hfree]
          refine ⟨d, ?_, ?_⟩
          · rw [writeResult, if_neg (by rw [← hsplit]; omega)]
          · rw [← hsplit, List.take_of_length_le (by omega)]
            exact hp
      | cons c R =>
          have hmem : c ∈ fs.freeClusters d₀ := by
            rw [← hsplit, hfree]
            simp
          have hc : 2 ≤ c := two_le_of_mem_free h hres hmem
          rw [writeLoop_claim h (Or.inl hlt) hfree hc, if_neg hne]
          have hstep := hp.step h hres hfree
          have hwritten : A.length * fs.bytesPerCluster +
              min (data.length - A.length * fs.bytesPerCluster) fs.bytesPerCluster =
              min ((A ++ [c]).length * fs.bytesPerCluster) data.length := by
            rw [List.length_append, List.length_singleton, Nat.succ_mul]
            omega
          have hfirst : (if A.getLast?.isNone then c else A.headD 0) = (A ++ [c]).headD 0 := by
            cases A with
            | nil => rfl
            | cons a A => simp
          have hlast : some c = (A ++ [c]).getLast? := by simp
          rw [hwritten, hfirst, hlast]
          exact ih hstep (by simp; omega) (by omega) (hstep.freeClusters h hres)

/-- **The allocation loop.**  It succeeds exactly if enough clusters are free; in both cases
the free clusters, as many as are needed or all, are linked in order and hold the first
pieces of the data, and nothing else has changed. -/
theorem writeLoop_eq (h : fs.Regular) (hres : fs.ReservedInUse d) (data : List UInt8) :
    ∃ d', fs.writeLoop data (data.length + 65537) 0 none 0 d = .ok (fs.writeResult data d, d') ∧
      fs.Progress data d d' ((fs.freeClusters d).take (fs.clustersFor data)) := by
  by_cases hne : data = []
  · subst hne
    have hneed : fs.clustersFor [] = 1 := by
      have hB := bytesPerCluster_pos h
      rw [clustersFor, List.length_nil, Nat.zero_add, Nat.div_eq_of_lt (by omega)]
      rfl
    cases hfree : fs.freeClusters d with
    | nil =>
        rw [writeLoop_full h (Or.inr rfl) hfree]
        refine ⟨d, ?_, ?_⟩
        · rw [writeResult, hfree, hneed]
          rfl
        · rw [List.take_nil]
          exact Progress.start [] d
    | cons c R =>
        have hc : 2 ≤ c := two_le_of_mem_free h hres (by rw [hfree]; simp)
        rw [writeLoop_claim h (Or.inr rfl) hfree hc, if_pos rfl]
        have hstep := (Progress.start [] d).step h hres hfree
        refine ⟨fs.claim d none c (piece fs.bytesPerCluster [] 0), ?_, ?_⟩
        · rw [writeResult, hfree, hneed]
          rfl
        · rw [hneed]
          exact hstep
  · have hle := clustersFor_le_length h hne
    have hstart : ([] : List UInt16).length + fs.clustersFor data = fs.clustersFor data := by simp
    have hfuel : fs.clustersFor data < data.length + 65537 := by omega
    simpa using writeLoop_of_progress h hres hne (Progress.start data d) hstart hfuel

end Fat16FileSystem

end SilOS.Fat16
