/-
# Volumes

`Volume d k chain` says that the drive holds a well-formed volume: the first `k` slots of the
root directory are the live ones, slot `j` owns the clusters `chain j`, which its entry leads
through, and no cluster has two owners.  Clusters without an owner are not mentioned: a write
that failed may have left some, and their links may point anywhere.

The writing operations are described by what they do to the three views of the drive.  Giving
a slot new clusters is one operation (`Wrote`): `write_new_file` does it for the first slot
that is not live, `overwrite_file` for a live slot whose old clusters it frees first.
-/
import SilOS.Fat16.Alloc

namespace SilOS.Fat16

open Lib

namespace Fat16FileSystem

variable (fs : Fat16FileSystem)

/-- A well-formed volume with `k` files; `chain j` are the clusters of the file in slot `j`. -/
structure Volume (d : Disk) (k : ℕ) (chain : ℕ → List UInt16) : Prop where
  count : k ≤ fs.slotCount
  reserved : fs.ReservedInUse d
  live : ∀ j < k, fs.Live d j
  free : ∀ j, k ≤ j → j < fs.slotCount → ¬ fs.Live d j
  leads : ∀ j < k, Leads (fs.table d) EndOfChain (fs.slotEntry d j).clusterLow (chain j)
  nonempty : ∀ j < k, chain j ≠ []
  cells : ∀ j < k, ∀ c ∈ chain j, fs.InFat c ∧ 2 ≤ c
  nodup : ∀ j < k, (chain j).Nodup
  disjoint : ∀ i < k, ∀ j < k, i ≠ j → (chain i).Disjoint (chain j)

variable {fs} {d d' : Disk} {k j : ℕ} {chain : ℕ → List UInt16} {c : UInt16}

namespace Volume

/-- The clusters of a file are in use. -/
lemma table_ne_zero (h : fs.Volume d k chain) (hj : j < k) (hc : c ∈ chain j) :
    fs.table d c ≠ 0 := by
  intro hzero
  rcases (h.leads j hj).next_mem hc with hend | hmem
  · rw [hzero] at hend
    exact absurd hend (by decide)
  · rw [hzero] at hmem
    exact ne_zero_of_two_le (h.cells j hj 0 hmem).2 rfl

/-- The first cluster of a file is a data cluster. -/
lemma clusterLow_mem (h : fs.Volume d k chain) (hj : j < k) :
    (fs.slotEntry d j).clusterLow ∈ chain j := by
  have hl := h.leads j hj
  have hne := h.nonempty j hj
  cases hchain : chain j with
  | nil => exact absurd hchain hne
  | cons x l =>
      rw [hchain] at hl
      rw [hl.1]
      simp

/-- **Reading the file in slot `j`** gives the bytes of its clusters, cut to its size. -/
theorem readFile (hreg : fs.Regular) (h : fs.Volume d k chain) (hj : j < k) :
    fs.readFile d (fs.slotEntry d j) =
      .ok (((chain j).flatMap (fs.clusterBytes d)).take (fs.slotEntry d j).fileSize.toNat) :=
  readFile_eq hreg.toAddressable hreg.sectorsPerCluster
    (Leads.of_table (h.leads j hj) (fun x hx => (h.cells j hj x hx).1))
    (fun x hx => (h.cells j hj x hx).2)

/-- A lookup searches the first `k` slots. -/
theorem findFile (hreg : fs.Regular) (h : fs.Volume d k chain) (filename : Bytes 8)
    (ext : Bytes 3) :
    fs.findFile d filename ext =
      .ok (((List.range k).find? fun j => decide (fs.HasName d filename ext j)).map
        (fs.slotEntry d)) :=
  findFile_of_packed hreg.toAddressable h.count h.live h.free filename ext

end Volume

/-! ### Replacing the clusters of a slot -/

/-- The clusters that are free once the clusters `old` are freed. -/
def freeAfter (fs : Fat16FileSystem) (d : Disk) (old : List UInt16) : List UInt16 :=
  vacant fs.clusters (clear (fs.table d) 0 old) 0

lemma mem_freeAfter (hreg : fs.Regular) {old : List UInt16} :
    c ∈ fs.freeAfter d old ↔ fs.InFat c ∧ (c ∈ old ∨ fs.table d c = 0) := by
  rw [freeAfter, mem_vacant, hreg.mem_clusters, clear]
  by_cases hc : c ∈ old
  · simp [hc]
  · simp [hc]

lemma freeAfter_nodup (hreg : fs.Regular) (old : List UInt16) : (fs.freeAfter d old).Nodup :=
  vacant_nodup hreg.clusters_nodup

lemma freeAfter_nil : fs.freeAfter d [] = fs.freeClusters d := by
  rw [freeAfter, clear_nil, freeClusters]

/-- The drive `d'` is the drive `d` after slot `j` gave up the clusters `old` and the clusters
`N` were claimed for the data.  The entry of slot `j` may have changed. -/
structure Rewrote (fs : Fat16FileSystem) (d d' : Disk) (old N : List UInt16) (j : ℕ)
    (data : List UInt8) : Prop where
  table : fs.table d' = link (clear (fs.table d) 0 old) 0xFFFF N
  taken : N <+: fs.freeAfter d old
  slots : ∀ i < fs.slotCount, i ≠ j → fs.slotBytes d' i = fs.slotBytes d i
  kept : ∀ c, 2 ≤ c → c ∉ N → fs.clusterBytes d' c = fs.clusterBytes d c
  stored : ∀ i c, N[i]? = some c →
    (fs.clusterBytes d' c).take (piece fs.bytesPerCluster data i).length =
      piece fs.bytesPerCluster data i

namespace Rewrote

variable {old N : List UInt16} {data : List UInt8}

lemma of_progress {d₁ : Disk} (hfat : fs.table d₁ = clear (fs.table d) 0 old)
    (hslots : ∀ i < fs.slotCount, fs.slotBytes d₁ i = fs.slotBytes d i)
    (hbytes : ∀ c, fs.clusterBytes d₁ c = fs.clusterBytes d c)
    (hp : fs.Progress data d₁ d' N) : fs.Rewrote d d' old N j data where
  table := by rw [hp.table, hfat]
  taken := by
    have := hp.taken
    rwa [freeClusters, hfat] at this
  slots := fun i hi _ => by rw [hp.slots i hi, hslots i hi]
  kept := fun c hc hcN => by rw [hp.kept c hc hcN, hbytes]
  stored := hp.stored

/-- Storing an entry in slot `j` afterwards. -/
lemma storeEntry (hreg : fs.Regular) (hj : j < fs.slotCount) (h : fs.Rewrote d d' old N j data)
    (entry : DirectoryEntry) :
    fs.Rewrote d (storeEntry d' (fs.slotLba j) (slotOffset j) entry) old N j data where
  table := by rw [table_storeEntry hreg, h.table]
  taken := h.taken
  slots := fun i hi hij => by rw [slotBytes_storeEntry_ne _ _ hij, h.slots i hi hij]
  kept := fun c hc hcN => by rw [clusterBytes_storeEntry hj, h.kept c hc hcN]
  stored := fun i c hi => by rw [clusterBytes_storeEntry hj]; exact h.stored i c hi

lemma mem_freeAfter (h : fs.Rewrote d d' old N j data) (hc : c ∈ N) : c ∈ fs.freeAfter d old := by
  obtain ⟨R, hR⟩ := h.taken
  rw [← hR]
  exact List.mem_append_left _ hc

lemma nodup (hreg : fs.Regular) (h : fs.Rewrote d d' old N j data) : N.Nodup := by
  obtain ⟨R, hR⟩ := h.taken
  have := freeAfter_nodup hreg old (d := d)
  rw [← hR] at this
  exact (List.nodup_append.mp this).1

/-- The words of clusters that were neither given up nor claimed. -/
lemma table_of_notMem (h : fs.Rewrote d d' old N j data) (hold : c ∉ old) (hN : c ∉ N) :
    fs.table d' c = fs.table d c := by
  rw [h.table, link_of_notMem hN, clear, if_neg hold]

/-- The claimed clusters form a chain. -/
lemma leads (hreg : fs.Regular) (h : fs.Rewrote d d' old N j data) :
    Leads (fs.table d') EndOfChain (N.headD 0xFFFF) N := by
  rw [h.table]
  refine leads_link (h.nodup hreg) ?_ (by decide)
  intro x hx
  exact hreg.not_endOfChain ((Fat16FileSystem.mem_freeAfter hreg).mp (h.mem_freeAfter hx)).1

/-- The claimed clusters, when they are as many as the data needs, hold the data. -/
lemma take_flatMap (hreg : fs.Regular) (h : fs.Rewrote d d' old N j data)
    (hN : N.length = fs.clustersFor data) :
    (N.flatMap (fs.clusterBytes d')).take data.length = data := by
  rw [flatMap_eq_flatMap_range N 0]
  apply take_flatMap_blocks (fun i _ => fs.length_clusterBytes d' _)
  · intro i hi
    apply h.stored i
    rw [List.getD_eq_getElem _ _ hi, List.getElem?_eq_getElem hi]
  · rw [hN]
    exact length_le_clustersFor_mul hreg data

/-- Claimed clusters are data clusters. -/
lemma two_le (hreg : fs.Regular) (hres : fs.ReservedInUse d) (hold : ∀ x ∈ old, 2 ≤ x)
    (h : fs.Rewrote d d' old N j data) (hc : c ∈ N) : 2 ≤ c := by
  obtain ⟨hin, hc | hc⟩ := (Fat16FileSystem.mem_freeAfter hreg).mp (h.mem_freeAfter hc)
  · exact hold c hc
  · exact two_le_of_mem_free hreg hres ((mem_freeClusters hreg).mpr ⟨hin, hc⟩)

lemma reserved (hreg : fs.Regular) (hres : fs.ReservedInUse d) (hold : ∀ x ∈ old, 2 ≤ x)
    (h : fs.Rewrote d d' old N j data) : fs.ReservedInUse d' := by
  have hsame : ∀ x : UInt16, ¬ 2 ≤ x → fs.table d' x = fs.table d x := fun x hx =>
    h.table_of_notMem (fun hxo => hx (hold x hxo)) (fun hxN => hx (h.two_le hreg hres hold hxN))
  rw [ReservedInUse, hsame 0 (by decide), hsame 1 (by decide)]
  exact hres

/-- The clusters that are still free. -/
lemma freeClusters (hreg : fs.Regular) (hres : fs.ReservedInUse d) (hold : ∀ x ∈ old, 2 ≤ x)
    (h : fs.Rewrote d d' old N j data) : N ++ fs.freeClusters d' = fs.freeAfter d old := by
  obtain ⟨R, hR⟩ := h.taken
  have hz : (0 : UInt16) ∉ N := fun h0 => absurd (h.two_le hreg hres hold h0) (by decide)
  have hfree : fs.freeClusters d' = R := by
    rw [Fat16FileSystem.freeClusters, h.table]
    exact vacant_link hreg.clusters_nodup hR.symm hz (by decide)
  rw [hfree, hR]

end Rewrote

/-! ### The volume after a slot was rewritten -/

namespace Volume

variable {old N l : List UInt16} {data : List UInt8} {i : ℕ}

/-- The clusters of the other files are not touched. -/
lemma notMem_of_rewrote (hreg : fs.Regular) (h : fs.Volume d k chain)
    (hw : fs.Rewrote d d' old N j data) (hi : i < k) (hold : (chain i).Disjoint old)
    (hc : c ∈ chain i) : c ∉ N := by
  intro hcN
  obtain ⟨-, hco | hc0⟩ := (mem_freeAfter hreg).mp (hw.mem_freeAfter hcN)
  · exact hold hc hco
  · exact h.table_ne_zero hi hc hc0

lemma leads_of_rewrote (hreg : fs.Regular) (h : fs.Volume d k chain)
    (hw : fs.Rewrote d d' old N j data) (hi : i < k) (hij : i ≠ j)
    (hold : (chain i).Disjoint old) :
    Leads (fs.table d') EndOfChain (fs.slotEntry d' i).clusterLow (chain i) := by
  have hcount := h.count
  rw [slotEntry_congr (hw.slots i (by omega) hij)]
  refine (h.leads i hi).congr ?_
  intro c hc
  exact hw.table_of_notMem (fun hco => hold hc hco) (h.notMem_of_rewrote hreg hw hi hold hc)

/-- The bytes of the other files are as before. -/
lemma readFile_of_rewrote (hreg : fs.Regular) (h : fs.Volume d k chain)
    (hw : fs.Rewrote d d' old N j data) (hi : i < k) (hij : i ≠ j)
    (hold : (chain i).Disjoint old) :
    fs.readFile d' (fs.slotEntry d' i) = fs.readFile d (fs.slotEntry d i) := by
  have hleads := h.leads_of_rewrote hreg hw hi hij hold
  have hcount := h.count
  rw [h.readFile hreg hi, readFile_eq hreg.toAddressable hreg.sectorsPerCluster
    (Leads.of_table hleads fun x hx => (h.cells i hi x hx).1) fun x hx => (h.cells i hi x hx).2,
    slotEntry_congr (hw.slots i (by omega) hij)]
  congr 2
  apply List.flatMap_congr
  intro c hc
  exact hw.kept c (h.cells i hi c hc).2 (h.notMem_of_rewrote hreg hw hi hold hc)

/-- **Giving clusters to a slot.**  Slot `j`, a live one or the first that is not, gets a chain
among the claimed clusters; the other files keep theirs. -/
theorem assign (hreg : fs.Regular) (h : fs.Volume d k chain) (hw : fs.Rewrote d d' old N j data)
    (hjk : j ≤ k) (hj : j < fs.slotCount) (hold : ∀ i < k, i ≠ j → (chain i).Disjoint old)
    (hold2 : ∀ x ∈ old, 2 ≤ x) (hlive : fs.Live d' j) (hne : l ≠ []) (hlN : l ⊆ N)
    (hnd : l.Nodup)
    (hleads : Leads (fs.table d') EndOfChain (fs.slotEntry d' j).clusterLow l) :
    fs.Volume d' (max k (j + 1)) (Function.update chain j l) := by
  have hcount := h.count
  have hslots : ∀ i < max k (j + 1), i ≠ j → i < k := by intro i hi hij; omega
  have hcl : ∀ i < max k (j + 1), i ≠ j → (chain i).Disjoint l := by
    intro i hi hij c hc hcl
    exact h.notMem_of_rewrote hreg hw (hslots i hi hij) (hold i (hslots i hi hij) hij) hc (hlN hcl)
  refine ⟨by omega, hw.reserved hreg h.reserved hold2, ?_, ?_, ?_, ?_, ?_, ?_, ?_⟩
  · intro i hi
    by_cases hij : i = j
    · rw [hij]
      exact hlive
    · rw [live_congr (hw.slots i (by omega) hij)]
      exact h.live i (hslots i hi hij)
  · intro i hi hi'
    rw [live_congr (hw.slots i hi' (by omega))]
    exact h.free i (by omega) hi'
  · intro i hi
    by_cases hij : i = j
    · rw [hij, Function.update_self]
      exact hleads
    · rw [Function.update_of_ne hij]
      exact h.leads_of_rewrote hreg hw (hslots i hi hij) hij (hold i (hslots i hi hij) hij)
  · intro i hi
    by_cases hij : i = j
    · rwa [hij, Function.update_self]
    · rw [Function.update_of_ne hij]
      exact h.nonempty i (hslots i hi hij)
  · intro i hi c hc
    by_cases hij : i = j
    · rw [hij, Function.update_self] at hc
      exact ⟨((mem_freeAfter hreg).mp (hw.mem_freeAfter (hlN hc))).1,
        hw.two_le hreg h.reserved hold2 (hlN hc)⟩
    · rw [Function.update_of_ne hij] at hc
      exact h.cells i (hslots i hi hij) c hc
  · intro i hi
    by_cases hij : i = j
    · rwa [hij, Function.update_self]
    · rw [Function.update_of_ne hij]
      exact h.nodup i (hslots i hi hij)
  · intro i hi i' hi' hii'
    by_cases hij : i = j
    · have hi'j : i' ≠ j := fun he => hii' (hij.trans he.symm)
      rw [hij, Function.update_self, Function.update_of_ne hi'j]
      exact (hcl i' hi' hi'j).symm
    · rw [Function.update_of_ne hij]
      by_cases hi'j : i' = j
      · rw [hi'j, Function.update_self]
        exact hcl i hi hij
      · rw [Function.update_of_ne hi'j]
        exact h.disjoint i (hslots i hi hij) i' (hslots i' hi' hi'j) hii'

/-- Clusters claimed without a live slot of their own stay unowned. -/
theorem keep (hreg : fs.Regular) (h : fs.Volume d k chain) (hw : fs.Rewrote d d' [] N k data)
    (hfree : ¬ fs.Live d' k) : fs.Volume d' k chain := by
  have hcount := h.count
  refine ⟨h.count, hw.reserved hreg h.reserved (by simp), ?_, ?_, ?_, h.nonempty, h.cells,
    h.nodup, h.disjoint⟩
  · intro i hi
    rw [live_congr (hw.slots i (by omega) (by omega))]
    exact h.live i hi
  · intro i hi hi'
    by_cases hik : i = k
    · rwa [hik]
    · rw [live_congr (hw.slots i hi' hik)]
      exact h.free i hi hi'
  · intro i hi
    exact h.leads_of_rewrote hreg hw hi (by omega) (by simp)

end Volume

end Fat16FileSystem

end SilOS.Fat16
