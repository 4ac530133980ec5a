/-
# What a call can do

The two writing calls of the file system, on a well-formed volume.  `Effect` lists the six
ways in which such a call can end, each with the condition under which it happens and the
drive it leaves; `Volume.call` says that every call ends in one of them.  All later results
about runs are case analyses over `Effect` and never look into the code again.
-/
import SilOS.Lib.Machine
import SilOS.Fat16.Volume

namespace SilOS.Fat16

open Lib

/-- A writing call of the file system. -/
inductive Call where
  | writeNewFile (filename : Bytes 8) (ext : Bytes 3) (data : List UInt8)
  | overwriteFile (filename : Bytes 8) (ext : Bytes 3) (data : List UInt8)
deriving DecidableEq

namespace Call

/-- The name a call is about. -/
def name : Call → Bytes 8 × Bytes 3
  | writeNewFile filename ext _ => (filename, ext)
  | overwriteFile filename ext _ => (filename, ext)

/-- The data a call writes. -/
def data : Call → List UInt8
  | writeNewFile _ _ data => data
  | overwriteFile _ _ data => data

end Call

namespace Fat16FileSystem

/-- The volume as a machine: a call returns `Ok` or an error and leaves a new drive. -/
def machine (fs : Fat16FileSystem) : Machine Disk Call (Except FsError Unit) Fault where
  step d
    | .writeNewFile filename ext data => fs.writeNewFile d filename ext data
    | .overwriteFile filename ext data => fs.overwriteFile d filename ext data

variable {fs : Fat16FileSystem} {d d' : Disk} {k j : ℕ} {chain : ℕ → List UInt16}
  {filename : Bytes 8} {ext : Bytes 3} {data : List UInt8}

/-! ### The slot of a name -/

/-- Slot `j` is the first of the first `k` slots that carries the name. -/
def Finds (fs : Fat16FileSystem) (d : Disk) (k : ℕ) (filename : Bytes 8) (ext : Bytes 3)
    (j : ℕ) : Prop :=
  j < k ∧ fs.HasName d filename ext j ∧ ∀ i < j, ¬ fs.HasName d filename ext i

lemma find?_eq_some_iff_finds :
    (List.range k).find? (fun j => decide (fs.HasName d filename ext j)) = some j ↔
      fs.Finds d k filename ext j := by
  rw [List.find?_range_eq_some]
  constructor
  · rintro ⟨hname, hj, hmin⟩
    exact ⟨List.mem_range.mp hj, by simpa using hname, fun i hi => by simpa using hmin i hi⟩
  · rintro ⟨hj, hname, hmin⟩
    exact ⟨by simpa using hname, List.mem_range.mpr hj, fun i hi => by simpa using hmin i hi⟩

/-- A lookup finds the entry of the first slot with the name. -/
lemma Volume.findFile_eq_some (hreg : fs.Regular) (h : fs.Volume d k chain)
    {entry : DirectoryEntry} :
    fs.findFile d filename ext = .ok (some entry) ↔
      ∃ j, fs.Finds d k filename ext j ∧ entry = fs.slotEntry d j := by
  rw [h.findFile hreg, Except.ok.injEq, Option.map_eq_some_iff]
  simp only [find?_eq_some_iff_finds, eq_comm (b := entry)]

lemma Volume.findFile_eq_none (hreg : fs.Regular) (h : fs.Volume d k chain) :
    fs.findFile d filename ext = .ok none ↔ ∀ j < k, ¬ fs.HasName d filename ext j := by
  rw [h.findFile hreg, Except.ok.injEq, Option.map_eq_none_iff, List.find?_eq_none]
  simp

/-- Either some slot is the first with the name or no live slot has it. -/
lemma finds_or (fs : Fat16FileSystem) (d : Disk) (k : ℕ) (filename : Bytes 8) (ext : Bytes 3) :
    (∃ j, fs.Finds d k filename ext j) ∨ ∀ j < k, ¬ fs.HasName d filename ext j := by
  cases hfind : (List.range k).find? (fun j => decide (fs.HasName d filename ext j)) with
  | some j => exact Or.inl ⟨j, find?_eq_some_iff_finds.mp hfind⟩
  | none =>
      rw [List.find?_eq_none] at hfind
      exact Or.inr fun j hj hname => hfind j (List.mem_range.mpr hj) (by simpa using hname)

/-! ### Freeing the clusters of a file -/

/-- `free_cluster_chain` on the first cluster of a file clears the words of its clusters. -/
theorem Volume.freeClusterChain (hreg : fs.Regular) (h : fs.Volume d k chain) (hj : j < k) :
    ∃ d₁, fs.freeClusterChain d (fs.slotEntry d j).clusterLow = .ok d₁ ∧
      fs.table d₁ = clear (fs.table d) 0 (chain j) ∧
      (∀ i, fs.slotBytes d₁ i = fs.slotBytes d i) ∧
      ∀ c, fs.clusterBytes d₁ c = fs.clusterBytes d c := by
  have hin : ∀ x ∈ chain j, fs.InFat x := fun x hx => (h.cells j hj x hx).1
  have hlen : (chain j).length < 65537 := by
    have hsub : chain j ⊆ fs.clusters := fun x hx => hreg.mem_clusters.mpr (hin x hx)
    have hle := ((h.nodup j hj).subperm hsub).length_le
    have hspf := hreg.sectorsPerFat
    rw [clusters, List.length_map, List.length_range] at hle
    omega
  obtain ⟨d₁, hfree, hfat, hother⟩ := freeChainLoop_eq fs
    (Leads.of_table (h.leads j hj) hin) (h.nodup j hj) (fun x hx => (h.cells j hj x hx).2) hlen
  refine ⟨d₁, hfree, ?_, ?_, ?_⟩
  · funext x
    by_cases hx : fs.InFat x
    · rw [table_of_inFat hx, hfat, clear, clear, table_of_inFat hx]
    · have hxj : x ∉ chain j := fun hxj => hx (hin x hxj)
      rw [clear, if_neg hxj, table, table, if_neg hx, if_neg hx]
  · intro i
    apply slotBytes_congr
    apply hother
    intro x hx
    have h1 := hreg.fatSector_lt (hin x hx)
    have h2 := fs.rootLba_le_slotLba i
    omega
  · intro c
    apply fs.clusterBytes_congr
    intro i _
    apply hother
    intro x hx
    have h1 := hreg.fatSector_lt (hin x hx)
    have h2 := fs.le_dataLba c
    omega

/-! ### The six effects -/

/-- The entry that `overwrite_file` leaves. -/
def overwrittenEntry (entry : DirectoryEntry) (first : UInt16) (data : List UInt8) :
    DirectoryEntry :=
  { entry with clusterLow := first, fileSize := UInt32.ofNat data.length }

/-- What a call does to a volume with `k` files that own the clusters `chain`. -/
inductive Effect (fs : Fat16FileSystem) (d : Disk) (k : ℕ) (chain : ℕ → List UInt16) :
    Call → Except FsError Unit → Disk → Prop
  /-- No slot is left. -/
  | directoryFull {filename : Bytes 8} {ext : Bytes 3} {data : List UInt8}
      (hk : k = fs.slotCount) :
      Effect fs d k chain (.writeNewFile filename ext data) (.error .rootDirectoryFull) d
  /-- The free clusters are all claimed, but no slot is. -/
  | createFails {filename : Bytes 8} {ext : Bytes 3} {data : List UInt8} {d' : Disk}
      (hk : k < fs.slotCount)
      (hneed : (fs.freeClusters d).length < fs.clustersFor data)
      (hw : fs.Rewrote d d' [] (fs.freeClusters d) k data)
      (hslot : fs.slotBytes d' k = fs.slotBytes d k) :
      Effect fs d k chain (.writeNewFile filename ext data) (.error .diskFull) d'
  /-- The first slot that is not live gets an entry. -/
  | created {filename : Bytes 8} {ext : Bytes 3} {data : List UInt8} {d' : Disk}
      (hk : k < fs.slotCount)
      (hneed : fs.clustersFor data ≤ (fs.freeClusters d).length)
      (hw : fs.Rewrote d d' [] ((fs.freeClusters d).take (fs.clustersFor data)) k data)
      (hentry : fs.slotEntry d' k = newEntry filename ext ((fs.freeClusters d).headD 0) data) :
      Effect fs d k chain (.writeNewFile filename ext data) (.ok ()) d'
  /-- No live slot has the name. -/
  | notFound {filename : Bytes 8} {ext : Bytes 3} {data : List UInt8}
      (hnone : ∀ j < k, ¬ fs.HasName d filename ext j) :
      Effect fs d k chain (.overwriteFile filename ext data) (.error .fileNotFound) d
  /-- The clusters of the file are freed and all free clusters are claimed, but the entry is
  left as it was. -/
  | overwriteFails {filename : Bytes 8} {ext : Bytes 3} {data : List UInt8} {j : ℕ}
      {d' : Disk} (hj : fs.Finds d k filename ext j)
      (hneed : (fs.freeAfter d (chain j)).length < fs.clustersFor data)
      (hw : fs.Rewrote d d' (chain j) (fs.freeAfter d (chain j)) j data)
      (hslot : fs.slotBytes d' j = fs.slotBytes d j) :
      Effect fs d k chain (.overwriteFile filename ext data) (.error .diskFull) d'
  /-- The file gets new clusters. -/
  | overwritten {filename : Bytes 8} {ext : Bytes 3} {data : List UInt8} {j : ℕ}
      {d' : Disk} (hj : fs.Finds d k filename ext j)
      (hneed : fs.clustersFor data ≤ (fs.freeAfter d (chain j)).length)
      (hw : fs.Rewrote d d' (chain j)
        ((fs.freeAfter d (chain j)).take (fs.clustersFor data)) j data)
      (hentry : fs.slotEntry d' j =
        overwrittenEntry (fs.slotEntry d j) ((fs.freeAfter d (chain j)).headD 0) data) :
      Effect fs d k chain (.overwriteFile filename ext data) (.ok ()) d'

/-- `write_new_file` has one of its effects. -/
theorem Volume.writeNewFile_effect (hreg : fs.Regular) (h : fs.Volume d k chain)
    (filename : Bytes 8) (ext : Bytes 3) (data : List UInt8) :
    ∃ out d', fs.writeNewFile d filename ext data = .ok (out, d') ∧
      fs.Effect d k chain (.writeNewFile filename ext data) out d' := by
  have hcount := h.count
  rcases hcount.lt_or_eq with hk | hk
  · obtain ⟨d₁, hloop, hp⟩ := writeLoop_eq hreg h.reserved data
    have hw : fs.Rewrote d d₁ [] ((fs.freeClusters d).take (fs.clustersFor data)) k data :=
      Rewrote.of_progress (by rw [clear_nil]) (fun _ _ => rfl) (fun _ => rfl) hp
    rw [writeNewFile, findEmptyRootSlot_of_packed hreg.toAddressable hk h.live
      (h.free k le_rfl hk), ok_bind]
    simp only [hloop, ok_bind]
    by_cases hneed : fs.clustersFor data ≤ (fs.freeClusters d).length
    · rw [writeResult, if_pos hneed]
      exact ⟨_, _, rfl, .created hk hneed (hw.storeEntry hreg hk _)
        (slotEntry_storeEntry_same d₁ k _)⟩
    · rw [writeResult, if_neg hneed]
      rw [List.take_of_length_le (by omega)] at hw
      exact ⟨_, _, rfl, .createFails hk (by omega) hw (hp.slots k hk)⟩
  · rw [writeNewFile, findEmptyRootSlot_of_full hreg.toAddressable (hk ▸ h.live), ok_bind]
    exact ⟨_, _, rfl, .directoryFull hk⟩

/-- `overwrite_file` has one of its effects. -/
theorem Volume.overwriteFile_effect (hreg : fs.Regular) (h : fs.Volume d k chain)
    (filename : Bytes 8) (ext : Bytes 3) (data : List UInt8) :
    ∃ out d', fs.overwriteFile d filename ext data = .ok (out, d') ∧
      fs.Effect d k chain (.overwriteFile filename ext data) out d' := by
  have hcount := h.count
  rw [overwriteFile, findFileLocation_of_packed hreg.toAddressable hcount h.live h.free, ok_bind]
  rcases fs.finds_or d k filename ext with ⟨j, hj⟩ | hnone
  · have hjk : j < k := hj.1
    obtain ⟨d₁, hfreed, hfat, hslots, hbytes⟩ := h.freeClusterChain hreg hjk
    have hcells : ∀ x ∈ chain j, 2 ≤ x := fun x hx => (h.cells j hjk x hx).2
    have hres : fs.ReservedInUse d₁ := by
      have h0 : (0 : UInt16) ∉ chain j := fun hx => absurd (hcells 0 hx) (by decide)
      have h1 : (1 : UInt16) ∉ chain j := fun hx => absurd (hcells 1 hx) (by decide)
      rw [ReservedInUse, hfat, clear, clear, if_neg h0, if_neg h1]
      exact h.reserved
    have hfree : fs.freeClusters d₁ = fs.freeAfter d (chain j) := by
      rw [freeClusters, hfat, freeAfter]
    obtain ⟨d₂, hloop, hp⟩ := writeLoop_eq hreg hres data
    have hw : fs.Rewrote d d₂ (chain j)
        ((fs.freeAfter d (chain j)).take (fs.clustersFor data)) j data :=
      Rewrote.of_progress hfat (fun i _ => hslots i) hbytes (hfree ▸ hp)
    have hlow : 2 ≤ (fs.slotEntry d j).clusterLow := hcells _ (h.clusterLow_mem hjk)
    rw [find?_eq_some_iff_finds.mpr hj, Option.map_some]
    simp only [if_pos hlow]
    rw [hfreed, ok_bind, hloop, ok_bind]
    -- the old chain is gone by now, also when the new data turn out not to fit
    by_cases hneed : fs.clustersFor data ≤ (fs.freeAfter d (chain j)).length
    · rw [writeResult, hfree, if_pos hneed]
      exact ⟨_, _, rfl, .overwritten hj hneed (hw.storeEntry hreg (by omega) _)
        (slotEntry_storeEntry_same d₂ j _)⟩
    · rw [writeResult, hfree, if_neg hneed]
      rw [List.take_of_length_le (by omega)] at hw
      exact ⟨_, _, rfl, .overwriteFails hj (by omega) hw
        (by rw [hp.slots j (by omega), hslots])⟩
  · have hfind : (List.range k).find? (fun j => decide (fs.HasName d filename ext j)) = none := by
      rw [List.find?_eq_none]
      simpa using hnone
    rw [hfind]
    exact ⟨_, _, rfl, .notFound hnone⟩

/-- **Every call on a well-formed volume returns**, with one of the six effects. -/
theorem Volume.call (hreg : fs.Regular) (h : fs.Volume d k chain) (call : Call) :
    ∃ out d', fs.machine.step d call = .ok (out, d') ∧ fs.Effect d k chain call out d' := by
  cases call with
  | writeNewFile filename ext data => exact h.writeNewFile_effect hreg filename ext data
  | overwriteFile filename ext data => exact h.overwriteFile_effect hreg filename ext data

/-- The effect of a call that is known to have returned. -/
lemma Volume.effect_of_step (hreg : fs.Regular) (h : fs.Volume d k chain) {call : Call}
    {out : Except FsError Unit} (hstep : fs.machine.step d call = .ok (out, d')) :
    fs.Effect d k chain call out d' := by
  obtain ⟨out₁, d₁, hstep₁, heff⟩ := h.call hreg call
  rw [hstep, Except.ok.injEq, Prod.mk.injEq] at hstep₁
  obtain ⟨rfl, rfl⟩ := hstep₁
  exact heff

/-! ### Success -/

lemma Finds.unique {i : ℕ} (hi : fs.Finds d k filename ext i) (hj : fs.Finds d k filename ext j) :
    i = j := by
  rcases lt_trichotomy i j with hlt | heq | hlt
  · exact absurd hi.2.1 (hj.2.2 i hlt)
  · exact heq
  · exact absurd hj.2.1 (hi.2.2 j hlt)

/-- `write_new_file` succeeds exactly if a slot is left and enough clusters are free. -/
theorem Volume.writeNewFile_ok_iff (hreg : fs.Regular) (h : fs.Volume d k chain)
    (filename : Bytes 8) (ext : Bytes 3) (data : List UInt8) :
    (∃ d', fs.writeNewFile d filename ext data = .ok (.ok (), d')) ↔
      k < fs.slotCount ∧ fs.clustersFor data ≤ (fs.freeClusters d).length := by
  obtain ⟨out, d', hstep, heff⟩ := h.writeNewFile_effect hreg filename ext data
  rw [hstep]
  cases heff with
  | directoryFull hk => simp [hk]
  | createFails hk hneed hw hslot => simp [hk, hneed]
  | created hk hneed hw hentry => simp [hk, hneed]

/-- `overwrite_file` succeeds exactly if the file exists and enough clusters are free once its
own clusters are. -/
theorem Volume.overwriteFile_ok_iff (hreg : fs.Regular) (h : fs.Volume d k chain)
    (filename : Bytes 8) (ext : Bytes 3) (data : List UInt8) :
    (∃ d', fs.overwriteFile d filename ext data = .ok (.ok (), d')) ↔
      ∃ j, fs.Finds d k filename ext j ∧
        fs.clustersFor data ≤ (fs.freeAfter d (chain j)).length := by
  obtain ⟨out, d', hstep, heff⟩ := h.overwriteFile_effect hreg filename ext data
  rw [hstep]
  cases heff with
  | notFound hnone =>
      constructor
      · rintro ⟨d₁, hd₁⟩
        exact absurd hd₁ (by simp)
      · rintro ⟨j, hj, -⟩
        exact absurd hj.2.1 (hnone j hj.1)
  | overwriteFails hj hneed hw hslot =>
      constructor
      · rintro ⟨d₁, hd₁⟩
        exact absurd hd₁ (by simp)
      · rintro ⟨i, hi, hneed'⟩
        rw [hi.unique hj] at hneed'
        omega
  | overwritten hj hneed hw hentry =>
      constructor
      · rintro -
        exact ⟨_, hj, hneed⟩
      · rintro -
        exact ⟨_, rfl⟩

/-- The clusters that are free once the clusters of a file are. -/
lemma Volume.length_freeAfter (hreg : fs.Regular) (h : fs.Volume d k chain) (hj : j < k) :
    (fs.freeAfter d (chain j)).length = (fs.freeClusters d).length + (chain j).length :=
  length_vacant_clear hreg.clusters_nodup (h.nodup j hj)
    (fun x hx => hreg.mem_clusters.mpr (h.cells j hj x hx).1)
    (fun _ hx => h.table_ne_zero hj hx)

/-- After a success the clusters that are left free are the ones behind those taken. -/
lemma Rewrote.freeClusters_eq_drop {old F : List UInt16} {n : ℕ} (hreg : fs.Regular)
    (hres : fs.ReservedInUse d) (hold : ∀ x ∈ old, 2 ≤ x) (hF : fs.freeAfter d old = F)
    (hw : fs.Rewrote d d' old (F.take n) j data) : fs.freeClusters d' = F.drop n := by
  have hsplit := hw.freeClusters hreg hres hold
  rw [hF] at hsplit
  exact List.append_cancel_left (hsplit.trans (List.take_append_drop n F).symm)

/-- After a success as many clusters are taken as the data needs. -/
lemma Rewrote.length_freeClusters {old F : List UInt16} (hreg : fs.Regular)
    (hres : fs.ReservedInUse d) (hold : ∀ x ∈ old, 2 ≤ x) (hF : fs.freeAfter d old = F)
    (hneed : fs.clustersFor data ≤ F.length)
    (hw : fs.Rewrote d d' old (F.take (fs.clustersFor data)) j data) :
    (fs.freeClusters d').length + fs.clustersFor data = F.length := by
  rw [hw.freeClusters_eq_drop hreg hres hold hF, List.length_drop]
  omega

end Fat16FileSystem

end SilOS.Fat16
