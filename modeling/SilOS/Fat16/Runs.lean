/-
# Runs of the file system

A volume stays well formed in every run of writing calls, whatever they write and whether they
succeed or not.  The delicate case is an overwrite that fails: it has freed the clusters of the
file and handed them out again, but the entry still names the old first cluster.  The call
only fails when every free cluster was claimed, so that cluster is somewhere on the abandoned
chain, and from there on the chain belongs to the file.
-/
import SilOS.Fat16.Format

namespace SilOS.Fat16

open Lib

namespace Fat16FileSystem

variable {fs : Fat16FileSystem} {d d' : Disk} {k j : ℕ} {chain : ℕ → List UInt16} {call : Call}
  {out : Except FsError Unit}

/-! ### One call -/

/-- The claimed clusters, seen from one of them on. -/
lemma Rewrote.leads_of_mem {old N : List UInt16} {data : List UInt8} {c : UInt16}
    (hreg : fs.Regular) (h : fs.Rewrote d d' old N j data) (hc : c ∈ N) :
    ∃ A l, N = A ++ l ∧ l ≠ [] ∧ Leads (fs.table d') EndOfChain c l := by
  obtain ⟨A, B, hN⟩ := List.append_of_mem hc
  have hleads := h.leads hreg
  rw [hN] at hleads
  exact ⟨A, c :: B, hN, by simp, hleads.suffix⟩

/-- The first cluster of a file that is overwritten is among the clusters free then. -/
lemma Volume.clusterLow_mem_freeAfter (hreg : fs.Regular) (h : fs.Volume d k chain) (hj : j < k) :
    (fs.slotEntry d j).clusterLow ∈ fs.freeAfter d (chain j) :=
  (mem_freeAfter hreg).mpr
    ⟨(h.cells j hj _ (h.clusterLow_mem hj)).1, Or.inl (h.clusterLow_mem hj)⟩

/-- The clusters of a new file are the first free ones. -/
lemma headD_take {N : List UInt16} {n : ℕ} (hn : 1 ≤ n) (z : UInt16) :
    (N.take n).headD z = N.headD z := by
  cases N with
  | nil => simp
  | cons x N =>
      obtain ⟨n, rfl⟩ : ∃ m, n = m + 1 := ⟨n - 1, by omega⟩
      rfl

lemma Rewrote.leads_take {old F : List UInt16} {data : List UInt8} (hreg : fs.Regular)
    (hneed : fs.clustersFor data ≤ F.length)
    (h : fs.Rewrote d d' old (F.take (fs.clustersFor data)) j data) :
    F.take (fs.clustersFor data) ≠ [] ∧
      Leads (fs.table d') EndOfChain (F.headD 0) (F.take (fs.clustersFor data)) := by
  have hpos := fs.one_le_clustersFor data
  have hleads := h.leads hreg
  cases F with
  | nil => simp at hneed; omega
  | cons x F =>
      rw [headD_take hpos] at hleads
      refine ⟨?_, hleads⟩
      simp
      omega

/-- A file created under a live name gets the next slot. -/
lemma Volume.created (hreg : fs.Regular) (h : fs.Volume d k chain) {filename : Bytes 8}
    {ext : Bytes 3} {data : List UInt8} (hk : k < fs.slotCount)
    (hneed : fs.clustersFor data ≤ (fs.freeClusters d).length)
    (hw : fs.Rewrote d d' [] ((fs.freeClusters d).take (fs.clustersFor data)) k data)
    (hentry : fs.slotEntry d' k = newEntry filename ext ((fs.freeClusters d).headD 0) data)
    (hname : ¬ FreeMark (filename.byte 0)) :
    fs.Volume d' (k + 1)
      (Function.update chain k ((fs.freeClusters d).take (fs.clustersFor data))) := by
  obtain ⟨hne, hleads⟩ := hw.leads_take hreg hneed
  have hlive : fs.Live d' k := by
    rw [Live, ← byte_filename_slotEntry, hentry]
    exact hname
  have hvol := h.assign hreg hw le_rfl hk (by simp) (by simp) hlive hne (List.Subset.refl _)
    (hw.nodup hreg) (by rw [hentry]; exact hleads)
  rwa [max_eq_right (Nat.le_succ k)] at hvol

/-- A file that is overwritten keeps its slot. -/
lemma Volume.overwritten (hreg : fs.Regular) (h : fs.Volume d k chain) {data : List UInt8}
    (hj : j < k) (hneed : fs.clustersFor data ≤ (fs.freeAfter d (chain j)).length)
    (hw : fs.Rewrote d d' (chain j)
      ((fs.freeAfter d (chain j)).take (fs.clustersFor data)) j data)
    (hentry : fs.slotEntry d' j =
      overwrittenEntry (fs.slotEntry d j) ((fs.freeAfter d (chain j)).headD 0) data) :
    fs.Volume d' k
      (Function.update chain j ((fs.freeAfter d (chain j)).take (fs.clustersFor data))) := by
  have hcount := h.count
  obtain ⟨hne, hleads⟩ := hw.leads_take hreg hneed
  have hlive : fs.Live d' j := by
    rw [Live, ← byte_filename_slotEntry, hentry]
    exact (h.live j hj).filename
  have hvol := h.assign hreg hw hj.le (by omega) (fun i hi hij => h.disjoint i hi j hj hij)
    (fun x hx => (h.cells j hj x hx).2) hlive hne (List.Subset.refl _) (hw.nodup hreg)
    (by rw [hentry]; exact hleads)
  rwa [max_eq_left (by omega)] at hvol

/-- After a failed overwrite the file owns the abandoned chain from its old first cluster on. -/
lemma Volume.overwriteFails (hreg : fs.Regular) (h : fs.Volume d k chain) {data : List UInt8}
    (hj : j < k) (hw : fs.Rewrote d d' (chain j) (fs.freeAfter d (chain j)) j data)
    (hslot : fs.slotBytes d' j = fs.slotBytes d j) :
    ∃ A l, fs.freeAfter d (chain j) = A ++ l ∧
      Leads (fs.table d') EndOfChain (fs.slotEntry d j).clusterLow l ∧
      fs.Volume d' k (Function.update chain j l) := by
  have hcount := h.count
  obtain ⟨A, l, hN, hne, hleads⟩ := hw.leads_of_mem hreg (h.clusterLow_mem_freeAfter hreg hj)
  refine ⟨A, l, hN, hleads, ?_⟩
  have hsub : l ⊆ fs.freeAfter d (chain j) := by
    rw [hN]
    exact List.subset_append_right A l
  have hnd : l.Nodup := by
    have := hw.nodup hreg
    rw [hN] at this
    exact (List.nodup_append.mp this).2.1
  have hvol := h.assign hreg hw hj.le (by omega) (fun i hi hij => h.disjoint i hi j hj hij)
    (fun x hx => (h.cells j hj x hx).2) ((live_congr hslot).mpr (h.live j hj)) hne hsub hnd
    (by rw [slotEntry_congr hslot]; exact hleads)
  rwa [max_eq_left (by omega)] at hvol

/-- **One call keeps the volume well formed**, whatever its effect. -/
theorem Effect.volume (hreg : fs.Regular) (h : fs.Volume d k chain)
    (heff : fs.Effect d k chain call out d') : ∃ k' chain', fs.Volume d' k' chain' := by
  cases heff with
  | directoryFull hk => exact ⟨k, chain, h⟩
  | createFails hk hneed hw hslot =>
      refine ⟨k, chain, h.keep hreg hw ?_⟩
      rw [live_congr hslot]
      exact h.free k le_rfl hk
  | @created filename ext data d' hk hneed hw hentry =>
      by_cases hname : FreeMark (filename.byte 0)
      · -- the new entry reads as an unused or deleted slot
        refine ⟨k, chain, h.keep hreg hw ?_⟩
        rw [Live, ← byte_filename_slotEntry, hentry, not_not]
        exact hname
      · exact ⟨_, _, h.created hreg hk hneed hw hentry hname⟩
  | notFound hnone => exact ⟨k, chain, h⟩
  | overwriteFails hj hneed hw hslot =>
      obtain ⟨-, l, -, -, hvol⟩ := h.overwriteFails hreg hj.1 hw hslot
      exact ⟨k, _, hvol⟩
  | overwritten hj hneed hw hentry => exact ⟨k, _, h.overwritten hreg hj.1 hneed hw hentry⟩

/-! ### Whole runs -/

/-- A run from a well-formed volume returns and leaves a well-formed volume. -/
theorem Volume.run (hreg : fs.Regular) (h : fs.Volume d k chain) (calls : List Call) :
    ∃ outs d', fs.machine.run d calls = .ok (outs, d') ∧ ∃ k' chain', fs.Volume d' k' chain' := by
  apply fs.machine.run_invariant (I := fun d => ∃ k chain, fs.Volume d k chain) _
    ⟨k, chain, h⟩ (fs.machine.along_true d calls)
  rintro d call ⟨k, chain, h⟩ -
  obtain ⟨out, d', hstep, heff⟩ := h.call hreg call
  exact ⟨out, d', hstep, heff.volume hreg h⟩

/-- The drives reachable from a formatted drive by writing calls, with the file system mounted
from it. -/
def Reachable (fs : Fat16FileSystem) (d : Disk) : Prop :=
  ∃ d₀ calls outs, init (formatDrive d₀) = some fs ∧
    fs.machine.run (formatDrive d₀) calls = .ok (outs, d)

lemma eq_formatFs {d₀ : Disk} (h : init (formatDrive d₀) = some fs) : fs = formatFs := by
  rw [init_formatDrive, Option.some.injEq] at h
  exact h.symm

/-- Every reachable drive holds a well-formed volume. -/
theorem Reachable.volume (h : fs.Reachable d) :
    fs = formatFs ∧ ∃ k chain, fs.Volume d k chain := by
  obtain ⟨d₀, calls, outs, hinit, hrun⟩ := h
  obtain rfl := eq_formatFs hinit
  obtain ⟨outs₁, d₁, hrun₁, hvol⟩ :=
    (volume_formatDrive d₀ fun _ => []).run formatFs_regular calls
  rw [hrun, Except.ok.injEq, Prod.mk.injEq] at hrun₁
  obtain ⟨-, rfl⟩ := hrun₁
  exact ⟨rfl, hvol⟩

/-- The chains of the live slots, in terms of the words of the first FAT: each chain starts
at the first cluster of its entry, visits data clusters only and none twice, and ends in an
end mark; two chains share no cluster; and the two reserved words are in use. -/
structure ChainsWellFormed (fs : Fat16FileSystem) (d : Disk) (chain : ℕ → List UInt16) : Prop where
  follows : ∀ j < fs.slotCount, fs.Live d j →
    Leads (fs.getFatEntry d) EndOfChain (fs.slotEntry d j).clusterLow (chain j)
  nonempty : ∀ j < fs.slotCount, fs.Live d j → chain j ≠ []
  inRange : ∀ j < fs.slotCount, fs.Live d j → ∀ c ∈ chain j, 2 ≤ c.toNat ∧ c.toNat < 16384
  nodup : ∀ j < fs.slotCount, fs.Live d j → (chain j).Nodup
  disjoint : ∀ i < fs.slotCount, ∀ j < fs.slotCount, fs.Live d i → fs.Live d j → i ≠ j →
    (chain i).Disjoint (chain j)
  reserved : fs.getFatEntry d 0 ≠ 0 ∧ fs.getFatEntry d 1 ≠ 0

/-- The live slots of a volume. -/
lemma Volume.lt_of_live (h : fs.Volume d k chain) (hj : j < fs.slotCount) (hlive : fs.Live d j) :
    j < k := by
  by_contra hcon
  exact h.free j (by omega) hj hlive

lemma Volume.chainsWellFormed (h : formatFs.Volume d k chain) :
    formatFs.ChainsWellFormed d chain where
  follows j hj hlive := by
    have hjk := h.lt_of_live hj hlive
    exact Leads.of_table (h.leads j hjk) fun x hx => (h.cells j hjk x hx).1
  nonempty j hj hlive := h.nonempty j (h.lt_of_live hj hlive)
  inRange j hj hlive c hc := by
    obtain ⟨hin, h2⟩ := h.cells j (h.lt_of_live hj hlive) c hc
    exact ⟨UInt16.le_iff_toNat_le.mp h2, formatFs_inFat.mp hin⟩
  nodup j hj hlive := h.nodup j (h.lt_of_live hj hlive)
  disjoint i hi j hj hli hlj := h.disjoint i (h.lt_of_live hi hli) j (h.lt_of_live hj hlj)
  reserved := by
    have hres := h.reserved
    rwa [ReservedInUse, table_of_inFat (formatFs_inFat.mpr (by decide)),
      table_of_inFat (formatFs_inFat.mpr (by decide))] at hres

/-- **Chains stay well formed.**  From any drive, formatted and mounted, every sequence of
writing calls returns, with errors or without; afterwards the chains of the live slots are
well formed, and neither reserved cluster would be allocated next. -/
theorem chains_wellFormed_of_run (d₀ : Disk) :
    ∃ fs, init (formatDrive d₀) = some fs ∧ ∀ calls, ∃ outs d,
      fs.machine.run (formatDrive d₀) calls = .ok (outs, d) ∧
        (∃ chain, fs.ChainsWellFormed d chain) ∧
        ∀ c, fs.findFreeCluster d = .ok (some c) → 2 ≤ c.toNat ∧ c.toNat < 16384 := by
  refine ⟨formatFs, init_formatDrive d₀, fun calls => ?_⟩
  obtain ⟨outs, d, hrun, k, chain, hvol⟩ :=
    (volume_formatDrive d₀ fun _ => []).run formatFs_regular calls
  refine ⟨outs, d, hrun, ⟨chain, hvol.chainsWellFormed⟩, ?_⟩
  intro c hc
  rw [formatFs_regular.findFreeCluster, Except.ok.injEq] at hc
  have hmem : c ∈ formatFs.freeClusters d := List.mem_of_mem_head? hc
  have h2 := two_le_of_mem_free formatFs_regular hvol.reserved hmem
  exact ⟨UInt16.le_iff_toNat_le.mp h2,
    formatFs_inFat.mp ((mem_freeClusters formatFs_regular).mp hmem).1⟩

end Fat16FileSystem

end SilOS.Fat16
