/-
# Space accounting

A cluster is free if its word in the FAT is zero.  In runs of successful calls no cluster gets
lost: every word that is not zero belongs to a cluster of exactly one file.  Whether a call
succeeds is decided by counting free clusters, and a successful call changes the count by what
its data needs and, for an overwrite, by what the file had.
-/
import SilOS.Fat16.Files

namespace SilOS.Fat16

open Lib

/-- The number of clusters of 2048 bytes that the data needs, at least one. -/
def need (data : List UInt8) : ℕ := max 1 ((data.length + 2047) / 2048)

namespace Fat16FileSystem

variable {fs : Fat16FileSystem} {d d' : Disk} {k j : ℕ} {chain : ℕ → List UInt16}
  {filename : Bytes 8} {ext : Bytes 3} {data : List UInt8} {old N : List UInt16} {c : UInt16}

/-- The number of zero words of the first FAT among the clusters from 2 to 16383. -/
def freeCount (fs : Fat16FileSystem) (d : Disk) : ℕ :=
  (List.range 16384).countP fun c => decide (2 ≤ c ∧ fs.getFatEntry d (UInt16.ofNat c) = 0)

/-- Following the first FAT from the first cluster of slot `j` visits the cluster `c`. -/
def OnChain (fs : Fat16FileSystem) (d : Disk) (j : ℕ) (c : UInt16) : Prop :=
  ∃ l, Leads (fs.getFatEntry d) EndOfChain (fs.slotEntry d j).clusterLow l ∧ c ∈ l

/-! ### Counting free clusters -/

lemma freeCount_eq (hres : formatFs.ReservedInUse d) :
    formatFs.freeCount d = (formatFs.freeClusters d).length := by
  have hclusters : formatFs.clusters = (List.range 16384).map UInt16.ofNat := by
    rw [clusters, formatFs_sectorsPerFat]
    rfl
  rw [freeClusters, vacant, hclusters, List.filter_map, List.length_map,
    ← List.countP_eq_length_filter, freeCount]
  apply List.countP_congr
  intro c hc
  have hlt : c < 16384 := List.mem_range.mp hc
  have hin : formatFs.InFat (UInt16.ofNat c) := by
    rw [formatFs_inFat, UInt16.toNat_ofNat', Nat.mod_eq_of_lt (by omega)]
    exact hlt
  rw [Function.comp_apply, decide_eq_true_eq, decide_eq_true_eq, table_of_inFat hin]
  refine ⟨And.right, fun hzero => ⟨?_, hzero⟩⟩
  rw [← table_of_inFat hin] at hzero
  by_contra hcon
  rcases (by omega : c = 0 ∨ c = 1) with rfl | rfl
  · exact hres.1 hzero
  · exact hres.2 hzero

/-- `write_new_file` succeeds exactly if some slot is empty and enough clusters are free. -/
lemma Volume.create_ok_iff (h : formatFs.Volume d k chain) (filename : Bytes 8) (ext : Bytes 3)
    (data : List UInt8) :
    (∃ d', formatFs.writeNewFile d filename ext data = .ok (.ok (), d')) ↔
      (∃ j < formatFs.slotCount, ¬ formatFs.Live d j) ∧ need data ≤ formatFs.freeCount d := by
  rw [h.writeNewFile_ok_iff formatFs_regular, freeCount_eq h.reserved, formatFs_clustersFor]
  refine and_congr_left fun _ => ⟨fun hk => ⟨k, hk, h.free k le_rfl hk⟩, ?_⟩
  rintro ⟨j, hj, hfree⟩
  by_contra hcon
  exact hfree (h.live j (by omega))

lemma Volume.freeCount_create (h : formatFs.Volume d k chain)
    (hok : formatFs.writeNewFile d filename ext data = .ok (.ok (), d')) :
    formatFs.freeCount d' + need data = formatFs.freeCount d := by
  have hreg := formatFs_regular
  have hstep : formatFs.machine.step d (.writeNewFile filename ext data) = .ok (.ok (), d') := hok
  cases h.effect_of_step hreg hstep with
  | created hk hneed hw hentry =>
      have hlen := hw.length_freeClusters hreg h.reserved (by simp) freeAfter_nil hneed
      rw [freeCount_eq h.reserved, freeCount_eq (hw.reserved hreg h.reserved (by simp)), need,
        ← formatFs_clustersFor, hlen]

/-- The chain of the entry that is found. -/
lemma Volume.chain_of_find (h : formatFs.Volume d k chain) {entry : DirectoryEntry}
    {l : List UInt16} (hfind : formatFs.findFile d filename ext = .ok (some entry))
    (hl : Leads (formatFs.getFatEntry d) EndOfChain entry.clusterLow l) :
    ∃ j, formatFs.Finds d k filename ext j ∧ entry = formatFs.slotEntry d j ∧ l = chain j := by
  obtain ⟨j, hj, rfl⟩ := (h.findFile_eq_some formatFs_regular).mp hfind
  refine ⟨j, hj, rfl, hl.unique ?_⟩
  exact Leads.of_table (h.leads j hj.1) fun x hx => (h.cells j hj.1 x hx).1

/-- `overwrite_file` succeeds exactly if the file exists and enough clusters are free or its
own. -/
lemma Volume.overwrite_ok_iff (h : formatFs.Volume d k chain) (filename : Bytes 8) (ext : Bytes 3)
    (data : List UInt8) :
    (∃ d', formatFs.overwriteFile d filename ext data = .ok (.ok (), d')) ↔
      ∃ entry l, formatFs.findFile d filename ext = .ok (some entry) ∧
        Leads (formatFs.getFatEntry d) EndOfChain entry.clusterLow l ∧
        need data ≤ formatFs.freeCount d + l.length := by
  have hreg := formatFs_regular
  rw [h.overwriteFile_ok_iff hreg, freeCount_eq h.reserved, need, ← formatFs_clustersFor]
  constructor
  · rintro ⟨j, hj, hneed⟩
    rw [h.length_freeAfter hreg hj.1] at hneed
    exact ⟨_, chain j, (h.findFile_eq_some hreg).mpr ⟨j, hj, rfl⟩,
      Leads.of_table (h.leads j hj.1) fun x hx => (h.cells j hj.1 x hx).1, hneed⟩
  · rintro ⟨entry, l, hfind, hl, hneed⟩
    obtain ⟨j, hj, -, rfl⟩ := h.chain_of_find hfind hl
    exact ⟨j, hj, by rwa [h.length_freeAfter hreg hj.1]⟩

lemma Volume.freeCount_overwrite (h : formatFs.Volume d k chain) {entry : DirectoryEntry}
    {l : List UInt16} (hfind : formatFs.findFile d filename ext = .ok (some entry))
    (hl : Leads (formatFs.getFatEntry d) EndOfChain entry.clusterLow l)
    (hok : formatFs.overwriteFile d filename ext data = .ok (.ok (), d')) :
    formatFs.freeCount d' + need data = formatFs.freeCount d + l.length := by
  have hreg := formatFs_regular
  obtain ⟨j, hj, -, rfl⟩ := h.chain_of_find hfind hl
  have hstep : formatFs.machine.step d (.overwriteFile filename ext data) = .ok (.ok (), d') := hok
  cases h.effect_of_step hreg hstep with
  | overwritten hi hneed hw hentry =>
      obtain rfl := hi.unique hj
      have hcells := fun x hx => (h.cells _ hi.1 x hx).2
      have hlen := hw.length_freeClusters hreg h.reserved hcells rfl hneed
      rw [freeCount_eq h.reserved, freeCount_eq (hw.reserved hreg h.reserved hcells), need,
        ← formatFs_clustersFor, hlen, h.length_freeAfter hreg hi.1]

/-! ### No cluster gets lost -/

/-- Every data cluster in use belongs to a file. -/
def Covered (fs : Fat16FileSystem) (d : Disk) (k : ℕ) (chain : ℕ → List UInt16) : Prop :=
  ∀ c, fs.InFat c → 2 ≤ c → fs.table d c ≠ 0 → ∃ j < k, c ∈ chain j

lemma Covered.assign (h : fs.Covered d k chain) (hw : fs.Rewrote d d' old N j data)
    (hold : j < k → ∀ c ∈ chain j, c ∈ old) :
    fs.Covered d' (max k (j + 1)) (Function.update chain j N) := by
  intro c hin h2 hc
  by_cases hcN : c ∈ N
  · exact ⟨j, by omega, by rwa [Function.update_self]⟩
  · rw [hw.table, link_of_notMem hcN, clear] at hc
    by_cases hco : c ∈ old
    · exact absurd (if_pos hco) hc
    · rw [if_neg hco] at hc
      obtain ⟨i, hi, hci⟩ := h c hin h2 hc
      have hij : i ≠ j := by
        rintro rfl
        exact hco (hold hi c hci)
      exact ⟨i, by omega, by rwa [Function.update_of_ne hij]⟩

/-- A successful call under a live name keeps all clusters accounted for. -/
lemma Effect.covered {call : Call} (hreg : fs.Regular) (hvol : fs.Volume d k chain)
    (h : fs.Covered d k chain) (hname : ¬ FreeMark (call.name.1.byte 0))
    (heff : fs.Effect d k chain call (.ok ()) d') :
    ∃ k' chain', fs.Volume d' k' chain' ∧ fs.Covered d' k' chain' := by
  cases heff with
  | created hk hneed hw hentry =>
      have hcov := h.assign hw (fun hlt => absurd hlt (lt_irrefl k))
      rw [max_eq_right (by omega)] at hcov
      exact ⟨_, _, hvol.created hreg hk hneed hw hentry hname, hcov⟩
  | overwritten hj hneed hw hentry =>
      have hjk := hj.1
      have hcov := h.assign hw (fun _ c hc => hc)
      rw [max_eq_left (by omega)] at hcov
      exact ⟨_, _, hvol.overwritten hreg hjk hneed hw hentry, hcov⟩

lemma covered_formatDrive (d : Disk) (chain : ℕ → List UInt16) :
    formatFs.Covered (formatDrive d) 0 chain := by
  intro c hin h2 hc
  rw [table_formatDrive d hin, if_neg (ne_zero_of_two_le h2)] at hc
  have h1 : c ≠ 1 := by
    rintro rfl
    exact absurd h2 (by decide)
  rw [if_neg h1] at hc
  exact absurd rfl hc

/-- A data cluster in use lies on the chain of exactly one live slot. -/
lemma Volume.existsUnique_onChain (hvol : formatFs.Volume d k chain)
    (h : formatFs.Covered d k chain) (h2 : 2 ≤ c.toNat) (hlt : c.toNat < 16384)
    (hc : formatFs.getFatEntry d c ≠ 0) :
    ∃! j, j < formatFs.slotCount ∧ formatFs.Live d j ∧ formatFs.OnChain d j c := by
  have hcount := hvol.count
  have hin := formatFs_inFat.mpr hlt
  have hleads : ∀ i < k, Leads (formatFs.getFatEntry d) EndOfChain
      (formatFs.slotEntry d i).clusterLow (chain i) :=
    fun i hi => Leads.of_table (hvol.leads i hi) fun x hx => (hvol.cells i hi x hx).1
  obtain ⟨j, hj, hcj⟩ := h c hin (UInt16.le_iff_toNat_le.mpr h2) (by rwa [table_of_inFat hin])
  refine ⟨j, ⟨by omega, hvol.live j hj, chain j, hleads j hj, hcj⟩, ?_⟩
  rintro i ⟨hi, hlive, l, hl, hcl⟩
  have hik := hvol.lt_of_live hi hlive
  rw [hl.unique (hleads i hik)] at hcl
  by_contra hij
  exact hvol.disjoint i hik j hj hij hcl hcj

/-- **Exact space accounting.**  On every drive reached from a formatted one: if all calls
succeeded under live names, every data cluster in use lies on the chain of exactly one live
slot; both calls succeed exactly if a slot or the file is there and enough clusters are free;
and a success changes the number of free clusters by what was needed and what was freed. -/
theorem space_accounting {d₀ : Disk} {calls : List Call} {outs : List (Except FsError Unit)}
    (hinit : init (formatDrive d₀) = some fs)
    (hrun : fs.machine.run (formatDrive d₀) calls = .ok (outs, d)) :
    ((∀ out ∈ outs, out = .ok ()) → (∀ call ∈ calls, ¬ FreeMark (call.name.1.byte 0)) →
      ∀ c : UInt16, 2 ≤ c.toNat → c.toNat < 16384 → fs.getFatEntry d c ≠ 0 →
        ∃! j, j < fs.slotCount ∧ fs.Live d j ∧ fs.OnChain d j c) ∧
    (∀ filename ext data,
      ((∃ d', fs.writeNewFile d filename ext data = .ok (.ok (), d')) ↔
        (∃ j < fs.slotCount, ¬ fs.Live d j) ∧ need data ≤ fs.freeCount d) ∧
      ∀ d', fs.writeNewFile d filename ext data = .ok (.ok (), d') →
        fs.freeCount d' + need data = fs.freeCount d) ∧
    (∀ filename ext data,
      ((∃ d', fs.overwriteFile d filename ext data = .ok (.ok (), d')) ↔
        ∃ entry l, fs.findFile d filename ext = .ok (some entry) ∧
          Leads (fs.getFatEntry d) EndOfChain entry.clusterLow l ∧
          need data ≤ fs.freeCount d + l.length) ∧
      ∀ d' entry l, fs.findFile d filename ext = .ok (some entry) →
        Leads (fs.getFatEntry d) EndOfChain entry.clusterLow l →
        fs.overwriteFile d filename ext data = .ok (.ok (), d') →
        fs.freeCount d' + need data = fs.freeCount d + l.length) := by
  obtain ⟨rfl, k, chain, hvol⟩ := Reachable.volume ⟨d₀, calls, outs, hinit, hrun⟩
  refine ⟨?_, ?_, ?_⟩
  · intro hok hnames c h2 hlt hc
    have hcall : ∀ (d : Disk) (a : Unit) (call : Call) (out : Except FsError Unit) (d' : Disk),
        (∃ k chain, formatFs.Volume d k chain ∧ formatFs.Covered d k chain) →
        ¬ FreeMark (call.name.1.byte 0) → formatFs.machine.step d call = .ok (out, d') →
        out = .ok () → ∃ k chain, formatFs.Volume d' k chain ∧ formatFs.Covered d' k chain := by
      rintro d - call out d' ⟨k, chain, hvol, hcov⟩ hname hstep rfl
      exact (hvol.effect_of_step formatFs_regular hstep).covered formatFs_regular hvol hcov hname
    -- only successful calls keep every cluster in use on a chain, so the outputs matter here
    obtain ⟨k, chain, hvol, hcov⟩ := formatFs.machine.run_simulation
      (G := fun _ call => ¬ FreeMark (call.name.1.byte 0)) (f := fun _ _ => ()) (a := ()) hcall
      ⟨0, _, volume_formatDrive d₀ fun _ => [], covered_formatDrive d₀ _⟩
      (fun pre call post hsplit => hnames call (by rw [hsplit]; simp)) hrun hok
    exact hvol.existsUnique_onChain hcov h2 hlt hc
  · intro filename ext data
    exact ⟨hvol.create_ok_iff filename ext data, fun d' hok => hvol.freeCount_create hok⟩
  · intro filename ext data
    exact ⟨hvol.overwrite_ok_iff filename ext data,
      fun d' entry l hfind hl hok => hvol.freeCount_overwrite hfind hl hok⟩

/-- Two files are created on a formatted drive. -/
theorem space_accounting_two :
    ∃ d, formatFs.machine.run (formatDrive blankDrive) twoFiles = .ok ([.ok (), .ok ()], d) ∧
      ∀ c : UInt16, 2 ≤ c.toNat → c.toNat < 16384 → formatFs.getFatEntry d c ≠ 0 →
        ∃! j, j < formatFs.slotCount ∧ formatFs.Live d j ∧ formatFs.OnChain d j c := by
  obtain ⟨-, d, -, -, hrun⟩ := exists_twoFiles
  refine ⟨d, hrun, (space_accounting (init_formatDrive blankDrive) hrun).1 (by simp) ?_⟩
  rw [twoFiles, List.forall_mem_cons, List.forall_mem_singleton]
  exact ⟨by decide, by decide⟩

end Fat16FileSystem

end SilOS.Fat16
