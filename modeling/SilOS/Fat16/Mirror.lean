/-
# The two copies of the FAT

`format_drive` writes the same words into both FATs, and `set_fat_entry` writes to the first one
only.  So in every run the second FAT stays as it was formatted (`Mirrored.copy`), and the copies
differ from the first call of `write_new_file` on: that call leaves a data cluster in use, whether
it succeeds or not, and no later call gives back the last cluster in use (`Effect.occupied`).
-/
import SilOS.Fat16.Files
import SilOS.Fat16.Frame

namespace SilOS.Fat16

open Lib

/-- The call is one of `write_new_file`. -/
def Call.Creates : Call → Prop
  | .writeNewFile _ _ _ => True
  | .overwriteFile _ _ _ => False

instance : DecidablePred Call.Creates
  | .writeNewFile _ _ _ => isTrue trivial
  | .overwriteFile _ _ _ => isFalse id

namespace Fat16FileSystem

variable {fs : Fat16FileSystem} {d d' d₀ : Disk} {k j : ℕ} {chain : ℕ → List UInt16} {call : Call}
  {out : Except FsError Unit} {created : Bool}

/-! ### Data clusters in use -/

/-- Some data cluster is in use. -/
def Occupied (fs : Fat16FileSystem) (d : Disk) : Prop := ∃ c, fs.InFat c ∧ 2 ≤ c ∧ fs.table d c ≠ 0

/-- The clusters that were claimed are in use. -/
lemma Rewrote.occupied {old N : List UInt16} {data : List UInt8} (hreg : fs.Regular)
    (hres : fs.ReservedInUse d) (hold : ∀ x ∈ old, 2 ≤ x) (h : fs.Rewrote d d' old N j data)
    (hN : N ≠ []) : fs.Occupied d' := by
  obtain ⟨c, hc⟩ := List.exists_mem_of_ne_nil N hN
  have hin := ((Fat16FileSystem.mem_freeAfter hreg).mp (h.mem_freeAfter hc)).1
  have hnd := freeAfter_nodup hreg old (d := d)
  rw [← h.freeClusters hreg hres hold] at hnd
  refine ⟨c, hin, h.two_le hreg hres hold hc, fun hzero => ?_⟩
  exact (List.disjoint_of_nodup_append hnd) hc ((mem_freeClusters hreg).mpr ⟨hin, hzero⟩)

/-- A file has clusters in use. -/
lemma Volume.occupied (h : fs.Volume d k chain) (hj : j < k) : fs.Occupied d := by
  have hmem := h.clusterLow_mem hj
  obtain ⟨hin, h2⟩ := h.cells j hj _ hmem
  exact ⟨_, hin, h2, h.table_ne_zero hj hmem⟩

/-- A call that creates a file leaves a cluster in use, and every call keeps one in use. -/
lemma Effect.occupied (h : formatFs.Volume d k chain) (heff : formatFs.Effect d k chain call out d')
    (hbefore : call.Creates ∨ formatFs.Occupied d) : formatFs.Occupied d' := by
  have hreg := formatFs_regular
  cases heff with
  | directoryFull hk =>
      have hpos : 0 < k := by rw [hk, formatFs_slotCount]; omega
      exact h.occupied hpos
  | createFails hk hneed hw hslot =>
      by_cases hnone : formatFs.freeClusters d = []
      · -- nothing was free, so cluster 2 was in use before
        have hin : formatFs.InFat 2 := formatFs_inFat.mpr (by decide)
        refine ⟨2, hin, by decide, ?_⟩
        rw [hw.table_of_notMem (by simp) (by simp [hnone])]
        intro hzero
        have hmem := (mem_freeClusters hreg).mpr ⟨hin, hzero⟩
        rw [hnone] at hmem
        exact absurd hmem (by simp)
      · exact hw.occupied hreg h.reserved (by simp) hnone
  | created hk hneed hw hentry =>
      exact hw.occupied hreg h.reserved (by simp) (hw.leads_take hreg hneed).1
  | notFound hnone => exact hbefore.resolve_left id
  | overwriteFails hj hneed hw hslot =>
      exact hw.occupied hreg h.reserved (fun x hx => (h.cells _ hj.1 x hx).2)
        (List.ne_nil_of_mem (h.clusterLow_mem_freeAfter hreg hj.1))
  | overwritten hj hneed hw hentry =>
      exact hw.occupied hreg h.reserved (fun x hx => (h.cells _ hj.1 x hx).2)
        (hw.leads_take hreg hneed).1

/-! ### Runs -/

/-- The drive after calls on the formatted drive; `created` says whether one of them was a call of
`write_new_file`. -/
structure Mirrored (d₀ d : Disk) (created : Bool) : Prop where
  volume : ∃ k chain, formatFs.Volume d k chain
  /-- The second FAT is as it was formatted. -/
  copy : Set.EqOn d (formatDrive d₀) (Set.Ico 65 129)
  fresh : created = false → d = formatDrive d₀
  occupied : created = true → formatFs.Occupied d

lemma mirrored_formatDrive (d₀ : Disk) : Mirrored d₀ (formatDrive d₀) false :=
  ⟨⟨0, fun _ => [], volume_formatDrive d₀ _⟩, Set.eqOn_refl _ _, fun _ => rfl, by simp⟩

/-- **One call.** -/
lemma Mirrored.step (h : Mirrored d₀ d created)
    (hstep : formatFs.machine.step d call = .ok (out, d')) :
    Mirrored d₀ d' (created || decide call.Creates) := by
  have hreg := formatFs_regular
  obtain ⟨k, chain, hvol⟩ := h.volume
  have heff := hvol.effect_of_step hreg hstep
  refine ⟨heff.volume hreg hvol, ?_, ?_, ?_⟩
  · refine (hvol.eqOn_call ?_ ?_ hreg hstep).trans h.copy
    · intro lba hlba
      rw [formatFs_rootLba]
      exact hlba.2
    · intro c hc hmem
      rw [formatFs_inFat] at hc
      rw [formatFs_fatSector, Set.mem_Ico] at hmem
      omega
  · intro hno
    obtain ⟨rfl, hcall⟩ := Bool.or_eq_false_iff.mp hno
    obtain rfl := h.fresh rfl
    -- a formatted drive has no file to overwrite
    have heff₀ := (volume_formatDrive d₀ fun _ => []).effect_of_step hreg hstep
    cases heff₀ with
    | directoryFull | createFails | created => exact absurd trivial (of_decide_eq_false hcall)
    | notFound => rfl
    | overwriteFails hj | overwritten hj => exact absurd hj.1 (by omega)
  · intro hyes
    apply heff.occupied hvol
    rcases Bool.or_eq_true_iff.mp hyes with hbefore | hcall
    · exact Or.inr (h.occupied hbefore)
    · exact Or.inl (of_decide_eq_true hcall)

/-- The copies are equal as long as no file was created. -/
lemma Mirrored.equal_iff (h : Mirrored d₀ d created) :
    (∀ i < 64, d (65 + i) = d (1 + i)) ↔ created = false := by
  have hsame : ∀ i < 64, formatDrive d₀ (65 + i) = formatDrive d₀ (1 + i) := by
    intro i hi
    rw [formatDrive_apply d₀ (by omega), formatDrive_apply d₀ (by omega), if_neg (by omega),
      if_neg (by omega), if_pos (by omega), if_neg (by omega), if_pos (by omega),
      Nat.add_sub_cancel_left, Nat.add_sub_cancel_left]
  constructor
  · intro hequal
    by_contra hcreated
    obtain ⟨c, hin, h2, hused⟩ := h.occupied (Bool.not_eq_false _ ▸ hcreated)
    -- the sector of the first FAT with a word in use would be as it was formatted
    have hc := formatFs_inFat.mp hin
    have hsector : d (formatFs.fatSector c) = formatDrive d₀ (formatFs.fatSector c) := by
      rw [formatFs_fatSector, ← hequal _ (by omega), h.copy ⟨by omega, by omega⟩,
        hsame _ (by omega)]
    have hne0 : c ≠ 0 := by rintro rfl; exact absurd h2 (by decide)
    have hne1 : c ≠ 1 := by rintro rfl; exact absurd h2 (by decide)
    apply hused
    rw [table_of_inFat hin, formatFs.getFatEntry_congr hsector, ← table_of_inFat hin,
      table_formatDrive d₀ hin, if_neg hne0, if_neg hne1]
  · intro hnone
    rw [h.fresh hnone]
    exact hsame

/-- The flag after a run. -/
lemma foldl_creates (calls : List Call) (created : Bool) :
    calls.foldl (fun a call => a || decide call.Creates) created = false ↔
      created = false ∧ ∀ call ∈ calls, ¬ call.Creates := by
  induction calls generalizing created with
  | nil => simp
  | cons call calls ih => simp [ih, and_assoc]

/-- **The copies of the FAT.**  From any drive, formatted and mounted, after every sequence of
writing calls: the second FAT is as it was formatted, and it equals the first one exactly if no call
was one of `write_new_file`. -/
theorem fat_copies_equal_iff (d₀ : Disk) (calls : List Call) :
    ∃ fs outs d, init (formatDrive d₀) = some fs ∧
      fs.machine.run (formatDrive d₀) calls = .ok (outs, d) ∧
      (∀ i < 64, d (65 + i) = formatDrive d₀ (65 + i)) ∧
      ((∀ i < 64, d (65 + i) = d (1 + i)) ↔ ∀ call ∈ calls, ¬ call.Creates) := by
  obtain ⟨outs, d, hrun, -⟩ := (volume_formatDrive d₀ fun _ => []).run formatFs_regular calls
  have hmirrored : Mirrored d₀ d
      (calls.foldl (fun a call => a || decide call.Creates) false) :=
    formatFs.machine.run_simulation (P := fun _ => True) (G := fun _ _ => True)
      (fun _ _ _ _ _ h _ hstep _ => h.step hstep) (mirrored_formatDrive d₀)
      (fun _ _ _ _ => trivial) hrun (fun _ _ => trivial)
  refine ⟨formatFs, outs, d, init_formatDrive d₀, hrun, ?_, ?_⟩
  · intro i hi
    exact hmirrored.copy ⟨by omega, by omega⟩
  · rw [hmirrored.equal_iff, foldl_creates]
    simp

/-- After one file was created on a formatted drive the copies differ. -/
theorem fat_copies_differ_one_file :
    ∃ d, formatFs.machine.run (formatDrive blankDrive)
        [.writeNewFile (letters 0x41) txt [1]] = .ok ([.ok ()], d) ∧
      ∃ i < 64, d (65 + i) ≠ d (1 + i) := by
  have hfree := length_freeClusters_formatDrive blankDrive
  obtain ⟨d, chain, hcall, -⟩ := (stores_formatDrive blankDrive).create (letters 0x41) txt [1]
    (by omega) (by rw [hfree, formatFs_clustersFor]; decide) (by decide) rfl
  have hstep : formatFs.machine.step (formatDrive blankDrive)
    (.writeNewFile (letters 0x41) txt [1]) = .ok (.ok (), d) := hcall
  refine ⟨d, (Machine.run_cons_eq_ok _).mpr ⟨_, d, _, hstep, rfl, rfl⟩, ?_⟩
  have hmirrored := (mirrored_formatDrive blankDrive).step hstep
  by_contra hequal
  push Not at hequal
  have hnone := (Bool.or_eq_false_iff.mp (hmirrored.equal_iff.mp hequal)).2
  exact of_decide_eq_false hnone trivial

end Fat16FileSystem

end SilOS.Fat16
