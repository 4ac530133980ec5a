/-
# Names of files

`find_file` returns the first slot with a name, and `write_new_file` takes the first free slot
without looking for the name.  Names are therefore unique, and a new file is the one that is
found, in the runs that create files only under names that `find_file` does not find.  The
editor makes this check before it creates a file; `mkdir` and the smoke test at boot do not,
and two files of one name are the result.
-/
import SilOS.Fat16.Files

namespace SilOS.Fat16

open Lib

namespace Fat16FileSystem

variable {fs : Fat16FileSystem} {d d' : Disk} {k j : ℕ} {chain : ℕ → List UInt16} {call : Call}
  {out : Except FsError Unit} {filename : Bytes 8} {ext : Bytes 3} {data : List UInt8}

/-- No two live slots carry the same name. -/
def UniqueNames (fs : Fat16FileSystem) (d : Disk) : Prop :=
  ∀ i < fs.slotCount, ∀ j < fs.slotCount, fs.Live d i → fs.Live d j →
    fs.slotName d i = fs.slotName d j → i = j

/-- A file is only created under a name that is not found. -/
def Fresh (fs : Fat16FileSystem) (d : Disk) : Call → Prop
  | .writeNewFile filename ext _ =>
      ¬ FreeMark (filename.byte 0) → fs.findFile d filename ext = .ok none
  | .overwriteFile _ _ _ => True

/-- Names stay unique when no slot becomes live and none changes its name. -/
lemma UniqueNames.of_slots (h : fs.UniqueNames d)
    (hslots : ∀ i < fs.slotCount, fs.Live d' i →
      fs.Live d i ∧ fs.slotName d' i = fs.slotName d i) : fs.UniqueNames d' := by
  intro i hi j hj hli hlj hname
  obtain ⟨hli, hni⟩ := hslots i hi hli
  obtain ⟨hlj, hnj⟩ := hslots j hj hlj
  rw [hni, hnj] at hname
  exact h i hi j hj hli hlj hname

/-- Only slot `j` may have changed, and it changed neither its first byte nor its name. -/
lemma UniqueNames.of_rewrote {old N : List UInt16} (h : fs.UniqueNames d)
    (hw : fs.Rewrote d d' old N j data)
    (hj : fs.Live d' j → fs.Live d j ∧ fs.slotName d' j = fs.slotName d j) :
    fs.UniqueNames d' := by
  apply h.of_slots
  intro i hi hlive
  by_cases hij : i = j
  · subst hij
    exact hj hlive
  · have hslot := hw.slots i hi hij
    exact ⟨(live_congr hslot).mp hlive, slotName_congr hslot⟩

/-- Names stay unique when slot `k` becomes live under a name that no live slot has. -/
lemma UniqueNames.of_created (hvol : fs.Volume d k chain) (h : fs.UniqueNames d)
    {old N : List UInt16} (hw : fs.Rewrote d d' old N k data)
    (hfresh : ∀ i < k, fs.slotName d i ≠ fs.slotName d' k) : fs.UniqueNames d' := by
  have hkept : ∀ i < fs.slotCount, i ≠ k → fs.Live d' i →
      fs.Live d i ∧ fs.slotName d' i = fs.slotName d i ∧ i < k := by
    intro i hi hik hlive
    have hslot := hw.slots i hi hik
    have hlive' := (live_congr hslot).mp hlive
    exact ⟨hlive', slotName_congr hslot, hvol.lt_of_live hi hlive'⟩
  intro i hi j hj hli hlj hname
  by_cases hik : i = k
  · by_contra hij
    obtain ⟨-, hnj, hjk⟩ := hkept j hj (fun he => hij (hik.trans he.symm)) hlj
    rw [hik, hnj] at hname
    exact hfresh j hjk hname.symm
  · obtain ⟨hli, hni, hik'⟩ := hkept i hi hik hli
    by_cases hjk : j = k
    · rw [hjk, hni] at hname
      exact absurd hname (hfresh i hik')
    · obtain ⟨hlj, hnj, -⟩ := hkept j hj hjk hlj
      rw [hni, hnj] at hname
      exact h i hi j hj hli hlj hname

/-- **One call** that creates a file only under a fresh name keeps names unique. -/
theorem Effect.uniqueNames (hreg : fs.Regular) (hvol : fs.Volume d k chain)
    (h : fs.UniqueNames d) (hfresh : fs.Fresh d call) (heff : fs.Effect d k chain call out d') :
    fs.UniqueNames d' := by
  cases heff with
  | directoryFull hk => exact h
  | createFails hk hneed hw hslot =>
      exact h.of_rewrote hw fun hlive => ⟨(live_congr hslot).mp hlive, slotName_congr hslot⟩
  | @created filename ext data d' hk hneed hw hentry =>
      have hname : fs.slotName d' k = (filename, ext) := by rw [slotName, hentry]; rfl
      by_cases hmark : FreeMark (filename.byte 0)
      · -- the new entry is not live
        refine h.of_rewrote hw fun hlive => absurd hmark ?_
        have := hlive.filename
        rwa [hentry] at this
      · refine h.of_created hvol hw ?_
        intro i hi hni
        rw [hname] at hni
        exact (hvol.findFile_eq_none hreg).mp (hfresh hmark) i hi (hasName_iff.mpr hni)
  | notFound hnone => exact h
  | overwriteFails hj hneed hw hslot =>
      exact h.of_rewrote hw fun hlive => ⟨(live_congr hslot).mp hlive, slotName_congr hslot⟩
  | overwritten hj hneed hw hentry =>
      refine h.of_rewrote hw fun _ => ⟨hvol.live _ hj.1, ?_⟩
      rw [slotName, hentry]
      rfl

lemma uniqueNames_formatDrive (d : Disk) : formatFs.UniqueNames (formatDrive d) := by
  intro i hi j _ hli
  exact absurd hli (not_live_formatDrive d (formatFs_slotCount ▸ hi))

/-- A file created under a fresh name is the one that is found. -/
lemma Volume.find_created (h : formatFs.Volume d k chain) (hmark : ¬ FreeMark (filename.byte 0))
    (hfresh : formatFs.findFile d filename ext = .ok none)
    (hstep : formatFs.writeNewFile d filename ext data = .ok (.ok (), d')) :
    ∃ lba off entry, formatFs.findEmptyRootSlot d = .ok (some (lba, off)) ∧
      formatFs.findFileLocation d' filename ext = .ok (some (lba, off, entry)) ∧
      formatFs.findFile d' filename ext = .ok (some entry) ∧
      formatFs.readFile d' entry = .ok data := by
  have hreg := formatFs_regular
  have hstep' : formatFs.machine.step d (.writeNewFile filename ext data) = .ok (.ok (), d') :=
    hstep
  cases h.effect_of_step hreg hstep' with
  | created hk hneed hw hentry =>
      have hvol := h.created hreg hk hneed hw hentry hmark
      have hfinds : formatFs.Finds d' (k + 1) filename ext k := by
        refine ⟨by omega, hasName_iff.mpr (by rw [slotName, hentry]; rfl), ?_⟩
        intro i hi hname
        rw [HasName, slotEntry_congr (hw.slots i (by omega) (by omega))] at hname
        exact (h.findFile_eq_none hreg).mp hfresh i hi hname
      have hloc : formatFs.findFileLocation d' filename ext =
          .ok (some (formatFs.slotLba k, slotOffset k, formatFs.slotEntry d' k)) := by
        rw [findFileLocation_of_packed hreg.toAddressable hvol.count hvol.live hvol.free,
          find?_eq_some_iff_finds.mpr hfinds]
        rfl
      have hlen := length_lt_of_fits d [] (by rwa [freeAfter_nil])
      refine ⟨formatFs.slotLba k, slotOffset k, formatFs.slotEntry d' k,
        findEmptyRootSlot_of_packed hreg.toAddressable hk h.live (h.free k le_rfl hk), hloc,
        (hvol.findFile_eq_some hreg).mpr ⟨k, hfinds, rfl⟩, ?_⟩
      exact hvol.readFile_written hreg (by omega) (by rwa [Function.update_self])
        (by rw [Function.update_self]; simp [hneed]) (by rw [hentry]; rfl) hlen

/-- A file created under a name in use is not found: the old file still is, with its data. -/
lemma Volume.find_shadowed (h : formatFs.Volume d k chain) (hmark : ¬ FreeMark (filename.byte 0))
    {entry : DirectoryEntry} (hfind : formatFs.findFile d filename ext = .ok (some entry))
    (hstep : formatFs.writeNewFile d filename ext data = .ok (.ok (), d')) :
    ¬ formatFs.UniqueNames d' ∧ formatFs.findFile d' filename ext = .ok (some entry) ∧
      formatFs.readFile d' entry = formatFs.readFile d entry := by
  have hreg := formatFs_regular
  have hcount := h.count
  obtain ⟨j, hj, rfl⟩ := (h.findFile_eq_some hreg).mp hfind
  have hjk : j < k := hj.1
  have hstep' : formatFs.machine.step d (.writeNewFile filename ext data) = .ok (.ok (), d') :=
    hstep
  cases h.effect_of_step hreg hstep' with
  | created hk hneed hw hentry =>
      have hvol := h.created hreg hk hneed hw hentry hmark
      have hsame : ∀ i ≤ j, formatFs.slotEntry d' i = formatFs.slotEntry d i :=
        fun i hi => slotEntry_congr (hw.slots i (by omega) (by omega))
      have hfinds : formatFs.Finds d' (k + 1) filename ext j := by
        refine ⟨by omega, ?_, ?_⟩
        · rw [HasName, hsame j le_rfl]
          exact hj.2.1
        · intro i hi
          rw [HasName, hsame i hi.le]
          exact hj.2.2 i hi
      refine ⟨?_, ?_, ?_⟩
      · intro hunique
        have hjk' : j = k := by
          refine hunique j (by omega) k hk (hvol.live j (by omega)) (hvol.live k (by omega)) ?_
          rw [hasName_iff.mp hfinds.2.1, slotName, hentry]
          rfl
        omega
      · exact (hvol.findFile_eq_some hreg).mpr ⟨j, hfinds, (hsame j le_rfl).symm⟩
      · have hread := h.readFile_of_rewrote hreg hw hjk (by omega) (by simp)
        rwa [hsame j le_rfl] at hread

/-- **Names are unique if files are only created under fresh names.**  In every run from a
formatted drive whose creating calls are all made under names that `find_file` does not find,
the names of the live slots are pairwise different.  From there, a file that is created leaves
names unique exactly if its name is fresh, and then it is found in the slot it was written to
and reads as its data. -/
theorem names_unique_of_fresh {d₀ : Disk} {calls : List Call}
    (hinit : init (formatDrive d₀) = some fs)
    (hfresh : fs.machine.Along fs.Fresh (formatDrive d₀) calls) :
    ∃ outs d, fs.machine.run (formatDrive d₀) calls = .ok (outs, d) ∧ fs.UniqueNames d ∧
      ∀ filename ext data d', ¬ FreeMark (filename.byte 0) →
        fs.writeNewFile d filename ext data = .ok (.ok (), d') →
        (fs.UniqueNames d' ↔ fs.findFile d filename ext = .ok none) ∧
        (fs.findFile d filename ext = .ok none →
          ∃ lba off entry, fs.findEmptyRootSlot d = .ok (some (lba, off)) ∧
            fs.findFileLocation d' filename ext = .ok (some (lba, off, entry)) ∧
            fs.findFile d' filename ext = .ok (some entry) ∧ fs.readFile d' entry = .ok data) := by
  obtain rfl := eq_formatFs hinit
  have hreg := formatFs_regular
  have hcall : ∀ d call, ((∃ k chain, formatFs.Volume d k chain) ∧ formatFs.UniqueNames d) →
      formatFs.Fresh d call → ∃ out d', formatFs.machine.step d call = .ok (out, d') ∧
        (∃ k chain, formatFs.Volume d' k chain) ∧ formatFs.UniqueNames d' := by
    rintro d call ⟨⟨k, chain, hvol⟩, hnames⟩ hfresh
    obtain ⟨out, d', hstep, heff⟩ := hvol.call hreg call
    exact ⟨out, d', hstep, heff.volume hreg hvol, heff.uniqueNames hreg hvol hnames hfresh⟩
  obtain ⟨outs, d, hrun, ⟨k, chain, hvol⟩, hnames⟩ := formatFs.machine.run_invariant hcall
    ⟨⟨0, _, volume_formatDrive d₀ fun _ => []⟩, uniqueNames_formatDrive d₀⟩ hfresh
  refine ⟨outs, d, hrun, hnames, ?_⟩
  intro filename ext data d' hmark hstep
  refine ⟨⟨fun hunique => ?_, fun hnone => ?_⟩, fun hnone => hvol.find_created hmark hnone hstep⟩
  · rcases formatFs.finds_or d k filename ext with ⟨j, hj⟩ | hnone
    · have hfind := (hvol.findFile_eq_some hreg).mpr ⟨j, hj, rfl⟩
      exact absurd hunique (hvol.find_shadowed hmark hfind hstep).1
    · exact (hvol.findFile_eq_none hreg).mpr hnone
  · have hstep' : formatFs.machine.step d (.writeNewFile filename ext data) = .ok (.ok (), d') :=
      hstep
    have hfr : formatFs.Fresh d (.writeNewFile filename ext data) := fun _ => hnone
    exact (hvol.effect_of_step hreg hstep').uniqueNames hreg hvol hnames hfr

/-- Two files are created under different names. -/
theorem names_unique_of_fresh_two :
    ∃ d, formatFs.machine.run (formatDrive blankDrive) twoFiles = .ok ([.ok (), .ok ()], d) ∧
      formatFs.UniqueNames d := by
  obtain ⟨d₁, d₂, hcall, h₁, hboth⟩ := exists_twoFiles
  have hstep : formatFs.machine.step (formatDrive blankDrive)
      (.writeNewFile (letters 0x41) txt [1]) = .ok (.ok (), d₁) := hcall
  have hnone : formatFs.findFile (formatDrive blankDrive) (letters 0x41) txt = .ok none :=
    ((volume_formatDrive blankDrive fun _ => []).findFile_eq_none formatFs_regular).mpr (by simp)
  have hnone₁ : formatFs.findFile d₁ (letters 0x42) txt = .ok none :=
    h₁.absent (letters 0x42) txt (by decide)
  have hfresh : formatFs.machine.Along formatFs.Fresh (formatDrive blankDrive) twoFiles := by
    rw [twoFiles, Machine.along_cons_of_step _ hstep]
    exact ⟨fun _ => hnone, fun _ => hnone₁, fun _ _ _ => trivial⟩
  obtain ⟨outs, d, hrun, hnames, -⟩ :=
    names_unique_of_fresh (init_formatDrive blankDrive) hfresh
  rw [hboth, Except.ok.injEq, Prod.mk.injEq] at hrun
  obtain ⟨-, rfl⟩ := hrun
  exact ⟨d₂, hboth, hnames⟩

/-- **Creating a file twice.**  Both calls succeed, two live slots carry the name, and the
first data is what is read. -/
theorem names_not_unique :
    ∃ d entry, formatFs.machine.run (formatDrive blankDrive)
        [.writeNewFile (letters 0x41) txt [1], .writeNewFile (letters 0x41) txt [2]] =
        .ok ([.ok (), .ok ()], d) ∧ ¬ formatFs.UniqueNames d ∧
      formatFs.findFile d (letters 0x41) txt = .ok (some entry) ∧
      formatFs.readFile d entry = .ok [1] := by
  have hfree := length_freeClusters_formatDrive blankDrive
  obtain ⟨d₁, chain₁, hstep₁, h₁, hfree₁⟩ := (stores_formatDrive blankDrive).create
    (letters 0x41) txt [1] (by omega) (by rw [hfree, formatFs_clustersFor]; decide) (by decide) rfl
  obtain ⟨d₂, hstep₂⟩ := (h₁.volume.writeNewFile_ok_iff formatFs_regular (letters 0x41) txt
    [2]).mpr ⟨by rw [formatFs_slotCount]; omega, by
      rw [hfree₁, List.length_drop, hfree, formatFs_clustersFor, formatFs_clustersFor]
      decide⟩
  obtain ⟨entry, hfind, hread⟩ := (h₁.implements formatFs_regular).present (letters 0x41) txt [1]
    (Function.update_self _ _ _)
  obtain ⟨hnot, hfind₂, hread₂⟩ := h₁.volume.find_shadowed (by decide) hfind hstep₂
  refine ⟨d₂, entry, ?_, hnot, hfind₂, by rw [hread₂, hread]⟩
  rw [Machine.run_cons_eq_ok]
  refine ⟨_, d₁, _, hstep₁, ?_, rfl⟩
  rw [Machine.run_cons_eq_ok]
  exact ⟨_, d₂, _, hstep₂, rfl, rfl⟩

end Fat16FileSystem

end SilOS.Fat16
