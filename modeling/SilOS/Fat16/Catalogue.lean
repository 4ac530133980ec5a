/-
# The volume as a list of files

What the file system does, without sectors and clusters: the volume is the list of its files in the
order of the directory, and the number of its free clusters.  A name may stand in the list several
times; the first file with the name is the one that is found.

The list says how every call ends, also the calls that fail and the names that the directory cannot
hold.  There is one exception: an overwrite that runs out of space has given up the old contents by
then, and what the file holds afterwards depends on where its clusters were.
-/
import SilOS.Fat16.Frame
import SilOS.Fat16.Space

namespace SilOS.Fat16

open Lib

/-- The files of a volume in the order of its directory, and the number of its free clusters. -/
structure Catalogue where
  files : List ((Bytes 8 × Bytes 3) × List UInt8)
  free : ℕ
deriving DecidableEq

namespace Catalogue

/-- The volume after `format_drive`. -/
def blank : Catalogue := ⟨[], 16382⟩

/-- The place of the first file with a name. -/
def indexOf (c : Catalogue) (name : Bytes 8 × Bytes 3) : Option ℕ :=
  c.files.findIdx? fun file => file.1 = name

/-- The contents of the first file with a name. -/
def contents (c : Catalogue) (name : Bytes 8 × Bytes 3) : Option (List UInt8) :=
  (c.files.find? fun file => file.1 = name).map Prod.snd

/-- What `write_new_file` does.  A file whose name marks its slot as free takes clusters all the
same, and one that does not fit takes all that are left. -/
def create (c : Catalogue) (name : Bytes 8 × Bytes 3) (data : List UInt8) :
    Except FsError Unit × Catalogue :=
  if c.files.length = 512 then (.error .rootDirectoryFull, c)
  else if c.free < need data then (.error .diskFull, { c with free := 0 })
  else
    (.ok (),
      { files := if FreeMark (name.1.byte 0) then c.files else c.files ++ [(name, data)]
        free := c.free - need data })

/-- What `overwrite_file` does, unless it runs out of space. -/
def overwrite (c : Catalogue) (name : Bytes 8 × Bytes 3) (data : List UInt8) :
    Except Unit (Except FsError Unit × Catalogue) :=
  match c.indexOf name with
  | none => .ok (.error .fileNotFound, c)
  | some j =>
      let room := c.free + (c.files[j]?.elim 0 fun file => need file.2)
      if room < need data then .error ()
      else .ok (.ok (), { files := c.files.set j (name, data), free := room - need data })

/-- The calls, as far as the list of files says how they end. -/
def machine : Machine Catalogue Call (Except FsError Unit) Unit where
  step c
    | .writeNewFile filename ext data => .ok (c.create (filename, ext) data)
    | .overwriteFile filename ext data => c.overwrite (filename, ext) data

end Catalogue

namespace Fat16FileSystem

variable {d d' : Disk} {j : ℕ} {chain : ℕ → List UInt16} {c : Catalogue} {old N : List UInt16}
  {data : List UInt8} {filename : Bytes 8} {ext : Bytes 3}

lemma clustersFor_eq_need (data : List UInt8) : formatFs.clustersFor data = need data :=
  formatFs_clustersFor data

/-- The drive holds the files of the list in its first slots, each in as many clusters as its data
needs, and it has as many free clusters as the list says. -/
structure Lists (d : Disk) (c : Catalogue) (chain : ℕ → List UInt16) : Prop where
  volume : formatFs.Volume d c.files.length chain
  named : ∀ (j : ℕ) (hj : j < c.files.length), formatFs.slotName d j = c.files[j].1
  content : ∀ (j : ℕ) (hj : j < c.files.length),
    formatFs.readFile d (formatFs.slotEntry d j) = .ok c.files[j].2
  length_chain : ∀ (j : ℕ) (hj : j < c.files.length), (chain j).length = need c.files[j].2
  free : (formatFs.freeClusters d).length = c.free

namespace Lists

/-! ### Looking files up -/

/-- The slot that is found is the place of the first file with the name. -/
lemma finds_iff (h : Lists d c chain) :
    formatFs.Finds d c.files.length filename ext j ↔ c.indexOf (filename, ext) = some j := by
  rw [Catalogue.indexOf, List.findIdx?_eq_some_iff_getElem]
  simp only [Finds, hasName_iff, decide_eq_true_eq]
  constructor
  · rintro ⟨hj, hname, hfirst⟩
    refine ⟨hj, (h.named j hj).symm.trans hname, fun i hi hfile => ?_⟩
    exact hfirst i hi ((h.named i (hi.trans hj)).trans hfile)
  · rintro ⟨hj, hname, hfirst⟩
    refine ⟨hj, (h.named j hj).trans hname, fun i hi hfile => ?_⟩
    exact hfirst i hi ((h.named i (hi.trans hj)).symm.trans hfile)

/-- The drive shows the contents of the list under its names. -/
lemma implements (h : Lists d c chain) : formatFs.Implements d c.contents where
  absent filename ext hnone := by
    rw [Catalogue.contents, Option.map_eq_none_iff, List.find?_eq_none] at hnone
    rw [h.volume.findFile_eq_none formatFs_regular]
    intro j hj hname
    rw [hasName_iff, h.named j hj] at hname
    exact hnone c.files[j] (List.getElem_mem hj) (by simpa using hname)
  present filename ext data hsome := by
    rw [Catalogue.contents, Option.map_eq_some_iff] at hsome
    obtain ⟨file, hfind, rfl⟩ := hsome
    obtain ⟨hname, j, hj, rfl, hfirst⟩ := List.find?_eq_some_iff_getElem.mp hfind
    have hindex : c.indexOf (filename, ext) = some j := by
      rw [Catalogue.indexOf, List.findIdx?_eq_some_iff_getElem]
      exact ⟨hj, hname, fun i hi => by simpa using hfirst i hi⟩
    exact ⟨_, (h.volume.findFile_eq_some formatFs_regular).mpr ⟨j, h.finds_iff.mpr hindex, rfl⟩,
      h.content j hj⟩

/-! ### One call -/

/-- A call that leaves slot `j` outside of the directory leaves the files as they are. -/
lemma keep (h : Lists d c chain) {j : ℕ} {n : ℕ} (hj : c.files.length ≤ j)
    (hw : formatFs.Rewrote d d' [] N j data) (hvol : formatFs.Volume d' c.files.length chain)
    (hfree : (formatFs.freeClusters d').length = n) : Lists d' { c with free := n } chain where
  volume := hvol
  named i hi := by
    have hcount := h.volume.count
    have hij : i ≠ j := by
      rintro rfl
      exact absurd hi (by simpa using hj)
    exact (slotName_congr (hw.slots i (lt_of_lt_of_le hi hcount) hij)).trans (h.named i hi)
  content i hi := by
    have hij : i ≠ j := by
      rintro rfl
      exact absurd hi (by simpa using hj)
    rw [h.volume.readFile_of_rewrote formatFs_regular hw hi hij (by simp)]
    exact h.content i hi
  length_chain := h.length_chain
  free := hfree

/-- A call that puts a file into slot `j`, under the name that the slot has then. -/
lemma write (h : Lists d c chain) {files : List ((Bytes 8 × Bytes 3) × List UInt8)} {n : ℕ}
    (hw : formatFs.Rewrote d d' old N j data)
    (hvol : formatFs.Volume d' files.length (Function.update chain j N))
    (hold : ∀ i < c.files.length, i ≠ j → (chain i).Disjoint old)
    (hN : N.length = formatFs.clustersFor data)
    (hsize : (formatFs.slotEntry d' j).fileSize = UInt32.ofNat data.length)
    (hlen : data.length < 2 ^ 32)
    (hnew : ∀ hj : j < files.length, files[j] = (formatFs.slotName d' j, data))
    (hkept : ∀ (i : ℕ) (hi : i < files.length), i ≠ j →
      ∃ hi' : i < c.files.length, files[i] = c.files[i])
    (hfree : (formatFs.freeClusters d').length = n) :
    Lists d' ⟨files, n⟩ (Function.update chain j N) := by
  have hreg := formatFs_regular
  refine ⟨hvol, fun i hi => ?_, fun i hi => ?_, fun i hi => ?_, hfree⟩
  · by_cases hij : i = j
    · subst hij
      rw [hnew hi]
    · obtain ⟨hi', hfile⟩ := hkept i hi hij
      rw [hfile, slotName_congr (hw.slots i (lt_of_lt_of_le hi' h.volume.count) hij)]
      exact h.named i hi'
  · by_cases hij : i = j
    · subst hij
      rw [hnew hi]
      exact hvol.readFile_written hreg hi (by rwa [Function.update_self])
        (by rw [Function.update_self, hN]) hsize hlen
    · obtain ⟨hi', hfile⟩ := hkept i hi hij
      rw [hfile, h.volume.readFile_of_rewrote hreg hw hi' hij (hold i hi' hij)]
      exact h.content i hi'
  · by_cases hij : i = j
    · subst hij
      rw [hnew hi, Function.update_self, hN, formatFs_clustersFor]
      rfl
    · obtain ⟨hi', hfile⟩ := hkept i hi hij
      rw [hfile, Function.update_of_ne hij]
      exact h.length_chain i hi'

/-- The free clusters left once data took its clusters from `F`. -/
lemma length_freeClusters_sub (hvol : formatFs.Volume d c.files.length chain) {F : List UInt16}
    (hold : ∀ x ∈ old, 2 ≤ x) (hF : formatFs.freeAfter d old = F)
    (hneed : formatFs.clustersFor data ≤ F.length)
    (hw : formatFs.Rewrote d d' old (F.take (formatFs.clustersFor data)) j data) :
    (formatFs.freeClusters d').length = F.length - need data := by
  have hlen := hw.length_freeClusters formatFs_regular hvol.reserved hold hF hneed
  rw [clustersFor_eq_need] at hlen
  omega

/-- `write_new_file` does what the list says. -/
lemma create (h : Lists d c chain) (filename : Bytes 8) (ext : Bytes 3) (data : List UInt8) :
    ∃ d' chain', formatFs.machine.step d (.writeNewFile filename ext data) =
        .ok ((c.create (filename, ext) data).1, d') ∧
      Lists d' (c.create (filename, ext) data).2 chain' := by
  have hreg := formatFs_regular
  obtain ⟨out, d', hstep, heff⟩ := h.volume.call hreg (.writeNewFile filename ext data)
  rw [Catalogue.create, ← formatFs_slotCount, ← h.free, ← clustersFor_eq_need]
  cases heff with
  | directoryFull hk =>
      rw [if_pos hk]
      exact ⟨d, chain, hstep, h⟩
  | createFails hk hneed hw hslot =>
      rw [if_neg hk.ne, if_pos hneed]
      have hfree : ¬ formatFs.Live d' c.files.length := by
        rw [live_congr hslot]
        exact h.volume.free _ le_rfl hk
      have hw' : formatFs.Rewrote d d' []
          ((formatFs.freeClusters d).take (formatFs.freeClusters d).length) c.files.length
          data := by
        rwa [List.take_length]
      have hnil := hw'.freeClusters_eq_drop hreg h.volume.reserved (by simp) freeAfter_nil
      exact ⟨d', chain, hstep, h.keep le_rfl hw (h.volume.keep hreg hw hfree) (by simp [hnil])⟩
  | created hk hneed hw hentry =>
      rw [if_neg hk.ne, if_neg (by omega), clustersFor_eq_need]
      have hleft := length_freeClusters_sub h.volume (by simp) freeAfter_nil hneed hw
      by_cases hname : FreeMark (filename.byte 0)
      · -- the new entry reads as an unused or deleted slot
        rw [if_pos hname]
        refine ⟨d', chain, hstep, h.keep le_rfl hw (h.volume.keep hreg hw ?_) hleft⟩
        rw [Live, ← byte_filename_slotEntry, hentry, not_not]
        exact hname
      · rw [if_neg hname]
        have hslot : formatFs.slotName d' c.files.length = (filename, ext) := by
          rw [slotName, hentry]
          rfl
        have hlen := length_lt_of_fits d [] (by rwa [freeAfter_nil])
        refine ⟨d', _, hstep, h.write hw ?_ (by simp) (by simp [hneed]) (by rw [hentry]; rfl) hlen
          ?_ ?_ hleft⟩
        · rw [List.length_append]
          exact h.volume.created hreg hk hneed hw hentry hname
        · intro hj
          rw [List.getElem_append_right le_rfl, hslot]
          simp
        · intro i hi hij
          rw [List.length_append, List.length_singleton] at hi
          exact ⟨by omega, List.getElem_append_left (by omega)⟩

/-- `overwrite_file` does what the list says, as far as it says anything. -/
lemma overwrite (h : Lists d c chain) (filename : Bytes 8) (ext : Bytes 3) (data : List UInt8)
    {out : Except FsError Unit} {c₁ : Catalogue}
    (hok : c.overwrite (filename, ext) data = .ok (out, c₁)) :
    ∃ d' chain', formatFs.machine.step d (.overwriteFile filename ext data) = .ok (out, d') ∧
      Lists d' c₁ chain' := by
  have hreg := formatFs_regular
  obtain ⟨out₁, d', hstep, heff⟩ := h.volume.call hreg (.overwriteFile filename ext data)
  -- the clusters that an overwrite of the file at `j` may take, and those that the list counts
  have hroom : ∀ j, formatFs.Finds d c.files.length filename ext j →
      c.free + (c.files[j]?.elim 0 fun file => need file.2) =
        (formatFs.freeAfter d (chain j)).length := by
    intro j hj
    rw [List.getElem?_eq_getElem hj.1, Option.elim_some, ← h.length_chain j hj.1, ← h.free,
      h.volume.length_freeAfter hreg hj.1]
  cases heff with
  | notFound hnone =>
      have hindex : c.indexOf (filename, ext) = none := by
        rw [Option.eq_none_iff_forall_ne_some]
        intro j hj
        exact hnone j (h.finds_iff.mpr hj).1 (h.finds_iff.mpr hj).2.1
      rw [Catalogue.overwrite, hindex] at hok
      cases hok
      exact ⟨d, chain, hstep, h⟩
  | overwriteFails hj hneed hw hslot =>
      rw [Catalogue.overwrite, h.finds_iff.mp hj] at hok
      dsimp only at hok
      rw [hroom _ hj, if_pos (by rwa [← clustersFor_eq_need])] at hok
      cases hok
  | @overwritten _ _ _ j d' hj hneed hw hentry =>
      rw [Catalogue.overwrite, h.finds_iff.mp hj] at hok
      dsimp only at hok
      rw [hroom _ hj, if_neg (by rw [← clustersFor_eq_need]; omega)] at hok
      cases hok
      have hjk := hj.1
      have hslot : formatFs.slotName d' j = (filename, ext) := by
        rw [← hasName_iff.mp hj.2.1, slotName, hentry]
        rfl
      have hcells := fun x hx => (h.volume.cells j hjk x hx).2
      refine ⟨d', _, hstep, h.write hw ?_ (fun i hi hij => h.volume.disjoint i hi j hjk hij)
        (by simp [hneed]) (by rw [hentry]; rfl) (length_lt_of_fits d _ hneed) ?_ ?_
        (length_freeClusters_sub h.volume hcells rfl hneed hw)⟩
      · rw [List.length_set]
        exact h.volume.overwritten hreg hjk hneed hw hentry
      · intro hj'
        rw [List.getElem_set_self, hslot]
      · intro i hi hij
        rw [List.length_set] at hi
        exact ⟨hi, List.getElem_set_ne hij.symm _⟩

end Lists

lemma lists_formatDrive (d : Disk) : Lists (formatDrive d) Catalogue.blank fun _ => [] where
  volume := volume_formatDrive d _
  named j hj := absurd hj (Nat.not_lt_zero j)
  content j hj := absurd hj (Nat.not_lt_zero j)
  length_chain j hj := absurd hj (Nat.not_lt_zero j)
  free := length_freeClusters_formatDrive d

/-! ### Whole runs -/

/-- One call that the list of files determines is matched on the drive. -/
lemma Lists.call (h : Lists d c chain) {call : Call} {out : Except FsError Unit} {c₁ : Catalogue}
    (hok : Catalogue.machine.step c call = .ok (out, c₁)) :
    ∃ d' chain', formatFs.machine.step d call = .ok (out, d') ∧ Lists d' c₁ chain' := by
  cases call with
  | writeNewFile filename ext data =>
      obtain ⟨d', chain', hstep, h'⟩ := h.create filename ext data
      have heq : c.create (filename, ext) data = (out, c₁) := Except.ok.inj hok
      rw [heq] at hstep h'
      exact ⟨d', chain', hstep, h'⟩
  | overwriteFile filename ext data => exact h.overwrite filename ext data hok

lemma machine_step_writeNewFile (fs : Fat16FileSystem) (d : Disk) (filename : Bytes 8)
    (ext : Bytes 3) (data : List UInt8) :
    fs.machine.step d (.writeNewFile filename ext data) = fs.writeNewFile d filename ext data := rfl

lemma init_congr (hboot : d' 0 = d 0) : init d' = init d := by
  rw [init, init, readSector, readSector, hboot]

/-- The boot sector is not written. -/
lemma Volume.init_call {k : ℕ} (hvol : formatFs.Volume d k chain) {call : Call}
    {out : Except FsError Unit} (h : formatFs.machine.step d call = .ok (out, d')) :
    init d' = init d := by
  refine init_congr (hvol.eqOn_call (S := {0}) ?_ ?_ formatFs_regular h rfl)
  · rintro _ rfl
    rw [formatFs_rootLba]
    decide
  · intro x _ hx
    rw [formatFs_fatSector, Set.mem_singleton_iff] at hx
    omega

lemma Lists.freeCount (h : Lists d c chain) : formatFs.freeCount d = c.free :=
  (freeCount_eq h.volume.reserved).trans h.free

/-- **The drive refines the list of files.**  Whatever calls are made on a formatted drive, also
calls that fail, names that are taken and names that mark a slot as free: as long as no overwrite
runs out of space, each call ends as on the list of files, and afterwards the drive finds and reads
the files of the list and has as many free clusters as the list says. -/
theorem drive_refines_catalogue (d₀ : Disk) {calls : List Call}
    {outs : List (Except FsError Unit)} {c : Catalogue}
    (hrun : Catalogue.machine.run Catalogue.blank calls = .ok (outs, c)) :
    ∃ fs d, init (formatDrive d₀) = some fs ∧
      fs.machine.run (formatDrive d₀) calls = .ok (outs, d) ∧
      fs.Implements d c.contents ∧ fs.freeCount d = c.free := by
  obtain ⟨d, hd, chain, h⟩ := formatFs.machine.run_forward Catalogue.machine
    (R := fun d c => ∃ chain, Lists d c chain)
    (fun d c call out c₁ ⟨chain, h⟩ hok =>
      have ⟨d', chain', hstep, h'⟩ := h.call hok
      ⟨d', hstep, chain', h'⟩)
    ⟨_, lists_formatDrive d₀⟩ hrun
  exact ⟨formatFs, d, init_formatDrive d₀, hd, h.implements, h.freeCount⟩

/-- Two files of one name, a name that marks its slot as free, an overwrite of a file that is not
there and one of the first file. -/
theorem drive_refines_catalogue_five :
    ∃ fs d, init (formatDrive blankDrive) = some fs ∧
      fs.machine.run (formatDrive blankDrive)
        [.writeNewFile (letters 0x41) txt [1], .writeNewFile (letters 0x41) txt [2],
          .writeNewFile (letters 0xE5) txt [3], .overwriteFile (letters 0xE5) txt [4],
          .overwriteFile (letters 0x41) txt [5]] =
        .ok ([.ok (), .ok (), .ok (), .error .fileNotFound, .ok ()], d) ∧
      (∃ entry, fs.findFile d (letters 0x41) txt = .ok (some entry) ∧
        fs.readFile d entry = .ok [5]) ∧
      fs.freeCount d = 16379 := by
  have hlist : Catalogue.machine.run Catalogue.blank
      [.writeNewFile (letters 0x41) txt [1], .writeNewFile (letters 0x41) txt [2],
        .writeNewFile (letters 0xE5) txt [3], .overwriteFile (letters 0xE5) txt [4],
        .overwriteFile (letters 0x41) txt [5]] =
      .ok ([.ok (), .ok (), .ok (), .error .fileNotFound, .ok ()],
        ⟨[((letters 0x41, txt), [5]), ((letters 0x41, txt), [2])], 16379⟩) := by decide
  obtain ⟨fs, d, hinit, hrun, himp, hfree⟩ := drive_refines_catalogue blankDrive hlist
  exact ⟨fs, d, hinit, hrun, himp.present _ _ _ (by decide), hfree⟩

end Fat16FileSystem

end SilOS.Fat16
