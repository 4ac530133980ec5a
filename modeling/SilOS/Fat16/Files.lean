/-
# The volume as a map from names to byte strings

What the file system is for: `Files` is a map from names to byte strings, and both writing
calls put their data under their name.  `Stores d k chain m` connects a drive with such a map:
the names of the live slots are pairwise different, and the file of each slot reads as the data
the map has for its name.  Successful calls keep the connection, provided a new file is only
created under a name that is not in use.
-/
import SilOS.Fat16.Runs

namespace SilOS.Fat16

open Lib

/-- A map from names to byte strings. -/
abbrev Files := Bytes 8 × Bytes 3 → Option (List UInt8)

namespace Files

/-- No files. -/
def empty : Files := fun _ => none

/-- Put data under a name, new or not. -/
def put (m : Files) (name : Bytes 8 × Bytes 3) (data : List UInt8) : Files :=
  Function.update m name (some data)

/-- Put several files, each with its data under its name. -/
def putAll (m : Files) (files : List ((Bytes 8 × Bytes 3) × List UInt8)) : Files :=
  files.foldl (fun m file => m.put file.1 file.2) m

lemma putAll_of_notMem {m : Files} {files : List ((Bytes 8 × Bytes 3) × List UInt8)}
    {name : Bytes 8 × Bytes 3} (h : name ∉ files.map Prod.fst) : m.putAll files name = m name := by
  induction files generalizing m with
  | nil => rfl
  | cons file files ih =>
      rw [List.map_cons, List.mem_cons, not_or] at h
      change (m.put file.1 file.2).putAll files name = m name
      rw [ih h.2, put, Function.update_of_ne h.1]

lemma putAll_cons_self {m : Files} {files : List ((Bytes 8 × Bytes 3) × List UInt8)}
    {name : Bytes 8 × Bytes 3} {data : List UInt8} (h : name ∉ files.map Prod.fst) :
    m.putAll ((name, data) :: files) name = some data := by
  change (m.put name data).putAll files name = some data
  rw [putAll_of_notMem h, put, Function.update_self]

/-- What a successful call is meant to do. -/
def apply (m : Files) (call : Call) : Files := m.put call.name call.data

/-- A new file needs a name that is not in use and that a directory entry can carry. -/
def Admits (m : Files) : Call → Prop
  | .writeNewFile filename ext _ => m (filename, ext) = none ∧ ¬ FreeMark (filename.byte 0)
  | .overwriteFile _ _ _ => True

end Files

namespace Fat16FileSystem

variable {fs : Fat16FileSystem} {d d' : Disk} {k j : ℕ} {chain : ℕ → List UInt16} {m : Files}
  {old N : List UInt16} {data : List UInt8} {filename : Bytes 8} {ext : Bytes 3}

/-- The name in slot `j`. -/
def slotName (fs : Fat16FileSystem) (d : Disk) (j : ℕ) : Bytes 8 × Bytes 3 :=
  ((fs.slotEntry d j).filename, (fs.slotEntry d j).extension)

lemma hasName_iff : fs.HasName d filename ext j ↔ fs.slotName d j = (filename, ext) := by
  rw [HasName, slotName, Prod.mk.injEq]

lemma slotName_congr (h : fs.slotBytes d' j = fs.slotBytes d j) :
    fs.slotName d' j = fs.slotName d j := by
  rw [slotName, slotName, slotEntry_congr h]

/-! ### Reading what was written -/

/-- A slot whose chain was just written reads as the data. -/
lemma Volume.readFile_written (hreg : fs.Regular) (h : fs.Volume d' k chain) (hj : j < k)
    (hw : fs.Rewrote d d' old (chain j) j data) (hN : (chain j).length = fs.clustersFor data)
    (hsize : (fs.slotEntry d' j).fileSize = UInt32.ofNat data.length)
    (hlen : data.length < 2 ^ 32) : fs.readFile d' (fs.slotEntry d' j) = .ok data := by
  rw [h.readFile hreg hj, hsize, UInt32.toNat_ofNat', Nat.mod_eq_of_lt hlen,
    hw.take_flatMap hreg hN]

/-- What fits on a formatted drive has a length of 32 bits. -/
lemma length_lt_of_fits (d : Disk) (old : List UInt16)
    (hneed : formatFs.clustersFor data ≤ (formatFs.freeAfter d old).length) :
    data.length < 2 ^ 32 := by
  have hlen := length_le_clustersFor_mul formatFs_regular data
  have hfree : (formatFs.freeAfter d old).length ≤ formatFs.clusters.length :=
    List.length_filter_le _ _
  have hclusters : formatFs.clusters.length = 16384 := by
    rw [clusters, List.length_map, List.length_range, formatFs_sectorsPerFat]
    rfl
  rw [formatFs_bytesPerCluster] at hlen
  omega

/-! ### Names and contents -/

/-- The volume holds exactly the files of the map, each in one slot and in as many clusters as
its data needs. -/
structure Stores (fs : Fat16FileSystem) (d : Disk) (k : ℕ) (chain : ℕ → List UInt16)
    (m : Files) : Prop where
  volume : fs.Volume d k chain
  unique : ∀ i < k, ∀ j < k, fs.slotName d i = fs.slotName d j → i = j
  content : ∀ j < k, ∃ data, m (fs.slotName d j) = some data ∧
    fs.readFile d (fs.slotEntry d j) = .ok data ∧ (chain j).length = fs.clustersFor data
  named : ∀ name, m name ≠ none → ∃ j < k, fs.slotName d j = name

namespace Stores

lemma finds (h : fs.Stores d k chain m) (hj : j < k) :
    fs.Finds d k (fs.slotEntry d j).filename (fs.slotEntry d j).extension j := by
  refine ⟨hj, ⟨rfl, rfl⟩, ?_⟩
  intro i hi hname
  have hij : i = j := h.unique i (by omega) j hj (hasName_iff.mp hname)
  omega

/-- Data is written under the name that slot `j` then has. -/
lemma write (hreg : fs.Regular) (h : fs.Stores d k chain m) (hjk : j ≤ k)
    (hw : fs.Rewrote d d' old N j data)
    (hvol : fs.Volume d' (max k (j + 1)) (Function.update chain j N))
    (hold : ∀ i < k, i ≠ j → (chain i).Disjoint old) (hN : N.length = fs.clustersFor data)
    (hsize : (fs.slotEntry d' j).fileSize = UInt32.ofNat data.length)
    (hlen : data.length < 2 ^ 32)
    (hfresh : ∀ i < k, i ≠ j → fs.slotName d i ≠ fs.slotName d' j)
    (hsame : j < k → fs.slotName d' j = fs.slotName d j) :
    fs.Stores d' (max k (j + 1)) (Function.update chain j N) (m.put (fs.slotName d' j) data) := by
  have hcount := h.volume.count
  have hkept : ∀ i < max k (j + 1), i ≠ j → i < k ∧ fs.slotName d' i = fs.slotName d i := by
    intro i hi hij
    exact ⟨by omega, slotName_congr (hw.slots i (by omega) hij)⟩
  refine ⟨hvol, ?_, ?_, ?_⟩
  · -- names: the written slot has one that no other slot has, all others have their old one
    intro i hi i' hi' hname
    by_cases hij : i = j
    · by_contra hne
      obtain ⟨hi'k, hname'⟩ := hkept i' hi' (fun he => hne (hij.trans he.symm))
      rw [hij, hname'] at hname
      exact hfresh i' hi'k (fun he => hne (hij.trans he.symm)) hname.symm
    · obtain ⟨hik, hnamei⟩ := hkept i hi hij
      by_cases hi'j : i' = j
      · rw [hi'j, hnamei] at hname
        exact absurd hname (hfresh i hik hij)
      · obtain ⟨hi'k, hname'⟩ := hkept i' hi' hi'j
        rw [hnamei, hname'] at hname
        exact h.unique i hik i' hi'k hname
  · -- contents: the chains of the other slots were not touched
    intro i hi
    by_cases hij : i = j
    · subst hij
      refine ⟨data, by simp [Files.put], ?_, by rw [Function.update_self, hN]⟩
      exact hvol.readFile_written hreg hi (by rwa [Function.update_self])
        (by rw [Function.update_self, hN]) hsize hlen
    · obtain ⟨hik, hname⟩ := hkept i hi hij
      obtain ⟨data', hm, hread, hlen'⟩ := h.content i hik
      refine ⟨data', ?_, ?_, by rw [Function.update_of_ne hij, hlen']⟩
      · rw [hname, Files.put, Function.update_of_ne (hfresh i hik hij), hm]
      · rw [h.volume.readFile_of_rewrote hreg hw hik hij (hold i hik hij), hread]
  · intro name hname
    by_cases hnew : name = fs.slotName d' j
    · exact ⟨j, by omega, hnew.symm⟩
    · rw [Files.put, Function.update_of_ne hnew] at hname
      obtain ⟨i, hik, rfl⟩ := h.named name hname
      have hij : i ≠ j := by
        rintro rfl
        exact hnew (hsame hik).symm
      exact ⟨i, by omega, (hkept i (by omega) hij).2⟩

/-- A new file under a name that is not in use. -/
lemma created (hreg : fs.Regular) (h : fs.Stores d k chain m) (hk : k < fs.slotCount)
    (hneed : fs.clustersFor data ≤ (fs.freeClusters d).length)
    (hw : fs.Rewrote d d' [] ((fs.freeClusters d).take (fs.clustersFor data)) k data)
    (hentry : fs.slotEntry d' k = newEntry filename ext ((fs.freeClusters d).headD 0) data)
    (hname : ¬ FreeMark (filename.byte 0)) (hfresh : m (filename, ext) = none)
    (hlen : data.length < 2 ^ 32) :
    fs.Stores d' (k + 1) (Function.update chain k ((fs.freeClusters d).take (fs.clustersFor data)))
      (m.put (filename, ext) data) := by
  have hslot : fs.slotName d' k = (filename, ext) := by rw [slotName, hentry]; rfl
  have hmax : max k (k + 1) = k + 1 := max_eq_right (by omega)
  have hvol := h.volume.created hreg hk hneed hw hentry hname
  rw [← hmax] at hvol ⊢
  rw [← hslot]
  refine h.write hreg le_rfl hw hvol (by simp) (by simp [hneed]) (by rw [hentry]; rfl) hlen ?_
    (fun hlt => absurd hlt (lt_irrefl k))
  intro i hi _ he
  obtain ⟨data', hm, -, -⟩ := h.content i hi
  rw [he, hslot, hfresh] at hm
  exact absurd hm (by simp)

/-- New data under a name in use. -/
lemma overwritten (hreg : fs.Regular) (h : fs.Stores d k chain m)
    (hj : fs.Finds d k filename ext j)
    (hneed : fs.clustersFor data ≤ (fs.freeAfter d (chain j)).length)
    (hw : fs.Rewrote d d' (chain j)
      ((fs.freeAfter d (chain j)).take (fs.clustersFor data)) j data)
    (hentry : fs.slotEntry d' j =
      overwrittenEntry (fs.slotEntry d j) ((fs.freeAfter d (chain j)).headD 0) data)
    (hlen : data.length < 2 ^ 32) :
    fs.Stores d' k
      (Function.update chain j ((fs.freeAfter d (chain j)).take (fs.clustersFor data)))
      (m.put (filename, ext) data) := by
  have hjk : j < k := hj.1
  have hsame : fs.slotName d' j = fs.slotName d j := by rw [slotName, hentry]; rfl
  have hslot : fs.slotName d' j = (filename, ext) := hsame.trans (hasName_iff.mp hj.2.1)
  have hmax : max k (j + 1) = k := max_eq_left (by omega)
  have hvol := h.volume.overwritten hreg hjk hneed hw hentry
  rw [← hmax] at hvol ⊢
  rw [← hslot]
  refine h.write hreg hjk.le hw hvol (fun i hi hij => h.volume.disjoint i hi j hjk hij)
    (by simp [hneed]) (by rw [hentry]; rfl) hlen ?_ (fun _ => hsame)
  intro i hi hij he
  exact hij (h.unique i hi j hjk (he.trans hsame))

/-- **One successful call** puts its data under its name. -/
theorem call (h : formatFs.Stores d k chain m) {call : Call} (hadm : m.Admits call)
    (hstep : formatFs.machine.step d call = .ok (.ok (), d')) :
    ∃ k' chain', formatFs.Stores d' k' chain' (m.apply call) := by
  have hreg := formatFs_regular
  cases h.volume.effect_of_step hreg hstep with
  | created hk hneed hw hentry =>
      have hlen := length_lt_of_fits d [] (by rwa [freeAfter_nil])
      exact ⟨_, _, h.created hreg hk hneed hw hentry hadm.2 hadm.1 hlen⟩
  | overwritten hj hneed hw hentry =>
      exact ⟨_, _, h.overwritten hreg hj hneed hw hentry (length_lt_of_fits d _ hneed)⟩

/-- A file can be created under a new name while there is room. -/
lemma create (h : formatFs.Stores d k chain m) (filename : Bytes 8) (ext : Bytes 3)
    (data : List UInt8) (hk : k < 512)
    (hneed : formatFs.clustersFor data ≤ (formatFs.freeClusters d).length)
    (hname : ¬ FreeMark (filename.byte 0)) (hfresh : m (filename, ext) = none) :
    ∃ d' chain', formatFs.writeNewFile d filename ext data = .ok (.ok (), d') ∧
      formatFs.Stores d' (k + 1) chain' (m.put (filename, ext) data) ∧
      formatFs.freeClusters d' = (formatFs.freeClusters d).drop (formatFs.clustersFor data) := by
  have hreg := formatFs_regular
  rw [← formatFs_slotCount] at hk
  obtain ⟨d', hok⟩ := (h.volume.writeNewFile_ok_iff hreg filename ext data).mpr ⟨hk, hneed⟩
  have hstep : formatFs.machine.step d (.writeNewFile filename ext data) = .ok (.ok (), d') := hok
  cases h.volume.effect_of_step hreg hstep with
  | created _ _ hw hentry =>
      have hlen := length_lt_of_fits d [] (by rwa [freeAfter_nil])
      exact ⟨d', _, hok, h.created hreg hk hneed hw hentry hname hfresh hlen,
        hw.freeClusters_eq_drop hreg h.volume.reserved (by simp) freeAfter_nil⟩

/-- Several files can be created while there is room. -/
lemma createAll (files : List ((Bytes 8 × Bytes 3) × List UInt8))
    (h : formatFs.Stores d k chain m) (hk : k + files.length ≤ 512)
    (hneed : (files.map fun file => formatFs.clustersFor file.2).sum ≤
      (formatFs.freeClusters d).length)
    (hname : ∀ file ∈ files, ¬ FreeMark (file.1.1.byte 0))
    (hfresh : ∀ file ∈ files, m file.1 = none) (hnd : (files.map Prod.fst).Nodup) :
    ∃ outs d' chain', formatFs.machine.run d
        (files.map fun file => .writeNewFile file.1.1 file.1.2 file.2) = .ok (outs, d') ∧
      formatFs.Stores d' (k + files.length) chain' (m.putAll files) ∧
      formatFs.freeClusters d' = (formatFs.freeClusters d).drop
        (files.map fun file => formatFs.clustersFor file.2).sum := by
  induction files generalizing d k chain m with
  | nil => exact ⟨[], d, chain, rfl, h, by simp⟩
  | cons file files ih =>
      rw [List.map_cons, List.sum_cons] at hneed
      rw [List.length_cons] at hk
      obtain ⟨hnot, hnd⟩ := List.nodup_cons.mp hnd
      obtain ⟨d₁, chain₁, hstep, h₁, hfree⟩ := h.create file.1.1 file.1.2 file.2 (by omega)
        (by omega) (hname file (by simp)) (hfresh file (by simp))
      obtain ⟨outs, d₂, chain₂, hrun, h₂, hfree₂⟩ := ih h₁ (by omega)
        (by rw [hfree, List.length_drop]; omega)
        (fun f hf => hname f (by simp [hf]))
        (by
          intro f hf
          have hne : f.1 ≠ file.1 := fun he => hnot (he ▸ List.mem_map_of_mem hf)
          rw [Files.put, Function.update_of_ne hne]
          exact hfresh f (by simp [hf])) hnd
      refine ⟨.ok () :: outs, d₂, chain₂, ?_, ?_, ?_⟩
      · rw [List.map_cons, Machine.run_cons_eq_ok]
        exact ⟨_, d₁, _, hstep, hrun, rfl⟩
      · rw [List.length_cons, Nat.add_comm files.length, ← Nat.add_assoc]
        exact h₂
      · rw [hfree₂, hfree, List.drop_drop, List.map_cons, List.sum_cons]

/-- A file can be overwritten while there is room. -/
lemma overwrite (h : formatFs.Stores d k chain m) (filename : Bytes 8) (ext : Bytes 3)
    (data : List UInt8) {old : List UInt8} (hold : m (filename, ext) = some old)
    (hneed : formatFs.clustersFor data ≤
      (formatFs.freeClusters d).length + formatFs.clustersFor old) :
    ∃ d' chain', formatFs.overwriteFile d filename ext data = .ok (.ok (), d') ∧
      formatFs.Stores d' k chain' (m.put (filename, ext) data) := by
  have hreg := formatFs_regular
  obtain ⟨j, hj, hname⟩ := h.named (filename, ext) (by simp [hold])
  obtain ⟨old', hm, -, hlen⟩ := h.content j hj
  rw [hname, hold, Option.some.injEq] at hm
  subst hm
  have hfinds := h.finds hj
  rw [(hasName_iff.mpr hname).1, (hasName_iff.mpr hname).2] at hfinds
  rw [← hlen, ← h.volume.length_freeAfter hreg hj] at hneed
  obtain ⟨d', hok⟩ :=
    (h.volume.overwriteFile_ok_iff hreg filename ext data).mpr ⟨j, hfinds, hneed⟩
  have hstep : formatFs.machine.step d (.overwriteFile filename ext data) = .ok (.ok (), d') := hok
  cases h.volume.effect_of_step hreg hstep with
  | overwritten hi hneed hw hentry =>
      exact ⟨d', _, hok, h.overwritten hreg hi hneed hw hentry (length_lt_of_fits d _ hneed)⟩

end Stores

lemma stores_formatDrive (d : Disk) :
    formatFs.Stores (formatDrive d) 0 (fun _ => []) Files.empty where
  volume := volume_formatDrive d _
  unique := by simp
  content := by simp
  named := fun _ h => absurd rfl h

/-! ### The refinement -/

/-- The drive implements the map: exactly the names of the map are found, and what is found
reads as the data of the map. -/
structure Implements (fs : Fat16FileSystem) (d : Disk) (m : Files) : Prop where
  absent : ∀ filename ext, m (filename, ext) = none → fs.findFile d filename ext = .ok none
  present : ∀ filename ext data, m (filename, ext) = some data →
    ∃ entry, fs.findFile d filename ext = .ok (some entry) ∧ fs.readFile d entry = .ok data

lemma Stores.implements (hreg : fs.Regular) (h : fs.Stores d k chain m) : fs.Implements d m where
  absent filename ext hm := by
    rw [h.volume.findFile_eq_none hreg]
    intro j hj hname
    obtain ⟨data, hm', -, -⟩ := h.content j hj
    rw [hasName_iff.mp hname, hm] at hm'
    exact absurd hm' (by simp)
  present filename ext data hm := by
    obtain ⟨j, hj, hname⟩ := h.named (filename, ext) (by simp [hm])
    obtain ⟨data', hm', hread, -⟩ := h.content j hj
    rw [hname, hm, Option.some.injEq] at hm'
    subst hm'
    have hfinds := h.finds hj
    rw [(hasName_iff.mpr hname).1, (hasName_iff.mpr hname).2] at hfinds
    exact ⟨fs.slotEntry d j, (h.volume.findFile_eq_some hreg).mpr ⟨j, hfinds, rfl⟩, hread⟩

/-- Every run of successful, admissible calls stores what the calls put. -/
lemma stores_of_run {d₀ : Disk} {calls : List Call} {outs : List (Except FsError Unit)}
    (hadm : ∀ pre call post, calls = pre ++ call :: post →
      (pre.foldl Files.apply Files.empty).Admits call)
    (hrun : formatFs.machine.run (formatDrive d₀) calls = .ok (outs, d))
    (hok : ∀ out ∈ outs, out = .ok ()) :
    ∃ k chain, formatFs.Stores d k chain (calls.foldl Files.apply Files.empty) := by
  refine formatFs.machine.run_simulation
    (R := fun d m => ∃ k chain, formatFs.Stores d k chain m) ?_
    ⟨0, _, stores_formatDrive d₀⟩ hadm hrun hok
  rintro d m call out d' ⟨k, chain, h⟩ hadm hstep rfl
  exact h.call hadm hstep

/-- **The volume refines a map from names to byte strings.**  After any sequence of successful
calls that create files only under new names, the drive implements the map that the calls
build.  One more successful call leaves the bytes of all other files unchanged. -/
theorem volume_implements_files {d₀ : Disk} {calls : List Call}
    {outs : List (Except FsError Unit)} (hinit : init (formatDrive d₀) = some fs)
    (hadm : ∀ pre call post, calls = pre ++ call :: post →
      (pre.foldl Files.apply Files.empty).Admits call)
    (hrun : fs.machine.run (formatDrive d₀) calls = .ok (outs, d))
    (hok : ∀ out ∈ outs, out = .ok ()) :
    fs.Implements d (calls.foldl Files.apply Files.empty) ∧
      ∀ call d', (calls.foldl Files.apply Files.empty).Admits call →
        fs.machine.step d call = .ok (.ok (), d') →
        ∀ filename ext entry, (filename, ext) ≠ call.name →
          fs.findFile d filename ext = .ok (some entry) →
          ∃ entry', fs.findFile d' filename ext = .ok (some entry') ∧
            fs.readFile d' entry' = fs.readFile d entry := by
  obtain rfl := eq_formatFs hinit
  obtain ⟨k, chain, h⟩ := stores_of_run hadm hrun hok
  have himpl := h.implements formatFs_regular
  refine ⟨himpl, ?_⟩
  intro call d' hcall hstep filename ext entry hne hfind
  obtain ⟨k', chain', h'⟩ := h.call hcall hstep
  cases hm : calls.foldl Files.apply Files.empty (filename, ext) with
  | none =>
      rw [himpl.absent filename ext hm] at hfind
      exact absurd hfind (by simp)
  | some data =>
      obtain ⟨entry₀, hfind₀, hread₀⟩ := himpl.present filename ext data hm
      rw [hfind₀, Except.ok.injEq, Option.some.injEq] at hfind
      subst hfind
      have hm' : (calls.foldl Files.apply Files.empty).apply call (filename, ext) = some data := by
        rw [Files.apply, Files.put, Function.update_of_ne hne, hm]
      obtain ⟨entry', hfind', hread'⟩ :=
        (h'.implements formatFs_regular).present filename ext data hm'
      exact ⟨entry', hfind', by rw [hread', hread₀]⟩

/-- A drive of zeros, and names, for runs on concrete inputs. -/
def blankDrive : Disk := fun _ => Bytes.zeros 512

/-- The name of eight equal letters. -/
def letters (b : UInt8) : Bytes 8 := Vector.replicate 8 b

/-- The extension `TXT`. -/
def txt : Bytes 3 := #v[0x54, 0x58, 0x54]

/-- The calls that create two files. -/
def twoFiles : List Call :=
  [.writeNewFile (letters 0x41) txt [1], .writeNewFile (letters 0x42) txt [2]]

/-- Both files can be created on a formatted drive; in between, only the first name is in use. -/
lemma exists_twoFiles :
    ∃ d₁ d₂, formatFs.writeNewFile (formatDrive blankDrive) (letters 0x41) txt [1] =
        .ok (.ok (), d₁) ∧
      formatFs.Implements d₁ (Files.empty.put (letters 0x41, txt) [1]) ∧
      formatFs.machine.run (formatDrive blankDrive) twoFiles = .ok ([.ok (), .ok ()], d₂) := by
  have hfree := length_freeClusters_formatDrive blankDrive
  obtain ⟨d₁, chain₁, hstep₁, h₁, hfree₁⟩ := (stores_formatDrive blankDrive).create
    (letters 0x41) txt [1] (by omega) (by rw [hfree, formatFs_clustersFor]; decide) (by decide) rfl
  obtain ⟨d₂, chain₂, hstep₂, -⟩ := h₁.create (letters 0x42) txt [2] (by omega)
    (by
      rw [hfree₁, List.length_drop, hfree, formatFs_clustersFor, formatFs_clustersFor]
      decide) (by decide) (by decide)
  refine ⟨d₁, d₂, hstep₁, h₁.implements formatFs_regular, ?_⟩
  rw [twoFiles, Machine.run_cons_eq_ok]
  refine ⟨_, d₁, _, hstep₁, ?_, rfl⟩
  rw [Machine.run_cons_eq_ok]
  exact ⟨_, d₂, _, hstep₂, rfl, rfl⟩

/-- A file is created and overwritten: both calls succeed, and the second data is read. -/
theorem volume_implements_files_two :
    ∃ outs d, formatFs.machine.run (formatDrive blankDrive)
        [.writeNewFile (letters 0x41) txt [1], .overwriteFile (letters 0x41) txt [2]] =
        .ok (outs, d) ∧ (∀ out ∈ outs, out = .ok ()) ∧
      formatFs.Implements d
        ((Files.empty.put (letters 0x41, txt) [1]).put (letters 0x41, txt) [2]) := by
  have hfree := length_freeClusters_formatDrive blankDrive
  obtain ⟨d₁, chain₁, hstep₁, h₁, -⟩ := (stores_formatDrive blankDrive).create (letters 0x41) txt
    [1] (by omega) (by rw [hfree, formatFs_clustersFor]; decide) (by decide) rfl
  obtain ⟨d₂, chain₂, hstep₂, -⟩ := h₁.overwrite (letters 0x41) txt [2]
    (Function.update_self _ _ _) (by rw [formatFs_clustersFor, formatFs_clustersFor]; simp)
  have hrun : formatFs.machine.run (formatDrive blankDrive)
      [.writeNewFile (letters 0x41) txt [1], .overwriteFile (letters 0x41) txt [2]] =
      .ok ([.ok (), .ok ()], d₂) := by
    rw [Machine.run_cons_eq_ok]
    refine ⟨_, d₁, _, hstep₁, ?_, rfl⟩
    rw [Machine.run_cons_eq_ok]
    exact ⟨_, d₂, _, hstep₂, rfl, rfl⟩
  refine ⟨_, d₂, hrun, by simp, ?_⟩
  refine (volume_implements_files (init_formatDrive blankDrive) ?_ hrun (by simp)).1
  intro pre call post hsplit
  rcases pre with _ | ⟨c₁, _ | ⟨c₂, pre⟩⟩
  · obtain ⟨rfl, -⟩ := List.cons.inj hsplit
    exact ⟨rfl, by decide⟩
  · obtain ⟨-, hsplit⟩ := List.cons.inj hsplit
    obtain ⟨rfl, -⟩ := List.cons.inj hsplit
    trivial
  · exact absurd (congrArg List.length hsplit) (by simp)

end Fat16FileSystem

end SilOS.Fat16
