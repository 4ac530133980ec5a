/-
# What the calls leave alone

The writing calls reach the drive in three ways: they set words of the FAT, they write the sectors
of a cluster, and they store an entry in a sector of the root directory.  A set `S` of sectors that
none of these addresses lies in is left as it was.  The words that are set belong to clusters that
were found free or to the chain of the file, and only the latter depend on what the drive holds.
-/
import SilOS.Fat16.Release
import SilOS.Fat16.Calls

namespace SilOS.Fat16

open Lib

namespace Fat16FileSystem

variable {fs : Fat16FileSystem} {d d' : Disk} {c : UInt16} {lba : ℕ} {S : Set ℕ}

/-- Neither the first FAT nor a cluster has a sector in `S`. -/
structure Spares (fs : Fat16FileSystem) (S : Set ℕ) : Prop where
  fat : ∀ c, fs.InFat c → fs.fatSector c ∉ S
  data : ∀ c lba, fs.clusterToLba c = .ok lba → ∀ i < fs.bpb.sectorsPerCluster.toNat, lba + i ∉ S

/-! ### Where the calls write -/

/-- The clusters lie behind the FATs. -/
lemma rootLba_le_of_clusterToLba (h : fs.clusterToLba c = .ok lba) : fs.rootLba ≤ lba := by
  simp only [clusterToLba, bind_eq_ok] at h
  obtain ⟨_, -, _, -, _, -, _, -, fats, hfats, before, hbefore, first, hfirst, h⟩ := h
  obtain ⟨_, -, _, -, hlba⟩ := h
  have h1 := (of_fit_eq_ok hfats).1
  have h2 := eq_of_addW hbefore
  have h3 := eq_of_addW hfirst
  have h4 := eq_of_addW hlba
  rw [rootLba]
  omega

lemma spares_of_lt (hlow : ∀ lba ∈ S, lba < fs.rootLba)
    (hfat : ∀ c, fs.InFat c → fs.fatSector c ∉ S) : fs.Spares S := by
  refine ⟨hfat, fun c lba hlba i _ hS => ?_⟩
  have h1 := rootLba_le_of_clusterToLba hlba
  have h2 := hlow _ hS
  omega

/-- The cluster found free has a word in the FAT. -/
lemma inFat_of_findFreeCluster (h : fs.findFreeCluster d = .ok (some c)) : fs.InFat c := by
  obtain ⟨s, k, hword, hc⟩ := fs.exists_word_of_findFreeCluster h
  have hlt := fs.firstFreeWord_lt hword
  rw [InFat, hc]
  omega

/-- What a scan of the root directory finds, it finds behind the FATs. -/
lemma exists_visit_of_scanRoot {β : Type} {visit : (lba offset : ℕ) → Bytes 32 → Option β} {b : β}
    (h : fs.scanRoot d visit = .ok (some b)) :
    ∃ lba offset slot, fs.rootLba ≤ lba ∧ visit lba offset slot = some b := by
  rw [scanRoot, rootDirStart_eq, ok_bind] at h
  obtain ⟨sectors, -, hfound⟩ := bind_eq_ok.mp h
  obtain ⟨s, -, hs⟩ := List.exists_of_findSome?_eq_some (Except.ok.inj hfound)
  obtain ⟨i, -, hi⟩ := List.exists_of_findSome?_eq_some hs
  exact ⟨_, _, _, Nat.le_add_right _ _, hi⟩

lemma rootLba_le_of_findEmptyRootSlot {offset : ℕ}
    (h : fs.findEmptyRootSlot d = .ok (some (lba, offset))) : fs.rootLba ≤ lba := by
  obtain ⟨lba', offset', slot, hle, hvisit⟩ := exists_visit_of_scanRoot h
  split_ifs at hvisit
  obtain ⟨rfl, -⟩ := Prod.mk.inj (Option.some.inj hvisit)
  exact hle

lemma rootLba_le_of_findFileLocation {filename : Bytes 8} {ext : Bytes 3} {offset : ℕ}
    {entry : DirectoryEntry}
    (h : fs.findFileLocation d filename ext = .ok (some (lba, offset, entry))) :
    fs.rootLba ≤ lba := by
  obtain ⟨found, hscan, hjoin⟩ := bind_eq_ok.mp h
  have hfound : found = some (some (lba, offset, entry)) :=
    Option.join_eq_some_iff.mp (Except.ok.inj hjoin)
  rw [hfound] at hscan
  obtain ⟨lba', offset', slot, hle, hvisit⟩ := exists_visit_of_scanRoot hscan
  rw [lookupVisit] at hvisit
  split_ifs at hvisit
  · simp at hvisit
  · simp only [Option.some.injEq, Prod.mk.injEq] at hvisit
    exact hvisit.1 ▸ hle

/-! ### The primitive writes -/

lemma eqOn_setFatEntry (h : fs.fatSector c ∉ S) (d : Disk) (v : UInt16) :
    Set.EqOn (fs.setFatEntry d c v) d S := by
  intro lba hlba
  exact fs.setFatEntry_apply_ne d c v fun heq => h (heq ▸ hlba)

lemma eqOn_writeChunk (h : ∀ i < fs.bpb.sectorsPerCluster.toNat, lba + i ∉ S) (d : Disk)
    (chunk : List UInt8) : Set.EqOn (fs.writeChunk d lba chunk) d S := by
  intro y hy
  apply writeChunk_apply_ne
  by_contra hin
  exact h (y - lba) (by omega) (by rwa [Nat.add_sub_cancel' (by omega)])

lemma eqOn_storeEntry (h : lba ∉ S) (d : Disk) (offset : ℕ) (entry : DirectoryEntry) :
    Set.EqOn (storeEntry d lba offset entry) d S := by
  intro y hy
  exact writeSectorBytes_ne d _ fun heq => h (heq ▸ hy)

/-- Freeing a chain only writes to the words of the clusters that it visits. -/
lemma eqOn_freeClusterChain
    (hS : ∀ x, Visits (fs.getFatEntry d) Followed c x → fs.fatSector x ∉ S)
    (h : fs.freeClusterChain d c = .ok d') : Set.EqOn d' d S := by
  obtain ⟨d₁, hd₁, hbytes⟩ := fs.freeChainLoop_clears (fs.turns_le d c)
  rw [freeClusterChain, hd₁, Except.ok.injEq] at h
  subst h
  intro lba hlba
  apply Bytes.ext_byte
  intro off hoff
  refine (hbytes lba off hoff).2 ?_
  rintro ⟨x, hx, rfl, -⟩
  exact hS x hx hlba

/-! ### The allocation loop -/

/-- A turn ends the new cluster and links the previous one to it. -/
lemma eqOn_link (hS : fs.Spares S) (d : Disk) {previous : Option UInt16}
    (hprevious : ∀ p ∈ previous, fs.InFat p) (hc : fs.InFat c) :
    Set.EqOn (match previous with
      | none => fs.setFatEntry d c 0xFFFF
      | some p => fs.setFatEntry (fs.setFatEntry d c 0xFFFF) p c) d S := by
  have hend := eqOn_setFatEntry (hS.fat c hc) d 0xFFFF
  cases previous with
  | none => exact hend
  | some p => exact (eqOn_setFatEntry (hS.fat p (hprevious p rfl)) _ c).trans hend

/-- The loop, by induction on its turns: the previous cluster was found free as well. -/
lemma eqOn_writeLoop (hS : fs.Spares S) {data : List UInt8} {fuel bytesWritten : ℕ}
    {previous : Option UInt16} {first : UInt16} {out : Except FsError UInt16}
    (hprevious : ∀ p ∈ previous, fs.InFat p)
    (h : fs.writeLoop data fuel bytesWritten previous first d = .ok (out, d')) :
    Set.EqOn d' d S := by
  induction fuel generalizing bytesWritten previous first d with
  | zero => exact absurd h (by simp [writeLoop])
  | succ fuel ih =>
      rw [writeLoop] at h
      by_cases hmore : bytesWritten < data.length ∨ data = []
      · rw [if_pos hmore] at h
        obtain ⟨found, hfound, h⟩ := bind_eq_ok.mp h
        cases found with
        | none =>
            obtain ⟨-, rfl⟩ := Prod.mk.inj (Except.ok.inj h)
            exact Set.eqOn_refl d S
        | some current =>
            obtain ⟨lba, hlba, h⟩ := bind_eq_ok.mp h
            have hin := inFat_of_findFreeCluster hfound
            have hturn := (eqOn_writeChunk (hS.data current lba hlba) _ ((data.drop
              bytesWritten).take (min (data.length - bytesWritten) fs.bytesPerCluster))).trans
                (eqOn_link hS d hprevious hin)
            by_cases hdata : data = []
            · simp only [if_pos hdata] at h
              obtain ⟨-, rfl⟩ := Prod.mk.inj (Except.ok.inj h)
              exact hturn
            · simp only [if_neg hdata] at h
              refine (ih ?_ h).trans hturn
              intro p hp
              exact Option.mem_some_iff.mp hp ▸ hin
      · rw [if_neg hmore] at h
        obtain ⟨-, rfl⟩ := Prod.mk.inj (Except.ok.inj h)
        exact Set.eqOn_refl d S

/-! ### The calls -/

section BeforeRoot

variable (hlow : ∀ lba ∈ S, lba < fs.rootLba) (hfat : ∀ c, fs.InFat c → fs.fatSector c ∉ S)
include hlow hfat

/-- The end that `write_new_file` and `overwrite_file` have in common: the data is written and the
entry is stored. -/
lemma eqOn_finish {data : List UInt8} {fuel dirLba dirOffset : ℕ}
    {entry : UInt16 → DirectoryEntry} {out : Except FsError Unit} (hdir : fs.rootLba ≤ dirLba)
    (h : (do
      match ← fs.writeLoop data fuel 0 none 0 d with
      | (.error e, d) => return (.error e, d)
      | (.ok first, d) => return (.ok (), storeEntry d dirLba dirOffset (entry first)))
        = Except.ok (out, d')) : Set.EqOn d' d S := by
  obtain ⟨⟨result, d₁⟩, hloop, h⟩ := bind_eq_ok.mp h
  have hsame := eqOn_writeLoop (spares_of_lt hlow hfat) (by simp) hloop
  cases result with
  | error e =>
      obtain ⟨-, rfl⟩ := Prod.mk.inj (Except.ok.inj h)
      exact hsame
  | ok first =>
      obtain ⟨-, rfl⟩ := Prod.mk.inj (Except.ok.inj h)
      have hout : dirLba ∉ S := fun hS => absurd (hlow dirLba hS) (by omega)
      exact (eqOn_storeEntry hout _ _ _).trans hsame

lemma eqOn_writeNewFile {filename : Bytes 8} {ext : Bytes 3} {data : List UInt8}
    {out : Except FsError Unit} (h : fs.writeNewFile d filename ext data = .ok (out, d')) :
    Set.EqOn d' d S := by
  rw [writeNewFile] at h
  obtain ⟨slot, hslot, h⟩ := bind_eq_ok.mp h
  rcases slot with - | ⟨dirLba, dirOffset⟩
  · obtain ⟨-, rfl⟩ := Prod.mk.inj (Except.ok.inj h)
    exact Set.eqOn_refl d S
  · exact eqOn_finish hlow hfat (rootLba_le_of_findEmptyRootSlot hslot) h

lemma eqOn_overwriteFile {filename : Bytes 8} {ext : Bytes 3} {data : List UInt8}
    {out : Except FsError Unit}
    (hchain : ∀ dirLba dirOffset entry,
      fs.findFileLocation d filename ext = .ok (some (dirLba, dirOffset, entry)) →
      ∀ x, Visits (fs.getFatEntry d) Followed entry.clusterLow x → fs.fatSector x ∉ S)
    (h : fs.overwriteFile d filename ext data = .ok (out, d')) : Set.EqOn d' d S := by
  rw [overwriteFile] at h
  obtain ⟨location, hlocation, h⟩ := bind_eq_ok.mp h
  rcases location with - | ⟨dirLba, dirOffset, entry⟩
  · obtain ⟨-, rfl⟩ := Prod.mk.inj (Except.ok.inj h)
    exact Set.eqOn_refl d S
  · have hdir := rootLba_le_of_findFileLocation hlocation
    simp only at h
    split_ifs at h
    · obtain ⟨d₁, hfree, h⟩ := bind_eq_ok.mp h
      exact (eqOn_finish hlow hfat hdir h).trans
        (eqOn_freeClusterChain (hchain _ _ _ hlocation) hfree)
    · rw [pure_bind] at h
      exact eqOn_finish hlow hfat hdir h

/-- **Frame.**  A call leaves the sectors `S` in front of the root directory alone, if no word of
the FAT that it may set lies there: no word of a cluster that can be found free, and no word of a
cluster on the chain of a file. -/
theorem eqOn_call
    (hchains : ∀ filename ext dirLba dirOffset entry,
      fs.findFileLocation d filename ext = .ok (some (dirLba, dirOffset, entry)) →
      ∀ x, Visits (fs.getFatEntry d) Followed entry.clusterLow x → fs.fatSector x ∉ S)
    {call : Call} {out : Except FsError Unit} (h : fs.machine.step d call = .ok (out, d')) :
    Set.EqOn d' d S := by
  cases call with
  | writeNewFile filename ext data => exact eqOn_writeNewFile hlow hfat h
  | overwriteFile filename ext data =>
      exact eqOn_overwriteFile hlow hfat (hchains filename ext) h

/-- On a well-formed volume the chains of the files lie in the FAT. -/
theorem Volume.eqOn_call (hreg : fs.Regular) {k : ℕ} {chain : ℕ → List UInt16}
    (hvol : fs.Volume d k chain) {call : Call} {out : Except FsError Unit}
    (h : fs.machine.step d call = .ok (out, d')) : Set.EqOn d' d S := by
  refine Fat16FileSystem.eqOn_call hlow hfat ?_ h
  intro filename ext dirLba dirOffset entry hlocation x hx
  rw [findFileLocation_of_packed hreg.toAddressable hvol.count hvol.live hvol.free,
    Except.ok.injEq, Option.map_eq_some_iff] at hlocation
  obtain ⟨j, hfind, hentry⟩ := hlocation
  obtain ⟨hj, -⟩ := find?_eq_some_iff_finds.mp hfind
  obtain ⟨-, -, rfl⟩ : fs.slotLba j = dirLba ∧ slotOffset j = dirOffset ∧
      fs.slotEntry d j = entry := by simpa using hentry
  have hleads := Leads.of_table (hvol.leads j hj) fun x hx => (hvol.cells j hj x hx).1
  have hmem := hleads.mem_of_visits (fun x hgo => Fat16FileSystem.not_endOfChain.mpr hgo.2) hx
  exact hfat x (hvol.cells j hj x hmem).1

end BeforeRoot

end Fat16FileSystem

end SilOS.Fat16
