/-
# Loss of power

A call of the file system is a sequence of sector writes, and the machine can lose power between
any two of them; a sector is written as a whole or not at all.  This file gives the sequences of
`write_new_file` and `overwrite_file` (`writeNewFileWrites`, `overwriteFileWrites`), shows that the
two functions are what they do when they come to their end, and says what the drive holds when only
some of the writes were made.

Before the entry of the directory is stored, which is the last write of a call, nothing is written
but to clusters that are free and to their words in the FAT, or, in an overwrite, to those of the
file itself.  So a file is created as a whole or not at all, and the other files do not change.
-/
import SilOS.Fat16.Catalogue

namespace SilOS.Fat16

open Lib

/-- One call of `write_sector_bytes`, with the read of the sector that goes before it. -/
inductive SectorWrite where
  /-- In `set_fat_entry`. -/
  | fat (cluster nextCluster : UInt16)
  /-- A sector of a cluster. -/
  | data (lba : ℕ) (buffer : Sector)
  /-- An entry of the directory. -/
  | entry (dirLba dirOffset : ℕ) (entry : DirectoryEntry)

namespace Fat16FileSystem

variable (fs : Fat16FileSystem)

/-- The drive after a write. -/
def perform (d : Disk) : SectorWrite → Disk
  | .fat cluster nextCluster => fs.setFatEntry d cluster nextCluster
  | .data lba buffer => writeSectorBytes d lba buffer
  | .entry dirLba dirOffset entry => storeEntry d dirLba dirOffset entry

/-- The drive after some writes. -/
def performAll (d : Disk) (ws : List SectorWrite) : Disk := ws.foldl fs.perform d

/-! ### The writes of a call -/

/-- The writes of `writeChunk`. -/
def chunkWrites (clusterLba : ℕ) (chunk : List UInt8) : List SectorWrite :=
  ((List.range fs.bpb.sectorsPerCluster.toNat).takeWhile fun i => i * 512 < chunk.length).map
    fun i => .data (clusterLba + i)
      ((Bytes.zeros 512).copyFromSlice 0 ((chunk.drop (i * 512)).take 512))

/-- The writes of one iteration of `writeLoop`. -/
def claimWrites (previous : Option UInt16) (current : UInt16) (lba : ℕ) (chunk : List UInt8) :
    List SectorWrite :=
  .fat current 0xFFFF :: (previous.toList.map fun p => .fat p current) ++ fs.chunkWrites lba chunk

/-- The writes of `writeLoop`. -/
def writeLoopWrites (data : List UInt8) :
    (fuel bytesWritten : ℕ) → (previous : Option UInt16) → (first : UInt16) → Disk →
      Except Fault (Except FsError UInt16 × List SectorWrite)
  | 0, _, _, _, _ => .error .fuel
  | fuel + 1, bytesWritten, previous, first, d =>
      if bytesWritten < data.length ∨ data = [] then do
        match ← fs.findFreeCluster d with
        | none => return (.error .diskFull, [])
        | some current =>
            let first := if previous.isNone then current else first
            let lba ← fs.clusterToLba current
            let chunkSize := min (data.length - bytesWritten) fs.bytesPerCluster
            let ws := fs.claimWrites previous current lba ((data.drop bytesWritten).take chunkSize)
            if data = [] then return (.ok first, ws)
            let (result, rest) ← writeLoopWrites data fuel (bytesWritten + chunkSize) (some current)
              first (fs.performAll d ws)
            return (result, ws ++ rest)
      else return (.ok first, [])

/-- The writes of `freeChainLoop`. -/
def freeChainWrites : ℕ → UInt16 → Disk → Except Fault (List SectorWrite)
  | 0, _, _ => .error .fuel
  | fuel + 1, current, d =>
      if 2 ≤ current ∧ current < 0xFFF8 then do
        let rest ← freeChainWrites fuel (fs.getFatEntry d current) (fs.setFatEntry d current 0)
        return .fat current 0 :: rest
      else .ok []

/-- The writes of a call once the clusters of the old file are freed: the clusters of the data,
and then the entry. -/
def finishWrites (d : Disk) (data : List UInt8) (freed : List SectorWrite) (dirLba dirOffset : ℕ)
    (entry : UInt16 → DirectoryEntry) : Except Fault (Except FsError Unit × List SectorWrite) := do
  match ← fs.writeLoopWrites data (data.length + 65537) 0 none 0 (fs.performAll d freed) with
  | (.error e, ws) => return (.error e, freed ++ ws)
  | (.ok first, ws) => return (.ok (), freed ++ ws ++ [.entry dirLba dirOffset (entry first)])

/-- The writes of `write_new_file`. -/
def writeNewFileWrites (d : Disk) (filename : Bytes 8) (ext : Bytes 3) (data : List UInt8) :
    Except Fault (Except FsError Unit × List SectorWrite) := do
  match ← fs.findEmptyRootSlot d with
  | none => return (.error .rootDirectoryFull, [])
  | some (dirLba, dirOffset) =>
      fs.finishWrites d data [] dirLba dirOffset fun first => newEntry filename ext first data

/-- The writes of `overwrite_file`. -/
def overwriteFileWrites (d : Disk) (filename : Bytes 8) (ext : Bytes 3) (newData : List UInt8) :
    Except Fault (Except FsError Unit × List SectorWrite) := do
  match ← fs.findFileLocation d filename ext with
  | none => return (.error .fileNotFound, [])
  | some (dirLba, dirOffset, entry) =>
      let freed ← if 2 ≤ entry.clusterLow then fs.freeChainWrites 65537 entry.clusterLow d
        else pure []
      fs.finishWrites d newData freed dirLba dirOffset fun first =>
        { entry with clusterLow := first, fileSize := UInt32.ofNat newData.length }

variable {fs} {d d' : Disk} {ws ws' : List SectorWrite} {data : List UInt8} {filename : Bytes 8}
  {ext : Bytes 3}

lemma performAll_append : fs.performAll d (ws ++ ws') = fs.performAll (fs.performAll d ws) ws' :=
  List.foldl_append

@[simp] lemma performAll_nil (d : Disk) : fs.performAll d [] = d := rfl

@[simp] lemma performAll_entry (d : Disk) (dirLba dirOffset : ℕ) (entry : DirectoryEntry) :
    fs.performAll d [.entry dirLba dirOffset entry] = storeEntry d dirLba dirOffset entry := rfl

lemma performAll_chunkWrites (d : Disk) (clusterLba : ℕ) (chunk : List UInt8) :
    fs.performAll d (fs.chunkWrites clusterLba chunk) = fs.writeChunk d clusterLba chunk := by
  rw [performAll, chunkWrites, List.foldl_map]
  rfl

lemma performAll_claimWrites (fs : Fat16FileSystem) (d : Disk) (previous : Option UInt16)
    (current : UInt16) (lba : ℕ) (chunk : List UInt8) :
    fs.performAll d (fs.claimWrites previous current lba chunk) =
      fs.writeChunk (match previous with
        | none => fs.setFatEntry d current 0xFFFF
        | some p => fs.setFatEntry (fs.setFatEntry d current 0xFFFF) p current) lba chunk := by
  rw [claimWrites, performAll_append, performAll_chunkWrites]
  cases previous <;> rfl

/-- What a call that can be cut off does at its end. -/
def ended {α : Type} (fs : Fat16FileSystem) (d : Disk) (r : α × List SectorWrite) : α × Disk :=
  (r.1, fs.performAll d r.2)

lemma writeLoop_eq_writes (fuel bytesWritten : ℕ) (previous : Option UInt16) (first : UInt16)
    (d : Disk) :
    fs.writeLoop data fuel bytesWritten previous first d =
      (fs.writeLoopWrites data fuel bytesWritten previous first d).map (fs.ended d) := by
  induction fuel generalizing bytesWritten previous first d with
  | zero => rfl
  | succ fuel ih =>
      rw [writeLoop, writeLoopWrites]
      by_cases hmore : bytesWritten < data.length ∨ data = []
      · rw [if_pos hmore, if_pos hmore]
        rcases fs.findFreeCluster d with e | _ | current
        · rfl
        · rfl
        · rcases hlba : fs.clusterToLba current with e | lba
          · simp only [ok_bind, hlba, error_bind, Except.map]
          · by_cases hempty : data = []
            · simp only [ok_bind, hlba, if_pos hempty, pure, Except.pure, Except.map, ended]
              exact congrArg (fun d' => Except.ok (_, d'))
                (performAll_claimWrites fs d previous current lba _).symm
            · have hdisk := performAll_claimWrites fs d previous current lba
                ((data.drop bytesWritten).take
                  (min (data.length - bytesWritten) fs.bytesPerCluster))
              simp only [ok_bind, hlba, if_neg hempty, ih]
              rw [hdisk]
              generalize hrest : fs.writeLoopWrites data fuel _ _ _ _ = r
              rcases r with e | ⟨result, rest⟩
              · rfl
              · simp only [ok_bind, pure, Except.pure, Except.map, ended, performAll_append]
                exact congrArg (fun d' => Except.ok (_, fs.performAll d' rest)) hdisk.symm
      · rw [if_neg hmore, if_neg hmore]
        rfl

lemma freeChainLoop_eq_writes (fuel : ℕ) (current : UInt16) (d : Disk) :
    fs.freeChainLoop fuel current d =
      (fs.freeChainWrites fuel current d).map (fs.performAll d) := by
  induction fuel generalizing current d with
  | zero => rfl
  | succ fuel ih =>
      rw [freeChainLoop, freeChainWrites]
      split_ifs
      · rw [ih]
        rcases fs.freeChainWrites fuel (fs.getFatEntry d current) (fs.setFatEntry d current 0)
          with e | rest <;> rfl
      · rfl

/-- **The writes are those of the call.** -/
theorem writeNewFile_eq_writes (d : Disk) (filename : Bytes 8) (ext : Bytes 3)
    (data : List UInt8) :
    fs.writeNewFile d filename ext data =
      (fs.writeNewFileWrites d filename ext data).map (fs.ended d) := by
  rw [writeNewFile, writeNewFileWrites]
  rcases fs.findEmptyRootSlot d with e | _ | ⟨dirLba, dirOffset⟩
  · rfl
  · rfl
  · rw [ok_bind, ok_bind, writeLoop_eq_writes]
    dsimp only
    rw [finishWrites, performAll_nil]
    generalize fs.writeLoopWrites data (data.length + 65537) 0 none 0 d = r
    rcases r with e | ⟨_ | first, ws⟩
    · rfl
    · rfl
    · simp only [Except.map, ok_bind, ended, pure, Except.pure, performAll_append,
        performAll_entry, performAll_nil]

@[inherit_doc writeNewFile_eq_writes]
theorem overwriteFile_eq_writes (d : Disk) (filename : Bytes 8) (ext : Bytes 3)
    (data : List UInt8) :
    fs.overwriteFile d filename ext data =
      (fs.overwriteFileWrites d filename ext data).map (fs.ended d) := by
  rw [overwriteFile, overwriteFileWrites]
  rcases fs.findFileLocation d filename ext with e | _ | ⟨dirLba, dirOffset, entry⟩
  · rfl
  · rfl
  · rw [ok_bind, ok_bind]
    dsimp only
    by_cases hchain : 2 ≤ entry.clusterLow
    · rw [if_pos hchain, if_pos hchain, freeClusterChain, freeChainLoop_eq_writes]
      generalize fs.freeChainWrites 65537 entry.clusterLow d = freed
      rcases freed with e | freed
      · rfl
      · rw [ok_bind, Except.map, ok_bind, finishWrites, writeLoop_eq_writes]
        generalize
          fs.writeLoopWrites data (data.length + 65537) 0 none 0 (fs.performAll d freed) = r
        rcases r with e | ⟨_ | first, ws⟩
        · rfl
        · simp only [Except.map, ok_bind, ended, pure, Except.pure, performAll_append]
        · simp only [Except.map, ok_bind, ended, pure, Except.pure, performAll_append,
            performAll_entry]
    · rw [if_neg hchain, if_neg hchain, pure_bind, pure_bind, finishWrites, writeLoop_eq_writes,
        performAll_nil]
      generalize fs.writeLoopWrites data (data.length + 65537) 0 none 0 d = r
      rcases r with e | ⟨_ | first, ws⟩
      · rfl
      · rfl
      · simp only [Except.map, ok_bind, ended, pure, Except.pure, performAll_append,
          performAll_entry, performAll_nil]

/-! ### What the writes leave alone -/

/-- A write to a cluster in `F`, to its word in the FAT, or to a slot in `S`. -/
def Within (fs : Fat16FileSystem) (F : Set UInt16) (S : Set ℕ) : SectorWrite → Prop
  | .fat cluster _ => fs.InFat cluster ∧ cluster ∈ F
  | .data lba _ =>
      ∃ c ∈ F, 2 ≤ c ∧ ∃ i < fs.bpb.sectorsPerCluster.toNat, lba = fs.dataLba c + i
  | .entry dirLba dirOffset _ =>
      ∃ j ∈ S, j < fs.slotCount ∧ dirLba = fs.slotLba j ∧ dirOffset = slotOffset j

/-- The drives differ in the clusters in `F`, their words in the FAT and the slots in `S` only, as
far as files go. -/
structure Spared (fs : Fat16FileSystem) (F : Set UInt16) (S : Set ℕ) (d d' : Disk) : Prop where
  boot : 0 < fs.bpb.reservedSectors.toNat → d' 0 = d 0
  slots : ∀ j < fs.slotCount, j ∉ S → fs.slotBytes d' j = fs.slotBytes d j
  table : ∀ c ∉ F, fs.table d' c = fs.table d c
  bytes : ∀ c ∉ F, 2 ≤ c → fs.clusterBytes d' c = fs.clusterBytes d c

variable {F : Set UInt16} {S : Set ℕ}

lemma Within.mono {S' : Set ℕ} (hS : S ⊆ S') {w : SectorWrite} (h : fs.Within F S w) :
    fs.Within F S' w := by
  cases w with
  | fat | data => exact h
  | entry =>
      obtain ⟨j, hj, hw⟩ := h
      exact ⟨j, hS hj, hw⟩

namespace Spared

lemma refl (fs : Fat16FileSystem) (F : Set UInt16) (S : Set ℕ) (d : Disk) : fs.Spared F S d d :=
  ⟨fun _ => rfl, fun _ _ _ => rfl, fun _ _ => rfl, fun _ _ _ => rfl⟩

lemma perform (hreg : fs.Regular) (h : fs.Spared F S d d') {w : SectorWrite}
    (hw : fs.Within F S w) : fs.Spared F S d (fs.perform d' w) := by
  cases w with
  | fat c v =>
      obtain ⟨hc, hF⟩ := hw
      refine ⟨fun hres => ?_, fun j hj hS => ?_, fun x hx => ?_, fun x hx h2 => ?_⟩
      · have hne : (0 : ℕ) ≠ fs.fatSector c := by rw [fatSector]; omega
        exact (writeSectorBytes_ne _ _ hne).trans (h.boot hres)
      · exact (slotBytes_setFatEntry hreg hc j).trans (h.slots j hj hS)
      · have hne : x ≠ c := fun heq => hx (heq ▸ hF)
        rw [Fat16FileSystem.perform, table_setFatEntry hc, Function.update_of_ne hne, h.table x hx]
      · exact (clusterBytes_setFatEntry hreg hc x).trans (h.bytes x hx h2)
  | data lba buffer =>
      obtain ⟨c, hF, hc2, i, hi, rfl⟩ := hw
      have hlba := fs.le_dataLba c
      -- the sector lies behind the directory
      have hbefore : ∀ y < fs.rootLba + fs.rootSectors,
          fs.perform d' (.data (fs.dataLba c + i) buffer) y = d' y := fun y hy =>
        writeSectorBytes_ne d' buffer (by omega)
      refine ⟨fun hres => ?_, fun j hj hS => ?_, fun x hx => ?_, fun x hx h2 => ?_⟩
      · exact (hbefore 0 (by rw [rootLba]; omega)).trans (h.boot hres)
      · exact (slotBytes_congr (hbefore _ (slotLba_lt hj))).trans (h.slots j hj hS)
      · rw [table_congr hreg fun y hy => hbefore y (by omega), h.table x hx]
      · rw [← h.bytes x hx h2]
        refine fs.clusterBytes_congr fun i' hi' => writeSectorBytes_ne d' buffer fun heq => hx ?_
        rwa [dataLba_inj h2 hc2 hi' hi heq]
  | entry dirLba dirOffset entry =>
      obtain ⟨j, hjS, hj, rfl, rfl⟩ := hw
      have hlba := fs.rootLba_le_slotLba j
      refine ⟨fun hres => ?_, fun i hi hS => ?_, fun x hx => ?_, fun x hx h2 => ?_⟩
      · have hne : (0 : ℕ) ≠ fs.slotLba j := by rw [rootLba] at hlba; omega
        exact (writeSectorBytes_ne _ _ hne).trans (h.boot hres)
      · have hne : i ≠ j := fun heq => hS (heq ▸ hjS)
        exact (slotBytes_storeEntry_ne d' entry hne).trans (h.slots i hi hS)
      · rw [Fat16FileSystem.perform, table_storeEntry hreg, h.table x hx]
      · exact (clusterBytes_storeEntry hj entry x).trans (h.bytes x hx h2)

lemma performAll (hreg : fs.Regular) (h : fs.Spared F S d d')
    (hws : ∀ w ∈ ws, fs.Within F S w) : fs.Spared F S d (fs.performAll d' ws) := by
  induction ws generalizing d' with
  | nil => exact h
  | cons w ws ih =>
      exact ih (h.perform hreg (hws w (by simp))) fun w' hw' => hws w' (by simp [hw'])

/-- All free clusters are still in `F`. -/
lemma free (h : fs.Spared F S d d') (hfree : ∀ c, fs.InFat c → fs.table d c = 0 → c ∈ F)
    (c : UInt16) (hc : fs.InFat c) (h0 : fs.table d' c = 0) : c ∈ F := by
  by_contra hF
  exact hF (hfree c hc ((h.table c hF).symm.trans h0))

end Spared

/-! ### What is written -/

lemma within_chunkWrites {c : UInt16} (hF : c ∈ F) (hc : 2 ≤ c) (chunk : List UInt8) :
    ∀ w ∈ fs.chunkWrites (fs.dataLba c) chunk, fs.Within F S w := by
  intro w hw
  obtain ⟨i, hi, rfl⟩ := List.mem_map.mp hw
  exact ⟨c, hF, hc, i, List.mem_range.mp ((List.takeWhile_prefix _).subset hi), rfl⟩

lemma within_claimWrites {previous : Option UInt16} {c : UInt16}
    (hprevious : ∀ p ∈ previous, fs.InFat p ∧ p ∈ F) (hinFat : fs.InFat c) (hF : c ∈ F)
    (hc : 2 ≤ c) (chunk : List UInt8) :
    ∀ w ∈ fs.claimWrites previous c (fs.dataLba c) chunk, fs.Within F S w := by
  intro w hw
  rw [claimWrites, List.mem_append, List.mem_cons, List.mem_map] at hw
  rcases hw with (rfl | ⟨p, hp, rfl⟩) | hw
  · exact ⟨hinFat, hF⟩
  · exact hprevious p (Option.mem_toList.mp hp)
  · exact within_chunkWrites hF hc chunk w hw

/-- The loop that writes the data keeps to the clusters that are free at its start. -/
lemma within_writeLoopWrites (hreg : fs.Regular) (hF2 : ∀ c ∈ F, 2 ≤ c) {fuel bytesWritten : ℕ}
    {previous : Option UInt16} {first : UInt16} {out : Except FsError UInt16}
    (hfree : ∀ c, fs.InFat c → fs.table d c = 0 → c ∈ F)
    (hprevious : ∀ p ∈ previous, fs.InFat p ∧ p ∈ F)
    (h : fs.writeLoopWrites data fuel bytesWritten previous first d = .ok (out, ws)) :
    ∀ w ∈ ws, fs.Within F S w := by
  induction fuel generalizing bytesWritten previous first d ws out with
  | zero => exact absurd h (by simp [writeLoopWrites])
  | succ fuel ih =>
      rw [writeLoopWrites] at h
      by_cases hmore : bytesWritten < data.length ∨ data = []
      · rw [if_pos hmore] at h
        obtain ⟨found, hfound, h⟩ := bind_eq_ok.mp h
        rw [hreg.findFreeCluster] at hfound
        cases found with
        | none =>
            obtain ⟨-, rfl⟩ := Prod.mk.inj (Except.ok.inj h)
            simp
        | some c =>
            have hmem := List.mem_of_head? (Except.ok.inj hfound)
            obtain ⟨hinFat, h0⟩ := (mem_freeClusters hreg).mp hmem
            have hc := hfree c hinFat h0
            obtain ⟨lba, hlba, h⟩ := bind_eq_ok.mp h
            obtain rfl := eq_dataLba_of_clusterToLba hreg.toAddressable hlba
            have hclaim := fun chunk =>
              within_claimWrites (S := S) hprevious hinFat hc (hF2 c hc) chunk
            by_cases hempty : data = []
            · rw [if_pos hempty] at h
              obtain ⟨-, rfl⟩ := Prod.mk.inj (Except.ok.inj h)
              exact hclaim _
            · rw [if_neg hempty] at h
              obtain ⟨⟨out', rest⟩, hrest, h⟩ := bind_eq_ok.mp h
              obtain ⟨-, rfl⟩ := Prod.mk.inj (Except.ok.inj h)
              have hlast : ∀ p ∈ some c, fs.InFat p ∧ p ∈ F := by simpa using ⟨hinFat, hc⟩
              intro w hw
              rcases List.mem_append.mp hw with hw | hw
              · exact hclaim _ w hw
              · refine ih ?_ hlast hrest w hw
                exact ((Spared.refl fs F S d).performAll hreg (hclaim _)).free hfree
      · rw [if_neg hmore] at h
        obtain ⟨-, rfl⟩ := Prod.mk.inj (Except.ok.inj h)
        simp

/-- Of the writes of a call, only the last one may be to the directory. -/
lemma within_finishWrites (hreg : fs.Regular) (hF2 : ∀ c ∈ F, 2 ≤ c)
    (hfree : ∀ c, fs.InFat c → fs.table d c = 0 → c ∈ F) {freed : List SectorWrite}
    (hfreed : ∀ w ∈ freed, fs.Within F ∅ w) {dirLba dirOffset : ℕ}
    {entry : UInt16 → DirectoryEntry} {out : Except FsError Unit}
    (h : fs.finishWrites d data freed dirLba dirOffset entry = .ok (out, ws)) :
    ∃ ws₀ last, ws = ws₀ ++ last ∧ (∀ w ∈ ws₀, fs.Within F ∅ w) ∧
      (last = [] ∨ ∃ first, last = [.entry dirLba dirOffset (entry first)]) := by
  have hfree' := ((Spared.refl fs F ∅ d).performAll hreg hfreed).free hfree
  obtain ⟨⟨out', ws'⟩, hloop, h⟩ := bind_eq_ok.mp h
  have hws := within_writeLoopWrites (S := ∅) hreg hF2 hfree' (by simp) hloop
  have hall : ∀ w ∈ freed ++ ws', fs.Within F ∅ w := by
    intro w hw
    rcases List.mem_append.mp hw with hw | hw
    · exact hfreed w hw
    · exact hws w hw
  cases out' with
  | error e =>
      obtain ⟨-, rfl⟩ := Prod.mk.inj (Except.ok.inj h)
      exact ⟨_, [], (List.append_nil _).symm, hall, Or.inl rfl⟩
  | ok first =>
      obtain ⟨-, rfl⟩ := Prod.mk.inj (Except.ok.inj h)
      exact ⟨_, _, rfl, hall, Or.inr ⟨first, rfl⟩⟩

/-! ### Files that a loss of power leaves alone -/

namespace Volume

variable {k : ℕ} {chain : ℕ → List UInt16}

/-- The free clusters are none of the reserved ones. -/
lemma two_le_of_free (hreg : fs.Regular) (h : fs.Volume d k chain) {c : UInt16}
    (hc : fs.InFat c ∧ fs.table d c = 0) : 2 ≤ c :=
  two_le_of_mem_free hreg h.reserved ((mem_freeClusters hreg).mpr hc)

/-- A file none of whose clusters is in `F` and whose slot is not in `S` reads as before. -/
lemma readFile_of_spared (hreg : fs.Regular) (h : fs.Volume d k chain) (hs : fs.Spared F S d d')
    {i : ℕ} (hi : i < k) (hS : i ∉ S) (hF : ∀ c ∈ chain i, c ∉ F) :
    Leads (fs.table d') EndOfChain (fs.slotEntry d' i).clusterLow (chain i) ∧
      fs.readFile d' (fs.slotEntry d' i) = fs.readFile d (fs.slotEntry d i) := by
  have hslot := slotEntry_congr (hs.slots i (lt_of_lt_of_le hi h.count) hS)
  have hleads : Leads (fs.table d') EndOfChain (fs.slotEntry d' i).clusterLow (chain i) := by
    rw [hslot]
    exact (h.leads i hi).congr fun c hc => hs.table c (hF c hc)
  have hcells := h.cells i hi
  refine ⟨hleads, ?_⟩
  rw [readFile_eq hreg.toAddressable hreg.sectorsPerCluster
    (Leads.of_table hleads fun c hc => (hcells c hc).1) fun c hc => (hcells c hc).2,
    h.readFile hreg hi, hslot]
  congr 2
  exact List.flatMap_congr fun c hc => hs.bytes c (hF c hc) (hcells c hc).2

end Volume

variable {chain : ℕ → List UInt16} {c : Catalogue}

/-- The clusters that are free on a drive. -/
def freeSet (fs : Fat16FileSystem) (d : Disk) : Set UInt16 := {c | fs.InFat c ∧ fs.table d c = 0}

/-- Writes to free clusters leave the list of files as it is. -/
lemma Lists.spared (h : Lists d c chain) (hs : formatFs.Spared (formatFs.freeSet d) ∅ d d') {n : ℕ}
    (hn : (formatFs.freeClusters d').length = n) : Lists d' { c with free := n } chain := by
  have hreg := formatFs_regular
  have hvol := h.volume
  have hslots : ∀ i < formatFs.slotCount, formatFs.slotBytes d' i = formatFs.slotBytes d i :=
    fun i hi => hs.slots i hi (Set.notMem_empty i)
  have hchain : ∀ i < c.files.length, ∀ x ∈ chain i, x ∉ formatFs.freeSet d := fun i hi x hx hF =>
    hvol.table_ne_zero hi hx hF.2
  have hread := fun i hi => hvol.readFile_of_spared hreg hs hi (Set.notMem_empty i) (hchain i hi)
  have hreserved : formatFs.ReservedInUse d' := by
    have h0 := hs.table 0 fun hF => hvol.reserved.1 hF.2
    have h1 := hs.table 1 fun hF => hvol.reserved.2 hF.2
    rw [ReservedInUse, h0, h1]
    exact hvol.reserved
  refine ⟨⟨hvol.count, hreserved, fun i hi => ?_, fun i hi hi' => ?_, fun i hi => (hread i hi).1,
    hvol.nonempty, hvol.cells, hvol.nodup, hvol.disjoint⟩, fun i hi => ?_, fun i hi => ?_,
    h.length_chain, hn⟩
  · exact (live_congr (hslots i (lt_of_lt_of_le hi hvol.count))).mpr (hvol.live i hi)
  · exact (live_congr (hslots i hi')).not.mpr (hvol.free i hi hi')
  · exact (slotName_congr (hslots i (lt_of_lt_of_le hi hvol.count))).trans (h.named i hi)
  · exact (hread i hi).2.trans (h.content i hi)

/-! ### Creating files -/

/-- A call of `write_new_file` and the number of sector writes before the power is lost, if it comes
to that. -/
structure Creation where
  filename : Bytes 8
  ext : Bytes 3
  data : List UInt8
  writes : ℕ

/-- A file and how its creation ended; `none` if the power was lost. -/
structure Created where
  name : Bytes 8 × Bytes 3
  data : List UInt8
  result : Option (Except FsError Unit)

/-- The file, if `write_new_file` returned `Ok` and the name does not mark the slot as free. -/
def Created.file (o : Created) : Option ((Bytes 8 × Bytes 3) × List UInt8) :=
  if o.result = some (.ok ()) ∧ ¬ FreeMark (o.name.1.byte 0) then some (o.name, o.data) else none

/-- Files are created, and the power may be lost at each of them.  The drive is mounted again then,
which needs a boot sector that `init` accepts. -/
def creations : Machine Disk Creation Created Fault where
  step d a :=
    match init d with
    | none => .error .panic
    | some fs =>
        (fs.writeNewFileWrites d a.filename a.ext a.data).map fun (out, ws) =>
          (⟨(a.filename, a.ext), a.data, if a.writes < ws.length then none else some out⟩,
            fs.performAll d (ws.take a.writes))

/-- What holds between two creations: the drive is mounted as it was formatted, and holds the
files. -/
def Survives (files : List ((Bytes 8 × Bytes 3) × List UInt8)) (d : Disk) : Prop :=
  init d = some formatFs ∧ ∃ n chain, Lists d ⟨files, n⟩ chain

lemma mem_of_mem_take_append {α : Type} {l last : List α} {n : ℕ} {x : α}
    (hn : n < (l ++ last).length) (hlast : last.length ≤ 1) (hx : x ∈ (l ++ last).take n) :
    x ∈ l := by
  rw [List.length_append] at hn
  rw [List.take_append_of_le_length (by omega)] at hx
  exact List.mem_of_mem_take hx

/-- As long as one of its writes is missing, a creation has written to free clusters only. -/
lemma within_take_writeNewFileWrites {k : ℕ} (hreg : fs.Regular) (hvol : fs.Volume d k chain)
    {out : Except FsError Unit}
    (h : fs.writeNewFileWrites d filename ext data = .ok (out, ws)) {n : ℕ} (hn : n < ws.length) :
    ∀ w ∈ ws.take n, fs.Within (fs.freeSet d) ∅ w := by
  obtain ⟨found, -, h⟩ := bind_eq_ok.mp h
  rcases found with _ | ⟨dirLba, dirOffset⟩
  · obtain ⟨-, rfl⟩ := Prod.mk.inj (Except.ok.inj h)
    exact absurd hn (Nat.not_lt_zero n)
  · obtain ⟨ws₀, last, rfl, hws₀, hlast⟩ := within_finishWrites (F := fs.freeSet d) hreg
      (fun c hc => hvol.two_le_of_free hreg hc) (fun c hc h0 => ⟨hc, h0⟩) (by simp) h
    have hlen : last.length ≤ 1 := by rcases hlast with rfl | ⟨first, rfl⟩ <;> simp
    exact fun w hw => hws₀ w (mem_of_mem_take_append hn hlen hw)

/-- The files of the list after a creation. -/
lemma files_create (c : Catalogue) (name : Bytes 8 × Bytes 3) (data : List UInt8) :
    (c.create name data).2.files =
      c.files ++ (Created.file ⟨name, data, some (c.create name data).1⟩).toList := by
  rw [Catalogue.create, Created.file]
  split_ifs <;> simp_all

lemma creations_step {a : Creation} {out : Except FsError Unit} (hinit : init d = some fs)
    (hws : fs.writeNewFileWrites d a.filename a.ext a.data = .ok (out, ws)) :
    creations.step d a =
      .ok (⟨(a.filename, a.ext), a.data, if a.writes < ws.length then none else some out⟩,
        fs.performAll d (ws.take a.writes)) := by
  simp only [creations, hinit, hws, Except.map]

/-- One creation, cut off or not. -/
lemma Survives.step {files : List ((Bytes 8 × Bytes 3) × List UInt8)} (h : Survives files d)
    (a : Creation) :
    ∃ o d', creations.step d a = .ok (o, d') ∧ Survives (files ++ o.file.toList) d' := by
  obtain ⟨hinit, n, chain, hlists⟩ := h
  have hreg := formatFs_regular
  obtain ⟨d₁, chain₁, hstep, hlists₁⟩ := hlists.create a.filename a.ext a.data
  have hcall := hstep
  rw [machine_step_writeNewFile, writeNewFile_eq_writes] at hcall
  obtain ⟨⟨out, ws⟩, hws, hended⟩ := map_eq_ok.mp hcall
  obtain ⟨hout, hdisk⟩ := Prod.mk.inj hended
  dsimp only at hout hdisk
  refine ⟨_, _, creations_step hinit hws, ?_⟩
  by_cases hcut : a.writes < ws.length
  · -- the power is lost before the entry is stored
    have hs := (Spared.refl formatFs (formatFs.freeSet d) ∅ d).performAll hreg
      (within_take_writeNewFileWrites hreg hlists.volume hws hcut)
    have hboot := hs.boot (by rw [formatFs_reservedSectors]; decide)
    rw [if_pos hcut]
    simp only [Created.file, reduceCtorEq, false_and, if_false, Option.toList_none, List.append_nil]
    exact ⟨(init_congr hboot).trans hinit, _, chain, hlists.spared hs rfl⟩
  · rw [if_neg hcut, List.take_of_length_le (by omega), hdisk, hout]
    have hfiles := files_create ⟨files, n⟩ (a.filename, a.ext) a.data
    refine ⟨(hlists.volume.init_call hstep).trans hinit,
      (Catalogue.create ⟨files, n⟩ (a.filename, a.ext) a.data).2.free, chain₁, ?_⟩
    rwa [← hfiles]

/-- **A file is created as a whole or not at all.**  Whatever files are created on a formatted
drive, and wherever in their creation the power is lost: the drive can be mounted again, and then
it finds and reads exactly the files whose creation came to its end. -/
theorem creations_survive_power_loss (d₀ : Disk) (as : List Creation) :
    ∃ outs d fs, creations.run (formatDrive d₀) as = .ok (outs, d) ∧ init d = some fs ∧
      fs.Implements d (Catalogue.contents ⟨outs.filterMap Created.file, fs.freeCount d⟩) := by
  have hstep : ∀ outs d a, Survives (outs.filterMap Created.file) d →
      ∃ o d', creations.step d a = .ok (o, d') ∧
        Survives ((outs ++ [o]).filterMap Created.file) d' := by
    intro outs d a h
    obtain ⟨o, d', hs, h'⟩ := h.step a
    refine ⟨o, d', hs, ?_⟩
    rw [List.filterMap_append]
    cases hfile : o.file <;> simpa [hfile] using h'
  obtain ⟨outs, d, hrun, hinit, n, chain, h⟩ := creations.run_history_total hstep
    ⟨init_formatDrive d₀, 16382, _, lists_formatDrive d₀⟩ as
  have hfree : formatFs.freeCount d = n := h.freeCount
  exact ⟨outs, d, formatFs, hrun, hinit, hfree ▸ h.implements⟩

/-! ### Overwriting a file -/

/-- Freeing a chain writes to the words of its clusters only. -/
lemma within_freeChainWrites {l : List UInt16} {current : UInt16} {fuel : ℕ}
    (hl : Leads (fs.getFatEntry d) EndOfChain current l) (hnd : l.Nodup)
    (hF : ∀ x ∈ l, fs.InFat x ∧ x ∈ F) (h : fs.freeChainWrites fuel current d = .ok ws) :
    ∀ w ∈ ws, fs.Within F S w := by
  induction l generalizing current d ws fuel with
  | nil =>
      cases fuel with
      | zero => exact absurd h (by simp [freeChainWrites])
      | succ fuel =>
          have hstop : ¬ (2 ≤ current ∧ current < 0xFFF8) := fun hc => UInt16.not_le.mpr hc.2 hl
          rw [freeChainWrites, if_neg hstop] at h
          obtain rfl := Except.ok.inj h
          simp
  | cons x l ih =>
      obtain ⟨rfl, -, hl⟩ := hl
      obtain ⟨hx, hnd⟩ := List.nodup_cons.mp hnd
      cases fuel with
      | zero => exact absurd h (by simp [freeChainWrites])
      | succ fuel =>
          rw [freeChainWrites] at h
          split_ifs at h
          · obtain ⟨rest, hrest, h⟩ := bind_eq_ok.mp h
            obtain rfl := Except.ok.inj h
            have hl' : Leads (fs.getFatEntry (fs.setFatEntry d current 0)) EndOfChain
                (fs.getFatEntry d current) l := by
              rw [getFatEntry_setFatEntry]
              refine hl.congr fun y hy => Function.update_of_ne ?_ _ _
              rintro rfl
              exact hx hy
            intro w hw
            rcases List.mem_cons.mp hw with rfl | hw
            · exact hF current (by simp)
            · exact ih hl' hnd (fun y hy => hF y (by simp [hy])) hrest w hw
          · obtain rfl := Except.ok.inj h
            simp

/-- The clusters that an overwrite of a file with the clusters `l` may write to. -/
def takenSet (fs : Fat16FileSystem) (d : Disk) (l : List UInt16) : Set UInt16 :=
  {c | fs.InFat c ∧ (c ∈ l ∨ fs.table d c = 0)}

/-- The writes of an overwrite: up to the last one they are to the clusters of the file and to free
ones, and the last one stores the entry under the same name. -/
lemma within_overwriteFileWrites {k j : ℕ} (hreg : fs.Regular) (hvol : fs.Volume d k chain)
    (hj : fs.Finds d k filename ext j) {out : Except FsError Unit}
    (h : fs.overwriteFileWrites d filename ext data = .ok (out, ws)) :
    ∃ ws₀ last, ws = ws₀ ++ last ∧
      (∀ w ∈ ws₀, fs.Within (fs.takenSet d (chain j)) ∅ w) ∧
      (last = [] ∨ ∃ first, last = [.entry (fs.slotLba j) (slotOffset j)
        (overwrittenEntry (fs.slotEntry d j) first data)]) := by
  have hfound := findFileLocation_of_packed hreg.toAddressable hvol.count hvol.live hvol.free
    filename ext
  rw [find?_eq_some_iff_finds.mpr hj, Option.map_some] at hfound
  rw [overwriteFileWrites, hfound, ok_bind] at h
  dsimp only at h
  have hcells := hvol.cells j hj.1
  have hmem := hvol.clusterLow_mem hj.1
  rw [if_pos (hcells _ hmem).2] at h
  obtain ⟨freed, hfreed, h⟩ := bind_eq_ok.mp h
  refine within_finishWrites (F := fs.takenSet d (chain j)) hreg ?_
    (fun c hc h0 => ⟨hc, Or.inr h0⟩) ?_ h
  · rintro c ⟨hc, hmem | h0⟩
    · exact (hcells c hmem).2
    · exact hvol.two_le_of_free hreg ⟨hc, h0⟩
  · exact within_freeChainWrites
      (Leads.of_table (hvol.leads j hj.1) fun c hc => (hcells c hc).1) (hvol.nodup j hj.1)
      (fun c hc => ⟨(hcells c hc).1, (hcells c hc).1, Or.inl hc⟩) hfreed

/-- A drive on which the overwrite of the file in slot `j` was cut off, or not: the other slots are
as they were, and slot `j` has its name. -/
lemma spared_take_overwriteFileWrites {k j : ℕ} (hreg : fs.Regular) (hvol : fs.Volume d k chain)
    (hj : fs.Finds d k filename ext j) {out : Except FsError Unit}
    (h : fs.overwriteFileWrites d filename ext data = .ok (out, ws)) (n : ℕ) :
    fs.Spared (fs.takenSet d (chain j)) {j} d (fs.performAll d (ws.take n)) ∧
      fs.slotName (fs.performAll d (ws.take n)) j = fs.slotName d j := by
  have hjk : j < fs.slotCount := lt_of_lt_of_le hj.1 hvol.count
  have hrefl := Spared.refl fs (fs.takenSet d (chain j))
  obtain ⟨ws₀, last, rfl, hws₀, hlast⟩ := within_overwriteFileWrites hreg hvol hj h
  have hlen : last.length ≤ 1 := by rcases hlast with rfl | ⟨first, rfl⟩ <;> simp
  -- without the last write the directory is as it was
  have hbefore : (∀ w ∈ (ws₀ ++ last).take n, w ∈ ws₀) →
      fs.Spared (fs.takenSet d (chain j)) {j} d (fs.performAll d ((ws₀ ++ last).take n)) ∧
      fs.slotName (fs.performAll d ((ws₀ ++ last).take n)) j = fs.slotName d j := by
    intro hmem
    have hin := fun w hw => hws₀ w (hmem w hw)
    exact ⟨(hrefl {j} d).performAll hreg fun w hw => (hin w hw).mono (Set.empty_subset _),
      slotName_congr (((hrefl ∅ d).performAll hreg hin).slots j hjk (Set.notMem_empty j))⟩
  by_cases hn : n < (ws₀ ++ last).length
  · exact hbefore fun w hw => mem_of_mem_take_append hn hlen hw
  · rw [List.take_of_length_le (by omega)] at hbefore ⊢
    rcases hlast with rfl | ⟨first, rfl⟩
    · exact hbefore fun w hw => by simpa using hw
    · constructor
      · refine (hrefl {j} d).performAll hreg fun w hw => ?_
        rcases List.mem_append.mp hw with hw | hw
        · exact (hws₀ w hw).mono (Set.empty_subset _)
        · obtain rfl := List.mem_singleton.mp hw
          exact ⟨j, rfl, hjk, rfl, rfl⟩
      · rw [performAll_append, performAll_entry, slotName, slotEntry_storeEntry_same]
        rfl

/-- If all slots keep their names, and all but slot `j` their files, then so do the lookups of all
names but that of slot `j`. -/
lemma Volume.lookup_of_spared {k j : ℕ} (hreg : fs.Regular) (hvol : fs.Volume d k chain)
    (hs : fs.Spared F {j} d d') (hname : fs.slotName d' j = fs.slotName d j)
    (hF : ∀ i < k, i ≠ j → ∀ c ∈ chain i, c ∉ F) (hne : (filename, ext) ≠ fs.slotName d j) :
    fs.findFile d' filename ext = fs.findFile d filename ext ∧
      ∀ entry, fs.findFile d filename ext = .ok (some entry) →
        fs.readFile d' entry = fs.readFile d entry := by
  have hslots : ∀ i < fs.slotCount, i ≠ j → fs.slotBytes d' i = fs.slotBytes d i := fun i hi hij =>
    hs.slots i hi (by simpa using hij)
  have hnames : ∀ i < fs.slotCount, fs.slotName d' i = fs.slotName d i := by
    intro i hi
    by_cases hij : i = j
    · rw [hij, hname]
    · exact slotName_congr (hslots i hi hij)
  have hlive : ∀ i < fs.slotCount, (fs.Live d' i ↔ fs.Live d i) := by
    intro i hi
    rw [Live, Live, ← byte_filename_slotEntry, ← byte_filename_slotEntry,
      (Prod.mk.inj (hnames i hi)).1]
  have hcount := hvol.count
  have hfind' := findFile_of_packed hreg.toAddressable hcount
    (fun i hi => (hlive i (by omega)).mpr (hvol.live i hi))
    (fun i hi hi' => (hlive i hi').not.mpr (hvol.free i hi hi')) filename ext
  have hfind := hvol.findFile hreg filename ext
  have hsame : (List.range k).find? (fun i => decide (fs.HasName d' filename ext i)) =
      (List.range k).find? fun i => decide (fs.HasName d filename ext i) := by
    refine List.find?_congr fun i hi => ?_
    rw [List.mem_range] at hi
    simp only [hasName_iff, hnames i (by omega)]
  rw [hfind', hfind, hsame]
  cases hslot : (List.range k).find? fun i => decide (fs.HasName d filename ext i) with
  | none =>
      rw [Option.map_none, Option.map_none]
      exact ⟨rfl, fun entry h => absurd (Except.ok.inj h) (by simp)⟩
  | some i =>
      obtain ⟨hi, hi', -⟩ := find?_eq_some_iff_finds.mp hslot
      have hij : i ≠ j := by
        rintro rfl
        exact hne (hasName_iff.mp hi').symm
      have hentry := slotEntry_congr (hslots i (by omega) hij)
      have hread := (hvol.readFile_of_spared hreg hs hi (by simpa using hij) (hF i hi hij)).2
      rw [Option.map_some, Option.map_some, hentry]
      refine ⟨rfl, fun entry h => ?_⟩
      rw [← Option.some.inj (Except.ok.inj h), ← hread, hentry]

/-- **The other files survive an overwrite.**  On every drive that calls of the file system can
lead to, wherever the power is lost in an overwrite: a lookup of any other name finds what it found
before, and the file reads as before. -/
theorem overwrite_power_loss_spares_others (hreach : fs.Reachable d) (filename : Bytes 8)
    (ext : Bytes 3) (data : List UInt8) :
    ∃ out ws, fs.overwriteFileWrites d filename ext data = .ok (out, ws) ∧
      ∀ n name ext', (name, ext') ≠ (filename, ext) →
        fs.findFile (fs.performAll d (ws.take n)) name ext' = fs.findFile d name ext' ∧
        ∀ entry, fs.findFile d name ext' = .ok (some entry) →
          fs.readFile (fs.performAll d (ws.take n)) entry = fs.readFile d entry := by
  obtain ⟨rfl, k, chain, hvol⟩ := hreach.volume
  have hreg := formatFs_regular
  rcases formatFs.finds_or d k filename ext with ⟨j, hj⟩ | hnone
  · obtain ⟨out, d₁, hcall, -⟩ := hvol.overwriteFile_effect hreg filename ext data
    rw [overwriteFile_eq_writes] at hcall
    obtain ⟨⟨out', ws⟩, hws, -⟩ := map_eq_ok.mp hcall
    refine ⟨out', ws, hws, fun n name ext' hne => ?_⟩
    obtain ⟨hs, hname⟩ := spared_take_overwriteFileWrites hreg hvol hj hws n
    refine hvol.lookup_of_spared hreg hs hname ?_ (by rwa [hasName_iff.mp hj.2.1])
    rintro i hi hij c hc ⟨-, hmem | h0⟩
    · exact hvol.disjoint i hi j hj.1 hij hc hmem
    · exact hvol.table_ne_zero hi hc h0
  · -- there is no such file, and nothing is written
    have hfound := findFileLocation_of_packed hreg.toAddressable hvol.count hvol.live hvol.free
      filename ext
    have hfind :
        (List.range k).find? (fun j => decide (formatFs.HasName d filename ext j)) = none :=
      List.find?_eq_none.mpr (by simpa using hnone)
    rw [hfind, Option.map_none] at hfound
    refine ⟨.error .fileNotFound, [], ?_, fun n name ext' _ => ?_⟩
    · rw [overwriteFileWrites, hfound]
      rfl
    · rw [List.take_nil, performAll_nil]
      exact ⟨rfl, fun _ _ => rfl⟩

/-- With two files on the drive, the second one survives every overwrite of the first. -/
theorem overwrite_power_loss_spares_others_two :
    ∃ d out ws, formatFs.Reachable d ∧
      formatFs.overwriteFileWrites d (letters 0x41) txt [3] = .ok (out, ws) ∧
      ∀ n, ∃ entry, formatFs.findFile (formatFs.performAll d (ws.take n)) (letters 0x42) txt =
          .ok (some entry) ∧
        formatFs.readFile (formatFs.performAll d (ws.take n)) entry = .ok [2] := by
  obtain ⟨d₁, _, hstep₁, hlists₁⟩ := (lists_formatDrive blankDrive).create (letters 0x41) txt [1]
  obtain ⟨d₂, _, hstep₂, hlists₂⟩ := hlists₁.create (letters 0x42) txt [2]
  have hrun := formatFs.machine.run_cons_of_step hstep₁ [.writeNewFile (letters 0x42) txt [2]]
  rw [formatFs.machine.run_cons_of_step hstep₂] at hrun
  have hreach : formatFs.Reachable d₂ := ⟨blankDrive, _, _, init_formatDrive _, hrun⟩
  obtain ⟨out, ws, hws, hothers⟩ :=
    overwrite_power_loss_spares_others hreach (letters 0x41) txt [3]
  obtain ⟨entry, hfind, hread⟩ := hlists₂.implements.present (letters 0x42) txt [2] (by decide)
  refine ⟨d₂, out, ws, hreach, hws, fun n => ⟨entry, ?_, ?_⟩⟩
  · rw [(hothers n (letters 0x42) txt (by decide)).1, hfind]
  · rw [(hothers n (letters 0x42) txt (by decide)).2 entry hfind, hread]

end Fat16FileSystem

end SilOS.Fat16
