/-
# The mounted geometry

The parameter block of the drive is read once, at boot, and every file operation computes its
addresses from that copy.  `format_drive` writes a new parameter block and does not know the
mounted file system, so after `formatd` the copy can be out of date.

`Effect` lists what a command can do to the drive.  The calls of the file system write no sector
before the first FAT (`reserved_call`), so they leave the parameter block alone unless the volume
says that it has no reserved sectors.
-/
import SilOS.Fat16.Frame
import SilOS.Shell.Files

namespace SilOS

open Lib Fat16 Risp

namespace Fat16.Fat16FileSystem

variable {fs : Fat16FileSystem} {d d' : Disk}

/-! ### The reserved sectors -/

/-- The drives have the same sectors before the first FAT. -/
def SameReserved (fs : Fat16FileSystem) (d d' : Disk) : Prop :=
  ∀ lba < fs.bpb.reservedSectors.toNat, d' lba = d lba

/-- **Calls.**  No call of the file system writes a sector before the first FAT. -/
theorem reserved_call {call : Call} {out : Except FsError Unit}
    (h : fs.machine.step d call = .ok (out, d')) : fs.SameReserved d d' := by
  have hfat : ∀ c, fs.fatSector c ∉ Set.Iio fs.bpb.reservedSectors.toNat := by
    intro c hc
    rw [Set.mem_Iio, fatSector] at hc
    omega
  have hlow : ∀ lba ∈ Set.Iio fs.bpb.reservedSectors.toNat, lba < fs.rootLba :=
    fun lba hlba => Nat.lt_of_lt_of_le hlba (Nat.le_add_right _ _)
  intro lba hlba
  exact eqOn_call hlow (fun c _ => hfat c) (fun _ _ _ _ _ _ x _ => hfat x) h hlba

end Fat16.Fat16FileSystem

/-! ### What a command does -/

namespace Mount

variable {m m₁ : Mount} {cmd : Command} {o : Outcome}

/-- What a command can do to the drive. -/
inductive Effect (m : Mount) : Command → Mount → Prop where
  | unchanged (cmd : Command) : Effect m cmd m
  | formatted : Effect m .formatd { m with disk := formatDrive m.disk }
  | called {cmd : Command} {fs : Fat16FileSystem} (call : Call) {out : Except FsError Unit}
      {d : Disk} (hfs : m.fs = some fs)
      (hcall : fs.machine.step m.disk call = .ok (out, d)) : Effect m cmd { m with disk := d }

lemma effect_of_eq {o' : Outcome} (h : Except.ok (o', m) = (.ok (o, m₁) : Except Fault _)) :
    Effect m cmd m₁ := by
  obtain ⟨-, rfl⟩ := Prod.mk.inj (Except.ok.inj h)
  exact .unchanged cmd

lemma effect_writeCommand {args : List Str} {usage notMounted : String}
    {call : Bytes 8 → Bytes 3 → List UInt8 → Call}
    {report : Str → Str → List UInt8 → Except FsError Unit → Outcome}
    (h : m.writeCommand args usage notMounted call report = .ok (o, m₁)) : Effect m cmd m₁ := by
  rw [writeCommand] at h
  rcases hname : resolveNameExt args 1 with - | ⟨name, ext, next⟩ <;> rw [hname] at h
  · exact effect_of_eq h
  · simp only at h
    split_ifs at h
    · exact effect_of_eq h
    · rcases hfs : m.fs with - | fs <;> rw [hfs] at h
      · exact effect_of_eq h
      · obtain ⟨⟨result, disk⟩, hcall, h⟩ := bind_eq_ok.mp h
        obtain ⟨-, rfl⟩ := Prod.mk.inj (Except.ok.inj h)
        rw [← hfs]
        exact .called _ hfs hcall

/-- Reading changes nothing. -/
lemma effect_readCommand {args : List Str} {usage kind invalid : String} {found : ℕ → Str → Outcome}
    (h : m.readCommand args usage kind invalid found = .ok (o, m₁)) : Effect m cmd m₁ := by
  rw [readCommand] at h
  rcases hname : resolveNameExt args 1 with - | ⟨name, ext, next⟩ <;> rw [hname] at h
  · exact effect_of_eq h
  · rcases hfs : m.fs with - | fs <;> rw [hfs] at h
    · exact effect_of_eq h
    · obtain ⟨contents, -, h⟩ := bind_eq_ok.mp h
      rcases contents with - | fileData
      · exact effect_of_eq h
      · simp only at h
        split at h <;> exact effect_of_eq h

/-- The editor writes the file at most once, at Escape. -/
lemma effect_runEdit {args : List Str} {keys : List Editor.Op}
    (h : m.runEdit args keys = .ok (o, m₁)) : Effect m (.eden args keys) m₁ := by
  rw [runEdit] at h
  obtain ⟨editor, -, h⟩ := bind_eq_ok.mp h
  obtain ⟨⟨_, editor'⟩, -, h⟩ := bind_eq_ok.mp h
  obtain ⟨m₂, hsave, h⟩ := bind_eq_ok.mp h
  obtain ⟨-, rfl⟩ := Prod.mk.inj (Except.ok.inj h)
  rw [saveEditor] at hsave
  rcases hfs : m.fs with - | fs <;> rw [hfs] at hsave
  · obtain rfl := Except.ok.inj hsave
    exact .unchanged _
  · obtain ⟨found, -, hsave⟩ := bind_eq_ok.mp hsave
    cases found with
    | none =>
        obtain ⟨⟨out, disk⟩, hcall, hsave⟩ := bind_eq_ok.mp hsave
        obtain rfl := Except.ok.inj hsave
        rw [← hfs]
        exact .called (.writeNewFile _ _ _) hfs hcall
    | some entry =>
        obtain ⟨⟨out, disk⟩, hcall, hsave⟩ := bind_eq_ok.mp hsave
        obtain rfl := Except.ok.inj hsave
        rw [← hfs]
        exact .called (.overwriteFile _ _ _) hfs hcall

/-- Every command has one of these effects. -/
lemma effect_of_handle (h : m.handle cmd = .ok (o, m₁)) : Effect m cmd m₁ := by
  cases cmd with
  | formatd =>
      obtain ⟨-, rfl⟩ := Prod.mk.inj (Except.ok.inj h)
      exact .formatted
  | mkdir args =>
      rw [handle, makeFile] at h
      exact effect_writeCommand h
  | edit args =>
      rw [handle, edit] at h
      exact effect_writeCommand h
  | eden args keys => exact effect_runEdit h
  | cat args => exact effect_readCommand h
  | run args => exact effect_readCommand h

/-! ### The mounted parameter block -/

/-- The mounted parameter block is the one in sector 0. -/
def Matches (m : Mount) : Prop := ∀ fs, m.fs = some fs → fs.bpb = Bpb.ofSector (m.disk 0)

lemma matches_iff {d : Disk} {fs : Fat16FileSystem} :
    Matches ⟨d, some fs⟩ ↔ fs.bpb = Bpb.ofSector (d 0) :=
  ⟨fun h => h fs rfl, fun h _ hfs => Option.some.inj hfs ▸ h⟩

/-- The drive is formatted only if the mounted parameter block is the one that formatting writes. -/
def KeepsGeometry (m : Mount) (cmd : Command) : Prop :=
  cmd = .formatd → ∀ fs, m.fs = some fs → fs.bpb = formatFs.bpb

lemma ofSector_formatDrive (d : Disk) : Bpb.ofSector (formatDrive d 0) = formatFs.bpb := by
  rw [formatDrive_apply d (by omega), if_pos rfl, formatFs]

/-- A call on a volume with reserved sectors leaves sector 0 as it is. -/
lemma sector_zero_of_call {fs : Fat16FileSystem} {call : Call} {out : Except FsError Unit}
    {d d' : Disk} (hres : fs.bpb.reservedSectors ≠ 0)
    (hcall : fs.machine.step d call = .ok (out, d')) : d' 0 = d 0 := by
  refine Fat16FileSystem.reserved_call hcall 0 (Nat.pos_of_ne_zero fun hzero => hres ?_)
  exact UInt16.toNat_inj.mp hzero

/-- The mounted volume has reserved sectors. -/
def Reserved (m : Mount) : Prop := ∀ fs, m.fs = some fs → fs.bpb.reservedSectors ≠ 0

/-- **One command.**  No command mounts anything, and none that writes files reaches sector 0. -/
lemma matches_of_step (hm : m.Matches ∧ m.Reserved) (hcmd : m.KeepsGeometry cmd)
    (hstep : machine.step m cmd = .ok (o, m₁)) : m₁.Matches ∧ m₁.Reserved := by
  cases effect_of_handle hstep with
  | unchanged => exact hm
  | formatted =>
      refine ⟨fun fs hfs => ?_, hm.2⟩
      dsimp only at hfs ⊢
      rw [ofSector_formatDrive]
      exact hcmd rfl fs hfs
  | @called _ fs call out d hfs hcall =>
      refine ⟨fun fs' hfs' => ?_, hm.2⟩
      obtain rfl : fs = fs' := Option.some.inj (hfs.symm.trans hfs')
      dsimp only
      rw [sector_zero_of_call (hm.2 fs hfs) hcall]
      exact hm.1 fs hfs

/-- The state after boot. -/
lemma matches_boot {d : Disk} (hres : (Bpb.ofSector (d 0)).reservedSectors ≠ 0)
    (hboot : boot d = .ok m) : m.Matches ∧ m.Reserved := by
  rw [boot] at hboot
  rcases hinit : Fat16.init d with - | fs
  · rw [hinit] at hboot
    exact absurd hboot (by simp)
  · rw [hinit] at hboot
    obtain ⟨⟨out, disk⟩, hcall, hboot⟩ := bind_eq_ok.mp hboot
    obtain rfl := Except.ok.inj hboot
    -- what is mounted was read from sector 0
    have hfs : fs = ⟨Bpb.ofSector (d 0)⟩ := by
      by_cases hbps : (Bpb.ofSector (d 0)).bytesPerSector = 512
      · simpa [Fat16.init, readSector, hbps] using hinit.symm
      · simp [Fat16.init, readSector, hbps] at hinit
    have hstep : fs.machine.step d (.writeNewFile testName testExt [12, 12, 15]) =
        .ok (out, disk) := hcall
    have hreserved : fs.bpb.reservedSectors ≠ 0 := by
      rw [hfs]
      exact hres
    have hzero := sector_zero_of_call hreserved hstep
    refine ⟨?_, fun fs' hfs' => Option.some.inj hfs' ▸ hreserved⟩
    rw [matches_iff, hzero, hfs]

/-- **The mounted geometry.**  From the boot of a drive with reserved sectors, in every run in which
the drive is formatted only when the mounted parameter block is the one that formatting writes, the
mounted parameter block is the one in sector 0. -/
theorem mounted_geometry_matches {d : Disk} (hres : (Bpb.ofSector (d 0)).reservedSectors ≠ 0)
    {m m₁ : Mount} (hboot : boot d = .ok m) {cmds : List Command} {os : List Outcome}
    (hcmds : machine.Along KeepsGeometry m cmds) (hrun : machine.run m cmds = .ok (os, m₁)) :
    m₁.Matches :=
  (machine.run_keeps (fun _ _ _ _ hm hcmd hstep => matches_of_step hm hcmd hstep)
    (matches_boot hres hboot) hcmds hrun).1

/-! ### A drive with another geometry -/

/-- The parameter block of a FAT32 volume: no root directory of fixed size, and no 16-bit number of
sectors for each FAT. -/
def fat32Sector : Sector :=
  (((((Bytes.zeros 512).copyFromSlice 11 (toLe16 512)).setByte 13 8).copyFromSlice 14
    (toLe16 32)).setByte 16 2).setByte 21 0xF8

/-- A drive with a FAT32 volume. -/
def fat32Drive : Disk := writeSectorBytes (fun _ => Bytes.zeros 512) 0 fat32Sector

/-- What is mounted from it. -/
def fat32Fs : Fat16FileSystem := ⟨Bpb.ofSector fat32Sector⟩

lemma u16_fat32Sector {off : ℕ} {v : UInt16}
    (h : fat32Sector.byte off = lo16 v ∧ fat32Sector.byte (off + 1) = hi16 v) :
    fat32Sector.u16 off = v := by
  rw [Bytes.u16, h.1, h.2, fromLe16_toLe16]

lemma fat32Fs_bytesPerSector : fat32Fs.bpb.bytesPerSector = 512 :=
  u16_fat32Sector (by simp [fat32Sector, Bytes.byte_setByte, Bytes.byte_copyFromSlice, toLe16])

lemma fat32Fs_reservedSectors : fat32Fs.bpb.reservedSectors = 32 :=
  u16_fat32Sector (by simp [fat32Sector, Bytes.byte_setByte, Bytes.byte_copyFromSlice, toLe16])

lemma fat32Fs_rootEntries : fat32Fs.bpb.rootEntries = 0 :=
  u16_fat32Sector (by
    simp [fat32Sector, Bytes.byte_setByte, Bytes.byte_copyFromSlice, toLe16, lo16, hi16])

lemma fat32Fs_addressable : fat32Fs.Addressable where
  bytesPerSector := fat32Fs_bytesPerSector
  rootEntries := by rw [fat32Fs_rootEntries]; decide

/-- There is no slot for a new file. -/
lemma fat32Fs_writeNewFile (d : Disk) (filename : Bytes 8) (ext : Bytes 3) (data : List UInt8) :
    fat32Fs.writeNewFile d filename ext data = .ok (.error .rootDirectoryFull, d) := by
  have hcount : fat32Fs.slotCount = 0 := by
    rw [Fat16FileSystem.slotCount, Fat16FileSystem.rootSectors, fat32Fs_rootEntries]
    rfl
  rw [Fat16FileSystem.writeNewFile,
    Fat16FileSystem.findEmptyRootSlot_eq fat32Fs_addressable.rootEntries, hcount]
  rfl

lemma fat32Drive_zero : fat32Drive 0 = fat32Sector := by
  rw [fat32Drive, writeSectorBytes_same]

/-- The kernel mounts the volume. -/
lemma boot_fat32Drive : boot fat32Drive = .ok ⟨fat32Drive, some fat32Fs⟩ := by
  have hbps : (Bpb.ofSector fat32Sector).bytesPerSector = 512 := fat32Fs_bytesPerSector
  have hinit : Fat16.init fat32Drive = some fat32Fs := by
    simp only [Fat16.init, readSector, fat32Drive_zero, hbps]
    rfl
  rw [boot, hinit]
  simp only [fat32Fs_writeNewFile, ok_bind]
  rfl

/-- `mkdir a.txt x` -/
def mkdirCommand : Command :=
  .mkdir [['m', 'k', 'd', 'i', 'r'], ['a', '.', 't', 'x', 't'], ['x']]

/-- The file is not created, whatever the drive holds. -/
lemma step_mkdirCommand (d : Disk) :
    machine.step ⟨d, some fat32Fs⟩ mkdirCommand =
      .ok (.error "FS Error: Root directory full", ⟨d, some fat32Fs⟩) := by
  have hname : resolveNameExt [['m', 'k', 'd', 'i', 'r'], ['a', '.', 't', 'x', 't'], ['x']] 1 =
      some (['a'], ['t', 'x', 't'], 2) := by decide
  have hcall (filename : Bytes 8) (ext : Bytes 3) (data : List UInt8) :
      fat32Fs.machine.step d (.writeNewFile filename ext data) =
        .ok (.error .rootDirectoryFull, d) := fat32Fs_writeNewFile d filename ext data
  simp only [machine, handle, mkdirCommand, makeFile, writeCommand, hname, hcall, ok_bind]
  rfl

/-- A command that writes a file, after the boot of a drive with another geometry. -/
theorem mounted_geometry_matches_mkdir :
    ∃ m m₁ os, boot fat32Drive = .ok m ∧ machine.run m [mkdirCommand] = .ok (os, m₁) ∧
      m₁.Matches := by
  have hres : (Bpb.ofSector (fat32Drive 0)).reservedSectors ≠ 0 := by
    rw [fat32Drive_zero, show (Bpb.ofSector fat32Sector).reservedSectors = 32 from
      fat32Fs_reservedSectors]
    decide
  have hcmds : machine.Along KeepsGeometry ⟨fat32Drive, some fat32Fs⟩ [mkdirCommand] :=
    ⟨fun hformat => absurd hformat (by simp [mkdirCommand]), fun _ _ _ => trivial⟩
  have hrun : machine.run ⟨fat32Drive, some fat32Fs⟩ [mkdirCommand] = _ :=
    machine.run_cons_of_step (step_mkdirCommand fat32Drive) []
  exact ⟨_, _, _, boot_fat32Drive, hrun,
    mounted_geometry_matches hres boot_fat32Drive hcmds hrun⟩

lemma step_formatd (d : Disk) (fs : Option Fat16FileSystem) :
    machine.step ⟨d, fs⟩ .formatd =
      .ok (.success "format worked!" true, ⟨formatDrive d, fs⟩) := rfl

/-- The mounted parameter block of the old volume is not the one of the new one. -/
lemma not_matches_formatted (d : Disk) : ¬ Matches ⟨formatDrive d, some fat32Fs⟩ := by
  rw [matches_iff, ofSector_formatDrive]
  intro hbpb
  have hroot : fat32Fs.bpb.rootEntries = formatFs.bpb.rootEntries := by rw [hbpb]
  rw [fat32Fs_rootEntries, formatFs_rootEntries] at hroot
  exact absurd hroot (by decide)

/-- The drive is formatted while a volume with another geometry is mounted: the mounted parameter
block is not the one in sector 0, and the fresh root directory counts as full. -/
theorem formatd_leaves_old_geometry :
    ∃ m m₁, boot fat32Drive = .ok m ∧ m.Matches ∧
      machine.run m [.formatd, mkdirCommand] =
        .ok ([.success "format worked!" true, .error "FS Error: Root directory full"], m₁) ∧
      ¬ m₁.Matches := by
  have hmatches : Matches ⟨fat32Drive, some fat32Fs⟩ := by
    rw [matches_iff, fat32Drive_zero, fat32Fs]
  refine ⟨_, ⟨formatDrive fat32Drive, some fat32Fs⟩, boot_fat32Drive, hmatches, ?_,
    not_matches_formatted fat32Drive⟩
  rw [machine.run_cons_of_step (step_formatd _ _), machine.run_cons_of_step (step_mkdirCommand _),
    machine.run_nil]

end Mount

end SilOS
