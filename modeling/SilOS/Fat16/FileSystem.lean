/-
# The FAT16 file system

The operations of `src/fat16.rs`, function by function.  The drive is passed explicitly; an
operation that writes returns the new drive.

* `Except Fault` is the result of a computation that may panic: the source computes sector
  numbers in `u16` and `u32` arithmetic that is checked for overflow.
* The `Result<(), &'static str>` of the two writing operations is a value: the drive keeps
  what was written before an error is returned.
* A `while` loop is a function with an iteration bound.  The bounds of the callers are never
  used up by a loop that ends: one iteration of the writing loop either consumes a byte of
  the data or a zero word of the FAT, one iteration of `free_cluster_chain` clears a word of
  the FAT, and `read_file` either consumes a byte or follows a link, which can happen at most
  65536 times before a cluster repeats.
* The sums `lba + i` over the sectors of a cluster cannot overflow for any parameter block,
  so they are plain sums.
-/
import SilOS.Lib.Checked
import SilOS.Fat16.Layout

namespace SilOS.Fat16

open Lib

/-- The errors of the two writing operations. -/
inductive FsError where
  | rootDirectoryFull
  | diskFull
  | fileNotFound
deriving DecidableEq, Repr

/-- The text of an error. -/
def FsError.message : FsError → String
  | .rootDirectoryFull => "Root directory full"
  | .diskFull => "Disk full"
  | .fileNotFound => "File not found"

/-- A mounted volume: the parameter block read when it was mounted. -/
structure Fat16FileSystem where
  bpb : Bpb
deriving DecidableEq

/-- `init`: mount the volume if sector 0 has a parameter block for 512-byte sectors. -/
def init (d : Disk) : Option Fat16FileSystem :=
  let bpb := Bpb.ofSector (readSector d 0)
  if bpb.bytesPerSector ≠ 512 then none else some ⟨bpb⟩

/-! ### Formatting -/

/-- The boot sector written by `format_drive`. -/
def bootSector : Sector :=
  ((((((((((((Bytes.zeros 512).copyFromSlice 0 [0xEB, 0x3C, 0x90]).copyFromSlice 3
    [0x6D, 0x79, 0x4F, 0x53, 0x20, 0x20, 0x20, 0x20]).copyFromSlice 11 (toLe16 512)).setByte 13
    4).copyFromSlice 14 (toLe16 1)).setByte 16 2).copyFromSlice 17 (toLe16 512)).copyFromSlice 19
    (toLe16 65535)).setByte 21 0xF8).copyFromSlice 22 (toLe16 64)).setByte 510 0x55).setByte 511
    0xAA

/-- The sector of a fresh FAT at offset `offset` from its start. -/
def freshFatSector (offset : ℕ) : Sector :=
  if offset = 0 then
    ((((Bytes.zeros 512).setByte 0 0xF8).setByte 1 0xFF).setByte 2 0xFF).setByte 3 0xFF
  else Bytes.zeros 512

/-- `Fat16FileSystem::format_drive`: a boot sector, two FATs of 64 sectors and 32 empty
root-directory sectors.  The operation always returns `Ok(())`. -/
def formatDrive (d : Disk) : Disk :=
  let d := writeSectorBytes d 0 bootSector
  let d := (List.range 2).foldl (fun d fatIdx =>
    (List.range 64).foldl (fun d offset =>
      writeSectorBytes d (1 + fatIdx * 64 + offset) (freshFatSector offset)) d) d
  (List.range 32).foldl (fun d offset =>
    writeSectorBytes d (1 + 2 * 64 + offset) (Bytes.zeros 512)) d

namespace Fat16FileSystem

variable (fs : Fat16FileSystem)

/-! ### Addresses -/

/-- `cluster_to_lba`. -/
def clusterToLba (cluster : UInt16) : Except Fault ℕ := do
  let entryBytes ← mulW 16 fs.bpb.rootEntries.toNat 32
  let round ← subW fs.bpb.bytesPerSector.toNat 1
  let total ← addW 16 entryBytes round
  let rootDirSectors ← divW total fs.bpb.bytesPerSector.toNat
  let fats ← mulW 32 fs.bpb.fatCount.toNat fs.bpb.sectorsPerFat.toNat
  let beforeRoot ← addW 32 fs.bpb.reservedSectors.toNat fats
  let firstDataSector ← addW 32 beforeRoot rootDirSectors
  let index ← subW cluster.toNat 2
  let offset ← mulW 32 index fs.bpb.sectorsPerCluster.toNat
  addW 32 firstDataSector offset

/-- `root_dir_start`, as the three scans of the root directory compute it. -/
def rootDirStart : Except Fault ℕ := do
  let fats ← mulW 32 fs.bpb.fatCount.toNat fs.bpb.sectorsPerFat.toNat
  addW 32 fs.bpb.reservedSectors.toNat fats

/-- `root_dir_sectors`, as the three scans of the root directory compute it. -/
def rootDirSectors : Except Fault ℕ := do
  let entryBytes ← mulW 16 fs.bpb.rootEntries.toNat 32
  let total ← addW 16 entryBytes 511
  divW total 512

/-! ### The file allocation table -/

/-- The sector that holds the FAT word of `cluster`. -/
def fatSector (cluster : UInt16) : ℕ :=
  fs.bpb.reservedSectors.toNat + cluster.toNat * 2 / 512

/-- `get_fat_entry`. -/
def getFatEntry (d : Disk) (cluster : UInt16) : UInt16 :=
  (readSector d (fs.fatSector cluster)).u16 (cluster.toNat * 2 % 512)

/-- `set_fat_entry`. -/
def setFatEntry (d : Disk) (cluster nextCluster : UInt16) : Disk :=
  let byteOffset := cluster.toNat * 2 % 512
  let buffer := readSector d (fs.fatSector cluster)
  let buffer := buffer.setByte byteOffset (lo16 nextCluster)
  let buffer := buffer.setByte (byteOffset + 1) (hi16 nextCluster)
  writeSectorBytes d (fs.fatSector cluster) buffer

/-- `find_free_cluster`: the first zero word of the first FAT. -/
def findFreeCluster (d : Disk) : Except Fault (Option UInt16) :=
  let found := (List.range fs.bpb.sectorsPerFat.toNat).findSome? fun s =>
    let buffer := readSector d (fs.bpb.reservedSectors.toNat + s)
    (List.range 256).findSome? fun k =>
      if buffer.u16 (2 * k) = 0 then some (s, k) else none
  match found with
  | none => .ok none
  | some (s, k) => do
      let base ← mulW 16 s 256
      let cluster ← addW 16 base k
      return some (UInt16.ofNat cluster)

/-- `free_cluster_chain`. -/
def freeChainLoop : ℕ → UInt16 → Disk → Except Fault Disk
  | 0, _, _ => .error .fuel
  | fuel + 1, current, d =>
      if 2 ≤ current ∧ current < 0xFFF8 then
        freeChainLoop fuel (fs.getFatEntry d current) (fs.setFatEntry d current 0)
      else .ok d

@[inherit_doc freeChainLoop]
def freeClusterChain (d : Disk) (startCluster : UInt16) : Except Fault Disk :=
  fs.freeChainLoop 65537 startCluster d

/-! ### The root directory -/

/-- The nested loops of the three scans of the root directory: `visit` is the loop body, at
the sector `lba` and the byte offset `offset`; it sees the 32 bytes of the slot, and what it
returns is what the scan returns. -/
def scanRoot {β : Type} (d : Disk) (visit : (lba offset : ℕ) → Bytes 32 → Option β) :
    Except Fault (Option β) := do
  let start ← fs.rootDirStart
  let sectors ← fs.rootDirSectors
  return (List.range sectors).findSome? fun sectorOffset =>
    let buffer := readSector d (start + sectorOffset)
    (List.range 16).findSome? fun i =>
      visit (start + sectorOffset) (i * 32) (buffer.slice (i * 32) 32)

/-- `find_empty_root_slot`. -/
def findEmptyRootSlot (d : Disk) : Except Fault (Option (ℕ × ℕ)) :=
  fs.scanRoot d fun lba offset slot =>
    if slot.byte 0 = 0x00 ∨ slot.byte 0 = 0xE5 then some (lba, offset) else none

/-- The loop body of the two lookups: stop at a slot that was never used, skip a deleted one,
and return `found` at the first slot with the wanted name. -/
def lookupVisit {β : Type} (filename : Bytes 8) (ext : Bytes 3)
    (found : (lba offset : ℕ) → DirectoryEntry → β) (lba offset : ℕ) (slot : Bytes 32) :
    Option (Option β) :=
  if slot.byte 0 = 0x00 then some none
  else if slot.byte 0 = 0xE5 then none
  else if slot.slice 0 8 = filename ∧ slot.slice 8 3 = ext then
    some (some (found lba offset (DirectoryEntry.ofBytes slot)))
  else none

/-- `find_file_location`. -/
def findFileLocation (d : Disk) (filename : Bytes 8) (ext : Bytes 3) :
    Except Fault (Option (ℕ × ℕ × DirectoryEntry)) := do
  let found ← fs.scanRoot d (lookupVisit filename ext fun lba offset entry => (lba, offset, entry))
  return found.join

/-- `find_file`. -/
def findFile (d : Disk) (filename : Bytes 8) (ext : Bytes 3) :
    Except Fault (Option DirectoryEntry) := do
  let found ← fs.scanRoot d (lookupVisit filename ext fun _ _ entry => entry)
  return found.join

/-! ### Reading a file -/

/-- The inner loop of `read_file`: `n` more sectors of the cluster, from `lba` on. -/
def readSectors (d : Disk) : (n lba remaining : ℕ) → List UInt8 → List UInt8 × ℕ
  | 0, _, remaining, fileData => (fileData, remaining)
  | n + 1, lba, remaining, fileData =>
      let toCopy := min remaining 512
      let fileData := fileData ++ (readSector d lba).toList.take toCopy
      if remaining - toCopy = 0 then (fileData, 0)
      else readSectors d n (lba + 1) (remaining - toCopy) fileData

/-- The outer loop of `read_file`. -/
def readLoop (d : Disk) : (fuel : ℕ) → UInt16 → ℕ → List UInt8 → Except Fault (List UInt8)
  | 0, _, _, _ => .error .fuel
  | fuel + 1, current, remaining, fileData =>
      if current < 0xFFF8 then do
        let lba ← fs.clusterToLba current
        let (fileData, remaining) :=
          readSectors d fs.bpb.sectorsPerCluster.toNat lba remaining fileData
        if remaining = 0 then return fileData
        readLoop d fuel (fs.getFatEntry d current) remaining fileData
      else .ok fileData

/-- `read_file`.  The heap is not part of the model: `Vec::with_capacity` reserves the size that the
entry gives before anything is read, and the allocator panics if there is no room for it. -/
def readFile (d : Disk) (entry : DirectoryEntry) : Except Fault (List UInt8) :=
  fs.readLoop d (entry.fileSize.toNat + 65537) entry.clusterLow entry.fileSize.toNat []

/-! ### Writing a file -/

/-- The loop that writes one chunk of the data into the sectors of a cluster; it stops at the
first sector past the end of the chunk. -/
def writeChunk (d : Disk) (clusterLba : ℕ) (chunk : List UInt8) : Disk :=
  ((List.range fs.bpb.sectorsPerCluster.toNat).takeWhile fun i => i * 512 < chunk.length).foldl
    (fun d i => writeSectorBytes d (clusterLba + i)
      ((Bytes.zeros 512).copyFromSlice 0 ((chunk.drop (i * 512)).take 512))) d

/-- `bytes_per_cluster`. -/
def bytesPerCluster : ℕ := fs.bpb.sectorsPerCluster.toNat * 512

/-- The allocation loop shared by `write_new_file` and `overwrite_file`: it claims a free
cluster, ends it with `0xFFFF`, links the previous cluster to it and writes the next chunk.
The result is the first cluster. -/
def writeLoop (data : List UInt8) :
    (fuel bytesWritten : ℕ) → (previous : Option UInt16) → (first : UInt16) → Disk →
      Except Fault (Except FsError UInt16 × Disk)
  | 0, _, _, _, _ => .error .fuel
  | fuel + 1, bytesWritten, previous, first, d =>
      if bytesWritten < data.length ∨ data = [] then do
        match ← fs.findFreeCluster d with
        | none => return (.error .diskFull, d)
        | some current =>
            let d := fs.setFatEntry d current 0xFFFF
            let first := if previous.isNone then current else first
            let d := match previous with
              | none => d
              | some p => fs.setFatEntry d p current
            let lba ← fs.clusterToLba current
            let chunkSize := min (data.length - bytesWritten) fs.bytesPerCluster
            let d := fs.writeChunk d lba ((data.drop bytesWritten).take chunkSize)
            if data = [] then return (.ok first, d)
            writeLoop data fuel (bytesWritten + chunkSize) (some current) first d
      else return (.ok first, d)

/-- Store the 32 bytes of an entry at an offset of a directory sector. -/
def storeEntry (d : Disk) (dirLba dirOffset : ℕ) (entry : DirectoryEntry) : Disk :=
  writeSectorBytes d dirLba
    ((readSector d dirLba).copyFromSlice dirOffset entry.toBytes.toList)

/-- The entry that `write_new_file` creates. -/
def newEntry (filename : Bytes 8) (ext : Bytes 3) (first : UInt16) (data : List UInt8) :
    DirectoryEntry where
  filename := filename
  extension := ext
  attributes := 0x20
  reserved := 0
  creationTimeMs := 0
  creationTime := 0
  creationDate := 0
  lastAccessDate := 0
  clusterHigh := 0
  modifiedTime := 0
  modifiedDate := 0
  clusterLow := first
  fileSize := UInt32.ofNat data.length

/-- `write_new_file`. -/
def writeNewFile (d : Disk) (filename : Bytes 8) (ext : Bytes 3) (data : List UInt8) :
    Except Fault (Except FsError Unit × Disk) := do
  match ← fs.findEmptyRootSlot d with
  | none => return (.error .rootDirectoryFull, d)
  | some (dirLba, dirOffset) =>
      match ← fs.writeLoop data (data.length + 65537) 0 none 0 d with
      | (.error e, d) => return (.error e, d)
      | (.ok first, d) =>
          return (.ok (), storeEntry d dirLba dirOffset (newEntry filename ext first data))

/-- `overwrite_file`. -/
def overwriteFile (d : Disk) (filename : Bytes 8) (ext : Bytes 3) (newData : List UInt8) :
    Except Fault (Except FsError Unit × Disk) := do
  match ← fs.findFileLocation d filename ext with
  | none => return (.error .fileNotFound, d)
  | some (dirLba, dirOffset, entry) =>
      let d ← if 2 ≤ entry.clusterLow then fs.freeClusterChain d entry.clusterLow else pure d
      match ← fs.writeLoop newData (newData.length + 65537) 0 none 0 d with
      | (.error e, d) => return (.error e, d)
      | (.ok first, d) =>
          return (.ok (), storeEntry d dirLba dirOffset
            { entry with clusterLow := first, fileSize := UInt32.ofNat newData.length })

end Fat16FileSystem

end SilOS.Fat16
