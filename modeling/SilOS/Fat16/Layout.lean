/-
# The on-disk structures

The two packed structures of `src/fat16.rs`: the BIOS parameter block `Bpb` at the start of
sector 0 and the 32-byte `DirectoryEntry` of the root directory.  Both are read by copying
raw bytes into the structure, so a structure is decoded field by field from fixed offsets,
and a directory entry is encoded the same way.
-/
import SilOS.Fat16.Disk

namespace SilOS.Fat16

/-- The BIOS parameter block. -/
structure Bpb where
  jump : Bytes 3
  oemName : Bytes 8
  bytesPerSector : UInt16
  sectorsPerCluster : UInt8
  reservedSectors : UInt16
  fatCount : UInt8
  rootEntries : UInt16
  totalSectors16 : UInt16
  mediaType : UInt8
  sectorsPerFat : UInt16
deriving DecidableEq

/-- The 16-bit field at offset `off`. -/
def Bytes.u16 {n : ℕ} (b : Bytes n) (off : ℕ) : UInt16 := fromLe16 (b.byte off) (b.byte (off + 1))

/-- The parameter block at the start of a sector, `ptr::read` of the buffer. -/
def Bpb.ofSector (s : Sector) : Bpb where
  jump := s.slice 0 3
  oemName := s.slice 3 8
  bytesPerSector := s.u16 11
  sectorsPerCluster := s.byte 13
  reservedSectors := s.u16 14
  fatCount := s.byte 16
  rootEntries := s.u16 17
  totalSectors16 := s.u16 19
  mediaType := s.byte 21
  sectorsPerFat := s.u16 22

/-- An entry of the root directory. -/
structure DirectoryEntry where
  filename : Bytes 8
  extension : Bytes 3
  attributes : UInt8
  reserved : UInt8
  creationTimeMs : UInt8
  creationTime : UInt16
  creationDate : UInt16
  lastAccessDate : UInt16
  clusterHigh : UInt16
  modifiedTime : UInt16
  modifiedDate : UInt16
  clusterLow : UInt16
  fileSize : UInt32
deriving DecidableEq

namespace DirectoryEntry

/-- The entry stored in 32 bytes, `ptr::read` of the buffer. -/
def ofBytes (b : Bytes 32) : DirectoryEntry where
  filename := b.slice 0 8
  extension := b.slice 8 3
  attributes := b.byte 11
  reserved := b.byte 12
  creationTimeMs := b.byte 13
  creationTime := b.u16 14
  creationDate := b.u16 16
  lastAccessDate := b.u16 18
  clusterHigh := b.u16 20
  modifiedTime := b.u16 22
  modifiedDate := b.u16 24
  clusterLow := b.u16 26
  fileSize := fromLe32 (b.byte 28) (b.byte 29) (b.byte 30) (b.byte 31)

/-- The 32 bytes of an entry, `mem::transmute` of the packed structure. -/
def toBytes (e : DirectoryEntry) : Bytes 32 :=
  ((((((((((((((Bytes.zeros 32).copyFromSlice 0 e.filename.toList).copyFromSlice 8
    e.extension.toList).setByte 11 e.attributes).setByte 12 e.reserved).setByte 13
    e.creationTimeMs).copyFromSlice 14 (toLe16 e.creationTime)).copyFromSlice 16
    (toLe16 e.creationDate)).copyFromSlice 18 (toLe16 e.lastAccessDate)).copyFromSlice 20
    (toLe16 e.clusterHigh)).copyFromSlice 22 (toLe16 e.modifiedTime)).copyFromSlice 24
    (toLe16 e.modifiedDate)).copyFromSlice 26 (toLe16 e.clusterLow)).copyFromSlice 28
    (toLe32 e.fileSize))

/-- The bytes of the name are the first eight. -/
lemma byte_toBytes_filename (e : DirectoryEntry) {i : ℕ} (hi : i < 8) :
    e.toBytes.byte i = e.filename.byte i := by
  unfold toBytes
  simp (disch := omega) only [Bytes.byte_copyFromSlice_of_lt, Bytes.byte_setByte_ne]
  rw [Bytes.byte_copyFromSlice_mem _ _ (by omega) (by simpa using hi) (by omega),
    Nat.sub_zero, Bytes.getD_toList]

/-- The bytes of the extension are the next three. -/
lemma byte_toBytes_extension (e : DirectoryEntry) {i : ℕ} (hi : i < 3) :
    e.toBytes.byte (8 + i) = e.extension.byte i := by
  unfold toBytes
  simp (disch := omega) only [Bytes.byte_copyFromSlice_of_lt, Bytes.byte_setByte_ne]
  rw [Bytes.byte_copyFromSlice_mem _ _ (by omega)
    (by rw [Vector.length_toList]; omega) (by omega), Nat.add_sub_cancel_left, Bytes.getD_toList]

/-- Reading an entry undoes writing it. -/
@[simp] lemma ofBytes_toBytes (e : DirectoryEntry) : ofBytes e.toBytes = e := by
  have hname : e.toBytes.slice 0 8 = e.filename := by
    apply Bytes.ext_byte
    intro i hi
    rw [Bytes.byte_slice, if_pos hi, Nat.zero_add, byte_toBytes_filename e hi]
  have hext : e.toBytes.slice 8 3 = e.extension := by
    apply Bytes.ext_byte
    intro i hi
    rw [Bytes.byte_slice, if_pos hi, byte_toBytes_extension e hi]
  cases e
  simp only [ofBytes, hname, hext, mk.injEq, true_and]
  simp [Bytes.u16, toBytes, Bytes.byte_copyFromSlice, Bytes.byte_setByte, toLe16, toLe32]

end DirectoryEntry

end SilOS.Fat16
