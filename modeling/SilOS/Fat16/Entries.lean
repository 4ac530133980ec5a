/-
# The words of the FAT as bytes of the drive

`get_fat_entry` and `set_fat_entry` compute the sector and the offset of a word from the number of
its cluster, and `find_free_cluster` counts sectors and words in two loops.  All three mean the same
place: numbered through all sectors, the word of the cluster `c` is in the bytes `2 * c` and
`2 * c + 1` behind the reserved sectors.  Its two bytes are never in different sectors, because a
sector has an even number of bytes.
-/
import SilOS.Fat16.Format

namespace SilOS.Fat16

open Lib

/-- The bytes of the drive, numbered through all its sectors. -/
def diskByte (d : Disk) (n : ℕ) : UInt8 := (d (n / 512)).byte (n % 512)

namespace Fat16FileSystem

variable (fs : Fat16FileSystem)

/-- The first of the two bytes of the word of a cluster. -/
def entryAt (c : UInt16) : ℕ := fs.bpb.reservedSectors.toNat * 512 + c.toNat * 2

/-- The bytes of the first FAT. -/
def InFirstFat (n : ℕ) : Prop :=
  fs.bpb.reservedSectors.toNat * 512 ≤ n ∧
    n < (fs.bpb.reservedSectors.toNat + fs.bpb.sectorsPerFat.toNat) * 512

/-! ### The place of a word -/

lemma entryAt_div (c : UInt16) :
    fs.entryAt c / 512 = fs.fatSector c ∧ (fs.entryAt c + 1) / 512 = fs.fatSector c := by
  rw [entryAt, fatSector]
  omega

lemma entryAt_mod (c : UInt16) :
    fs.entryAt c % 512 = c.toNat * 2 % 512 ∧
      (fs.entryAt c + 1) % 512 = c.toNat * 2 % 512 + 1 := by
  rw [entryAt]
  omega

/-- A word is read from its two bytes. -/
lemma getFatEntry_eq_bytes (d : Disk) (c : UInt16) :
    fs.getFatEntry d c =
      fromLe16 (diskByte d (fs.entryAt c)) (diskByte d (fs.entryAt c + 1)) := by
  obtain ⟨hdiv, hdiv'⟩ := fs.entryAt_div c
  obtain ⟨hmod, hmod'⟩ := fs.entryAt_mod c
  rw [diskByte, diskByte, hdiv, hdiv', hmod, hmod']
  rfl

/-- **The drive after a word was set.**  Exactly the two bytes of the word are written. -/
theorem diskByte_setFatEntry (d : Disk) (c v : UInt16) :
    diskByte (fs.setFatEntry d c v) =
      Function.update (Function.update (diskByte d) (fs.entryAt c) (lo16 v)) (fs.entryAt c + 1)
        (hi16 v) := by
  obtain ⟨hdiv, hdiv'⟩ := fs.entryAt_div c
  obtain ⟨hmod, hmod'⟩ := fs.entryAt_mod c
  funext n
  by_cases hsector : n / 512 = fs.fatSector c
  · -- in the sector of the word, a byte is known by its offset
    have hfirst : n = fs.entryAt c ↔ n % 512 = c.toNat * 2 % 512 := by omega
    have hsecond : n = fs.entryAt c + 1 ↔ n % 512 = c.toNat * 2 % 512 + 1 := by omega
    have hlt : n % 512 < 512 := Nat.mod_lt _ (by decide)
    rw [diskByte, hsector, setFatEntry, writeSectorBytes_same, Bytes.byte_setByte,
      Bytes.byte_setByte, Function.update_apply, Function.update_apply, diskByte, hsector]
    simp only [hfirst, hsecond, hlt, and_true]
    rfl
  · have hfirst : n ≠ fs.entryAt c := by
      rintro rfl
      exact hsector hdiv
    have hsecond : n ≠ fs.entryAt c + 1 := by
      rintro rfl
      exact hsector hdiv'
    rw [Function.update_of_ne hsecond, Function.update_of_ne hfirst, diskByte,
      fs.setFatEntry_apply_ne d c v hsector, diskByte]

lemma diskByte_setFatEntry_of_ne {d : Disk} {c : UInt16} {n : ℕ} (hfirst : n ≠ fs.entryAt c)
    (hsecond : n ≠ fs.entryAt c + 1) (v : UInt16) :
    diskByte (fs.setFatEntry d c v) n = diskByte d n := by
  rw [fs.diskByte_setFatEntry, Function.update_of_ne hsecond, Function.update_of_ne hfirst]

/-- The words of the first FAT are those of the clusters below 256 for each of its sectors. -/
lemma inFirstFat_entryAt {c : UInt16} (hc : c.toNat < fs.bpb.sectorsPerFat.toNat * 256) :
    fs.InFirstFat (fs.entryAt c) ∧ fs.InFirstFat (fs.entryAt c + 1) := by
  simp only [InFirstFat, entryAt]
  omega

/-- **The FAT is an array on the drive.**  For every drive and every boot sector: a word is in the
two bytes at `entryAt`; setting it changes the word to the value, and no other word and no other
byte of the drive; and the words of the clusters below `256 * sectors_per_fat` are in the first FAT.
If a FAT has at most 256 sectors, `find_free_cluster` returns the least of these clusters with the
word zero, and `None` exactly if there is none. -/
theorem fat_is_array_on_disk (d : Disk) (c v : UInt16) :
    fs.getFatEntry d c = fromLe16 (diskByte d (fs.entryAt c)) (diskByte d (fs.entryAt c + 1)) ∧
    fs.getFatEntry (fs.setFatEntry d c v) c = v ∧
    (∀ x, x ≠ c → fs.getFatEntry (fs.setFatEntry d c v) x = fs.getFatEntry d x) ∧
    (∀ n, n ≠ fs.entryAt c → n ≠ fs.entryAt c + 1 →
      diskByte (fs.setFatEntry d c v) n = diskByte d n) ∧
    (c.toNat < fs.bpb.sectorsPerFat.toNat * 256 →
      fs.InFirstFat (fs.entryAt c) ∧ fs.InFirstFat (fs.entryAt c + 1)) ∧
    (fs.bpb.sectorsPerFat.toNat ≤ 256 →
      (∃ found, fs.findFreeCluster d = .ok found) ∧
      (∀ x, fs.findFreeCluster d = .ok (some x) ↔
        (x.toNat < fs.bpb.sectorsPerFat.toNat * 256 ∧ fs.getFatEntry d x = 0) ∧
          ∀ y, y.toNat < fs.bpb.sectorsPerFat.toNat * 256 → fs.getFatEntry d y = 0 → x ≤ y) ∧
      (fs.findFreeCluster d = .ok none ↔
        ¬ ∃ x : UInt16, x.toNat < fs.bpb.sectorsPerFat.toNat * 256 ∧
          fs.getFatEntry d x = 0)) := by
  refine ⟨fs.getFatEntry_eq_bytes d c, ?_, fun x hx => ?_, fun n hfirst hsecond => ?_,
    fs.inFirstFat_entryAt, fun hn => ⟨⟨_, fs.findFreeCluster_eq hn d⟩, fun x => ?_, ?_⟩⟩
  · rw [fs.getFatEntry_setFatEntry, Function.update_self]
  · rw [fs.getFatEntry_setFatEntry, Function.update_of_ne hx]
  · exact fs.diskByte_setFatEntry_of_ne hfirst hsecond v
  · rw [fs.findFreeCluster_eq_some hn]
    constructor
    · rintro ⟨hx, hzero, hfirst⟩
      exact ⟨⟨hx, hzero⟩, fun y _ hy => UInt16.not_lt.mp fun hlt => hfirst y hlt hy⟩
    · rintro ⟨⟨hx, hzero⟩, hleast⟩
      refine ⟨hx, hzero, fun y hlt hy => ?_⟩
      have hyx : y.toNat < x.toNat := UInt16.lt_iff_toNat_lt.mp hlt
      exact UInt16.not_le.mpr hlt (hleast y (hyx.trans hx) hy)
  · rw [fs.findFreeCluster_eq_none hn]
    simp only [not_exists, not_and, ne_eq]

/-- On a formatted drive, cluster 5 is marked as the end of a chain. -/
theorem fat_is_array_on_disk_formatted :
    formatFs.getFatEntry (formatFs.setFatEntry (formatDrive blankDrive) 5 0xFFFF) 5 = 0xFFFF ∧
      formatFs.InFirstFat (formatFs.entryAt 5) ∧
      ∃ found, formatFs.findFreeCluster (formatDrive blankDrive) = .ok found := by
  obtain ⟨-, hsame, -, -, hfat, hfind⟩ :=
    formatFs.fat_is_array_on_disk (formatDrive blankDrive) 5 0xFFFF
  have hcluster : (5 : UInt16).toNat < formatFs.bpb.sectorsPerFat.toNat * 256 := by
    rw [formatFs_sectorsPerFat]
    decide
  have hsectors : formatFs.bpb.sectorsPerFat.toNat ≤ 256 := by
    rw [formatFs_sectorsPerFat]
    decide
  exact ⟨hsame, (hfat hcluster).1, (hfind hsectors).1⟩

end Fat16FileSystem

end SilOS.Fat16
