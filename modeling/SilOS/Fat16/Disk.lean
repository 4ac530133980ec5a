/-
# Sectors and the drive

The file system reaches the disk through two operations of `src/ide.rs`: `read_sector` and
`write_sector_bytes`.  The drive is modelled as a map from sector numbers to 512-byte
sectors whose reads return the last write.

A Rust array `[u8; n]` is a `Vector UInt8 n`.  Writes into an array go through two
operations, `setByte` for `buffer[i] = b` and `copyFromSlice` for
`buffer[off..off + src.len()].copy_from_slice(src)`; reads of a 16- or 32-bit field go
through the little-endian conversions of the standard library.
-/
import Mathlib

namespace SilOS.Fat16

/-- A byte array of fixed length, `[u8; n]`. -/
abbrev Bytes (n : ℕ) := Vector UInt8 n

/-- A 512-byte sector. -/
abbrev Sector := Bytes 512

/-- The drive: the contents of every sector, by its logical block address. -/
abbrev Disk := ℕ → Sector

/-- `AtaDrive::read_sector`. -/
def readSector (d : Disk) (lba : ℕ) : Sector := d lba

/-- `AtaDrive::write_sector_bytes`. -/
def writeSectorBytes (d : Disk) (lba : ℕ) (bytes : Sector) : Disk := Function.update d lba bytes

namespace Bytes

variable {n : ℕ}

/-- The byte at position `i`.  The source only reads inside the array; the default is never
used. -/
def byte (b : Bytes n) (i : ℕ) : UInt8 := if h : i < n then b[i] else 0

/-- `[0u8; n]`. -/
def zeros (n : ℕ) : Bytes n := Vector.replicate n 0

/-- `buffer[i] = v`. -/
def setByte (b : Bytes n) (i : ℕ) (v : UInt8) : Bytes n :=
  Vector.ofFn fun j => if (j : ℕ) = i then v else b[j]

/-- `buffer[off..off + src.len()].copy_from_slice(src)`. -/
def copyFromSlice (b : Bytes n) (off : ℕ) (src : List UInt8) : Bytes n :=
  Vector.ofFn fun j =>
    if off ≤ (j : ℕ) ∧ (j : ℕ) < off + src.length then src.getD (j - off) 0 else b[j]

/-- `buffer[off..off + m]` as an array of its own. -/
def slice (b : Bytes n) (off m : ℕ) : Bytes m := Vector.ofFn fun j => b.byte (off + j)

lemma ext_byte {b c : Bytes n} (h : ∀ i < n, b.byte i = c.byte i) : b = c := by
  apply Vector.ext
  intro i hi
  have := h i hi
  simpa [byte, hi] using this

@[simp] lemma byte_zeros (i : ℕ) : (zeros n).byte i = 0 := by
  simp [byte, zeros]

lemma byte_of_le {b : Bytes n} {i : ℕ} (h : n ≤ i) : b.byte i = 0 := by
  rw [byte, dif_neg (by omega)]

lemma byte_setByte (b : Bytes n) (i j : ℕ) (v : UInt8) :
    (b.setByte i v).byte j = if j = i ∧ j < n then v else b.byte j := by
  by_cases hj : j < n
  · by_cases hji : j = i
    · simp [byte, setByte, hji ▸ hj, hji]
    · simp [byte, setByte, hj, hji]
  · rw [byte_of_le (by omega), byte_of_le (by omega)]
    simp [hj]

lemma byte_copyFromSlice (b : Bytes n) (off : ℕ) (src : List UInt8) (j : ℕ) :
    (b.copyFromSlice off src).byte j =
      if off ≤ j ∧ j < off + src.length ∧ j < n then src.getD (j - off) 0 else b.byte j := by
  by_cases hj : j < n
  · by_cases hin : off ≤ j ∧ j < off + src.length
    · simp [byte, copyFromSlice, hj, hin]
    · have hin' : ¬ (off ≤ j ∧ j < off + src.length ∧ j < n) := fun h => hin ⟨h.1, h.2.1⟩
      rw [if_neg hin']
      simp only [byte, copyFromSlice, hj, dif_pos, Vector.getElem_ofFn, if_neg hin]
      rfl
  · rw [byte_of_le (by omega), byte_of_le (by omega)]
    simp [hj]

lemma byte_setByte_ne (b : Bytes n) {i j : ℕ} (v : UInt8) (h : j ≠ i) :
    (b.setByte i v).byte j = b.byte j := by
  rw [byte_setByte, if_neg (fun h' => h h'.1)]

lemma byte_copyFromSlice_of_lt (b : Bytes n) {off j : ℕ} (src : List UInt8) (h : j < off) :
    (b.copyFromSlice off src).byte j = b.byte j := by
  rw [byte_copyFromSlice, if_neg (by omega)]

lemma byte_copyFromSlice_of_le (b : Bytes n) {off j : ℕ} (src : List UInt8)
    (h : off + src.length ≤ j) : (b.copyFromSlice off src).byte j = b.byte j := by
  rw [byte_copyFromSlice, if_neg (by omega)]

lemma byte_copyFromSlice_mem (b : Bytes n) {off j : ℕ} (src : List UInt8) (h : off ≤ j)
    (h' : j < off + src.length) (hn : j < n) :
    (b.copyFromSlice off src).byte j = src.getD (j - off) 0 := by
  rw [byte_copyFromSlice, if_pos ⟨h, h', hn⟩]

@[simp] lemma byte_slice (b : Bytes n) (off m i : ℕ) :
    (b.slice off m).byte i = if i < m then b.byte (off + i) else 0 := by
  by_cases hi : i < m
  · simp [byte, slice, hi]
  · rw [byte_of_le (by omega), if_neg hi]

lemma getD_toList (b : Bytes n) (i : ℕ) : b.toList.getD i 0 = b.byte i := by
  by_cases hi : i < n
  · simp [byte, hi]
  · simp [byte, hi]

lemma getElem?_toList (b : Bytes n) (i : ℕ) :
    b.toList[i]? = if i < n then some (b.byte i) else none := by
  by_cases hi : i < n
  · simp [byte, hi]
  · simp [hi]

end Bytes

/-! ### Little-endian fields -/

/-- `u16::from_le_bytes`. -/
def fromLe16 (lo hi : UInt8) : UInt16 := UInt16.ofNat (lo.toNat + 256 * hi.toNat)

/-- The low byte of `u16::to_le_bytes`. -/
def lo16 (v : UInt16) : UInt8 := UInt8.ofNat (v.toNat % 256)

/-- The high byte of `u16::to_le_bytes`. -/
def hi16 (v : UInt16) : UInt8 := UInt8.ofNat (v.toNat / 256)

/-- The two bytes of `u16::to_le_bytes`. -/
def toLe16 (v : UInt16) : List UInt8 := [lo16 v, hi16 v]

@[simp] lemma fromLe16_toLe16 (v : UInt16) : fromLe16 (lo16 v) (hi16 v) = v := by
  apply UInt16.toNat_inj.mp
  have := v.toNat_lt
  simp only [fromLe16, lo16, hi16, UInt16.toNat_ofNat', UInt8.toNat_ofNat']
  omega

/-- `u32::from_le_bytes`, as the in-memory value of four bytes. -/
def fromLe32 (b₀ b₁ b₂ b₃ : UInt8) : UInt32 :=
  UInt32.ofNat (b₀.toNat + 256 * b₁.toNat + 65536 * b₂.toNat + 16777216 * b₃.toNat)

/-- The `k`-th byte of `u32::to_le_bytes`. -/
def le32Byte (v : UInt32) (k : ℕ) : UInt8 := UInt8.ofNat (v.toNat / 256 ^ k % 256)

/-- The four bytes of `u32::to_le_bytes`. -/
def toLe32 (v : UInt32) : List UInt8 :=
  [le32Byte v 0, le32Byte v 1, le32Byte v 2, le32Byte v 3]

@[simp] lemma fromLe32_toLe32 (v : UInt32) :
    fromLe32 (le32Byte v 0) (le32Byte v 1) (le32Byte v 2) (le32Byte v 3) = v := by
  apply UInt32.toNat_inj.mp
  have := v.toNat_lt
  simp only [fromLe32, le32Byte, UInt32.toNat_ofNat', UInt8.toNat_ofNat']
  omega

/-! ### Sectors of the drive -/

@[simp] lemma writeSectorBytes_same (d : Disk) (lba : ℕ) (s : Sector) :
    writeSectorBytes d lba s lba = s := by
  simp [writeSectorBytes]

lemma writeSectorBytes_ne (d : Disk) {lba lba' : ℕ} (s : Sector) (h : lba' ≠ lba) :
    writeSectorBytes d lba s lba' = d lba' := by
  simp [writeSectorBytes, h]

/-- Writing `f 0, f 1, …, f (n - 1)` to the sectors from `base` on. -/
lemma foldl_writeSectorBytes (f : ℕ → Sector) (base n : ℕ) (d : Disk) (x : ℕ) :
    (List.range n).foldl (fun d i => writeSectorBytes d (base + i) (f i)) d x =
      if base ≤ x ∧ x < base + n then f (x - base) else d x := by
  induction n with
  | zero =>
      rw [if_neg (by omega)]
      rfl
  | succ n ih =>
      rw [List.range_succ, List.foldl_append, List.foldl_cons, List.foldl_nil]
      by_cases hx : x = base + n
      · subst hx
        rw [writeSectorBytes_same, if_pos (by omega)]
        congr 1
        omega
      · rw [writeSectorBytes_ne _ _ hx, ih]
        by_cases hin : base ≤ x ∧ x < base + n
        · rw [if_pos hin, if_pos (by omega)]
        · rw [if_neg hin, if_neg (by omega)]

end SilOS.Fat16
