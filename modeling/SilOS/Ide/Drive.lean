/-
# The drive behind its ports

`ide.rs` reaches the drive through the ports of an ATA controller: it writes the number of a sector
into four registers, gives a command, polls the status register until the drive is ready and moves
256 words through the data port.

The drive is assumed to store 256 words per sector, at the address in the low four bits of the
device register and in the three LBA registers.  A command may keep it busy for any number of polls,
and after that the data may be late by any number of polls.  The polling loops of the driver have a
bound here, and the results say that some bound is enough.

The address has 28 bits while the driver takes sector numbers of 32 bits, so a sector number stands
for its residue.  Below `2 ^ 28` the driver implements the operations on `Fat16.Disk`, on which the
file system is built.
-/
import SilOS.Fat16.Disk
import SilOS.Lib.Checked

namespace SilOS.Ide

open Lib Fat16

/-! ### The drive -/

/-- The words of a sector. -/
abbrev Words := Fin 256 → UInt16

/-- The words that are moved through the data port. -/
inductive Transfer where
  | idle
  | toHost (words : List UInt16)
  | fromHost (words : List UInt16)

/-- The drive: its sectors by their addresses, its registers, the words on their way, and how many
polls it stays busy and lets wait for data, now and after each of the commands to come. -/
structure Drive where
  sectors : ℕ → Words
  device : UInt8
  sectorCount : UInt8
  lbaLow : UInt8
  lbaMid : UInt8
  lbaHigh : UInt8
  transfer : Transfer
  busy : ℕ
  late : ℕ
  delays : ℕ → ℕ × ℕ

namespace Drive

/-- The address in the registers. -/
def address (d : Drive) : ℕ :=
  (d.device &&& 0x0F).toNat * 2 ^ 24 + d.lbaHigh.toNat * 2 ^ 16 + d.lbaMid.toNat * 2 ^ 8 +
    d.lbaLow.toNat

/-- What a command starts: one sector is read or written, or the cache is flushed. -/
def started (d : Drive) (command : UInt8) : Transfer :=
  if command = 0x20 then .toHost (List.ofFn (d.sectors d.address))
  else if command = 0x30 then .fromHost []
  else .idle

/-- A write to the command port. -/
def writeCommand (d : Drive) (command : UInt8) : Drive :=
  { d with
    transfer := d.started command
    busy := (d.delays 0).1
    late := (d.delays 0).2
    delays := fun n => d.delays (n + 1) }

/-- Words are on their way. -/
def hasData (d : Drive) : Bool :=
  match d.transfer with
  | .idle => false
  | .toHost words => words ≠ []
  | .fromHost _ => true

/-- A read from the status port: busy, ready, or ready with data. -/
def readStatus (d : Drive) : UInt8 × Drive :=
  if 0 < d.busy then (0x80, { d with busy := d.busy - 1 })
  else (if d.hasData ∧ d.late = 0 then 0x58 else 0x50, { d with late := d.late - 1 })

/-- A read from the data port. -/
def readData (d : Drive) : UInt16 × Drive :=
  match d.transfer with
  | .toHost (word :: words) => (word, { d with transfer := .toHost words })
  | _ => (0, d)

/-- A write to the data port: the sector is stored with its last word. -/
def writeData (d : Drive) (word : UInt16) : Drive :=
  match d.transfer with
  | .fromHost words =>
      if words.length = 255 then
        { d with
          sectors := Function.update d.sectors d.address fun k => (words ++ [word]).getD k 0
          transfer := .idle }
      else { d with transfer := .fromHost (words ++ [word]) }
  | _ => d

/-! ### The driver -/

/-- The registers as both operations of the driver set them. -/
def select (d : Drive) (lba : UInt32) : Drive :=
  { d with
    device := (0xF0 : UInt8) ||| ((lba >>> 24) &&& 0x0F).toUInt8
    sectorCount := 1
    lbaLow := lba.toUInt8
    lbaMid := (lba >>> 8).toUInt8
    lbaHigh := (lba >>> 16).toUInt8 }

/-- `while` the status meets a condition. -/
def pollWhile (cond : UInt8 → Bool) : ℕ → Drive → Except Fault Drive
  | 0, _ => .error .fuel
  | fuel + 1, d =>
      if cond d.readStatus.1 then pollWhile cond fuel d.readStatus.2 else .ok d.readStatus.2

/-- `(status & 0x80) != 0`. -/
def isBusy (status : UInt8) : Bool := status &&& 0x80 ≠ 0

/-- `(status & 0x08) == 0`. -/
def noData (status : UInt8) : Bool := status &&& 0x08 = 0

/-- The body of the loop of `read_sector`: two bytes of the buffer are set. -/
def readWord (s : Sector × Drive) (i : ℕ) : Except Fault (Sector × Drive) :=
  let word := s.2.readData.1
  .ok ((s.1.setByte (i * 2) word.toUInt8).setByte (i * 2 + 1) (word >>> 8).toUInt8, s.2.readData.2)

/-- `AtaDrive::read_sector`. -/
def readSector (fuel : ℕ) (d : Drive) (lba : UInt32) : Except Fault (Sector × Drive) := do
  let d := (d.select lba).writeCommand 0x20
  let d ← pollWhile isBusy fuel d
  let d ← pollWhile noData fuel d
  forRange 0 256 readWord (Bytes.zeros 512, d)

/-- The word that `write_sector_bytes` writes for the bytes at `i` and `i + 1`. -/
def wordAt (bytes : Sector) (i : ℕ) : UInt16 :=
  (bytes.byte (i + 1)).toUInt16 <<< 8 ||| (bytes.byte i).toUInt16

/-- The body of the loop `for i in (0..512).step_by(2)` of `write_sector_bytes`. -/
def writeWord (bytes : Sector) (d : Drive) (k : ℕ) : Except Fault Drive :=
  .ok (d.writeData (wordAt bytes (2 * k)))

/-- `AtaDrive::write_sector_bytes`. -/
def writeSectorBytes (fuel : ℕ) (d : Drive) (lba : UInt32) (bytes : Sector) :
    Except Fault Drive := do
  let d := (d.select lba).writeCommand 0x30
  let d ← pollWhile isBusy fuel d
  let d ← pollWhile noData fuel d
  let d ← forRange 0 256 (writeWord bytes) d
  pollWhile isBusy fuel (d.writeCommand 0xE7)

/-! ### Addresses -/

variable {d : Drive}

lemma and_fifteen (n : ℕ) : n &&& 15 = n % 16 := Nat.and_two_pow_sub_one_eq_mod n 4

/-- The low four bits of the device register. -/
lemma toNat_device (lba : UInt32) :
    (((0xF0 : UInt8) ||| ((lba >>> 24) &&& 0x0F).toUInt8) &&& 0x0F).toNat =
      lba.toNat / 2 ^ 24 % 16 := by
  have hbits : ((lba >>> 24) &&& 0x0F).toUInt8.toNat = lba.toNat / 2 ^ 24 % 16 := by
    rw [UInt32.toNat_toUInt8, UInt32.toNat_and, UInt32.toNat_shiftRight,
      Nat.shiftRight_eq_div_pow]
    exact (congrArg (· % 2 ^ 8) (and_fifteen _)).trans (Nat.mod_eq_of_lt (by omega))
  have hor : (0xF0 ||| lba.toNat / 2 ^ 24 % 16) % 2 ^ 4 = lba.toNat / 2 ^ 24 % 16 := by
    rw [Nat.or_mod_two_pow]
    simp
  rw [UInt8.toNat_and, UInt8.toNat_or, hbits]
  exact (and_fifteen _).trans hor

/-- The registers hold the low 28 bits of a sector number. -/
lemma address_select (d : Drive) (lba : UInt32) : (d.select lba).address = lba.toNat % 2 ^ 28 := by
  have hmid : (lba >>> 8).toUInt8.toNat = lba.toNat / 2 ^ 8 % 256 := by
    rw [UInt32.toNat_toUInt8, UInt32.toNat_shiftRight, Nat.shiftRight_eq_div_pow]
    rfl
  have hhigh : (lba >>> 16).toUInt8.toNat = lba.toNat / 2 ^ 16 % 256 := by
    rw [UInt32.toNat_toUInt8, UInt32.toNat_shiftRight, Nat.shiftRight_eq_div_pow]
    rfl
  rw [address, select]
  simp only [toNat_device, UInt32.toNat_toUInt8, hmid, hhigh]
  omega

/-! ### Polling -/

variable {cond : UInt8 → Bool} {status : UInt8} {d' : Drive}

lemma pollWhile_again (fuel : ℕ) (h : d.readStatus = (status, d')) (hcond : cond status = true) :
    pollWhile cond (fuel + 1) d = pollWhile cond fuel d' := by
  simp only [pollWhile, h, hcond, if_true]

lemma pollWhile_done (fuel : ℕ) (h : d.readStatus = (status, d')) (hcond : cond status = false) :
    pollWhile cond (fuel + 1) d = .ok d' := by
  simp only [pollWhile, h, hcond, Bool.false_eq_true, if_false]

/-- Some number of polls ends the busy time; the last of them is already one of those that wait for
data. -/
lemma pollWhile_isBusy (d : Drive) {fuel : ℕ} (h : d.busy < fuel) :
    pollWhile isBusy fuel d = .ok { d with busy := 0, late := d.late - 1 } := by
  obtain ⟨fuel, rfl⟩ : ∃ k, fuel = k + 1 := ⟨fuel - 1, by omega⟩
  obtain ⟨n, hn⟩ : ∃ n, d.busy = n := ⟨_, rfl⟩
  induction n generalizing d fuel with
  | zero =>
      have hready : isBusy (if d.hasData ∧ d.late = 0 then 0x58 else 0x50) = false := by
        split_ifs <;> rfl
      refine (pollWhile_done fuel (if_neg (by omega)) hready).trans ?_
      simp only [hn]
  | succ n ih =>
      obtain ⟨fuel, rfl⟩ : ∃ k, fuel = k + 1 := ⟨fuel - 1, by omega⟩
      have hstatus : d.readStatus = (0x80, { d with busy := n }) := by
        rw [readStatus, if_pos (by omega), hn, Nat.add_sub_cancel]
      rw [pollWhile_again _ hstatus rfl]
      exact ih { d with busy := n } fuel (by simp only; omega) rfl

lemma pollWhile_noData (d : Drive) (hbusy : d.busy = 0) (hdata : d.hasData = true) {fuel : ℕ}
    (h : d.late < fuel) : pollWhile noData fuel d = .ok { d with late := 0 } := by
  obtain ⟨fuel, rfl⟩ : ∃ k, fuel = k + 1 := ⟨fuel - 1, by omega⟩
  obtain ⟨n, hn⟩ : ∃ n, d.late = n := ⟨_, rfl⟩
  induction n generalizing d fuel with
  | zero =>
      have hstatus : d.readStatus = (0x58, { d with late := 0 }) := by
        rw [readStatus, if_neg (by omega), if_pos ⟨hdata, hn⟩, hn]
      exact pollWhile_done fuel hstatus rfl
  | succ n ih =>
      obtain ⟨fuel, rfl⟩ : ∃ k, fuel = k + 1 := ⟨fuel - 1, by omega⟩
      have hstatus : d.readStatus = (0x50, { d with late := n }) := by
        rw [readStatus, if_neg (by omega), if_neg (by omega), hn, Nat.add_sub_cancel]
      rw [pollWhile_again _ hstatus rfl]
      exact ih { d with late := n } hbusy hdata fuel (by simp only; omega) rfl

/-- The drive when it is neither busy nor late. -/
def ready (d : Drive) : Drive := { d with busy := 0, late := 0 }

/-- The second polling loop after the first. -/
lemma pollWhile_noData_of_isBusy (hdata : d.hasData = true) {fuel : ℕ} (h : d.late < fuel) :
    pollWhile noData fuel { d with busy := 0, late := d.late - 1 } = .ok d.ready :=
  pollWhile_noData { d with busy := 0, late := d.late - 1 } rfl hdata
    ((Nat.sub_le _ _).trans_lt h)

/-! ### Bytes and words -/

/-- A byte of a sector that is stored in words. -/
def wordByte (w : Words) (j : ℕ) : UInt8 :=
  if h : j / 2 < 256 then
    if j % 2 = 0 then (w ⟨j / 2, h⟩).toUInt8 else (w ⟨j / 2, h⟩ >>> 8).toUInt8
  else 0

/-- The bytes of the first `n` words, and zeros. -/
def unpackUpTo (w : Words) (n : ℕ) : Sector :=
  Vector.ofFn fun j => if j.val / 2 < n then wordByte w j else 0

/-- The bytes of a sector. -/
def unpack (w : Words) : Sector := unpackUpTo w 256

/-- The words of a sector. -/
def pack (bytes : Sector) : Words := fun k => wordAt bytes (2 * k)

lemma byte_unpackUpTo (w : Words) (n j : ℕ) :
    (unpackUpTo w n).byte j = if j < 512 ∧ j / 2 < n then wordByte w j else 0 := by
  by_cases hj : j < 512
  · simp [Bytes.byte, unpackUpTo, hj]
  · simp [Bytes.byte, hj]

lemma toNat_wordAt (bytes : Sector) (i : ℕ) :
    (wordAt bytes i).toNat = (bytes.byte (i + 1)).toNat * 256 + (bytes.byte i).toNat := by
  have hlo : (bytes.byte i).toNat < 2 ^ 8 := (bytes.byte i).toNat_lt
  have hhi : (bytes.byte (i + 1)).toNat < 2 ^ 8 := (bytes.byte (i + 1)).toNat_lt
  have hshift : (bytes.byte (i + 1)).toNat <<< ((8 : UInt16).toNat % 16) % 2 ^ 16 =
      (bytes.byte (i + 1)).toNat <<< 8 := by
    have height : (8 : UInt16).toNat % 16 = 8 := rfl
    rw [height, Nat.shiftLeft_eq]
    exact Nat.mod_eq_of_lt (by omega)
  rw [wordAt, UInt16.toNat_or, UInt16.toNat_shiftLeft, UInt8.toNat_toUInt16, UInt8.toNat_toUInt16,
    hshift, ← Nat.shiftLeft_add_eq_or_of_lt hlo, Nat.shiftLeft_eq]

/-- What is written as words and read as bytes is what it was. -/
lemma unpack_pack (bytes : Sector) : unpack (pack bytes) = bytes := by
  refine Bytes.ext_byte fun j hj => ?_
  have hhalf : j / 2 < 256 := by omega
  have hword := toNat_wordAt bytes (2 * (j / 2))
  have hlo : (bytes.byte (2 * (j / 2))).toNat < 256 := (bytes.byte _).toNat_lt
  have hhi : (bytes.byte (2 * (j / 2) + 1)).toNat < 256 := (bytes.byte _).toNat_lt
  rw [unpack, byte_unpackUpTo, if_pos ⟨hj, hhalf⟩, wordByte, dif_pos hhalf]
  apply UInt8.toNat_inj.mp
  split_ifs with heven
  · have hj2 : 2 * (j / 2) = j := by omega
    rw [UInt16.toNat_toUInt8]
    simp only [pack, hword]
    rw [hj2] at hlo ⊢
    omega
  · have hj2 : 2 * (j / 2) + 1 = j := by omega
    have hshift : (wordAt bytes (2 * (j / 2)) >>> 8).toNat =
        (wordAt bytes (2 * (j / 2))).toNat / 256 := by
      rw [UInt16.toNat_shiftRight, Nat.shiftRight_eq_div_pow]
      rfl
    rw [UInt16.toNat_toUInt8]
    simp only [pack, hshift, hword]
    rw [hj2] at hhi ⊢
    omega

/-! ### The transfers -/

/-- The drive with the given words on their way. -/
def withTransfer (d : Drive) (transfer : Transfer) : Drive := { d with transfer := transfer }

lemma setByte_unpackUpTo (w : Words) (n : ℕ) (hn : n < 256) :
    ((unpackUpTo w n).setByte (n * 2) (w ⟨n, hn⟩).toUInt8).setByte (n * 2 + 1)
      (w ⟨n, hn⟩ >>> 8).toUInt8 = unpackUpTo w (n + 1) := by
  refine Bytes.ext_byte fun j hj => ?_
  rw [Bytes.byte_setByte, Bytes.byte_setByte, byte_unpackUpTo, byte_unpackUpTo]
  by_cases hhi : j = n * 2 + 1
  · have hhalf : j / 2 = n := by omega
    have hodd : j % 2 ≠ 0 := by omega
    rw [if_pos ⟨hhi, hj⟩, if_pos ⟨hj, by omega⟩, wordByte, dif_pos (by omega), if_neg hodd]
    simp only [hhalf]
  · rw [if_neg fun h => hhi h.1]
    by_cases hlo : j = n * 2
    · have hhalf : j / 2 = n := by omega
      have heven : j % 2 = 0 := by omega
      rw [if_pos ⟨hlo, hj⟩, if_pos ⟨hj, by omega⟩, wordByte, dif_pos (by omega), if_pos heven]
      simp only [hhalf]
    · rw [if_neg fun h => hlo h.1]
      have hiff : j / 2 < n + 1 ↔ j / 2 < n := by omega
      simp only [hiff]

lemma readData_drop (d : Drive) (w : Words) {n : ℕ} (hn : n < 256) :
    (d.withTransfer (.toHost ((List.ofFn w).drop n))).readData =
      (w ⟨n, hn⟩, d.withTransfer (.toHost ((List.ofFn w).drop (n + 1)))) := by
  have hlen : n < (List.ofFn w).length := List.length_ofFn.symm ▸ hn
  have hcons : (List.ofFn w).drop n = w ⟨n, hn⟩ :: (List.ofFn w).drop (n + 1) := by
    rw [List.drop_eq_getElem_cons hlen, List.getElem_ofFn]
  rw [hcons]
  rfl

/-- What the loop that reads a sector has done before turn `n`. -/
def reading (d : Drive) (w : Words) (n : ℕ) : Sector × Drive :=
  (unpackUpTo w n, d.withTransfer (.toHost ((List.ofFn w).drop n)))

lemma reading_zero (d : Drive) (w : Words) :
    d.reading w 0 = (Bytes.zeros 512, d.withTransfer (.toHost (List.ofFn w))) := by
  have hzeros : unpackUpTo w 0 = Bytes.zeros 512 := by
    refine Bytes.ext_byte fun j _ => ?_
    rw [byte_unpackUpTo, if_neg (by omega), Bytes.byte_zeros]
  rw [reading, hzeros, List.drop_zero]

lemma reading_last (d : Drive) (w : Words) :
    d.reading w 256 = (unpack w, d.withTransfer (.toHost [])) := by
  have hlen : (List.ofFn w).length ≤ 256 := List.length_ofFn.le
  rw [reading, List.drop_eq_nil_of_le hlen]
  rfl

lemma readWord_reading (d : Drive) (w : Words) {n : ℕ} (hn : n < 256) :
    readWord (d.reading w n) n = .ok (d.reading w (n + 1)) := by
  rw [readWord, reading]
  simp only [readData_drop d w hn, setByte_unpackUpTo w n hn]
  rfl

/-- The loop that reads a sector. -/
lemma forRange_readWord (d : Drive) (w : Words) :
    forRange 0 256 readWord (Bytes.zeros 512, d.withTransfer (.toHost (List.ofFn w))) =
      .ok (unpack w, d.withTransfer (.toHost [])) := by
  rw [← reading_zero, ← reading_last]
  exact forRange_eq readWord (d.reading w) (Nat.zero_le 256) fun _ _ hn => readWord_reading d w hn

lemma writeData_of_lt (d : Drive) {words : List UInt16} (word : UInt16) (h : words.length < 255) :
    (d.withTransfer (.fromHost words)).writeData word =
      d.withTransfer (.fromHost (words ++ [word])) := by
  rw [writeData, withTransfer]
  simp only [h.ne, if_false]
  rfl

/-- The first `n` words of a sector. -/
def firstWords (bytes : Sector) (n : ℕ) : List UInt16 :=
  (List.range n).map fun k => wordAt bytes (2 * k)

lemma length_firstWords (bytes : Sector) (n : ℕ) : (firstWords bytes n).length = n := by
  rw [firstWords, List.length_map, List.length_range]

lemma firstWords_succ (bytes : Sector) (n : ℕ) :
    firstWords bytes n ++ [wordAt bytes (2 * n)] = firstWords bytes (n + 1) := by
  rw [firstWords, firstWords, List.range_succ, List.map_append, List.map_singleton]

lemma getD_firstWords (bytes : Sector) (k : Fin 256) :
    (firstWords bytes 256).getD k 0 = pack bytes k := by
  rw [List.getD_eq_getElem _ _ (by rw [length_firstWords]; exact k.isLt)]
  simp only [firstWords, List.getElem_map, List.getElem_range]
  rfl

/-- The drive after a sector has been written. -/
def stored (d : Drive) (bytes : Sector) : Drive :=
  { d with sectors := Function.update d.sectors d.address (pack bytes), transfer := .idle }

/-- What the loop that writes a sector has done before turn `n`: the last word stores the sector. -/
def writing (d : Drive) (bytes : Sector) (n : ℕ) : Drive :=
  if n < 256 then d.withTransfer (.fromHost (firstWords bytes n)) else d.stored bytes

lemma writeWord_writing (d : Drive) (bytes : Sector) {n : ℕ} (hn : n < 256) :
    writeWord bytes (d.writing bytes n) n = .ok (d.writing bytes (n + 1)) := by
  rw [writeWord, writing, if_pos hn, writing]
  split_ifs with hlast
  · rw [writeData_of_lt d _ (by rw [length_firstWords]; omega), firstWords_succ]
  · obtain rfl : n = 255 := by omega
    rw [writeData, withTransfer]
    simp only [length_firstWords, if_true, firstWords_succ, Nat.reduceAdd, getD_firstWords]
    rfl

/-- The loop that writes a sector. -/
lemma forRange_writeWord (d : Drive) (bytes : Sector) :
    forRange 0 256 (writeWord bytes) (d.withTransfer (.fromHost [])) = .ok (d.stored bytes) :=
  forRange_eq (writeWord bytes) (d.writing bytes) (Nat.zero_le 256)
    fun _ _ hn => writeWord_writing d bytes hn

/-! ### The operations -/

/-- **Reading.**  With enough polls, `read_sector` returns the sector at the low 28 bits of the
number, and no sector changes. -/
theorem exists_readSector (d : Drive) (lba : UInt32) :
    ∃ d' fuel₀, d'.sectors = d.sectors ∧ ∀ fuel, fuel₀ ≤ fuel →
      readSector fuel d lba = .ok (unpack (d.sectors (lba.toNat % 2 ^ 28)), d') := by
  obtain ⟨d₁, hd₁⟩ : ∃ d₁, d₁ = (d.select lba).writeCommand 0x20 := ⟨_, rfl⟩
  have hsectors : d₁.sectors = d.sectors := by rw [hd₁]; rfl
  have htransfer : d₁.transfer = .toHost (List.ofFn (d.sectors (lba.toNat % 2 ^ 28))) := by
    rw [hd₁, ← address_select d lba]
    rfl
  have hdata : d₁.hasData = true := by
    rw [hasData, htransfer]
    simp only [ne_eq, decide_eq_true_eq]
    intro hnil
    exact absurd (congrArg List.length hnil) (by rw [List.length_ofFn]; decide)
  have hready : d₁.ready =
      d₁.ready.withTransfer (.toHost (List.ofFn (d.sectors (lba.toNat % 2 ^ 28)))) := by
    rw [← htransfer]
    rfl
  refine ⟨d₁.ready.withTransfer (.toHost []), d₁.busy + d₁.late + 1, hsectors, fun fuel hfuel => ?_⟩
  rw [readSector, ← hd₁, pollWhile_isBusy _ (by omega), ok_bind,
    pollWhile_noData_of_isBusy hdata (by omega), ok_bind, hready, forRange_readWord]
  rfl

/-- **Writing.**  With enough polls, `write_sector_bytes` replaces the sector at the low 28 bits of
the number, and no other. -/
theorem exists_writeSectorBytes (d : Drive) (lba : UInt32) (bytes : Sector) :
    ∃ d' fuel₀, d'.sectors = Function.update d.sectors (lba.toNat % 2 ^ 28) (pack bytes) ∧
      ∀ fuel, fuel₀ ≤ fuel → writeSectorBytes fuel d lba bytes = .ok d' := by
  obtain ⟨d₁, hd₁⟩ : ∃ d₁, d₁ = (d.select lba).writeCommand 0x30 := ⟨_, rfl⟩
  have haddress : d₁.address = lba.toNat % 2 ^ 28 := by
    rw [← address_select d lba, hd₁]
    rfl
  have hsectors : d₁.sectors = d.sectors := by rw [hd₁]; rfl
  have htransfer : d₁.transfer = .fromHost [] := by rw [hd₁]; rfl
  have hdata : d₁.hasData = true := by rw [hasData, htransfer]
  have hready : d₁.ready = d₁.ready.withTransfer (.fromHost []) := by
    rw [← htransfer]
    rfl
  obtain ⟨d₂, hd₂⟩ : ∃ d₂, d₂ = (d₁.ready.stored bytes).writeCommand 0xE7 := ⟨_, rfl⟩
  refine ⟨{ d₂ with busy := 0, late := d₂.late - 1 }, d₁.busy + d₁.late + d₂.busy + 1, ?_,
    fun fuel hfuel => ?_⟩
  · rw [← hsectors, ← haddress, hd₂]
    rfl
  · rw [writeSectorBytes, ← hd₁, pollWhile_isBusy _ (by omega), ok_bind,
      pollWhile_noData_of_isBusy hdata (by omega), ok_bind, hready, forRange_writeWord, ok_bind,
      ← hd₂, pollWhile_isBusy _ (by omega)]

/-- The sectors by their numbers, as the file system sees them. -/
def disk (d : Drive) : Disk := fun lba => unpack (d.sectors (lba % 2 ^ 28))

/-- **The driver implements the disk.**  For sector numbers below `2 ^ 28`, `read_sector` and
`write_sector_bytes` do on the sectors with such numbers what the operations on the disk do. -/
theorem drive_refines_disk (d : Drive) {lba : UInt32} (h : lba.toNat < 2 ^ 28) (bytes : Sector) :
    (∃ d' fuel₀, d'.disk = d.disk ∧ ∀ fuel, fuel₀ ≤ fuel →
      readSector fuel d lba = .ok (Fat16.readSector d.disk lba.toNat, d')) ∧
    ∃ d' fuel₀, (∀ fuel, fuel₀ ≤ fuel → writeSectorBytes fuel d lba bytes = .ok d') ∧
      Set.EqOn d'.disk (Fat16.writeSectorBytes d.disk lba.toNat bytes) (Set.Iio (2 ^ 28)) := by
  constructor
  · obtain ⟨d', fuel₀, hsectors, hread⟩ := d.exists_readSector lba
    refine ⟨d', fuel₀, ?_, hread⟩
    funext n
    rw [disk, disk, hsectors]
  · obtain ⟨d', fuel₀, hsectors, hwrite⟩ := d.exists_writeSectorBytes lba bytes
    refine ⟨d', fuel₀, hwrite, fun n hn => ?_⟩
    have hn' : n % 2 ^ 28 = n := Nat.mod_eq_of_lt hn
    rw [Nat.mod_eq_of_lt h] at hsectors
    simp only [disk, Fat16.writeSectorBytes, hsectors, hn', Function.update_apply]
    split_ifs
    · exact unpack_pack bytes
    · rfl

/-- **Sector storage.**  Whatever is on the drive and however long it takes, the sector number `b`
read after `buf` was written to the sector number `a` gives `buf` if `a = b` and what was read
before otherwise, exactly if the numbers are equal, or differ in their low 28 bits, or `b` held
`buf` already. -/
theorem sector_storage_iff (d : Drive) (a b : UInt32) (buf : Sector) :
    ∃ before after d₀ d₁ d₂ fuel₀, ∀ fuel, fuel₀ ≤ fuel →
      readSector fuel d b = .ok (before, d₀) ∧
      writeSectorBytes fuel d a buf = .ok d₁ ∧
      readSector fuel d₁ b = .ok (after, d₂) ∧
      ((after = if a = b then buf else before) ↔
        a = b ∨ a.toNat % 2 ^ 28 ≠ b.toNat % 2 ^ 28 ∨ before = buf) := by
  obtain ⟨d₀, fuel₁, -, hbefore⟩ := d.exists_readSector b
  obtain ⟨d₁, fuel₂, hsectors, hwrite⟩ := d.exists_writeSectorBytes a buf
  obtain ⟨d₂, fuel₃, -, hafter⟩ := d₁.exists_readSector b
  refine ⟨_, _, d₀, d₁, d₂, fuel₁ + fuel₂ + fuel₃, fun fuel hfuel =>
    ⟨hbefore fuel (by omega), hwrite fuel (by omega), hafter fuel (by omega), ?_⟩⟩
  rw [hsectors, Function.update_apply]
  by_cases hsame : b.toNat % 2 ^ 28 = a.toNat % 2 ^ 28
  · rw [if_pos hsame, unpack_pack]
    by_cases hab : a = b
    · simp [hab]
    · simp only [hab, hsame, if_false, ne_eq, not_true_eq_false, false_or]
      exact eq_comm
  · have hab : a ≠ b := fun h => hsame (h ▸ rfl)
    rw [if_neg hsame, if_neg hab]
    exact iff_of_true rfl (.inr (.inl (Ne.symm hsame)))

/-- A drive full of zeros that answers at once. -/
def zeroDrive : Drive where
  sectors := fun _ _ => 0
  device := 0
  sectorCount := 0
  lbaLow := 0
  lbaMid := 0
  lbaHigh := 0
  transfer := .idle
  busy := 0
  late := 0
  delays := fun _ => (0, 0)

/-- A write to the sector number `2 ^ 28` replaces the boot sector. -/
theorem write_replaces_boot_sector :
    let ones : Sector := Vector.replicate 512 0xFF
    ∃ before d₀ d₁ d₂ fuel₀, before ≠ ones ∧ ∀ fuel, fuel₀ ≤ fuel →
      readSector fuel zeroDrive 0 = .ok (before, d₀) ∧
      writeSectorBytes fuel zeroDrive 268435456 ones = .ok d₁ ∧
      readSector fuel d₁ 0 = .ok (ones, d₂) := by
  intro ones
  obtain ⟨d₀, fuel₁, -, hbefore⟩ := zeroDrive.exists_readSector 0
  obtain ⟨d₁, fuel₂, hsectors, hwrite⟩ := zeroDrive.exists_writeSectorBytes 268435456 ones
  obtain ⟨d₂, fuel₃, -, hafter⟩ := d₁.exists_readSector 0
  have hsame : d₁.sectors ((0 : UInt32).toNat % 2 ^ 28) = pack ones := by
    rw [hsectors]
    rfl
  rw [hsame, unpack_pack] at hafter
  refine ⟨_, d₀, d₁, d₂, fuel₁ + fuel₂ + fuel₃, ?_, fun fuel hfuel =>
    ⟨hbefore fuel (by omega), hwrite fuel (by omega), hafter fuel (by omega)⟩⟩
  intro heq
  have hzero : (unpack (zeroDrive.sectors ((0 : UInt32).toNat % 2 ^ 28))).byte 0 = 0 := by
    rw [unpack, byte_unpackUpTo]
    rfl
  have hone : ones.byte 0 = 0xFF := by simp [Bytes.byte, ones]
  rw [heq, hone] at hzero
  exact absurd hzero (by decide)

end Drive

end SilOS.Ide
