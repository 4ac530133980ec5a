/-
# The file allocation table as a table of links

For every volume and every drive, `get_fat_entry` reads a table indexed by cluster numbers
that `set_fat_entry` updates at one place.  Consequently `find_free_cluster` returns the first
cluster whose word is zero, and `free_cluster_chain` clears the words of the chain it follows.
-/
import SilOS.Lib.Scan
import SilOS.Lib.Chain
import SilOS.Fat16.FileSystem

namespace SilOS.Fat16

open Lib

namespace Fat16FileSystem

variable (fs : Fat16FileSystem)

/-! ### Reading and writing a word -/

lemma u16_setByte_same (s : Sector) {off : ℕ} (h : off + 1 < 512) (v : UInt16) :
    Bytes.u16 ((s.setByte off (lo16 v)).setByte (off + 1) (hi16 v)) off = v := by
  rw [Bytes.u16, Bytes.byte_setByte_ne _ _ (by omega), Bytes.byte_setByte, if_pos (by omega),
    Bytes.byte_setByte, if_pos (by omega), fromLe16_toLe16]

lemma u16_setByte_ne (s : Sector) {off off' : ℕ} (b b' : UInt8)
    (h : off' + 1 < off ∨ off + 1 < off') :
    Bytes.u16 ((s.setByte off b).setByte (off + 1) b') off' = s.u16 off' := by
  simp only [Bytes.u16]
  rw [Bytes.byte_setByte_ne _ _ (by omega), Bytes.byte_setByte_ne _ _ (by omega),
    Bytes.byte_setByte_ne _ _ (by omega), Bytes.byte_setByte_ne _ _ (by omega)]

/-- The words of the table after `set_fat_entry`. -/
theorem getFatEntry_setFatEntry (d : Disk) (c v : UInt16) :
    fs.getFatEntry (fs.setFatEntry d c v) = Function.update (fs.getFatEntry d) c v := by
  funext x
  by_cases hxc : x = c
  · subst hxc
    rw [Function.update_self, getFatEntry, setFatEntry, readSector, writeSectorBytes_same,
      u16_setByte_same _ (by omega)]
  · rw [Function.update_of_ne hxc, getFatEntry, getFatEntry, setFatEntry]
    have hne : x.toNat ≠ c.toNat := fun h => hxc (UInt16.toNat_inj.mp h)
    by_cases hs : fs.fatSector x = fs.fatSector c
    · -- two words of one sector
      have hdiv : x.toNat * 2 / 512 = c.toNat * 2 / 512 := by
        simp only [fatSector] at hs
        omega
      rw [readSector, hs, writeSectorBytes_same, u16_setByte_ne _ _ _ (by omega), readSector]
    · rw [readSector, writeSectorBytes_ne _ _ hs, readSector]

/-- `set_fat_entry` writes one sector of the FAT. -/
lemma setFatEntry_apply_ne (d : Disk) (c v : UInt16) {lba : ℕ} (h : lba ≠ fs.fatSector c) :
    fs.setFatEntry d c v lba = d lba := writeSectorBytes_ne _ _ h

/-- The words of a FAT only depend on the sectors that hold them. -/
lemma getFatEntry_congr {d d' : Disk} {c : UInt16} (h : d' (fs.fatSector c) = d (fs.fatSector c)) :
    fs.getFatEntry d' c = fs.getFatEntry d c := by
  rw [getFatEntry, getFatEntry, readSector, readSector, h]

/-! ### The first free cluster -/

/-- The clusters with a word in the first FAT, in order. -/
def clusters : List UInt16 := (List.range (fs.bpb.sectorsPerFat.toNat * 256)).map UInt16.ofNat

lemma mem_clusters (h : fs.bpb.sectorsPerFat.toNat ≤ 256) {c : UInt16} :
    c ∈ fs.clusters ↔ c.toNat < fs.bpb.sectorsPerFat.toNat * 256 := by
  simp only [clusters, List.mem_map, List.mem_range]
  constructor
  · rintro ⟨j, hj, rfl⟩
    rw [UInt16.toNat_ofNat', Nat.mod_eq_of_lt (by omega)]
    exact hj
  · intro hc
    exact ⟨c.toNat, hc, by simp⟩

lemma clusters_nodup (h : fs.bpb.sectorsPerFat.toNat ≤ 256) : fs.clusters.Nodup := by
  apply List.Nodup.map_on _ List.nodup_range
  intro i hi j hj hij
  rw [List.mem_range] at hi hj
  have := congrArg UInt16.toNat hij
  simp only [UInt16.toNat_ofNat'] at this
  rwa [Nat.mod_eq_of_lt (by omega), Nat.mod_eq_of_lt (by omega)] at this

/-- The sector and the word at which the scan of `find_free_cluster` stops. -/
def firstFreeWord (d : Disk) : Option (ℕ × ℕ) :=
  (List.range fs.bpb.sectorsPerFat.toNat).findSome? fun s =>
    (List.range 256).findSome? fun k =>
      if (readSector d (fs.bpb.reservedSectors.toNat + s)).u16 (2 * k) = 0 then some (s, k)
      else none

lemma firstFreeWord_lt {d : Disk} {s k : ℕ} (h : fs.firstFreeWord d = some (s, k)) :
    s < fs.bpb.sectorsPerFat.toNat ∧ k < 256 := by
  obtain ⟨s', hs', hrow, -⟩ := findSome?_range_eq_some.mp h
  obtain ⟨k', hk', hword, -⟩ := findSome?_range_eq_some.mp hrow
  split_ifs at hword
  obtain ⟨rfl, rfl⟩ := Prod.mk.inj (Option.some.inj hword)
  exact ⟨hs', hk'⟩

/-- The cluster that `find_free_cluster` returns is the number of the word. -/
lemma exists_word_of_findFreeCluster {d : Disk} {c : UInt16}
    (h : fs.findFreeCluster d = .ok (some c)) :
    ∃ s k, fs.firstFreeWord d = some (s, k) ∧ c.toNat = s * 256 + k := by
  rcases hword : fs.firstFreeWord d with - | ⟨s, k⟩ <;> rw [firstFreeWord] at hword
  · simp [findFreeCluster, hword] at h
  · simp only [findFreeCluster, hword, bind_eq_ok] at h
    obtain ⟨base, hbase, cluster, hcluster, hc⟩ := h
    obtain ⟨rfl, -⟩ := of_fit_eq_ok hbase
    obtain ⟨rfl, hlt⟩ := of_fit_eq_ok hcluster
    obtain rfl := Option.some.inj (Except.ok.inj hc)
    exact ⟨s, k, rfl, by rw [UInt16.toNat_ofNat', Nat.mod_eq_of_lt hlt]⟩

/-- The word that the nested scan reads in row `j / 256` and column `j % 256`. -/
lemma scan_word (d : Disk) {j : ℕ} (hj : j < 65536) :
    (readSector d (fs.bpb.reservedSectors.toNat + j / 256)).u16 (2 * (j % 256)) =
      fs.getFatEntry d (UInt16.ofNat j) := by
  have hmod : j % 2 ^ 16 = j := Nat.mod_eq_of_lt (by omega)
  rw [getFatEntry, fatSector, UInt16.toNat_ofNat', hmod, show j * 2 / 512 = j / 256 by omega,
    show j * 2 % 512 = 2 * (j % 256) by omega]

/-- `find_free_cluster` returns the first cluster whose word is zero. -/
theorem findFreeCluster_eq (h : fs.bpb.sectorsPerFat.toNat ≤ 256) (d : Disk) :
    fs.findFreeCluster d = .ok (vacant fs.clusters (fs.getFatEntry d) 0).head? := by
  set n := fs.bpb.sectorsPerFat.toNat with hn
  have hscan : ((List.range n).findSome? fun s => (List.range 256).findSome? fun k =>
      if (readSector d (fs.bpb.reservedSectors.toNat + s)).u16 (2 * k) = 0 then some (s, k)
      else none) =
      ((List.range (n * 256)).find? fun j =>
        decide (fs.getFatEntry d (UInt16.ofNat j) = 0)).map fun j => (j / 256, j % 256) := by
    rw [findSome?_range_mul (by omega), ← findSome?_ite]
    apply findSome?_range_congr
    intro j hj
    rw [fs.scan_word d (by omega)]
  have hhead : (vacant fs.clusters (fs.getFatEntry d) 0).head? =
      ((List.range (n * 256)).find? fun j =>
        decide (fs.getFatEntry d (UInt16.ofNat j) = 0)).map UInt16.ofNat := by
    rw [vacant, List.head?_filter, clusters, List.find?_map]
    rfl
  rw [findFreeCluster, hhead]
  simp only [← hn, hscan]
  cases hfound : (List.range (n * 256)).find? fun j =>
      decide (fs.getFatEntry d (UInt16.ofNat j) = 0) with
  | none => rfl
  | some j =>
      have hj : j < n * 256 := List.mem_range.mp (List.mem_of_find?_eq_some hfound)
      simp only [Option.map_some]
      rw [mulW_eq_ok (by omega), ok_bind, addW_eq_ok (by omega), ok_bind,
        show j / 256 * 256 + j % 256 = j by omega]
      rfl

/-- `find_free_cluster` returns the first cluster whose word is zero, by their numbers. -/
lemma findFreeCluster_eq_some (h : fs.bpb.sectorsPerFat.toNat ≤ 256) {d : Disk} {c : UInt16} :
    fs.findFreeCluster d = .ok (some c) ↔ c.toNat < fs.bpb.sectorsPerFat.toNat * 256 ∧
      fs.getFatEntry d c = 0 ∧ ∀ x < c, fs.getFatEntry d x ≠ 0 := by
  rw [fs.findFreeCluster_eq h, Except.ok.injEq, vacant, List.head?_filter, clusters, List.find?_map,
    Option.map_eq_some_iff]
  constructor
  · rintro ⟨n, hfind, rfl⟩
    obtain ⟨hzero, hn, hfirst⟩ := List.find?_range_eq_some.mp hfind
    rw [List.mem_range] at hn
    have htoNat : (UInt16.ofNat n).toNat = n := by
      rw [UInt16.toNat_ofNat', Nat.mod_eq_of_lt (by omega)]
    refine ⟨by rw [htoNat]; exact hn, by simpa using hzero, fun x hx => ?_⟩
    have hlt : x.toNat < n := htoNat ▸ UInt16.lt_iff_toNat_lt.mp hx
    simpa using hfirst x.toNat hlt
  · rintro ⟨hc, hzero, hfirst⟩
    refine ⟨c.toNat, List.find?_range_eq_some.mpr ⟨by simpa using hzero, by simpa using hc, ?_⟩,
      by simp⟩
    intro n hn
    have htoNat : (UInt16.ofNat n).toNat = n := by
      rw [UInt16.toNat_ofNat', Nat.mod_eq_of_lt (by omega)]
    simpa using hfirst (UInt16.ofNat n) (UInt16.lt_iff_toNat_lt.mpr (by rwa [htoNat]))

lemma findFreeCluster_eq_none (h : fs.bpb.sectorsPerFat.toNat ≤ 256) {d : Disk} :
    fs.findFreeCluster d = .ok none ↔
      ∀ c : UInt16, c.toNat < fs.bpb.sectorsPerFat.toNat * 256 → fs.getFatEntry d c ≠ 0 := by
  rw [fs.findFreeCluster_eq h, Except.ok.injEq, List.head?_eq_none_iff,
    List.eq_nil_iff_forall_not_mem]
  simp only [mem_vacant, fs.mem_clusters h, not_and]

/-! ### Freeing a chain -/

/-- The links that end a chain. -/
def EndOfChain (v : UInt16) : Prop := 0xFFF8 ≤ v

instance : DecidablePred EndOfChain := fun v => inferInstanceAs (Decidable (0xFFF8 ≤ v))

lemma not_endOfChain {v : UInt16} : ¬ EndOfChain v ↔ v < 0xFFF8 := UInt16.not_le

/-- `free_cluster_chain` clears the words of the chain and writes nothing else. -/
theorem freeChainLoop_eq {d : Disk} {c : UInt16} {l : List UInt16} {fuel : ℕ}
    (hl : Leads (fs.getFatEntry d) EndOfChain c l) (hnd : l.Nodup) (h2 : ∀ x ∈ l, 2 ≤ x)
    (hfuel : l.length < fuel) :
    ∃ d', fs.freeChainLoop fuel c d = .ok d' ∧
      fs.getFatEntry d' = clear (fs.getFatEntry d) 0 l ∧
      ∀ lba, (∀ x ∈ l, lba ≠ fs.fatSector x) → d' lba = d lba := by
  induction l generalizing d c fuel with
  | nil =>
      obtain ⟨fuel, rfl⟩ : ∃ k, fuel = k + 1 := ⟨fuel - 1, by simp at hfuel; omega⟩
      have hstop : ¬ (2 ≤ c ∧ c < 0xFFF8) := fun h => not_endOfChain.mpr h.2 hl
      exact ⟨d, by rw [freeChainLoop, if_neg hstop], (clear_nil _ _).symm, fun _ _ => rfl⟩
  | cons x l ih =>
      obtain ⟨rfl, hx, hl⟩ := hl
      obtain ⟨hxl, hnd⟩ := List.nodup_cons.mp hnd
      obtain ⟨fuel, rfl⟩ : ∃ k, fuel = k + 1 := ⟨fuel - 1, by simp at hfuel; omega⟩
      -- the rest of the chain does not see that the word of its predecessor was cleared
      have hrest : Leads (fs.getFatEntry (fs.setFatEntry d c 0)) EndOfChain
          (fs.getFatEntry d c) l := by
        rw [fs.getFatEntry_setFatEntry]
        refine hl.congr ?_
        intro y hy
        have hyc : y ≠ c := fun h => hxl (h ▸ hy)
        rw [Function.update_of_ne hyc]
      have hfuel' : l.length < fuel := by simpa using hfuel
      obtain ⟨d', hd', hfat, hsame⟩ := ih hrest hnd (fun y hy => h2 y (by simp [hy])) hfuel'
      refine ⟨d', ?_, ?_, ?_⟩
      · rw [freeChainLoop, if_pos ⟨h2 c (by simp), not_endOfChain.mp hx⟩, hd']
      · rw [hfat, fs.getFatEntry_setFatEntry, clear_cons]
      · intro lba hlba
        rw [hsame lba (fun y hy => hlba y (by simp [hy])),
          fs.setFatEntry_apply_ne _ _ _ (hlba c (by simp))]

end Fat16FileSystem

end SilOS.Fat16
