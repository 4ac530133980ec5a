/-
# Freeing an arbitrary chain

`free_cluster_chain` keeps no record of the clusters it has seen: on a cycle it ends only because
it clears each word before it goes on, so that a cluster it comes back to leads to 0.  This file
describes it on every drive, whatever the links look like: the words it clears are those of the
clusters that a walk along the original links visits.
-/
import SilOS.Lib.Walk
import SilOS.Fat16.Fat

namespace SilOS.Fat16

open Lib

namespace Fat16FileSystem

variable (fs : Fat16FileSystem)

/-- The links that `free_cluster_chain` follows. -/
def Followed (c : UInt16) : Prop := 2 ≤ c ∧ c < 0xFFF8

instance : DecidablePred Followed := fun c => inferInstanceAs (Decidable (2 ≤ c ∧ c < 0xFFF8))

/-- The byte at offset `off` of sector `lba` belongs to the FAT word of the cluster. -/
def InWord (c : UInt16) (lba off : ℕ) : Prop :=
  lba = fs.fatSector c ∧ (off = c.toNat * 2 % 512 ∨ off = c.toNat * 2 % 512 + 1)

instance (c : UInt16) (lba off : ℕ) : Decidable (fs.InWord c lba off) :=
  inferInstanceAs (Decidable (_ ∧ _))

lemma not_followed_zero : ¬ Followed 0 := by decide

lemma card_uint16_le : Fintype.card UInt16 ≤ 65536 := by
  have hinj : Function.Injective fun c : UInt16 => (⟨c.toNat, c.toNat_lt⟩ : Fin 65536) :=
    fun c c' h => UInt16.toNat_inj.mp (congrArg Fin.val h)
  simpa using Fintype.card_le_of_injective _ hinj

/-! ### One turn -/

/-- The bytes of the drive after a word was cleared. -/
lemma byte_setFatEntry_zero (d : Disk) (c : UInt16) {lba off : ℕ} (hoff : off < 512) :
    (fs.setFatEntry d c 0 lba).byte off = if fs.InWord c lba off then 0 else (d lba).byte off := by
  by_cases hlba : lba = fs.fatSector c
  · subst hlba
    rw [setFatEntry, writeSectorBytes_same, Bytes.byte_setByte, Bytes.byte_setByte]
    by_cases hhigh : off = c.toNat * 2 % 512 + 1
    · rw [if_pos ⟨hhigh, hoff⟩, if_pos ⟨rfl, Or.inr hhigh⟩]
      rfl
    · rw [if_neg fun h => hhigh h.1]
      by_cases hlow : off = c.toNat * 2 % 512
      · rw [if_pos ⟨hlow, hoff⟩, if_pos ⟨rfl, Or.inl hlow⟩]
        rfl
      · rw [if_neg fun h => hlow h.1, if_neg fun h => h.2.elim hlow hhigh, readSector]
  · rw [fs.setFatEntry_apply_ne d c 0 hlba, if_neg fun h => hlba h.1]

/-- The bytes that are cleared when a chain is freed from `start` on. -/
def Cleared (d : Disk) (start : UInt16) (lba off : ℕ) : Prop :=
  ∃ c, Visits (fs.getFatEntry d) Followed start c ∧ fs.InWord c lba off

lemma cleared_iff {d : Disk} {c : UInt16} (hc : Followed c) {lba off : ℕ} :
    fs.Cleared d c lba off ↔ fs.InWord c lba off ∨
      fs.Cleared (fs.setFatEntry d c 0) (fs.getFatEntry d c) lba off := by
  simp only [Cleared, fs.getFatEntry_setFatEntry, visits_iff_update not_followed_zero hc]
  constructor
  · rintro ⟨x, rfl | hx, hword⟩
    · exact Or.inl hword
    · exact Or.inr ⟨x, hx, hword⟩
  · rintro (hword | ⟨x, hx, hword⟩)
    · exact ⟨c, Or.inl rfl, hword⟩
    · exact ⟨x, Or.inr hx, hword⟩

/-! ### The loop -/

lemma freeChainLoop_followed {fuel : ℕ} {d : Disk} {c : UInt16} (hc : Followed c) :
    fs.freeChainLoop (fuel + 1) c d =
      fs.freeChainLoop fuel (fs.getFatEntry d c) (fs.setFatEntry d c 0) := by
  rw [freeChainLoop]
  exact if_pos hc

lemma freeChainLoop_stop {fuel : ℕ} {d : Disk} {c : UInt16} (hc : ¬ Followed c) :
    fs.freeChainLoop (fuel + 1) c d = .ok d := by
  rw [freeChainLoop]
  exact if_neg hc

/-- An upper bound on the turns that the loop takes. -/
def turns (d : Disk) (c : UInt16) : ℕ :=
  if Followed c then liveCells (fs.getFatEntry d) Followed 0 + 2 else 1

/-- Every turn but the last two overwrites a link that could be followed. -/
lemma turns_lt {d : Disk} {c : UInt16} (hc : Followed c) :
    fs.turns (fs.setFatEntry d c 0) (fs.getFatEntry d c) < fs.turns d c := by
  rw [turns, turns, if_pos hc, fs.getFatEntry_setFatEntry]
  split_ifs with hnext
  · have hne : fs.getFatEntry d c ≠ 0 := fun h0 => not_followed_zero (h0 ▸ hnext)
    have hlt := liveCells_update_lt hc hne
    omega
  · omega

lemma turns_le (d : Disk) (c : UInt16) : fs.turns d c ≤ 65537 := by
  have hlive : liveCells (fs.getFatEntry d) Followed 0 < Fintype.card UInt16 :=
    liveCells_lt_card not_followed_zero
  have hcard := card_uint16_le
  rw [turns]
  split_ifs <;> omega

/-- The loop clears the words of the clusters that a walk visits and leaves all other bytes
alone. -/
lemma freeChainLoop_clears {fuel : ℕ} {d : Disk} {c : UInt16} (hfuel : fs.turns d c ≤ fuel) :
    ∃ d', fs.freeChainLoop fuel c d = .ok d' ∧ ∀ lba, ∀ off < 512,
      (fs.Cleared d c lba off → (d' lba).byte off = 0) ∧
        (¬ fs.Cleared d c lba off → (d' lba).byte off = (d lba).byte off) := by
  -- on the number of turns; the walk goes on from the next cluster in the table that was cleared
  induction fuel generalizing d c with
  | zero =>
      rw [turns] at hfuel
      split_ifs at hfuel <;> omega
  | succ fuel ih =>
      by_cases hc : Followed c
      · have hturns := fs.turns_lt (d := d) hc
        obtain ⟨d', hd', hbytes⟩ :=
          ih (d := fs.setFatEntry d c 0) (c := fs.getFatEntry d c) (by omega)
        refine ⟨d', by rw [fs.freeChainLoop_followed hc, hd'], fun lba off hoff => ?_⟩
        obtain ⟨hzero, hsame⟩ := hbytes lba off hoff
        rw [fs.byte_setFatEntry_zero d c hoff] at hsame
        rw [fs.cleared_iff hc]
        by_cases hrest : fs.Cleared (fs.setFatEntry d c 0) (fs.getFatEntry d c) lba off
        · exact ⟨fun _ => hzero hrest, fun hnot => absurd (Or.inr hrest) hnot⟩
        · rw [hsame hrest]
          by_cases hword : fs.InWord c lba off
          · simp [hword]
          · simp [hword, hrest]
      · refine ⟨d, fs.freeChainLoop_stop hc, fun lba off _ => ⟨?_, fun _ => rfl⟩⟩
        rintro ⟨x, hx, -⟩
        exact absurd hx (not_visits hc)

/-- **Freeing any chain.**  For every drive, parameter block and start, `free_cluster_chain` ends;
the words of the clusters reachable from the start along links from 2 to 0xFFF7 are 0 afterwards,
and every byte of the drive outside these words is unchanged. -/
theorem freeClusterChain_clears_reachable (fs : Fat16FileSystem) (d : Disk) (start : UInt16) :
    ∃ d', fs.freeClusterChain d start = .ok d' ∧
      (∀ c, Visits (fs.getFatEntry d) Followed start c → fs.getFatEntry d' c = 0) ∧
      ∀ lba, ∀ off < 512,
        (¬ ∃ c, Visits (fs.getFatEntry d) Followed start c ∧ fs.InWord c lba off) →
          (d' lba).byte off = (d lba).byte off := by
  obtain ⟨d', hd', hbytes⟩ := fs.freeChainLoop_clears (fs.turns_le d start)
  refine ⟨d', hd', fun c hc => ?_, fun lba off hoff hout => (hbytes lba off hoff).2 hout⟩
  have hzero : ∀ off < 512, (off = c.toNat * 2 % 512 ∨ off = c.toNat * 2 % 512 + 1) →
      (d' (fs.fatSector c)).byte off = 0 :=
    fun off hoff hword => (hbytes _ off hoff).1 ⟨c, hc, rfl, hword⟩
  rw [getFatEntry, readSector, Bytes.u16, hzero _ (by omega) (Or.inl rfl),
    hzero _ (by omega) (Or.inr rfl)]
  rfl

end Fat16FileSystem

end SilOS.Fat16
