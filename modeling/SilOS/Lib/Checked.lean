/-
# Checked machine arithmetic

Arithmetic on fixed-width integers in a build that checks for overflow: an operation whose
exact value does not fit the width stops the program.  The value is kept as a natural number,
or as an integer for the signed ones, so that a computation that does not stop is a computation
over `ℕ` or `ℤ`.
A loop over a range of numbers stops where its body does; `forRange_eq` is its rule.
-/
import Mathlib

namespace Lib

universe u v

/-- Why a run gives no result: the program stopped at a failed check, or the bound on the
number of iterations was used up. -/
inductive Fault where
  /-- An overflow, a division by zero, or a slice or index out of range. -/
  | panic
  /-- The iteration bound of a loop was used up. -/
  | fuel
deriving DecidableEq, Repr

/-- The value `v`, provided that it fits into `w` bits. -/
def fit (w v : ℕ) : Except Fault ℕ := if v < 2 ^ w then .ok v else .error .panic

/-- Checked addition at width `w`. -/
def addW (w a b : ℕ) : Except Fault ℕ := fit w (a + b)

/-- Checked multiplication at width `w`. -/
def mulW (w a b : ℕ) : Except Fault ℕ := fit w (a * b)

/-- Checked subtraction of unsigned integers, at any width. -/
def subW (a b : ℕ) : Except Fault ℕ := if b ≤ a then .ok (a - b) else .error .panic

/-- Checked division. -/
def divW (a b : ℕ) : Except Fault ℕ := if b = 0 then .error .panic else .ok (a / b)

lemma fit_eq_ok {w v : ℕ} (h : v < 2 ^ w) : fit w v = .ok v := by rw [fit, if_pos h]

lemma addW_eq_ok {w a b : ℕ} (h : a + b < 2 ^ w) : addW w a b = .ok (a + b) := fit_eq_ok h

lemma mulW_eq_ok {w a b : ℕ} (h : a * b < 2 ^ w) : mulW w a b = .ok (a * b) := fit_eq_ok h

lemma subW_eq_ok {a b : ℕ} (h : b ≤ a) : subW a b = .ok (a - b) := by rw [subW, if_pos h]

lemma divW_eq_ok {a b : ℕ} (h : b ≠ 0) : divW a b = .ok (a / b) := by rw [divW, if_neg h]

@[simp] lemma ok_bind {ε : Type u} {α β : Type v} (a : α) (f : α → Except ε β) :
    ((Except.ok a : Except ε α) >>= f) = f a := rfl

@[simp] lemma error_bind {ε : Type u} {α β : Type v} (e : ε) (f : α → Except ε β) :
    ((Except.error e : Except ε α) >>= f) = .error e := rfl

lemma bind_eq_ok {ε : Type u} {α β : Type v} {x : Except ε α} {f : α → Except ε β} {b : β} :
    (x >>= f) = .ok b ↔ ∃ a, x = .ok a ∧ f a = .ok b := by
  cases x with
  | error e => simp
  | ok a => simp

lemma of_fit_eq_ok {w v x : ℕ} (h : fit w v = .ok x) : x = v ∧ v < 2 ^ w := by
  rw [fit] at h
  split_ifs at h with hfits
  exact ⟨(Except.ok.inj h).symm, hfits⟩

lemma eq_of_addW {w a b v : ℕ} (h : addW w a b = .ok v) : v = a + b := (of_fit_eq_ok h).1

lemma map_eq_ok {ε : Type u} {α β : Type v} {x : Except ε α} {f : α → β} {b : β} :
    x.map f = .ok b ↔ ∃ a, x = .ok a ∧ f a = b := by
  cases x with
  | error e => simp [Except.map]
  | ok a => simp [Except.map]

lemma map_eq_error {ε : Type u} {α β : Type v} {x : Except ε α} {f : α → β} {e : ε} :
    x.map f = .error e ↔ x = .error e := by
  cases x with
  | error e => simp [Except.map]
  | ok a => simp [Except.map]

/-! ### Signed integers -/

/-- The integer `v`, provided that it fits into `w` bits with a sign. -/
def fitI (w : ℕ) (v : ℤ) : Except Fault ℤ :=
  if -2 ^ (w - 1) ≤ v ∧ v < 2 ^ (w - 1) then .ok v else .error .panic

/-- Checked addition of signed integers. -/
def addI (w : ℕ) (a b : ℤ) : Except Fault ℤ := fitI w (a + b)

/-- Checked subtraction of signed integers. -/
def subI (w : ℕ) (a b : ℤ) : Except Fault ℤ := fitI w (a - b)

/-- Checked negation. -/
def negI (w : ℕ) (a : ℤ) : Except Fault ℤ := fitI w (-a)

/-- Subtraction that stops at the least and the greatest integer. -/
def saturatingSubI (w : ℕ) (a b : ℤ) : ℤ := max (-2 ^ (w - 1)) (min (a - b) (2 ^ (w - 1) - 1))

/-- The unsigned integer with the same bits. -/
def toUnsigned (w : ℕ) (v : ℤ) : ℕ := (v % 2 ^ w).toNat

lemma fitI_eq_ok {w : ℕ} {v : ℤ} (hlo : -2 ^ (w - 1) ≤ v) (hhi : v < 2 ^ (w - 1)) :
    fitI w v = .ok v := by
  rw [fitI, if_pos ⟨hlo, hhi⟩]

lemma fitI_eq_ok_iff {w : ℕ} {v x : ℤ} :
    fitI w v = .ok x ↔ (-2 ^ (w - 1) ≤ v ∧ v < 2 ^ (w - 1)) ∧ x = v := by
  rw [fitI]
  split_ifs with hfits
  · rw [Except.ok.injEq, eq_comm]
    exact (and_iff_right hfits).symm
  · exact iff_of_false (by simp) fun h => hfits h.1

/-! ### Loops over a range -/

/-- `for i in lo..hi`: the body is run for the numbers from `lo` up to `hi`, `hi` excluded. -/
def forRange {ε : Type u} {σ : Type v} (lo hi : ℕ) (body : σ → ℕ → Except ε σ) (s : σ) :
    Except ε σ :=
  (List.range' lo (hi - lo)).foldlM body s

/-- **Loop rule.**  If `f i` is the state before turn `i`, and every turn leads from there to the
state before the next one, the loop ends in the state before the turn that is not taken. -/
theorem forRange_eq {ε : Type u} {σ : Type v} (body : σ → ℕ → Except ε σ) (f : ℕ → σ)
    {lo hi : ℕ} (hle : lo ≤ hi)
    (hturn : ∀ i, lo ≤ i → i < hi → body (f i) i = .ok (f (i + 1))) :
    forRange lo hi body (f lo) = .ok (f hi) := by
  obtain ⟨n, rfl⟩ := Nat.exists_eq_add_of_le hle
  rw [forRange, Nat.add_sub_cancel_left]
  clear hle
  induction n generalizing lo with
  | zero => rfl
  | succ n ih =>
      rw [List.range'_succ, List.foldlM_cons, hturn lo le_rfl (by omega), ok_bind,
        show lo + (n + 1) = lo + 1 + n by omega]
      exact ih fun i hlo hhi => hturn i (by omega) (by omega)

end Lib
