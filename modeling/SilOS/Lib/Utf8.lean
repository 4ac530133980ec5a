/-
# Strings indexed by bytes

A string is a list of characters, but its positions are counted in bytes of its UTF-8
encoding.  A position inside the encoding of a character is not a boundary, and the operations
on strings are undefined there.  `splitAtByte` is the basic operation: it cuts a string at a
position, if the position is a boundary.
-/
import Mathlib

namespace Lib

/-- The number of bytes of a string. -/
def byteLen : List Char → ℕ
  | [] => 0
  | c :: s => c.utf8Size + byteLen s

/-- The bytes of a string. -/
def encodeUtf8 (s : List Char) : List UInt8 := s.flatMap String.utf8EncodeChar

/-- Cut a string at a byte position, which has to be a boundary. -/
def splitAtByte : List Char → ℕ → Option (List Char × List Char)
  | s, 0 => some ([], s)
  | [], _ + 1 => none
  | c :: s, i + 1 =>
      if c.utf8Size ≤ i + 1 then
        (splitAtByte s (i + 1 - c.utf8Size)).map fun p => (c :: p.1, p.2)
      else none

/-- The bytes from `i` up to `j`, both boundaries and in order. -/
def sliceBytes (s : List Char) (i j : ℕ) : Option (List Char) := do
  if j < i then none
  let (a, _) ← splitAtByte s j
  let (_, b) ← splitAtByte a i
  return b

variable {s a b : List Char} {i : ℕ}

@[simp] lemma byteLen_nil : byteLen [] = 0 := rfl

@[simp] lemma byteLen_cons (c : Char) (s : List Char) :
    byteLen (c :: s) = c.utf8Size + byteLen s := rfl

@[simp] lemma byteLen_append (a b : List Char) : byteLen (a ++ b) = byteLen a + byteLen b := by
  induction a with
  | nil => simp
  | cons c a ih => simp [ih, Nat.add_assoc]

lemma byteLen_eq_zero : byteLen s = 0 ↔ s = [] := by
  cases s with
  | nil => simp
  | cons c s =>
      have := c.utf8Size_pos
      simp
      omega

/-- **Boundaries.**  Cutting succeeds exactly at the end of some first part of the string. -/
theorem splitAtByte_eq_some : splitAtByte s i = some (a, b) ↔ s = a ++ b ∧ byteLen a = i := by
  induction s generalizing a i with
  | nil =>
      cases i with
      | zero =>
          simp only [splitAtByte, Option.some.injEq, Prod.mk.injEq]
          constructor
          · rintro ⟨rfl, rfl⟩
            simp
          · rintro ⟨h, -⟩
            obtain ⟨rfl, rfl⟩ := List.append_eq_nil_iff.mp h.symm
            simp
      | succ i =>
          simp only [splitAtByte, reduceCtorEq, false_iff, not_and]
          intro h
          obtain ⟨rfl, -⟩ := List.append_eq_nil_iff.mp h.symm
          simp
  | cons c s ih =>
      cases i with
      | zero =>
          simp only [splitAtByte, Option.some.injEq, Prod.mk.injEq]
          constructor
          · rintro ⟨rfl, rfl⟩
            simp
          · rintro ⟨h, ha⟩
            obtain rfl := byteLen_eq_zero.mp ha
            exact ⟨rfl, h⟩
      | succ i =>
          simp only [splitAtByte]
          constructor
          · intro h
            split_ifs at h with hc
            obtain ⟨⟨a', b'⟩, hsplit, hp⟩ := Option.map_eq_some_iff.mp h
            simp only [Prod.mk.injEq] at hp
            obtain ⟨rfl, rfl⟩ := hp
            obtain ⟨rfl, ha⟩ := ih.mp hsplit
            refine ⟨rfl, ?_⟩
            rw [byteLen_cons]
            omega
          · rintro ⟨h, ha⟩
            -- the first part is not empty, so it begins with the first character
            cases a with
            | nil => exact absurd ha (by simp)
            | cons c' a =>
                obtain ⟨rfl, rfl⟩ := List.cons.inj h
                rw [byteLen_cons] at ha
                rw [if_pos (by omega), ih.mpr ⟨rfl, by omega⟩]
                rfl

lemma splitAtByte_append (a b : List Char) : splitAtByte (a ++ b) (byteLen a) = some (a, b) :=
  splitAtByte_eq_some.mpr ⟨rfl, rfl⟩

/-- The part between two first parts of a string. -/
lemma sliceBytes_append (a b c : List Char) :
    sliceBytes (a ++ b ++ c) (byteLen a) (byteLen (a ++ b)) = some b := by
  have hle : ¬ byteLen (a ++ b) < byteLen a := by
    rw [byteLen_append]
    omega
  simp only [sliceBytes, if_neg hle, splitAtByte_append, Option.pure_def, Option.bind_eq_bind,
    Option.bind_some]

lemma sliceBytes_of_lt {j : ℕ} (h : j < i) : sliceBytes s i j = none := by
  simp [sliceBytes, h]

/-- The position `i` is a boundary of `s`: it is not beyond the end and not inside a
character. -/
def IsBoundary (s : List Char) (i : ℕ) : Prop := (splitAtByte s i).isSome

instance (s : List Char) (i : ℕ) : Decidable (IsBoundary s i) :=
  inferInstanceAs (Decidable ((splitAtByte s i).isSome = true))

lemma isBoundary_iff : IsBoundary s i ↔ ∃ a b, s = a ++ b ∧ byteLen a = i := by
  rw [IsBoundary, Option.isSome_iff_exists]
  constructor
  · rintro ⟨⟨a, b⟩, h⟩
    exact ⟨a, b, splitAtByte_eq_some.mp h⟩
  · rintro ⟨a, b, h⟩
    exact ⟨(a, b), splitAtByte_eq_some.mpr h⟩

lemma not_isBoundary : ¬ IsBoundary s i ↔ splitAtByte s i = none := by
  rw [IsBoundary, Option.not_isSome_iff_eq_none]

lemma IsBoundary.le_byteLen (h : IsBoundary s i) : i ≤ byteLen s := by
  obtain ⟨a, b, rfl, rfl⟩ := isBoundary_iff.mp h
  rw [byteLen_append]
  exact Nat.le_add_right _ _

/-- A position inside a character is not a boundary. -/
lemma not_isBoundary_inside {c : Char} (h0 : 0 < i) (hi : i < c.utf8Size) :
    ¬ IsBoundary (a ++ c :: b) (byteLen a + i) := by
  rw [isBoundary_iff]
  rintro ⟨a', b', hsplit, hlen⟩
  rcases List.append_eq_append_iff.mp hsplit with ⟨m, rfl, hm⟩ | ⟨m, rfl, -⟩
  · -- the first part reaches beyond `a`, hence over the whole character
    cases m with
    | nil => exact absurd hlen (by simp; omega)
    | cons d m =>
        obtain ⟨rfl, -⟩ := List.cons.inj hm
        rw [byteLen_append, byteLen_cons] at hlen
        omega
  · rw [byteLen_append] at hlen
    omega

/-- One byte after the start of a character is a boundary only if that is its end. -/
lemma isBoundary_succ_iff {c : Char} :
    IsBoundary (a ++ c :: b) (byteLen a + 1) ↔ c.utf8Size = 1 := by
  have hpos := c.utf8Size_pos
  constructor
  · intro h
    by_contra hsize
    exact not_isBoundary_inside Nat.one_pos (by omega) h
  · intro hsize
    exact isBoundary_iff.mpr ⟨a ++ [c], b, by simp, by simp [hsize]⟩

/-- One byte before the end of a character is a boundary only if that is its start. -/
lemma isBoundary_pred_iff {c : Char} :
    IsBoundary (a ++ c :: b) (byteLen (a ++ [c]) - 1) ↔ c.utf8Size = 1 := by
  have hpos := c.utf8Size_pos
  have hpred : byteLen (a ++ [c]) - 1 = byteLen a + (c.utf8Size - 1) := by
    rw [byteLen_append, byteLen_cons, byteLen_nil]
    omega
  rw [hpred]
  constructor
  · intro h
    by_contra hsize
    exact not_isBoundary_inside (by omega) (by omega) h
  · intro hsize
    exact isBoundary_iff.mpr ⟨a, c :: b, rfl, by omega⟩

/-- In a string of one-byte characters positions count characters. -/
lemma byteLen_eq_length (h : ∀ c ∈ s, c.utf8Size = 1) : byteLen s = s.length := by
  induction s with
  | nil => rfl
  | cons c s ih =>
      rw [byteLen_cons, List.length_cons, h c (by simp), ih fun d hd => h d (by simp [hd]),
        Nat.add_comm]

/-! ### Decoding bytes

Bytes that are not UTF-8 are decoded as well: the longest part that could still have become a
character is replaced as a whole. -/

/-- The replacement character. -/
def replacement : Char := Char.ofNat 0xFFFD

/-- The number of bytes of a character by its first byte, `0` if no character starts so. -/
def charWidth (a : UInt8) : ℕ :=
  if a < 0x80 then 1
  else if 0xC2 ≤ a ∧ a ≤ 0xDF then 2
  else if 0xE0 ≤ a ∧ a ≤ 0xEF then 3
  else if 0xF0 ≤ a ∧ a ≤ 0xF4 then 4
  else 0

/-- The second bytes after the first byte `a` of a longer character: overlong encodings,
surrogates and values that are too large are excluded here. -/
def mayFollow (a b : UInt8) : Bool :=
  if a = 0xE0 then 0xA0 ≤ b ∧ b ≤ 0xBF
  else if a = 0xED then 0x80 ≤ b ∧ b ≤ 0x9F
  else if a = 0xF0 then 0x90 ≤ b ∧ b ≤ 0xBF
  else if a = 0xF4 then 0x80 ≤ b ∧ b ≤ 0x8F
  else 0x80 ≤ b ∧ b ≤ 0xBF

/-- Read `n` more continuation bytes of a character with the leading bits `v`; at a byte that
is none the character is given up. -/
def decodeTail : ℕ → ℕ → List UInt8 → Char × List UInt8
  | 0, v, bs => (Char.ofNat v, bs)
  | _ + 1, _, [] => (replacement, [])
  | n + 1, v, b :: bs =>
      if 0x80 ≤ b ∧ b ≤ 0xBF then decodeTail n (v * 64 + b.toNat % 64) bs
      else (replacement, b :: bs)

/-- Decode the character that starts with the byte `a`. -/
def decodeChar (a : UInt8) (bs : List UInt8) : Char × List UInt8 :=
  match charWidth a with
  | 0 => (replacement, bs)
  | 1 => (Char.ofNat a.toNat, bs)
  | n + 2 =>
      match bs with
      | [] => (replacement, [])
      | b :: bs =>
          if mayFollow a b then
            decodeTail n (a.toNat % 2 ^ (5 - n) * 64 + b.toNat % 64) bs
          else (replacement, b :: bs)

/-- Decode at most `n` characters. -/
def decodeUpTo : ℕ → List UInt8 → List Char
  | 0, _ => []
  | _, [] => []
  | n + 1, a :: bs => (decodeChar a bs).1 :: decodeUpTo n (decodeChar a bs).2

/-- Decode bytes, whatever they are. -/
def decodeLossy (bs : List UInt8) : List Char := decodeUpTo bs.length bs

/-- Decode bytes that are the encoding of a string. -/
def decodeUtf8 (bs : List UInt8) : Option (List Char) :=
  if encodeUtf8 (decodeLossy bs) = bs then some (decodeLossy bs) else none

lemma length_decodeTail (n v : ℕ) (bs : List UInt8) :
    (decodeTail n v bs).2.length ≤ bs.length := by
  induction n generalizing v bs with
  | zero => exact le_rfl
  | succ n ih =>
      cases bs with
      | nil => exact le_rfl
      | cons b bs =>
          rw [decodeTail]
          split_ifs
          · exact (ih _ bs).trans (Nat.le_succ _)
          · exact le_rfl

lemma length_decodeChar (a : UInt8) (bs : List UInt8) :
    (decodeChar a bs).2.length ≤ bs.length := by
  rw [decodeChar]
  rcases charWidth a with _ | _ | n
  · exact le_rfl
  · exact le_rfl
  · cases bs with
    | nil => exact le_rfl
    | cons b bs =>
        simp only
        split_ifs
        · exact (length_decodeTail _ _ bs).trans (Nat.le_succ _)
        · exact le_rfl

/-- Any bound that is not below the number of bytes gives the same. -/
lemma decodeUpTo_eq {n m : ℕ} {bs : List UInt8} (hn : bs.length ≤ n) (hm : bs.length ≤ m) :
    decodeUpTo n bs = decodeUpTo m bs := by
  induction n generalizing m bs with
  | zero =>
      obtain rfl := List.length_eq_zero_iff.mp (Nat.le_zero.mp hn)
      cases m <;> rfl
  | succ n ih =>
      cases bs with
      | nil => cases m <;> rfl
      | cons a bs =>
          rw [List.length_cons] at hn hm
          obtain ⟨m, rfl⟩ : ∃ k, m = k + 1 := ⟨m - 1, by omega⟩
          have hle := length_decodeChar a bs
          have hrest := ih (m := m) (hle.trans (by omega)) (hle.trans (by omega))
          simp only [decodeUpTo, hrest]

/-- **Decoding reads everything.**  One character is decoded after the other, to the end. -/
theorem decodeLossy_cons (a : UInt8) (bs : List UInt8) :
    decodeLossy (a :: bs) = (decodeChar a bs).1 :: decodeLossy (decodeChar a bs).2 := by
  simp only [decodeLossy, List.length_cons, decodeUpTo,
    decodeUpTo_eq (length_decodeChar a bs) le_rfl]

/-! ### Decoding what was encoded -/

/-- The bytes of a character by its size. -/
lemma utf8EncodeChar_cases (c : Char) :
    (c.toNat ≤ 0x7f ∧ String.utf8EncodeChar c = [UInt8.ofNat c.toNat]) ∨
    (0x7f < c.toNat ∧ c.toNat ≤ 0x7ff ∧ String.utf8EncodeChar c =
      [UInt8.ofNat (c.toNat / 64 % 32 + 0xc0), UInt8.ofNat (c.toNat % 64 + 0x80)]) ∨
    (0x7ff < c.toNat ∧ c.toNat ≤ 0xffff ∧ String.utf8EncodeChar c =
      [UInt8.ofNat (c.toNat / 4096 % 16 + 0xe0), UInt8.ofNat (c.toNat / 64 % 64 + 0x80),
       UInt8.ofNat (c.toNat % 64 + 0x80)]) ∨
    (0xffff < c.toNat ∧ String.utf8EncodeChar c =
      [UInt8.ofNat (c.toNat / 262144 % 8 + 0xf0), UInt8.ofNat (c.toNat / 4096 % 64 + 0x80),
       UInt8.ofNat (c.toNat / 64 % 64 + 0x80), UInt8.ofNat (c.toNat % 64 + 0x80)]) := by
  have h := String.utf8EncodeChar.eq_def c
  simp only at h
  split_ifs at h with h1 h2 h3
  · exact Or.inl ⟨h1, h⟩
  · exact Or.inr (Or.inl ⟨not_le.mp h1, h2, h⟩)
  · exact Or.inr (Or.inr (Or.inl ⟨not_le.mp h2, h3, h⟩))
  · exact Or.inr (Or.inr (Or.inr ⟨not_le.mp h3, h⟩))

lemma utf8EncodeChar_of_le {c : Char} (h : c.toNat ≤ 0x7f) :
    String.utf8EncodeChar c = [UInt8.ofNat c.toNat] := by
  rcases utf8EncodeChar_cases c with ⟨-, henc⟩ | ⟨hlt, -⟩ | ⟨hlt, -⟩ | ⟨hlt, -⟩
  · exact henc
  all_goals omega

lemma toNat_ofNat_byte {n : ℕ} (h : n < 256) : (UInt8.ofNat n).toNat = n := by
  rw [UInt8.toNat_ofNat', Nat.mod_eq_of_lt h]

section DecodeBytes

variable {v : ℕ} (bs : List UInt8)

/-- A continuation byte is read. -/
lemma decodeTail_byte (n v w : ℕ) :
    decodeTail (n + 1) v (UInt8.ofNat (w % 64 + 0x80) :: bs) =
      decodeTail n (v * 64 + w % 64) bs := by
  have hb := toNat_ofNat_byte (n := w % 64 + 0x80) (by omega)
  have hmod : (w % 64 + 0x80) % 64 = w % 64 := by omega
  rw [decodeTail, hb, hmod, if_pos]
  simp only [UInt8.le_iff_toNat_le, hb, UInt8.reduceToNat]
  omega

/-- A longer character is read from its first two bytes on. -/
lemma decodeChar_cons {a b : UInt8} {n : ℕ} (hwidth : charWidth a = n + 2)
    (hfollow : mayFollow a b = true) :
    decodeChar a (b :: bs) =
      decodeTail n (a.toNat % 2 ^ (5 - n) * 64 + b.toNat % 64) bs := by
  rw [decodeChar, hwidth]
  simp only [hfollow, if_true]

lemma decodeChar_one (h : v ≤ 0x7f) : decodeChar (UInt8.ofNat v) bs = (Char.ofNat v, bs) := by
  have ha := toNat_ofNat_byte (n := v) (by omega)
  have hwidth : charWidth (UInt8.ofNat v) = 1 := by
    simp only [charWidth, UInt8.lt_iff_toNat_lt, ha, UInt8.reduceToNat]
    rw [if_pos (by omega)]
  rw [decodeChar, hwidth]
  simp only [ha]

lemma decodeChar_two (hlt : 0x7f < v) (hle : v ≤ 0x7ff) :
    decodeChar (UInt8.ofNat (v / 64 % 32 + 0xc0)) (UInt8.ofNat (v % 64 + 0x80) :: bs) =
      (Char.ofNat v, bs) := by
  have ha := toNat_ofNat_byte (n := v / 64 % 32 + 0xc0) (by omega)
  have hb := toNat_ofNat_byte (n := v % 64 + 0x80) (by omega)
  have hwidth : charWidth (UInt8.ofNat (v / 64 % 32 + 0xc0)) = 0 + 2 := by
    simp only [charWidth, UInt8.lt_iff_toNat_lt, UInt8.le_iff_toNat_le, ha, UInt8.reduceToNat]
    rw [if_neg (by omega), if_pos (by omega)]
  have hfollow : mayFollow (UInt8.ofNat (v / 64 % 32 + 0xc0)) (UInt8.ofNat (v % 64 + 0x80)) =
      true := by
    simp only [mayFollow, ← UInt8.toNat_inj, UInt8.le_iff_toNat_le, ha, hb, UInt8.reduceToNat]
    split_ifs <;> simp <;> omega
  have hv : (v / 64 % 32 + 0xc0) % 2 ^ (5 - 0) * 64 + (v % 64 + 0x80) % 64 = v := by omega
  rw [decodeChar_cons bs hwidth hfollow, decodeTail, ha, hb, hv]

/-- The surrogates are no characters, and `mayFollow` excludes their bytes. -/
lemma decodeChar_three (hlt : 0x7ff < v) (hle : v ≤ 0xffff) (hvalid : v < 0xd800 ∨ 0xdfff < v) :
    decodeChar (UInt8.ofNat (v / 4096 % 16 + 0xe0))
      (UInt8.ofNat (v / 64 % 64 + 0x80) :: UInt8.ofNat (v % 64 + 0x80) :: bs) =
      (Char.ofNat v, bs) := by
  have ha := toNat_ofNat_byte (n := v / 4096 % 16 + 0xe0) (by omega)
  have hb := toNat_ofNat_byte (n := v / 64 % 64 + 0x80) (by omega)
  have hwidth : charWidth (UInt8.ofNat (v / 4096 % 16 + 0xe0)) = 1 + 2 := by
    simp only [charWidth, UInt8.lt_iff_toNat_lt, UInt8.le_iff_toNat_le, ha, UInt8.reduceToNat]
    rw [if_neg (by omega), if_neg (by omega), if_pos (by omega)]
  have hfollow : mayFollow (UInt8.ofNat (v / 4096 % 16 + 0xe0))
      (UInt8.ofNat (v / 64 % 64 + 0x80)) = true := by
    simp only [mayFollow, ← UInt8.toNat_inj, UInt8.le_iff_toNat_le, ha, hb, UInt8.reduceToNat]
    split_ifs <;> simp <;> omega
  have hv : ((v / 4096 % 16 + 0xe0) % 2 ^ (5 - 1) * 64 + (v / 64 % 64 + 0x80) % 64) * 64 +
      v % 64 = v := by omega
  rw [decodeChar_cons _ hwidth hfollow, decodeTail_byte, ha, hb, decodeTail, hv]

lemma decodeChar_four (hlt : 0xffff < v) (hmax : v < 0x110000) :
    decodeChar (UInt8.ofNat (v / 262144 % 8 + 0xf0))
      (UInt8.ofNat (v / 4096 % 64 + 0x80) :: UInt8.ofNat (v / 64 % 64 + 0x80) ::
        UInt8.ofNat (v % 64 + 0x80) :: bs) = (Char.ofNat v, bs) := by
  have ha := toNat_ofNat_byte (n := v / 262144 % 8 + 0xf0) (by omega)
  have hb := toNat_ofNat_byte (n := v / 4096 % 64 + 0x80) (by omega)
  have hwidth : charWidth (UInt8.ofNat (v / 262144 % 8 + 0xf0)) = 2 + 2 := by
    simp only [charWidth, UInt8.lt_iff_toNat_lt, UInt8.le_iff_toNat_le, ha, UInt8.reduceToNat]
    rw [if_neg (by omega), if_neg (by omega), if_neg (by omega), if_pos (by omega)]
  have hfollow : mayFollow (UInt8.ofNat (v / 262144 % 8 + 0xf0))
      (UInt8.ofNat (v / 4096 % 64 + 0x80)) = true := by
    simp only [mayFollow, ← UInt8.toNat_inj, UInt8.le_iff_toNat_le, ha, hb, UInt8.reduceToNat]
    split_ifs <;> simp <;> omega
  have hv : (((v / 262144 % 8 + 0xf0) % 2 ^ (5 - 2) * 64 + (v / 4096 % 64 + 0x80) % 64) * 64 +
      v / 64 % 64) * 64 + v % 64 = v := by omega
  rw [decodeChar_cons _ hwidth hfollow, decodeTail_byte, decodeTail_byte, ha, hb, decodeTail, hv]

end DecodeBytes

/-- The bytes of a character are decoded to it, whatever follows them. -/
lemma decodeChar_utf8EncodeChar (c : Char) :
    ∃ a tail, String.utf8EncodeChar c = a :: tail ∧
      ∀ bs, decodeChar a (tail ++ bs) = (c, bs) := by
  have hnat : Char.ofNat c.toNat = c := Char.ofNat_toNat c
  have hvalid : c.toNat < 0xd800 ∨ 0xdfff < c.toNat ∧ c.toNat < 0x110000 := c.valid
  rcases utf8EncodeChar_cases c with ⟨hle, henc⟩ | ⟨hlt, hle, henc⟩ | ⟨hlt, hle, henc⟩ | ⟨hlt, henc⟩
  · refine ⟨_, _, henc, fun bs => ?_⟩
    rw [List.nil_append, decodeChar_one bs hle, hnat]
  · refine ⟨_, _, henc, fun bs => ?_⟩
    rw [List.singleton_append, decodeChar_two bs hlt hle, hnat]
  · refine ⟨_, _, henc, fun bs => ?_⟩
    rw [List.cons_append, List.singleton_append,
      decodeChar_three bs hlt hle (hvalid.imp_right And.left), hnat]
  · refine ⟨_, _, henc, fun bs => ?_⟩
    rw [List.cons_append, List.cons_append, List.singleton_append,
      decodeChar_four bs hlt (by omega), hnat]

/-- **Decoding is the inverse of encoding.** -/
theorem decodeLossy_encodeUtf8 (s : List Char) : decodeLossy (encodeUtf8 s) = s := by
  induction s with
  | nil => rfl
  | cons c s ih =>
      obtain ⟨a, tail, henc, hdec⟩ := decodeChar_utf8EncodeChar c
      have hcons : encodeUtf8 (c :: s) = a :: (tail ++ encodeUtf8 s) := by
        rw [encodeUtf8, List.flatMap_cons, henc, List.cons_append]
        rfl
      rw [hcons, decodeLossy_cons, hdec, ih]

lemma encodeUtf8_injective : Function.Injective encodeUtf8 :=
  Function.LeftInverse.injective decodeLossy_encodeUtf8

end Lib
