/-
# When reading panics

Reading always comes to an end, with an expression, an error or a panic.  The only operation
that can panic is the slice `token[1..token.len() - 1]`, on the token that consists of a single
quote; the scanner emits that token when the source ends in an opening quote.  Whether the
reader gets to this last token depends on whether the tokens before it form a complete
expression: `parse_append_quote` compares the two.
-/
import SilOS.Risp.Scanner

namespace SilOS.Risp

open Lib

variable {F : Type} {text : FloatText F}

/-- What a reading function returns. -/
abbrev Reading (F : Type) := Except Stop (RispExp F × List Str)

/-! ### The branches of the two functions -/

section Branches

variable {fuel : ℕ} {res : List (RispExp F)} {token : Str} {rest newXs : List Str} {stop : Stop}
  {exp : RispExp F}

lemma parseFrom_nil :
    parseFrom text (fuel + 1) [] = .error (.err (.reason "could not get token")) := by
  rw [parseFrom]

lemma parseFrom_open :
    parseFrom text (fuel + 1) (['('] :: rest) = readSeqFrom text fuel [] rest := by
  rw [parseFrom, if_pos rfl]

lemma parseFrom_close :
    parseFrom text (fuel + 1) ([')'] :: rest) = .error (.err (.reason "unexpected `)`")) := by
  rw [parseFrom, if_neg (by decide), if_pos rfl]

lemma parseFrom_atom (hopen : token ≠ ['(']) (hclose : token ≠ [')'])
    (hatom : parseAtom text token = .ok exp) :
    parseFrom text (fuel + 1) (token :: rest) = .ok (exp, rest) := by
  rw [parseFrom, if_neg hopen, if_neg hclose, hatom]

lemma parseFrom_bad (hopen : token ≠ ['(']) (hclose : token ≠ [')'])
    (hatom : parseAtom text token = .error stop) :
    parseFrom text (fuel + 1) (token :: rest) = .error stop := by
  rw [parseFrom, if_neg hopen, if_neg hclose, hatom]

lemma readSeqFrom_nil :
    readSeqFrom text (fuel + 1) res [] = .error (.err (.reason "could not find closing `)`")) := by
  rw [readSeqFrom]

lemma readSeqFrom_close :
    readSeqFrom text (fuel + 1) res ([')'] :: rest) = .ok (.list res, rest) := by
  rw [readSeqFrom, if_pos rfl]

lemma readSeqFrom_error (hclose : token ≠ [')'])
    (hparse : parseFrom text fuel (token :: rest) = .error stop) :
    readSeqFrom text (fuel + 1) res (token :: rest) = .error stop := by
  rw [readSeqFrom, if_neg hclose, hparse]

lemma readSeqFrom_ok (hclose : token ≠ [')'])
    (hparse : parseFrom text fuel (token :: rest) = .ok (exp, newXs)) :
    readSeqFrom text (fuel + 1) res (token :: rest)
      = readSeqFrom text fuel (res ++ [exp]) newXs := by
  rw [readSeqFrom, if_neg hclose, hparse]

end Branches

/-- **Induction on the calls of the reader.**  A property `P` of the results of `parse` and a
property `Q` of the results of `read_seq` hold if they hold in each branch. -/
theorem reading_induction (text : FloatText F) {P : ℕ → List Str → Reading F → Prop}
    {Q : ℕ → List (RispExp F) → List Str → Reading F → Prop}
    (hP0 : ∀ tokens, P 0 tokens (.error (.fault .fuel)))
    (hPnil : ∀ fuel, P (fuel + 1) [] (.error (.err (.reason "could not get token"))))
    (hPopen : ∀ fuel rest r, r = readSeqFrom text fuel [] rest → Q fuel [] rest r →
      P (fuel + 1) (['('] :: rest) r)
    (hPclose : ∀ fuel rest, P (fuel + 1) ([')'] :: rest) (.error (.err (.reason "unexpected `)`"))))
    (hPatom : ∀ fuel token rest atom, token ≠ ['('] → token ≠ [')'] →
      parseAtom text token = .ok atom → P (fuel + 1) (token :: rest) (.ok (atom, rest)))
    (hPbad : ∀ fuel token rest stop, token ≠ ['('] → token ≠ [')'] →
      parseAtom text token = .error stop → P (fuel + 1) (token :: rest) (.error stop))
    (hQ0 : ∀ res tokens, Q 0 res tokens (.error (.fault .fuel)))
    (hQnil : ∀ fuel res, Q (fuel + 1) res []
      (.error (.err (.reason "could not find closing `)`"))))
    (hQclose : ∀ fuel res rest, Q (fuel + 1) res ([')'] :: rest) (.ok (.list res, rest)))
    (hQerror : ∀ fuel res token rest stop, token ≠ [')'] →
      parseFrom text fuel (token :: rest) = .error stop →
      P fuel (token :: rest) (.error stop) → Q (fuel + 1) res (token :: rest) (.error stop))
    (hQok : ∀ fuel res token rest exp newXs r, token ≠ [')'] →
      parseFrom text fuel (token :: rest) = .ok (exp, newXs) →
      P fuel (token :: rest) (.ok (exp, newXs)) →
      r = readSeqFrom text fuel (res ++ [exp]) newXs → Q fuel (res ++ [exp]) newXs r →
      Q (fuel + 1) res (token :: rest) r) (fuel : ℕ) :
    (∀ tokens, P fuel tokens (parseFrom text fuel tokens)) ∧
      ∀ res tokens, Q fuel res tokens (readSeqFrom text fuel res tokens) := by
  -- both functions at once; each call goes down by one
  induction fuel with
  | zero =>
      refine ⟨fun tokens => ?_, fun res tokens => ?_⟩
      · rw [parseFrom]
        exact hP0 tokens
      · rw [readSeqFrom]
        exact hQ0 res tokens
  | succ fuel ih =>
      obtain ⟨ihP, ihQ⟩ := ih
      refine ⟨fun tokens => ?_, fun res tokens => ?_⟩
      · cases tokens with
        | nil =>
            rw [parseFrom_nil]
            exact hPnil fuel
        | cons token rest =>
            by_cases hopen : token = ['(']
            · subst hopen
              rw [parseFrom_open]
              exact hPopen fuel rest _ rfl (ihQ [] rest)
            by_cases hclose : token = [')']
            · subst hclose
              rw [parseFrom_close]
              exact hPclose fuel rest
            cases hatom : parseAtom text token with
            | error stop =>
                rw [parseFrom_bad hopen hclose hatom]
                exact hPbad fuel token rest stop hopen hclose hatom
            | ok atom =>
                rw [parseFrom_atom hopen hclose hatom]
                exact hPatom fuel token rest atom hopen hclose hatom
      · cases tokens with
        | nil =>
            rw [readSeqFrom_nil]
            exact hQnil fuel res
        | cons token rest =>
            by_cases hclose : token = [')']
            · subst hclose
              rw [readSeqFrom_close]
              exact hQclose fuel res rest
            have hP := ihP (token :: rest)
            rcases hparse : parseFrom text fuel (token :: rest) with stop | ⟨exp, newXs⟩
            · rw [hparse] at hP
              rw [readSeqFrom_error hclose hparse]
              exact hQerror fuel res token rest stop hclose hparse hP
            · rw [hparse] at hP
              rw [readSeqFrom_ok hclose hparse]
              exact hQok fuel res token rest exp newXs _ hclose hparse hP rfl (ihQ _ newXs)

/-! ### Tokens are consumed -/

/-- What is left over after reading is shorter, and made of tokens that were there. -/
def Consumes (tokens : List Str) (r : Reading F) : Prop :=
  ∀ e rest, r = .ok (e, rest) → rest.length < tokens.length ∧ ∀ t ∈ rest, t ∈ tokens

lemma consumes_reading (text : FloatText F) (fuel : ℕ) :
    (∀ tokens, Consumes tokens (parseFrom text fuel tokens)) ∧
      ∀ res tokens, Consumes tokens (readSeqFrom text fuel res tokens) := by
  refine reading_induction text (P := fun _ tokens r => Consumes tokens r)
    (Q := fun _ _ tokens r => Consumes tokens r) ?_ ?_ ?_ ?_ ?_ ?_ ?_ ?_ ?_ ?_ ?_ fuel
  · exact fun _ _ _ h => absurd h (by simp)
  · exact fun _ _ _ h => absurd h (by simp)
  · intro fuel rest r _ hQ e rest' h
    obtain ⟨hlen, hmem⟩ := hQ e rest' h
    exact ⟨by rw [List.length_cons]; omega, fun t ht => List.mem_cons_of_mem _ (hmem t ht)⟩
  · exact fun _ _ _ _ h => absurd h (by simp)
  · intro fuel token rest atom _ _ _ e rest' h
    simp only [Except.ok.injEq, Prod.mk.injEq] at h
    obtain ⟨-, rfl⟩ := h
    exact ⟨by simp, fun t ht => List.mem_cons_of_mem _ ht⟩
  · exact fun _ _ _ _ _ _ _ _ _ h => absurd h (by simp)
  · exact fun _ _ _ _ h => absurd h (by simp)
  · exact fun _ _ _ _ h => absurd h (by simp)
  · intro fuel res rest e rest' h
    simp only [Except.ok.injEq, Prod.mk.injEq] at h
    obtain ⟨-, rfl⟩ := h
    exact ⟨by simp, fun t ht => List.mem_cons_of_mem _ ht⟩
  · exact fun _ _ _ _ _ _ _ _ _ _ h => absurd h (by simp)
  · intro fuel res token rest exp newXs r _ _ hP _ hQ e rest' h
    obtain ⟨hlen₁, hmem₁⟩ := hP exp newXs rfl
    obtain ⟨hlen₂, hmem₂⟩ := hQ e rest' h
    exact ⟨by omega, fun t ht => hmem₁ t (hmem₂ t ht)⟩

/-! ### Atoms -/

/-- An atom is read without an error, except for a slice out of range. -/
lemma parseAtom_error {token : Str} {stop : Stop} (h : parseAtom text token = .error stop) :
    stop = .fault .panic ∧ ¬ SliceInRange token := by
  rw [parseAtom] at h
  split_ifs at h with htrue hfalse hquoted
  · cases hslice : unquote token with
    | none =>
        rw [hslice] at h
        simp only [Except.error.injEq] at h
        exact ⟨h.symm, fun hin => hin hquoted.1 hquoted.2 hslice⟩
    | some s =>
        rw [hslice] at h
        exact absurd h (by simp)
  · cases hfloat : text.parse token with
    | none =>
        rw [hfloat] at h
        exact absurd h (by simp)
    | some v =>
        rw [hfloat] at h
        exact absurd h (by simp)

/-- What an atom can be. -/
lemma parseAtom_cases {token : Str} {e : RispExp F} (h : parseAtom text token = .ok e) :
    (∃ b, e = .bool b) ∨ (∃ s, e = .string s) ∨ (∃ v, e = .number v) ∨ e = .symbol token := by
  rw [parseAtom] at h
  split_ifs at h
  · exact .inl ⟨true, (Except.ok.inj h).symm⟩
  · exact .inl ⟨false, (Except.ok.inj h).symm⟩
  · split at h
    · exact absurd h (by simp)
    · exact .inr (.inl ⟨_, (Except.ok.inj h).symm⟩)
  · split at h
    · exact .inr (.inr (.inl ⟨_, (Except.ok.inj h).symm⟩))
    · exact .inr (.inr (.inr (Except.ok.inj h).symm))

lemma parseAtom_string (s : Str) : parseAtom text ('"' :: s ++ ['"']) = .ok (.string s) := by
  rw [parseAtom, if_neg (by simp [boolText]), if_neg (by simp [boolText]),
    if_pos ⟨rfl, List.getLast?_concat⟩, unquote_quoted]

lemma parseAtom_quote : parseAtom text ['"'] = .error (.fault .panic) := by
  rw [parseAtom, if_neg (by decide), if_neg (by decide), if_pos (by decide), unquote_quote]

/-! ### Reading ends -/

lemma reading_ne_fuel (text : FloatText F) (fuel : ℕ) :
    (∀ tokens : List Str, 2 * tokens.length + 1 ≤ fuel →
      parseFrom text fuel tokens ≠ .error (.fault .fuel)) ∧
    ∀ (res : List (RispExp F)) (tokens : List Str), 2 * tokens.length + 2 ≤ fuel →
      readSeqFrom text fuel res tokens ≠ .error (.fault .fuel) := by
  refine reading_induction text
    (P := fun fuel tokens r => 2 * tokens.length + 1 ≤ fuel → r ≠ .error (.fault .fuel))
    (Q := fun fuel _ tokens r => 2 * tokens.length + 2 ≤ fuel → r ≠ .error (.fault .fuel))
    ?_ ?_ ?_ ?_ ?_ ?_ ?_ ?_ ?_ ?_ ?_ fuel
  · intro tokens hle
    omega
  · exact fun _ _ h => absurd h (by simp)
  · intro fuel rest r _ hQ hle
    rw [List.length_cons] at hle
    exact hQ (by omega)
  · exact fun _ _ _ h => absurd h (by simp)
  · exact fun _ _ _ _ _ _ _ _ h => absurd h (by simp)
  · intro fuel token rest stop _ _ hatom _ h
    obtain ⟨rfl, -⟩ := parseAtom_error hatom
    exact absurd h (by simp)
  · intro res tokens hle
    omega
  · exact fun _ _ _ h => absurd h (by simp)
  · exact fun _ _ _ _ h => absurd h (by simp)
  · intro fuel res token rest stop _ _ hP hle
    exact hP (by omega)
  · intro fuel res token rest exp newXs r _ hparse _ _ hQ hle
    -- the expression just read has taken at least one token
    have hlen := ((consumes_reading text fuel).1 _ exp newXs hparse).1
    exact hQ (by omega)

/-- **Reading ends**: the depth is enough for all tokens. -/
theorem parse_ne_fuel (text : FloatText F) (tokens : List Str) :
    parse text tokens ≠ .error (.fault .fuel) :=
  (reading_ne_fuel text _).1 tokens le_rfl

/-- More depth does not change the result. -/
lemma reading_succ (text : FloatText F) (fuel : ℕ) :
    (∀ tokens : List Str, parseFrom text fuel tokens ≠ .error (.fault .fuel) →
      parseFrom text (fuel + 1) tokens = parseFrom text fuel tokens) ∧
    ∀ (res : List (RispExp F)) (tokens : List Str),
      readSeqFrom text fuel res tokens ≠ .error (.fault .fuel) →
      readSeqFrom text (fuel + 1) res tokens = readSeqFrom text fuel res tokens := by
  refine reading_induction text
    (P := fun fuel tokens r => r ≠ .error (.fault .fuel) → parseFrom text (fuel + 1) tokens = r)
    (Q := fun fuel res tokens r => r ≠ .error (.fault .fuel) →
      readSeqFrom text (fuel + 1) res tokens = r) ?_ ?_ ?_ ?_ ?_ ?_ ?_ ?_ ?_ ?_ ?_ fuel
  · exact fun _ h => absurd rfl h
  · exact fun _ _ => parseFrom_nil
  · intro fuel rest r _ hQ hr
    rw [parseFrom_open, hQ hr]
  · exact fun _ _ _ => parseFrom_close
  · exact fun _ _ _ _ hopen hclose hatom _ => parseFrom_atom hopen hclose hatom
  · exact fun _ _ _ _ hopen hclose hatom _ => parseFrom_bad hopen hclose hatom
  · exact fun _ _ h => absurd rfl h
  · exact fun _ _ _ => readSeqFrom_nil
  · exact fun _ _ _ _ => readSeqFrom_close
  · intro fuel res token rest stop hclose _ hP hr
    exact readSeqFrom_error hclose (hP (by simpa using hr))
  · intro fuel res token rest exp newXs r hclose _ hP _ hQ hr
    rw [readSeqFrom_ok hclose (hP (by simp)), hQ hr]

/-- Any sufficient depth gives the result of `parse`. -/
lemma parseFrom_eq_parse {tokens : List Str} {fuel : ℕ} (h : 2 * tokens.length + 1 ≤ fuel) :
    parseFrom text fuel tokens = parse text tokens := by
  induction fuel, h using Nat.le_induction with
  | base => rfl
  | succ fuel hle ih =>
      rw [(reading_succ text fuel).1 tokens ((reading_ne_fuel text fuel).1 tokens hle), ih]

/-! ### Panics -/

lemma reading_ne_panic (text : FloatText F) (fuel : ℕ) :
    (∀ tokens : List Str, (∀ t ∈ tokens, SliceInRange t) →
      parseFrom text fuel tokens ≠ .error (.fault .panic)) ∧
    ∀ (res : List (RispExp F)) (tokens : List Str), (∀ t ∈ tokens, SliceInRange t) →
      readSeqFrom text fuel res tokens ≠ .error (.fault .panic) := by
  refine reading_induction text
    (P := fun _ tokens r => (∀ t ∈ tokens, SliceInRange t) → r ≠ .error (.fault .panic))
    (Q := fun _ _ tokens r => (∀ t ∈ tokens, SliceInRange t) → r ≠ .error (.fault .panic))
    ?_ ?_ ?_ ?_ ?_ ?_ ?_ ?_ ?_ ?_ ?_ fuel
  · exact fun _ _ h => absurd h (by simp)
  · exact fun _ _ h => absurd h (by simp)
  · intro fuel rest r _ hQ hin
    exact hQ fun t ht => hin t (List.mem_cons_of_mem _ ht)
  · exact fun _ _ _ h => absurd h (by simp)
  · exact fun _ _ _ _ _ _ _ _ h => absurd h (by simp)
  · intro fuel token rest stop _ _ hatom hin _
    exact (parseAtom_error hatom).2 (hin token (by simp))
  · exact fun _ _ _ h => absurd h (by simp)
  · exact fun _ _ _ h => absurd h (by simp)
  · exact fun _ _ _ _ h => absurd h (by simp)
  · exact fun _ _ _ _ _ _ _ hP hin => hP hin
  · intro fuel res token rest exp newXs r _ hparse _ _ hQ hin
    have hmem := ((consumes_reading text fuel).1 _ exp newXs hparse).2
    exact hQ fun t ht => hin t (hmem t ht)

/-- `parse` panics only on a token whose slice is out of range. -/
theorem parse_ne_fault {tokens : List Str} (hin : ∀ t ∈ tokens, SliceInRange t) (f : Fault) :
    parse text tokens ≠ .error (.fault f) := by
  cases f with
  | panic => exact (reading_ne_panic text _).1 tokens hin
  | fuel => exact parse_ne_fuel text tokens

/-! ### A lone quote behind the tokens -/

/-- The errors that say that more tokens were expected. -/
def Incomplete (e : RispErr) : Prop :=
  e = .reason "could not get token" ∨ e = .reason "could not find closing `)`"

instance : DecidablePred Incomplete := fun _ => inferInstanceAs (Decidable (_ ∨ _))

/-- How a result changes when a lone quote follows the tokens: an expression or another error
stays, and where more tokens were expected the quote is read. -/
def Extends : Reading F → Reading F → Prop
  | .ok (e, rest), r' => r' = .ok (e, rest ++ [['"']])
  | .error (.err e), r' => r' = if Incomplete e then .error (.fault .panic) else .error (.err e)
  | .error (.fault _), _ => True

lemma reading_append_quote (text : FloatText F) (fuel : ℕ) :
    (∀ tokens : List Str, 2 * tokens.length + 3 ≤ fuel →
      Extends (parseFrom text fuel tokens) (parseFrom text fuel (tokens ++ [['"']]))) ∧
    ∀ (res : List (RispExp F)) (tokens : List Str), 2 * tokens.length + 4 ≤ fuel →
      Extends (readSeqFrom text fuel res tokens)
        (readSeqFrom text fuel res (tokens ++ [['"']])) := by
  have hquote : ∀ fuel rest, parseFrom text (fuel + 1) (['"'] :: rest) = .error (.fault .panic) :=
    fun fuel rest => parseFrom_bad (by decide) (by decide) parseAtom_quote
  refine reading_induction text
    (P := fun fuel tokens r => 2 * tokens.length + 3 ≤ fuel →
      Extends r (parseFrom text fuel (tokens ++ [['"']])))
    (Q := fun fuel res tokens r => 2 * tokens.length + 4 ≤ fuel →
      Extends r (readSeqFrom text fuel res (tokens ++ [['"']])))
    ?_ ?_ ?_ ?_ ?_ ?_ ?_ ?_ ?_ ?_ ?_ fuel
  · exact fun _ _ => trivial
  · exact fun fuel _ => hquote fuel []
  · intro fuel rest r _ hQ hle
    rw [List.length_cons] at hle
    rw [List.cons_append, parseFrom_open]
    exact hQ (by omega)
  · exact fun _ _ _ => parseFrom_close
  · exact fun _ _ _ _ hopen hclose hatom _ => parseFrom_atom hopen hclose hatom
  · intro fuel token rest stop hopen hclose hatom _
    obtain ⟨rfl, -⟩ := parseAtom_error hatom
    trivial
  · exact fun _ _ _ => trivial
  · -- the list was not closed, so the quote is read as its next element
    intro fuel res hle
    obtain ⟨fuel, rfl⟩ : ∃ n, fuel = n + 1 := ⟨fuel - 1, by simp at hle; omega⟩
    exact readSeqFrom_error (by decide) (hquote fuel [])
  · exact fun _ _ _ _ => readSeqFrom_close
  · intro fuel res token rest stop hclose _ hP hle
    have hext := hP (by omega)
    rcases stop with e | f
    · by_cases hinc : Incomplete e
      · simp only [Extends, if_pos hinc] at hext ⊢
        exact readSeqFrom_error hclose hext
      · simp only [Extends, if_neg hinc] at hext ⊢
        exact readSeqFrom_error hclose hext
    · trivial
  · -- an element was read to its end: the quote stays behind it
    intro fuel res token rest exp newXs r hclose hparse hP _ hQ hle
    have hlen := ((consumes_reading text fuel).1 _ exp newXs hparse).1
    have hnext : parseFrom text fuel (token :: (rest ++ [['"']])) = .ok (exp, newXs ++ [['"']]) :=
      hP (by omega)
    rw [List.cons_append, readSeqFrom_ok hclose hnext]
    exact hQ (by omega)

/-- Reading tokens with a lone quote behind them. -/
theorem parse_append_quote (text : FloatText F) (tokens : List Str) :
    Extends (parse text tokens) (parse text (tokens ++ [['"']])) := by
  have hext := (reading_append_quote text (2 * (tokens ++ [['"']]).length + 1)).1 tokens
    (by rw [List.length_append, List.length_singleton]; omega)
  rwa [parseFrom_eq_parse (by simp), parseFrom_eq_parse le_rfl] at hext

/-- The source ends in an opening quote, and what comes before is not a complete expression. -/
def QuoteIsRead (text : FloatText F) (s : Str) : Prop :=
  ∃ s' e, s = s' ++ ['"'] ∧ modeAt s' = .code ∧
    parse text (tokenize s') = .error (.err e) ∧ Incomplete e

/-- **When the front end is safe.**  For every source, all slices that `parse_atom` can take
are in range and reading returns an expression or an error, exactly if the source does not end
in an opening quote.  Reading itself goes wrong exactly if it gets to that quote, because what
comes before is not a complete expression. -/
theorem front_end_safe_iff (text : FloatText F) (s : Str) :
    (((∀ f, parse text (tokenize s) ≠ .error (.fault f)) ∧ ∀ t ∈ tokenize s, SliceInRange t) ↔
      ¬ EndsInOpeningQuote s) ∧
    ((∀ f, parse text (tokenize s) ≠ .error (.fault f)) ↔ ¬ QuoteIsRead text s) := by
  refine ⟨?_, ?_, ?_⟩
  · rw [← sliceInRange_tokenize_iff]
    exact ⟨And.right, fun hin => ⟨parse_ne_fault hin, hin⟩⟩
  · rintro hsafe ⟨s', e, rfl, hmode, hparse, hinc⟩
    have hext := parse_append_quote text (tokenize s')
    rw [hparse, ← tokenize_openingQuote hmode] at hext
    simp only [Extends, if_pos hinc] at hext
    exact hsafe .panic hext
  · intro hread
    by_cases hend : EndsInOpeningQuote s
    · obtain ⟨s', rfl, hmode⟩ := hend
      have hin : ∀ t ∈ tokenize s', SliceInRange t := by
        rw [sliceInRange_tokenize_iff]
        rintro ⟨s'', rfl, hmode'⟩
        -- behind another opening quote the last one would end the string
        rw [modeAt, List.foldl_append, ← modeAt, hmode'] at hmode
        exact absurd hmode (by decide)
      have hext := parse_append_quote text (tokenize s')
      rw [← tokenize_openingQuote hmode] at hext
      intro f hfault
      rw [hfault] at hext
      rcases hparse : parse text (tokenize s') with (e | g) | ⟨exp, rest⟩
      · rw [hparse] at hext
        by_cases hinc : Incomplete e
        · exact hread ⟨s', e, rfl, hmode, hparse, hinc⟩
        · simp only [Extends, if_neg hinc] at hext
          exact absurd hext (by simp)
      · exact parse_ne_fault hin g hparse
      · rw [hparse] at hext
        exact absurd hext (by simp [Extends])
    · exact parse_ne_fault ((sliceInRange_tokenize_iff s).mpr hend)

/-- The decimal digits. -/
def digits : List Char := ['0', '1', '2', '3', '4', '5', '6', '7', '8', '9']

/-- Numbers of one decimal digit, to run the reader on concrete sources. -/
def digitText : FloatText (Fin 10) where
  parse s := (List.finRange 10).find? fun n => s = [digits.get n]
  display n := [digits.get n]

/-- **The source that is a single quote** makes the reader panic. -/
theorem front_end_panics : parse digitText (tokenize ['"']) = .error (.fault .panic) := rfl

end SilOS.Risp
