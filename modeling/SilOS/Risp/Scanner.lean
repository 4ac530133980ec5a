/-
# What the scanner does

The scanner is a fold over the characters of the source.  This file says what it does to each
kind of text it can meet outside strings and comments (words, spaces, parentheses, strings and
comments), which tokens it can emit, and in which mode it ends.
-/
import SilOS.Risp.Reader

namespace SilOS.Risp

open Lib

/-- A character that belongs to a word: no space, parenthesis, quote or comment mark. -/
def Plain (c : Char) : Prop := isWhitespace c = false ∧ c ≠ '(' ∧ c ≠ ')' ∧ c ≠ '#' ∧ c ≠ '"'

/-- A non-empty run of word characters. -/
def Bare (t : Str) : Prop := t ≠ [] ∧ ∀ c ∈ t, Plain c

namespace Scanner

variable {ts : List Str} {cur body w : Str} {c : Char}

/-- The scanner outside strings and comments, with a word begun. -/
def code (ts : List Str) (cur : Str) : Scanner := ⟨ts, cur, false, false⟩

/-- The tokens once the word begun is finished. -/
def finished (ts : List Str) (cur : Str) : List Str := if cur = [] then ts else ts ++ [cur]

@[simp] lemma finished_nil : finished ts [] = ts := if_pos rfl

lemma finished_of_ne (h : cur ≠ []) : finished ts cur = ts ++ [cur] := if_neg h

@[simp] lemma flush_code : (code ts cur).flush = code (finished ts cur) [] := by
  by_cases h : cur = []
  · subst h
    rfl
  · rw [finished_of_ne h]
    simp [flush, code, h]

lemma scan_append (s : Scanner) (a b : Str) : s.scan (a ++ b) = (s.scan a).scan b :=
  List.foldl_append

lemma scan_cons (s : Scanner) (c : Char) (a : Str) : s.scan (c :: a) = (s.step c).scan a := rfl

/-! ### Words, spaces and parentheses -/

lemma step_plain (h : Plain c) : (code ts cur).step c = code ts (cur ++ [c]) := by
  obtain ⟨hspace, hopen, hclose, hhash, hquote⟩ := h
  simp [step, code, hspace, hopen, hclose, hhash, hquote]

lemma scan_word (h : ∀ c ∈ w, Plain c) : (code ts cur).scan w = code ts (cur ++ w) := by
  induction w generalizing cur with
  | nil => simp [scan]
  | cons c w ih =>
      rw [scan_cons, step_plain (h c (by simp)), ih fun x hx => h x (by simp [hx])]
      simp

lemma step_space (h : isWhitespace c = true) :
    (code ts cur).step c = code (finished ts cur) [] := by
  -- none of the special characters is a space
  have hne : ∀ x : Char, isWhitespace x = false → c ≠ x := by
    rintro x hx rfl
    rw [h] at hx
    exact absurd hx (by simp)
  have h1 := hne '#' (by decide)
  have h2 := hne '"' (by decide)
  have h3 := hne '(' (by decide)
  have h4 := hne ')' (by decide)
  rw [← flush_code]
  simp [step, code, h, h1, h2, h3, h4]

lemma step_paren (h : c = '(' ∨ c = ')') :
    (code ts cur).step c = code (finished ts cur ++ [[c]]) [] := by
  have h1 : c ≠ '#' := by rcases h with rfl | rfl <;> decide
  have h2 : c ≠ '"' := by rcases h with rfl | rfl <;> decide
  have hflush : (⟨ts, cur, false, false⟩ : Scanner).flush = code (finished ts cur) [] := flush_code
  simp [step, code, h, h1, h2, hflush]

/-! ### Comments and strings -/

lemma scan_inComment (h : '#' ∉ body) :
    (⟨ts, [], false, true⟩ : Scanner).scan body = ⟨ts, [], false, true⟩ := by
  induction body with
  | nil => rfl
  | cons c body ih =>
      rw [List.mem_cons, not_or] at h
      rw [scan_cons]
      have hstep : (⟨ts, [], false, true⟩ : Scanner).step c = ⟨ts, [], false, true⟩ := by
        simp [step, Ne.symm h.1]
      rw [hstep, ih h.2]

lemma step_hash : (code ts cur).step '#' = ⟨finished ts cur, [], false, true⟩ := by
  have hflush : (⟨ts, cur, false, false⟩ : Scanner).flush = code (finished ts cur) [] := flush_code
  simp [step, code, hflush]

/-- A complete comment ends a word, and nothing else. -/
lemma scan_comment (h : '#' ∉ body) :
    (code ts cur).scan ('#' :: body ++ ['#']) = code (finished ts cur) [] := by
  rw [List.cons_append, scan_cons, step_hash, scan_append, scan_inComment h]
  rfl

lemma scan_inString (h : '"' ∉ body) :
    (⟨ts, cur, true, false⟩ : Scanner).scan body = ⟨ts, cur ++ body, true, false⟩ := by
  induction body generalizing cur with
  | nil => simp [scan]
  | cons c body ih =>
      rw [List.mem_cons, not_or] at h
      rw [scan_cons]
      have hstep : (⟨ts, cur, true, false⟩ : Scanner).step c = ⟨ts, cur ++ [c], true, false⟩ := by
        simp [step, Ne.symm h.1]
      rw [hstep, ih h.2]
      simp

lemma step_quote : (code ts cur).step '"' = ⟨finished ts cur, ['"'], true, false⟩ := by
  have hflush : (⟨ts, cur, false, false⟩ : Scanner).flush = code (finished ts cur) [] := flush_code
  simp [step, code, hflush]

/-- A string is a token of its own. -/
lemma scan_string (h : '"' ∉ body) :
    (code ts cur).scan ('"' :: body ++ ['"']) =
      code (finished ts cur ++ ['"' :: body ++ ['"']]) [] := by
  rw [List.cons_append, scan_cons, step_quote, scan_append, scan_inString h]
  simp [scan, step, code]

/-! ### The tokens that are emitted -/

/-- The three kinds of complete tokens. -/
def IsToken (t : Str) : Prop :=
  Bare t ∨ t = ['('] ∨ t = [')'] ∨ ∃ body, '"' ∉ body ∧ t = '"' :: body ++ ['"']

/-- What the scanner has emitted and what it has begun. -/
structure Sound (s : Scanner) : Prop where
  tokens : ∀ t ∈ s.tokens, IsToken t
  comment : s.inComment = true → s.currentToken = [] ∧ s.inString = false
  string : s.inString = true → ∃ body, '"' ∉ body ∧ s.currentToken = '"' :: body
  word : s.inString = false → ∀ c ∈ s.currentToken, Plain c

lemma sound_start : start.Sound where
  tokens := by simp [start]
  comment := by simp [start]
  string := by simp [start]
  word := by simp [start]

lemma isToken_finished (hts : ∀ t ∈ ts, IsToken t) (hcur : ∀ c ∈ cur, Plain c) :
    ∀ t ∈ finished ts cur, IsToken t := by
  intro t ht
  by_cases hnil : cur = []
  · rw [hnil, finished_nil] at ht
    exact hts t ht
  · rw [finished_of_ne hnil, List.mem_append, List.mem_singleton] at ht
    rcases ht with ht | rfl
    · exact hts t ht
    · exact Or.inl ⟨hnil, hcur⟩

lemma Sound.step_comment {ts : List Str} (h : (⟨ts, [], false, true⟩ : Scanner).Sound) (c : Char) :
    ((⟨ts, [], false, true⟩ : Scanner).step c).Sound := by
  by_cases hc : c = '#'
  · have hstep : (⟨ts, [], false, true⟩ : Scanner).step c = code ts [] := by
      simp [Scanner.step, hc, code]
    rw [hstep]
    exact ⟨h.tokens, by simp [code], by simp [code], by simp [code]⟩
  · have hstep : (⟨ts, [], false, true⟩ : Scanner).step c = ⟨ts, [], false, true⟩ := by
      simp [Scanner.step, hc]
    rwa [hstep]

lemma Sound.step_string {ts : List Str} {body : Str} (hbody : '"' ∉ body)
    (h : (⟨ts, '"' :: body, true, false⟩ : Scanner).Sound) (c : Char) :
    ((⟨ts, '"' :: body, true, false⟩ : Scanner).step c).Sound := by
  by_cases hc : c = '"'
  · have hstep : (⟨ts, '"' :: body, true, false⟩ : Scanner).step c =
        code (ts ++ ['"' :: body ++ ['"']]) [] := by simp [Scanner.step, hc, code]
    rw [hstep]
    refine ⟨?_, by simp [code], by simp [code], by simp [code]⟩
    intro t ht
    rcases List.mem_append.mp ht with ht | ht
    · exact h.tokens t ht
    · exact Or.inr (Or.inr (Or.inr ⟨body, hbody, List.mem_singleton.mp ht⟩))
  · have hstep : (⟨ts, '"' :: body, true, false⟩ : Scanner).step c =
        ⟨ts, '"' :: (body ++ [c]), true, false⟩ := by simp [Scanner.step, hc]
    rw [hstep]
    refine ⟨h.tokens, by simp, ?_, by simp⟩
    intro _
    exact ⟨body ++ [c], by simp [hbody, Ne.symm hc], rfl⟩

lemma Sound.step_code {ts : List Str} {cur : Str} (h : (code ts cur).Sound) (c : Char) :
    ((code ts cur).step c).Sound := by
  have hcur : ∀ x ∈ cur, Plain x := h.word rfl
  have hfin := isToken_finished h.tokens hcur
  -- in the order in which the loop tests the character
  by_cases hhash : c = '#'
  · rw [hhash, step_hash]
    exact ⟨hfin, by simp, by simp, by simp⟩
  by_cases hquote : c = '"'
  · rw [hquote, step_quote]
    exact ⟨hfin, by simp, fun _ => ⟨[], by simp, rfl⟩, by simp⟩
  by_cases hparen : c = '(' ∨ c = ')'
  · rw [step_paren hparen]
    refine ⟨?_, by simp [code], by simp [code], by simp [code]⟩
    intro t ht
    rcases List.mem_append.mp ht with ht | ht
    · exact hfin t ht
    · rw [List.mem_singleton] at ht
      subst ht
      rcases hparen with rfl | rfl
      · exact Or.inr (Or.inl rfl)
      · exact Or.inr (Or.inr (Or.inl rfl))
  by_cases hspace : isWhitespace c = true
  · rw [step_space hspace]
    exact ⟨hfin, by simp [code], by simp [code], by simp [code]⟩
  · have hplain : Plain c :=
      ⟨by simpa using hspace, fun he => hparen (Or.inl he), fun he => hparen (Or.inr he),
        hhash, hquote⟩
    rw [step_plain hplain]
    refine ⟨h.tokens, by simp [code], by simp [code], ?_⟩
    intro _ x hx
    rcases List.mem_append.mp hx with hx | hx
    · exact hcur x hx
    · rwa [List.mem_singleton.mp hx]

/-- One character keeps the scanner sound.  The cases are the modes, and outside strings and
comments the kinds of characters. -/
lemma Sound.step {s : Scanner} (h : s.Sound) (c : Char) : (s.step c).Sound := by
  obtain ⟨ts, cur, inString, inComment⟩ := s
  cases inComment with
  | true =>
      obtain ⟨rfl, rfl⟩ : cur = [] ∧ inString = false := h.comment rfl
      exact h.step_comment c
  | false =>
      cases inString with
      | true =>
          obtain ⟨body, hbody, rfl⟩ : ∃ body, '"' ∉ body ∧ cur = '"' :: body := h.string rfl
          exact Sound.step_string hbody h c
      | false => exact Sound.step_code h c

lemma Sound.scan {s : Scanner} (h : s.Sound) (expr : Str) : (s.scan expr).Sound := by
  induction expr generalizing s with
  | nil => exact h
  | cons c expr ih => exact ih (h.step c)

end Scanner

/-! ### Modes of the source -/

/-- Where a position of the source lies. -/
inductive Mode where
  | code
  | string
  | comment
deriving DecidableEq

/-- A quote begins or ends a string, a `#` begins or ends a comment. -/
def Mode.next : Mode → Char → Mode
  | .code, c => if c = '"' then .string else if c = '#' then .comment else .code
  | .string, c => if c = '"' then .code else .string
  | .comment, c => if c = '#' then .code else .comment

/-- The mode at the end of a source text. -/
def modeAt (s : Str) : Mode := s.foldl Mode.next .code

/-- The text ends in a quote that begins a string. -/
def EndsInOpeningQuote (s : Str) : Prop := ∃ s', s = s' ++ ['"'] ∧ modeAt s' = .code

namespace Scanner

/-- The mode of the scanner. -/
def mode (s : Scanner) : Mode :=
  if s.inComment then .comment else if s.inString then .string else .code

lemma mode_flush (s : Scanner) :
    s.flush.inComment = s.inComment ∧ s.flush.inString = s.inString := by
  by_cases h : s.currentToken = []
  · simp [flush, h]
  · simp [flush, h]

lemma Sound.mode_step {s : Scanner} (h : s.Sound) (c : Char) : (s.step c).mode = s.mode.next c := by
  obtain ⟨h1, h2⟩ := s.mode_flush
  obtain ⟨ts, cur, inString, inComment⟩ := s
  cases inComment with
  | true =>
      have hstring : inString = false := (h.comment rfl).2
      by_cases hc : c = '#' <;> simp [Scanner.step, mode, Mode.next, hc, hstring]
  | false =>
      cases inString with
      | true => by_cases hc : c = '"' <;> simp [Scanner.step, mode, Mode.next, hc]
      | false =>
          simp only at h1 h2
          by_cases hhash : c = '#'
          · simp [Scanner.step, mode, Mode.next, hhash]
          by_cases hquote : c = '"'
          · simp [Scanner.step, mode, Mode.next, hquote, h1]
          by_cases hparen : c = '(' ∨ c = ')'
          · simp [Scanner.step, mode, Mode.next, hhash, hquote, hparen, h1, h2]
          by_cases hspace : isWhitespace c = true
          · simp [Scanner.step, mode, Mode.next, hhash, hquote, hparen, hspace, h1, h2]
          · simp [Scanner.step, mode, Mode.next, hhash, hquote, hparen, hspace]

lemma mode_scan (expr : Str) : (start.scan expr).mode = modeAt expr := by
  induction expr using List.reverseRecOn with
  | nil => rfl
  | append_singleton expr c ih =>
      rw [scan_append, modeAt, List.foldl_append, ← modeAt, ← ih]
      exact (sound_start.scan expr).mode_step c

lemma eq_code_of_mode {s : Scanner} (h : s.mode = .code) : s = code s.tokens s.currentToken := by
  obtain ⟨ts, cur, inString, inComment⟩ := s
  cases inComment with
  | true => exact absurd h (by simp [mode])
  | false =>
      cases inString with
      | true => exact absurd h (by simp [mode])
      | false => rfl

end Scanner

open Scanner

/-- An opening quote at the end is a token of its own. -/
lemma tokenize_openingQuote {s : Str} (h : modeAt s = .code) :
    tokenize (s ++ ['"']) = tokenize s ++ [['"']] := by
  have hcode := eq_code_of_mode (s := start.scan s) (by rw [mode_scan, h])
  rw [tokenize, tokenize, scan_append, hcode]
  change ((code _ _).step '"').flush.tokens = _
  rw [step_quote, flush_code]
  simp [flush, code]

/-- A token that is just a quote was begun by the last character, outside strings and
comments. -/
lemma Scanner.Sound.step_eq_quote {s : Scanner} (h : s.Sound) {c : Char}
    (hmode : (s.step c).mode = .string) (hcur : (s.step c).currentToken = ['"']) :
    s.mode = .code ∧ c = '"' := by
  rw [h.mode_step] at hmode
  cases hm : s.mode with
  | code =>
      rw [hm, Mode.next] at hmode
      split_ifs at hmode with hc
      exact ⟨rfl, hc⟩
  | comment =>
      rw [hm, Mode.next] at hmode
      split_ifs at hmode
  | string =>
      rw [hm, Mode.next] at hmode
      split_ifs at hmode with hc
      -- the string was begun before, so the token has at least two characters
      obtain ⟨ts, cur, inString, inComment⟩ := s
      cases inComment with
      | true => exact absurd hm (by simp [mode])
      | false =>
          cases inString with
          | false => exact absurd hm (by simp [mode])
          | true =>
              obtain ⟨body, -, rfl⟩ : ∃ body, '"' ∉ body ∧ cur = '"' :: body := h.string rfl
              exact absurd hcur (by simp [Scanner.step, hc])

lemma endsInOpeningQuote_of_scan {s : Str} (hmode : (start.scan s).mode = .string)
    (hcur : (start.scan s).currentToken = ['"']) : EndsInOpeningQuote s := by
  rcases List.eq_nil_or_concat' s with rfl | ⟨s', c, rfl⟩
  · exact absurd hmode (by decide)
  · rw [scan_append] at hmode hcur
    obtain ⟨hcode, rfl⟩ := (sound_start.scan s').step_eq_quote hmode hcur
    exact ⟨s', rfl, by rw [← mode_scan, hcode]⟩

/-- The slice that `parse_atom` takes of a quoted token is in range. -/
def SliceInRange (token : Str) : Prop :=
  token.head? = some '"' → token.getLast? = some '"' → unquote token ≠ none

lemma unquote_quoted (body : Str) : unquote ('"' :: body ++ ['"']) = some body := by
  have h := sliceBytes_append ['"'] body ['"']
  have hlen : byteLen ('"' :: body ++ ['"']) - 1 = byteLen (['"'] ++ body) := by
    have hone : ('"' : Char).utf8Size = 1 := rfl
    simp only [List.cons_append, byteLen_cons, byteLen_append, byteLen_nil, List.nil_append, hone]
    omega
  rw [unquote, hlen]
  exact h

lemma unquote_quote : unquote ['"'] = none := sliceBytes_of_lt (by decide)

lemma not_sliceInRange_quote : ¬ SliceInRange ['"'] := fun h => h rfl rfl unquote_quote

lemma Scanner.IsToken.sliceInRange {t : Str} (h : IsToken t) : SliceInRange t := by
  intro hhead hlast
  rcases h with ⟨-, hplain⟩ | rfl | rfl | ⟨body, -, rfl⟩
  · exact absurd rfl (hplain '"' (List.mem_of_mem_head? hhead)).2.2.2.2
  · exact absurd hhead (by decide)
  · exact absurd hhead (by decide)
  · rw [unquote_quoted]
    simp

/-- **The tokens of a source.**  The slice is in range for all tokens unless the source ends in
an opening quote. -/
theorem sliceInRange_tokenize_iff (s : Str) :
    (∀ t ∈ tokenize s, SliceInRange t) ↔ ¬ EndsInOpeningQuote s := by
  constructor
  · rintro h ⟨s', rfl, hmode⟩
    rw [tokenize_openingQuote hmode] at h
    exact not_sliceInRange_quote (h ['"'] (by simp))
  · intro hend t ht
    have hsound := sound_start.scan s
    rw [tokenize, flush] at ht
    split_ifs at ht with hcur
    · exact (hsound.tokens t ht).sliceInRange
    rcases List.mem_append.mp ht with ht | ht
    · exact (hsound.tokens t ht).sliceInRange
    -- the token that the end of the source cuts off
    rw [List.mem_singleton] at ht
    subst ht
    cases hstring : (start.scan s).inString with
    | false => exact IsToken.sliceInRange (Or.inl ⟨hcur, hsound.word hstring⟩)
    | true =>
        obtain ⟨body, hbody, hbegun⟩ := hsound.string hstring
        rw [hbegun]
        intro _ hlast
        rcases List.eq_nil_or_concat' body with rfl | ⟨body', c, rfl⟩
        · refine absurd (endsInOpeningQuote_of_scan ?_ hbegun) hend
          have hcomment : (start.scan s).inComment = false := by
            by_contra hcon
            have := hsound.comment (by simpa using hcon)
            rw [hstring] at this
            exact absurd this.2 (by simp)
          simp [mode, hcomment, hstring]
        · have hc : c = '"' := by simpa [List.getLast?_cons] using hlast
          exact absurd hbody (by simp [hc])

end SilOS.Risp
