/-
# Reading undoes writing

An expression has one list of tokens but many texts: `Renders text e s` says that `s` spells the
tokens of `e`, with white space and complete comments between them.  Two words next to each other
need something between them; everything else is optional.  The scanner recovers the tokens from
every such text and the reader recovers the expression from the tokens.

That a float is read back from its own text is assumed of the standard library, together with
the characters that such a text is made of (`FloatText.Faithful`).
-/
import SilOS.Risp.Parse

namespace SilOS.Risp

open Lib Scanner

variable {F : Type} {text : FloatText F}

/-- What is assumed of the floats of the standard library: a float is read back from its text,
which is a decimal number, `inf`, `-inf` or `NaN`. -/
structure FloatText.Faithful (text : FloatText F) : Prop where
  parse_display : ∀ x, text.parse (text.display x) = some x
  display_ne_nil : ∀ x, text.display x ≠ []
  display_chars : ∀ x, ∀ c ∈ text.display x,
    c ∈ ['0', '1', '2', '3', '4', '5', '6', '7', '8', '9', '.', '-', 'i', 'n', 'f', 'N', 'a']

/-- The expressions that can be written: booleans, numbers, strings without quotes, symbols that
are words and read as nothing else, and lists of such expressions. -/
inductive Expressible (text : FloatText F) : RispExp F → Prop
  | bool (b : Bool) : Expressible text (.bool b)
  | number (n : F) : Expressible text (.number n)
  | string {s : Str} (hs : '"' ∉ s) : Expressible text (.string s)
  | symbol {s : Str} (hs : Bare s) (htrue : s ≠ boolText true) (hfalse : s ≠ boolText false)
      (hnum : text.parse s = none) : Expressible text (.symbol s)
  | list {l : List (RispExp F)} (hl : ∀ e ∈ l, Expressible text e) : Expressible text (.list l)

mutual

/-- The tokens of an expression. -/
def spell (text : FloatText F) : RispExp F → List Str
  | .bool b => [boolText b]
  | .number n => [text.display n]
  | .string s => ['"' :: s ++ ['"']]
  | .symbol s => [s]
  | .list l => ['('] :: spellAll text l ++ [[')']]
  | _ => []

/-- The tokens of several expressions, one after the other. -/
def spellAll (text : FloatText F) : List (RispExp F) → List Str
  | [] => []
  | e :: l => spell text e ++ spellAll text l

end

/-- White space and complete comments, in any order. -/
inductive Gap : Str → Prop
  | nil : Gap []
  | space {c : Char} {g : Str} (hc : isWhitespace c = true) (hg : Gap g) : Gap (c :: g)
  | comment {body g : Str} (hbody : '#' ∉ body) (hg : Gap g) : Gap (('#' :: body ++ ['#']) ++ g)

/-- The text consists of the tokens, each followed by a gap, which is not empty between two
words. -/
inductive Spaced : List Str → Str → Prop
  | nil : Spaced [] []
  | cons {t g s : Str} {ts : List Str} (hg : Gap g)
      (hsep : Bare t → (∃ u ∈ ts.head?, Bare u) → g ≠ []) (hs : Spaced ts s) :
      Spaced (t :: ts) (t ++ g ++ s)

/-- The text is a way to write the expression. -/
def Renders (text : FloatText F) (e : RispExp F) (s : Str) : Prop :=
  ∃ g body, Gap g ∧ Spaced (spell text e) body ∧ s = g ++ body

/-! ### The scanner recovers the tokens -/

lemma scan_gap {g : Str} (hg : Gap g) (ts : List Str) :
    (code ts []).scan g = code ts [] := by
  induction hg with
  | nil => rfl
  | space hc _ ih => rw [scan_cons, step_space hc, finished_nil, ih]
  | comment hbody _ ih => rw [scan_append, scan_comment hbody, finished_nil, ih]

/-- A gap that is not empty ends a word. -/
lemma scan_gap_of_ne {g : Str} (hg : Gap g) (hne : g ≠ []) (ts : List Str) (cur : Str) :
    (code ts cur).scan g = code (finished ts cur) [] := by
  cases hg with
  | nil => exact absurd rfl hne
  | space hc hg => rw [scan_cons, step_space hc, scan_gap hg]
  | comment hbody hg => rw [scan_append, scan_comment hbody, scan_gap hg]

/-- A token is scanned from any state in which it does not continue a word. -/
lemma scan_token {t : Str} (ht : IsToken t) (ts : List Str) {cur : Str}
    (hcur : cur = [] ∨ ¬ Bare t) :
    ∃ ts' cur', (code ts cur).scan t = code ts' cur' ∧
      finished ts' cur' = finished ts cur ++ [t] ∧ (cur' = [] ∨ Bare t) := by
  rcases ht with hbare | hopen | hclose | ⟨body, hbody, rfl⟩
  · have hnil : cur = [] := hcur.resolve_right (not_not.mpr hbare)
    subst hnil
    refine ⟨ts, t, ?_, ?_, Or.inr hbare⟩
    · rw [scan_word hbare.2, List.nil_append]
    · rw [finished_of_ne hbare.1, finished_nil]
  · subst hopen
    exact ⟨finished ts cur ++ [['(']], [], step_paren (Or.inl rfl), finished_nil, Or.inl rfl⟩
  · subst hclose
    exact ⟨finished ts cur ++ [[')']], [], step_paren (Or.inr rfl), finished_nil, Or.inl rfl⟩
  · exact ⟨_, [], scan_string hbody, finished_nil, Or.inl rfl⟩

lemma scan_spaced {ts : List Str} {s : Str} (hs : Spaced ts s) (hts : ∀ t ∈ ts, IsToken t)
    (ts₀ : List Str) {cur : Str} (hcur : cur = [] ∨ ∀ t ∈ ts.head?, ¬ Bare t) :
    ∃ ts₁ cur₁, (code ts₀ cur).scan s = code ts₁ cur₁ ∧
      finished ts₁ cur₁ = finished ts₀ cur ++ ts := by
  induction hs generalizing ts₀ cur with
  | nil => exact ⟨ts₀, cur, rfl, by simp⟩
  | @cons t g s ts hg hsep _ ih =>
      have hcur' : cur = [] ∨ ¬ Bare t := hcur.imp id fun h => h t rfl
      obtain ⟨ts', cur', hscan, hfin, hword⟩ :=
        scan_token (hts t (by simp)) ts₀ hcur'
      have hrest := fun u hu => hts u (List.mem_cons_of_mem _ hu)
      rw [scan_append, scan_append, hscan]
      by_cases hnil : g = []
      · -- without a gap, the next token is not a word or this one is not
        have hnext : cur' = [] ∨ ∀ u ∈ ts.head?, ¬ Bare u := by
          refine hword.imp id fun hbare u hu hbare' => ?_
          exact hsep hbare ⟨u, hu, hbare'⟩ hnil
        obtain ⟨ts₁, cur₁, hscan₁, hfin₁⟩ := ih hrest ts' hnext
        refine ⟨ts₁, cur₁, ?_, ?_⟩
        · rw [hnil]
          exact hscan₁
        · rw [hfin₁, hfin, List.append_assoc]
          rfl
      · obtain ⟨ts₁, cur₁, hscan₁, hfin₁⟩ :=
          ih hrest (finished ts' cur') (Or.inl (Eq.refl []))
        refine ⟨ts₁, cur₁, ?_, ?_⟩
        · rw [scan_gap_of_ne hg hnil, hscan₁]
        · rw [hfin₁, finished_nil, hfin, List.append_assoc]
          rfl

/-- **The tokens of a text that spells them.** -/
theorem tokenize_of_spaced {ts : List Str} {g s : Str} (hg : Gap g) (hs : Spaced ts s)
    (hts : ∀ t ∈ ts, IsToken t) : tokenize (g ++ s) = ts := by
  obtain ⟨ts₁, cur₁, hscan, hfin⟩ :=
    scan_spaced hs hts [] (Or.inl (Eq.refl []))
  have hstart : start = code [] [] := rfl
  rw [tokenize, hstart, scan_append, scan_gap hg, hscan, flush_code]
  simpa [code] using hfin

/-! ### The reader recovers the expression -/

lemma bare_display (htext : text.Faithful) (n : F) : Bare (text.display n) := by
  refine ⟨htext.display_ne_nil n, fun c hc => ?_⟩
  have hall : ∀ c ∈ ['0', '1', '2', '3', '4', '5', '6', '7', '8', '9', '.', '-', 'i', 'n', 'f',
      'N', 'a'], Plain c := by simp [Plain, isWhitespace]
  exact hall c (htext.display_chars n c hc)

lemma bare_boolText (b : Bool) : Bare (boolText b) := by
  cases b <;> simp [Bare, boolText, Plain, isWhitespace]

lemma display_ne_boolText (htext : text.Faithful) (n : F) (b : Bool) :
    text.display n ≠ boolText b := by
  intro h
  have hmem : 'e' ∈ text.display n := by
    rw [h]
    cases b <;> decide
  exact absurd (htext.display_chars n 'e' hmem) (by decide)

/-- A word does not begin with a quote. -/
lemma head_ne_quote {t : Str} (h : Bare t) : t.head? ≠ some '"' :=
  fun hhead => (h.2 '"' (List.mem_of_mem_head? hhead)).2.2.2.2 rfl

lemma bare_ne_paren {t : Str} (h : Bare t) : t ≠ ['('] ∧ t ≠ [')'] := by
  refine ⟨?_, ?_⟩
  · rintro rfl
    exact (h.2 '(' (by simp)).2.1 rfl
  · rintro rfl
    exact (h.2 ')' (by simp)).2.2.1 rfl

lemma parseAtom_number {t : Str} {v : F} (h : Bare t) (htrue : t ≠ boolText true)
    (hfalse : t ≠ boolText false) (hnum : text.parse t = some v) :
    parseAtom text t = .ok (.number v) := by
  rw [parseAtom, if_neg htrue, if_neg hfalse, if_neg fun hq => head_ne_quote h hq.1, hnum]

lemma parseAtom_symbol {t : Str} (h : Bare t) (htrue : t ≠ boolText true)
    (hfalse : t ≠ boolText false) (hnum : text.parse t = none) :
    parseAtom text t = .ok (.symbol t) := by
  rw [parseAtom, if_neg htrue, if_neg hfalse, if_neg fun hq => head_ne_quote h hq.1, hnum]

/-- An atom: a single token, which is not a parenthesis and reads as the expression. -/
lemma parseFrom_spell_atom {e : RispExp F} {t : Str} (hspell : spell text e = [t])
    (hparen : t ≠ ['('] ∧ t ≠ [')']) (hatom : parseAtom text t = .ok e) {fuel : ℕ}
    (hfuel : 2 * (spell text e).length ≤ fuel) (rest : List Str) :
    parseFrom text fuel (spell text e ++ rest) = .ok (e, rest) := by
  rw [hspell] at hfuel ⊢
  obtain ⟨fuel, rfl⟩ : ∃ n, fuel = n + 1 := ⟨fuel - 1, by simp at hfuel; omega⟩
  exact parseFrom_atom hparen.1 hparen.2 hatom

/-- The tokens of an expression begin with one that does not close a list. -/
lemma spell_eq_cons (htext : text.Faithful) {e : RispExp F} (he : Expressible text e) :
    ∃ t ts, spell text e = t :: ts ∧ t ≠ [')'] := by
  cases he with
  | bool b => exact ⟨_, _, rfl, (bare_ne_paren (bare_boolText b)).2⟩
  | number n => exact ⟨_, _, rfl, (bare_ne_paren (bare_display htext n)).2⟩
  | string hs => exact ⟨_, _, rfl, by simp⟩
  | symbol hs _ _ _ => exact ⟨_, _, rfl, (bare_ne_paren hs).2⟩
  | list hl => exact ⟨_, _, rfl, by decide⟩

/-- The elements of a list are read one after the other, up to the closing parenthesis. -/
lemma readSeqFrom_spellAll (htext : text.Faithful) {l : List (RispExp F)}
    (hl : ∀ e ∈ l, Expressible text e)
    (hparse : ∀ e ∈ l, ∀ fuel rest, 2 * (spell text e).length ≤ fuel →
      parseFrom text fuel (spell text e ++ rest) = .ok (e, rest))
    (fuel : ℕ) (hfuel : 2 * (spellAll text l).length + 2 ≤ fuel) (res : List (RispExp F))
    (rest : List Str) :
    readSeqFrom text fuel res (spellAll text l ++ [')'] :: rest)
      = .ok (.list (res ++ l), rest) := by
  induction l generalizing fuel res with
  | nil =>
      obtain ⟨fuel, rfl⟩ : ∃ n, fuel = n + 1 := ⟨fuel - 1, by omega⟩
      rw [spellAll, List.nil_append, readSeqFrom_close, List.append_nil]
  | cons e l ih =>
      obtain ⟨fuel, rfl⟩ : ∃ n, fuel = n + 1 := ⟨fuel - 1, by omega⟩
      obtain ⟨t, ts, hspell, hclose⟩ := spell_eq_cons htext (hl e (by simp))
      rw [spellAll, List.length_append, hspell, List.length_cons] at hfuel
      have hfirst := hparse e (by simp) fuel (spellAll text l ++ [')'] :: rest)
        (by rw [hspell, List.length_cons]; omega)
      have hnext := ih (fun x hx => hl x (by simp [hx])) (fun x hx => hparse x (by simp [hx]))
        fuel (by omega) (res ++ [e])
      rw [hspell, List.cons_append] at hfirst
      rw [spellAll, hspell, List.append_assoc, List.cons_append, readSeqFrom_ok hclose hfirst,
        hnext, List.append_assoc]
      rfl

/-- Reading the tokens of an expression.  The induction is on the expression; a list hands its
elements to the loop of `read_seq`. -/
lemma parseFrom_spell (htext : text.Faithful) {e : RispExp F} (he : Expressible text e)
    (fuel : ℕ) (rest : List Str) (hfuel : 2 * (spell text e).length ≤ fuel) :
    parseFrom text fuel (spell text e ++ rest) = .ok (e, rest) := by
  induction he generalizing fuel rest with
  | bool b =>
      refine parseFrom_spell_atom rfl (bare_ne_paren (bare_boolText b)) ?_ hfuel rest
      cases b <;> rfl
  | number n =>
      refine parseFrom_spell_atom rfl (bare_ne_paren (bare_display htext n)) ?_ hfuel rest
      exact parseAtom_number (bare_display htext n) (display_ne_boolText htext n true)
        (display_ne_boolText htext n false) (htext.parse_display n)
  | @string s hs =>
      exact parseFrom_spell_atom rfl ⟨by simp, by simp⟩ (parseAtom_string s) hfuel rest
  | @symbol s hs htrue hfalse hnum =>
      exact parseFrom_spell_atom rfl (bare_ne_paren hs) (parseAtom_symbol hs htrue hfalse hnum)
        hfuel rest
  | @list l hl ih =>
      rw [spell, List.length_append, List.length_cons, List.length_singleton] at hfuel
      obtain ⟨fuel, rfl⟩ : ∃ n, fuel = n + 1 := ⟨fuel - 1, by omega⟩
      have hseq := readSeqFrom_spellAll htext hl ih
        fuel (by omega) [] rest
      rw [spell, List.cons_append, List.cons_append, List.append_assoc, parseFrom_open]
      exact hseq

/-- All tokens of an expression are tokens of the scanner. -/
lemma isToken_spell (htext : text.Faithful) {e : RispExp F} (he : Expressible text e) :
    ∀ t ∈ spell text e, IsToken t := by
  induction he with
  | bool b =>
      intro t ht
      rw [List.mem_singleton.mp ht]
      exact Or.inl (bare_boolText b)
  | number n =>
      intro t ht
      rw [List.mem_singleton.mp ht]
      exact Or.inl (bare_display htext n)
  | @string s hs =>
      intro t ht
      rw [List.mem_singleton.mp ht]
      exact Or.inr (Or.inr (Or.inr ⟨s, hs, rfl⟩))
  | symbol hs _ _ _ =>
      intro t ht
      rw [List.mem_singleton.mp ht]
      exact Or.inl hs
  | @list l hl ih =>
      have hall : ∀ t ∈ spellAll text l, IsToken t := by
        clear hl
        induction l with
        | nil => simp [spellAll]
        | cons e l ihl =>
            intro t ht
            rw [spellAll, List.mem_append] at ht
            rcases ht with ht | ht
            · exact ih e (by simp) t ht
            · exact ihl (fun x hx => ih x (by simp [hx])) t ht
      intro t ht
      rw [spell, List.cons_append, List.mem_cons, List.mem_append, List.mem_singleton] at ht
      rcases ht with rfl | ht | rfl
      · exact Or.inr (Or.inl rfl)
      · exact hall t ht
      · exact Or.inr (Or.inr (Or.inl rfl))

/-- Reading any text of an expression. -/
lemma parse_of_spaced (htext : text.Faithful) {e : RispExp F} (he : Expressible text e)
    {g body : Str} (hg : Gap g) (hbody : Spaced (spell text e) body) :
    parse text (tokenize (g ++ body)) = .ok (e, []) := by
  have hparse := parseFrom_spell htext he (2 * (spell text e).length + 1) [] (by omega)
  rw [List.append_nil] at hparse
  rw [tokenize_of_spaced hg hbody (isToken_spell htext he)]
  exact hparse

/-- **Reading undoes writing**, for every expression that can be written and every way to write
it. -/
theorem parse_tokenize_of_renders (htext : text.Faithful) {e : RispExp F}
    (he : Expressible text e) {s : Str} (hs : Renders text e s) :
    parse text (tokenize s) = .ok (e, []) := by
  obtain ⟨g, body, hg, hbody, rfl⟩ := hs
  exact parse_of_spaced htext he hg hbody

lemma digitText_faithful : digitText.Faithful where
  parse_display := by decide
  display_ne_nil := by simp [digitText]
  display_chars := by
    intro x c hc
    rw [List.mem_singleton.mp hc]
    exact List.mem_append_left _ (List.get_mem digits x)

/-- The text `( a#c#7"x" )`, with a comment between two words and nothing before a string. -/
theorem parse_tokenize_example :
    parse digitText (tokenize ['(', ' ', 'a', '#', 'c', '#', '7', '"', 'x', '"', ' ', ')']) =
      .ok (.list [.symbol ['a'], .number 7, .string ['x']], []) := by
  refine parse_tokenize_of_renders digitText_faithful ?_ ?_
  · refine .list ?_
    intro e he
    simp only [List.mem_cons, List.not_mem_nil, or_false] at he
    rcases he with rfl | rfl | rfl
    · exact .symbol (by simp [Bare, Plain, isWhitespace]) (by decide) (by decide) (by decide)
    · exact .number 7
    · exact .string (by decide)
  · have hspace : Gap [' '] := .space rfl .nil
    have hcomment : Gap (('#' :: ['c'] ++ ['#']) ++ []) := .comment (by decide) .nil
    refine ⟨[], _, .nil, ?_, rfl⟩
    refine .cons (t := ['(']) hspace (fun _ _ => by simp) ?_
    refine .cons (t := ['a']) hcomment (fun _ _ => by simp) ?_
    refine .cons (t := ['7']) .nil ?_ ?_
    · rintro - ⟨u, hu, hbare⟩
      obtain rfl : ['"', 'x', '"'] = u := by simpa [spell, spellAll] using hu
      exact absurd rfl (head_ne_quote hbare)
    refine .cons (t := ['"', 'x', '"']) hspace (fun _ _ => by simp) ?_
    exact .cons (t := [')']) (s := []) .nil (fun _ h => absurd h (by simp)) .nil

/-! ### Printed expressions -/

lemma Gap.append {g g' : Str} (hg : Gap g) (hg' : Gap g') : Gap (g ++ g') := by
  induction hg with
  | nil => exact hg'
  | space hc _ ih => exact .space hc ih
  | comment hbody _ ih =>
      rw [List.append_assoc]
      exact .comment hbody ih

/-- Two texts with a gap between them. -/
lemma Spaced.append_gap {ts ts' : List Str} {s s' g : Str} (hs : Spaced ts s) (hne : ts ≠ [])
    (hg : Gap g) (hgap : g ≠ []) (hs' : Spaced ts' s') : Spaced (ts ++ ts') (s ++ g ++ s') := by
  induction hs with
  | nil => exact absurd rfl hne
  | @cons t g₀ s ts hg₀ hsep hs ih =>
      cases hs with
      | nil =>
          rw [List.append_nil, List.append_assoc t g₀ g]
          refine .cons (hg₀.append hg) (fun _ _ hnil => ?_) hs'
          exact hgap (List.append_eq_nil_iff.mp hnil).2
      | cons hg₁ hsep₁ hs₁ =>
          have hrest := ih (by simp)
          rw [List.append_assoc, List.append_assoc, ← List.append_assoc _ g s']
          exact .cons hg₀ hsep hrest

/-- Two texts of which the second does not begin with a word. -/
lemma Spaced.append {ts ts' : List Str} {s s' : Str} (hs : Spaced ts s) (hs' : Spaced ts' s')
    (hword : ∀ u ∈ ts'.head?, ¬ Bare u) : Spaced (ts ++ ts') (s ++ s') := by
  induction hs with
  | nil => exact hs'
  | @cons t g s ts hg hsep hs ih =>
      rw [List.append_assoc]
      refine .cons hg (fun hbare hnext => ?_) ih
      cases ts with
      | nil =>
          obtain ⟨u, hu, hbare'⟩ := hnext
          exact absurd hbare' (hword u hu)
      | cons t' ts => exact hsep hbare hnext

/-- The expressions without strings, whose quotes are not printed. -/
inductive Printable (text : FloatText F) : RispExp F → Prop
  | bool (b : Bool) : Printable text (.bool b)
  | number (n : F) : Printable text (.number n)
  | symbol {s : Str} (hs : Bare s) (htrue : s ≠ boolText true) (hfalse : s ≠ boolText false)
      (hnum : text.parse s = none) : Printable text (.symbol s)
  | list {l : List (RispExp F)} (hl : ∀ e ∈ l, Printable text e) : Printable text (.list l)

lemma Printable.expressible {e : RispExp F} (h : Printable text e) : Expressible text e := by
  induction h with
  | bool b => exact .bool b
  | number n => exact .number n
  | symbol hs htrue hfalse hnum => exact .symbol hs htrue hfalse hnum
  | list _ ih => exact .list ih

lemma spaced_singleton (t : Str) : Spaced [t] t := by
  have h := Spaced.cons (t := t) Gap.nil (fun _ h => absurd h (by simp)) Spaced.nil
  simpa using h

/-- The printed elements of a list, with single spaces between them. -/
lemma spaced_displayAll (htext : text.Faithful) {l : List (RispExp F)}
    (hl : ∀ e ∈ l, Printable text e)
    (hdisplay : ∀ e ∈ l, Spaced (spell text e) (e.display text)) :
    Spaced (spellAll text l) (List.intercalate [' '] (displayAll text l)) := by
  induction l with
  | nil => exact .nil
  | cons e l ih =>
      have hrest := ih (fun x hx => hl x (by simp [hx])) (fun x hx => hdisplay x (by simp [hx]))
      have hfirst := hdisplay e (by simp)
      cases l with
      | nil => simpa [spellAll, displayAll, List.intercalate] using hfirst
      | cons e' l =>
          obtain ⟨t, ts, hspell, -⟩ := spell_eq_cons htext (hl e (by simp)).expressible
          have h := hfirst.append_gap (by rw [hspell]; simp) (.space rfl .nil : Gap [' '])
            (by simp) hrest
          simpa [spellAll, displayAll, List.intercalate] using h

/-- A printed expression spells its tokens. -/
lemma spaced_display (htext : text.Faithful) {e : RispExp F} (he : Printable text e) :
    Spaced (spell text e) (e.display text) := by
  induction he with
  | bool b =>
      rw [spell, RispExp.display]
      exact spaced_singleton _
  | number n =>
      rw [spell, RispExp.display]
      exact spaced_singleton _
  | symbol hs _ _ _ =>
      rw [spell, RispExp.display]
      exact spaced_singleton _
  | @list l hl ih =>
      have hclose : ∀ u ∈ [[')']].head?, ¬ Bare u := by
        intro u hu hbare
        obtain rfl : [')'] = u := by simpa using hu
        exact (bare_ne_paren hbare).2 rfl
      have hopen : ¬ Bare ['('] := fun hbare => (bare_ne_paren hbare).1 rfl
      have hlist := Spaced.cons (t := ['(']) .nil (fun hbare => absurd hbare hopen)
        ((spaced_displayAll htext hl ih).append (spaced_singleton [')']) hclose)
      rw [spell, RispExp.display, List.cons_append, List.cons_append]
      exact hlist

/-- **Printing and reading.**  What `Display` prints for an expression without strings reads as
the same expression. -/
theorem parse_display (htext : text.Faithful) {e : RispExp F} (he : Printable text e) :
    parse text (tokenize (e.display text)) = .ok (e, []) :=
  parse_of_spaced htext he.expressible .nil (spaced_display htext he)

end SilOS.Risp
