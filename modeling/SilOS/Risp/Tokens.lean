/-
# What the tokens keep of the source

Scanning neither loses nor invents text.  At every moment the tokens emitted so far and the token
begun hold exactly the characters read so far that belong to the code: those of strings, and
outside strings and comments all but the spaces and the comment marks.
-/
import SilOS.Risp.Scanner

namespace SilOS.Risp

open Lib

/-- A character of the source that is kept: everything in a string, nothing in a comment, and
elsewhere what is neither a space nor the beginning of a comment. -/
def Mode.keeps : Mode → Char → Bool
  | .code, c => c ≠ '#' && !isWhitespace c
  | .string, _ => true
  | .comment, _ => false

/-- The source without its comments and without the spaces outside strings. -/
def stripped : Mode → Str → Str
  | _, [] => []
  | mode, c :: s =>
      if mode.keeps c then c :: stripped (mode.next c) s else stripped (mode.next c) s

namespace Scanner

variable {ts : List Str} {cur : Str} {c : Char}

/-- The text of the tokens emitted and of the token begun. -/
def text (s : Scanner) : Str := s.tokens.flatten ++ s.currentToken

lemma flatten_finished : (finished ts cur).flatten = ts.flatten ++ cur := by
  by_cases h : cur = []
  · rw [h, finished_nil, List.append_nil]
  · rw [finished_of_ne h, List.flatten_append, List.flatten_singleton]

lemma text_flush (s : Scanner) : s.flush.tokens.flatten = s.text := by
  by_cases h : s.currentToken = []
  · simp [flush, text, h]
  · simp [flush, text, h]

lemma text_step_code (c : Char) :
    ((code ts cur).step c).text =
      ts.flatten ++ cur ++ if Mode.keeps .code c then [c] else [] := by
  -- in the order in which the loop tests the character
  by_cases hhash : c = '#'
  · rw [hhash, step_hash]
    simp [text, flatten_finished, Mode.keeps]
  by_cases hquote : c = '"'
  · rw [hquote, step_quote]
    simp [text, flatten_finished, Mode.keeps, (by decide : isWhitespace '"' = false)]
  by_cases hparen : c = '(' ∨ c = ')'
  · have hspace : isWhitespace c = false := by rcases hparen with rfl | rfl <;> decide
    rw [step_paren hparen]
    simp [text, code, flatten_finished, Mode.keeps, hspace, hhash]
  by_cases hspace : isWhitespace c = true
  · rw [step_space hspace]
    simp [text, code, flatten_finished, Mode.keeps, hspace]
  · have hplain : Plain c :=
      ⟨by simpa using hspace, fun he => hparen (Or.inl he), fun he => hparen (Or.inr he),
        hhash, hquote⟩
    rw [step_plain hplain]
    simp [text, code, Mode.keeps, hhash, hspace]

/-- One character: the text grows by the character if it is kept. -/
lemma text_step (s : Scanner) (c : Char) :
    (s.step c).text = s.text ++ if s.mode.keeps c then [c] else [] := by
  obtain ⟨ts, cur, inString, inComment⟩ := s
  cases inComment with
  | true =>
      by_cases hc : c = '#' <;> simp [Scanner.step, text, mode, Mode.keeps, hc]
  | false =>
      cases inString with
      | true => by_cases hc : c = '"' <;> simp [Scanner.step, text, mode, Mode.keeps, hc]
      | false => exact text_step_code c

/-- The whole source. -/
lemma Sound.text_scan {s : Scanner} (h : s.Sound) (expr : Str) :
    (s.scan expr).text = s.text ++ stripped s.mode expr := by
  induction expr generalizing s with
  | nil => simp [Scanner.scan, stripped]
  | cons c expr ih =>
      rw [scan_cons, ih (h.step c), text_step, h.mode_step c, stripped]
      split_ifs with hkeeps <;> simp

end Scanner

open Scanner

/-- **The tokens and the source.**  For every source the tokens, put together, are the source
without its comments and without the spaces outside strings; and the tokens are parentheses,
words, and strings with exactly the two quotes around them, followed at the end at most by a string
that is not terminated. -/
theorem tokenize_keeps_text (s : Str) :
    (tokenize s).flatten = stripped .code s ∧
    ∃ complete last, tokenize s = complete ++ last ∧ (∀ t ∈ complete, IsToken t) ∧
      (last = [] ∨ ∃ body, '"' ∉ body ∧ last = ['"' :: body]) := by
  have hsound := sound_start.scan s
  refine ⟨?_, ?_⟩
  · rw [tokenize, text_flush, sound_start.text_scan]
    rfl
  · cases hstring : (start.scan s).inString with
    | true =>
        obtain ⟨body, hbody, hbegun⟩ := hsound.string hstring
        refine ⟨(start.scan s).tokens, ['"' :: body], ?_, hsound.tokens, Or.inr ⟨body, hbody, rfl⟩⟩
        rw [tokenize, flush, hbegun, if_neg (by simp)]
    | false =>
        refine ⟨tokenize s, [], by simp, fun t ht => ?_, Or.inl rfl⟩
        rw [tokenize, flush] at ht
        split_ifs at ht with hcur
        · exact hsound.tokens t ht
        · rcases List.mem_append.mp ht with ht | ht
          · exact hsound.tokens t ht
          · exact Or.inl (List.mem_singleton.mp ht ▸ ⟨hcur, hsound.word hstring⟩)

end SilOS.Risp
