/-
# Statements and literals

`interpret` cuts the source at every semicolon, before anything is known of strings and
comments; the scanner of `tokenize` runs on the pieces afterwards.  The pieces are those that the
semicolons outside strings and comments delimit exactly if there is no other semicolon.  That
`Mode` is the mode of the scanner is `Scanner.mode_scan`.
-/
import SilOS.Risp.Interpret

namespace SilOS.Risp

open Lib Comp

/-- The pieces of a source delimited by the semicolons outside strings and comments, where `mode`
is that of `tokenize` at the start of the source. -/
def splitCode : Mode → Str → List Str
  | _, [] => [[]]
  | mode, c :: text =>
      if c = ';' ∧ mode = .code then [] :: splitCode (mode.next c) text
      else (splitCode (mode.next c) text).modifyHead (c :: ·)

/-- The statements of a source as strings and comments delimit them, without the text after the
last semicolon. -/
def codeStatements (code : Str) : List Str := (splitCode .code code).dropLast

/-- Every semicolon lies outside strings and comments, if the text before it is scanned from
`mode`. -/
def SemicolonsInCode (mode : Mode) (text : Str) : Prop :=
  ∀ a b, text = a ++ ';' :: b → a.foldl Mode.next mode = .code

lemma semicolonsInCode_cons {mode : Mode} {c : Char} {text : Str} :
    SemicolonsInCode mode (c :: text) ↔
      (c = ';' → mode = .code) ∧ SemicolonsInCode (mode.next c) text := by
  constructor
  · intro h
    refine ⟨?_, fun a b hab => ?_⟩
    · rintro rfl
      exact h [] text rfl
    · exact h (c :: a) b (by rw [hab, List.cons_append])
  · rintro ⟨hc, htext⟩ a b hab
    cases a with
    | nil =>
        obtain ⟨rfl, -⟩ := List.cons.inj hab
        exact hc rfl
    | cons c' a =>
        obtain ⟨rfl, rfl⟩ := List.cons.inj hab
        exact htext a b rfl

lemma splitOn_cons (c : Char) (text : Str) :
    (c :: text).splitOn ';' =
      if c = ';' then [] :: text.splitOn ';' else (text.splitOn ';').modifyHead (c :: ·) := by
  simp [List.splitOn, List.splitOnP_cons_eq_if_modifyHead]

lemma splitCode_eq_splitOn {mode : Mode} {text : Str} (h : SemicolonsInCode mode text) :
    splitCode mode text = text.splitOn ';' := by
  induction text generalizing mode with
  | nil => simp [splitCode]
  | cons c text ih =>
      obtain ⟨hc, htext⟩ := semicolonsInCode_cons.mp h
      rw [splitCode, splitOn_cons, ih htext]
      by_cases hsemi : c = ';'
      · rw [if_pos ⟨hsemi, hc hsemi⟩, if_pos hsemi]
      · rw [if_neg fun hboth => hsemi hboth.1, if_neg hsemi]

/-- The scanner never sees more pieces. -/
lemma length_splitCode_le (mode : Mode) (text : Str) :
    (splitCode mode text).length ≤ (text.splitOn ';').length := by
  induction text generalizing mode with
  | nil => simp [splitCode]
  | cons c text ih =>
      have hle := ih (mode.next c)
      rw [splitCode, splitOn_cons]
      by_cases hsemi : c = ';'
      · rw [if_pos hsemi]
        split_ifs
        · simpa using hle
        · simp only [List.length_modifyHead, List.length_cons]
          omega
      · rw [if_neg fun hboth => hsemi hboth.1, if_neg hsemi]
        simpa using hle

/-- It sees fewer if a semicolon is in a string or a comment. -/
lemma semicolonsInCode_of_length {mode : Mode} {text : Str}
    (h : (text.splitOn ';').length ≤ (splitCode mode text).length) :
    SemicolonsInCode mode text := by
  induction text generalizing mode with
  | nil =>
      intro a b hab
      exact absurd hab (by simp)
  | cons c text ih =>
      have hle := length_splitCode_le (mode.next c) text
      rw [splitCode, splitOn_cons] at h
      rw [semicolonsInCode_cons]
      by_cases hsemi : c = ';'
      · rw [if_pos hsemi] at h
        split_ifs at h with hboth
        · exact ⟨fun _ => hboth.2, ih (by simpa using h)⟩
        · simp only [List.length_modifyHead, List.length_cons] at h
          omega
      · rw [if_neg hsemi, if_neg fun hboth => hsemi hboth.1] at h
        exact ⟨fun hc => absurd hc hsemi, ih (by simpa using h)⟩

lemma splitCode_ne_nil (mode : Mode) (text : Str) : splitCode mode text ≠ [] := by
  induction text generalizing mode with
  | nil => simp [splitCode]
  | cons c text ih =>
      rw [splitCode]
      split_ifs
      · simp
      · simpa [List.modifyHead_eq_nil_iff] using ih _

section Interpret

variable {F W : Type} (host : Host F W) (fuel : ℕ)

lemma texts_runPrelude (args : List Str) (s : Session F W) :
    ((runPrelude host fuel args).exec s).2.texts = preludeText :: s.texts := by
  have htexts := texts_parseEval host fuel preludeText { s with env := initialEnv host args }
  rw [runPrelude, exec_bind]
  simp only [exec_modify, dropResult, exec_ofRuns]
  split <;> rename_i h <;> rw [h] at htexts <;> exact htexts

/-- Besides its own prelude, a run of `interpret` that comes to its end has evaluated exactly the
statements. -/
lemma texts_interpret {name code : Str} {args : List Str} {s s' : Session F W}
    {r : Except ProcessError Success}
    (h : (interpret host fuel (name :: code :: args)).exec s = (.ok r, s')) :
    s'.texts = (statements code).reverse ++ preludeText :: s.texts := by
  have hprelude := texts_runPrelude host fuel args s
  rw [interpret, exec_bind] at h
  split at h
  · rename_i u s₁ hrun
    rw [hrun] at hprelude
    simp only [runProgram] at h
    split_ifs at h with hnil
    · obtain ⟨-, rfl⟩ := Prod.mk.inj h
      rw [hnil]
      exact hprelude
    · rw [exec_bind] at h
      split at h
      · rename_i loopResult s₂ hloop
        obtain ⟨-, rfl⟩ := Prod.mk.inj h
        rw [texts_of_runStatements host fuel hloop]
        exact congrArg _ hprelude
      · exact absurd h (by simp)
  · exact absurd h (by simp)

/-- The pieces that `interpret` evaluates are those of the source cut at every semicolon; they are
the statements as strings and comments delimit them exactly if no semicolon is in a string or a
comment. -/
theorem interpret_pieces_iff (code : Str) :
    (∀ name args (s s' : Session F W) r,
      (interpret host fuel (name :: code :: args)).exec s = (.ok r, s') →
        s'.texts = (statements code).reverse ++ preludeText :: s.texts) ∧
    (statements code = codeStatements code ↔ SemicolonsInCode .code code) := by
  refine ⟨fun name args s s' r h => texts_interpret host fuel h, fun h => ?_, fun h => ?_⟩
  · apply semicolonsInCode_of_length
    have hlen := congrArg List.length h
    have hsplit := List.length_pos_iff.mpr (List.splitOn_ne_nil ';' code)
    have hcode := List.length_pos_iff.mpr (splitCode_ne_nil .code code)
    simp only [statements, codeStatements, List.length_dropLast] at hlen
    omega
  · rw [statements, codeStatements, splitCode_eq_splitOn h]

end Interpret

/-- The one statement of `x;`. -/
theorem interpret_pieces_symbol :
    ∃ r s', (interpret recorder 20 [[], ['x', ';']]).exec ⟨[], [], [], []⟩ = (.ok r, s') ∧
      s'.texts = [['x'], preludeText] ∧ statements ['x', ';'] = codeStatements ['x', ';'] := by
  obtain ⟨hpieces, hiff⟩ := interpret_pieces_iff recorder 20 ['x', ';']
  refine ⟨_, _, rfl, hpieces [] [] _ _ _ rfl, hiff.mpr ?_⟩
  simp only [semicolonsInCode_cons]
  exact ⟨by decide, by decide, fun a b h => absurd h (by simp)⟩

/-- The semicolon in the string of `(quote "a;b");` cuts the statement.  The interpreter evaluates
both pieces and ends with the error of the second one. -/
theorem statements_cut_string :
    statements ['(', 'q', 'u', 'o', 't', 'e', ' ', '"', 'a', ';', 'b', '"', ')', ';'] =
      [['(', 'q', 'u', 'o', 't', 'e', ' ', '"', 'a'], ['b', '"', ')']] ∧
    codeStatements ['(', 'q', 'u', 'o', 't', 'e', ' ', '"', 'a', ';', 'b', '"', ')', ';'] =
      [['(', 'q', 'u', 'o', 't', 'e', ' ', '"', 'a', ';', 'b', '"', ')']] ∧
    ∃ s', (interpret recorder 20
        [[], ['(', 'q', 'u', 'o', 't', 'e', ' ', '"', 'a', ';', 'b', '"', ')', ';']]).exec
          ⟨[], [], [], []⟩ = (.ok (.error ⟨"unexpected symbol k='b'"⟩), s') ∧
      s'.texts = [['b', '"', ')'], ['(', 'q', 'u', 'o', 't', 'e', ' ', '"', 'a'], preludeText] := by
  exact ⟨by decide, by decide, _, rfl, rfl⟩

end SilOS.Risp
