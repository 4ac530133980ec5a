/-
# What a statement evaluates of its text

`parse_eval` reads one expression from the tokens of a statement and evaluates it; what `parse`
returns of the tokens behind the expression is dropped.  So a statement is evaluated as if it were
its first expression alone, whatever follows: a further expression or a bracket too many goes
without a message, unless the first expression fails by itself.
-/
import SilOS.Risp.Grammar
import SilOS.Risp.Interpret
import SilOS.Risp.Tokens

namespace SilOS.Risp

open Lib Comp

section Whole

variable {F W : Type} (host : Host F W) (fuel : ℕ)

/-- A tree that other tokens follow does not contain the token that the end of the source cuts
off. -/
lemma exists_denote_of_rest (text : FloatText F) {source : Str} {t : TokenTree} {rest : List Str}
    (h : tokenize source = t.flatten parens ++ rest) (hrest : rest ≠ []) :
    ∃ e : RispExp F, denote text t = .ok e := by
  obtain ⟨complete, last, htokens, hcomplete, hlast⟩ := (tokenize_keeps_text source).2
  refine exists_denote t fun token htoken => ?_
  have hshort : last.length ≤ rest.length := by
    have hpos : 0 < rest.length := List.length_pos_iff.mpr hrest
    rcases hlast with rfl | ⟨body, -, rfl⟩
    · exact hpos.le
    · exact hpos
  -- the tokens of the tree lie within the complete ones
  rw [htokens] at h
  obtain ⟨more, rfl, -⟩ : ∃ more, complete = t.flatten parens ++ more ∧ rest = more ++ last := by
    rcases List.append_eq_append_iff.mp h with ⟨more, htree, hmore⟩ | ⟨more, htree, hmore⟩
    · have hnil : more = [] := by
        rw [hmore, List.length_append] at hshort
        exact List.length_eq_zero_iff.mp (by omega)
      subst hnil
      exact ⟨[], by simpa using htree.symm, by simpa using hmore.symm⟩
    · exact ⟨more, htree, hmore⟩
  exact (hcomplete token (List.mem_append_left _ htoken)).sliceInRange

/-- The statement is evaluated as its first expression. -/
lemma exec_parseEval_of_tree {text : Str} {t : TokenTree} {rest : List Str} {e : RispExp F}
    (h : tokenize text = t.flatten parens ++ rest)
    (he : denote host.ops.toFloatText t = .ok e) (s : Session F W) :
    (parseEval host fuel text).exec s =
      (eval host fuel e).exec { s with texts := text :: s.texts } := by
  rw [parseEval, exec_bind, h, parse_flatten he rest]
  rfl

lemma exists_tree_of_parseEval {text : Str} {s s' : Session F W} {v : RispExp F}
    (h : (parseEval host fuel text).exec s = (.ok v, s')) :
    ∃ (t : TokenTree) (e : RispExp F) (rest : List Str),
      tokenize text = t.flatten parens ++ rest ∧ denote host.ops.toFloatText t = .ok e := by
  rw [parseEval, exec_bind] at h
  rcases hparse : parse host.ops.toFloatText (tokenize text) with stop | ⟨e, rest⟩
  · rw [hparse] at h
    exact absurd (Prod.mk.inj h).1 (by simp)
  · obtain ⟨t, htokens, ht⟩ := (readsTree_reading host.ops.toFloatText _).1 _ e rest hparse
    exact ⟨t, e, rest, htokens, ht⟩

/-- **No code is skipped in a statement** exactly if nothing follows its first expression, or that
fails: for every text and every state, a statement that returns a value has exactly the tokens of
one expression, and one that has more returns an error, if and only if the first expression of a
text with more tokens returns an error when it is evaluated alone. -/
theorem parseEval_skips_nothing_iff (text : Str) (s : Session F W) :
    ((∀ v s', (parseEval host fuel text).exec s = (.ok v, s') →
        ∃ t : TokenTree, tokenize text = t.flatten parens) ∧
      ∀ (t : TokenTree) (rest : List Str), tokenize text = t.flatten parens ++ rest → rest ≠ [] →
        ∃ err s', (parseEval host fuel text).exec s = (.error (.err err), s')) ↔
    ∀ (t : TokenTree) (rest : List Str) (e : RispExp F),
      tokenize text = t.flatten parens ++ rest → rest ≠ [] →
      denote host.ops.toFloatText t = .ok e →
      ∃ err s', (eval host fuel e).exec { s with texts := text :: s.texts } =
        (.error (.err err), s') := by
  constructor
  · rintro ⟨-, hmore⟩ t rest e htokens hrest he
    rw [← exec_parseEval_of_tree host fuel htokens he]
    exact hmore t rest htokens hrest
  · intro hfails
    refine ⟨fun v s' hok => ?_, fun t rest htokens hrest => ?_⟩
    · obtain ⟨t, e, rest, htokens, he⟩ := exists_tree_of_parseEval host fuel hok
      by_cases hrest : rest = []
      · exact ⟨t, by rw [htokens, hrest, List.append_nil]⟩
      · obtain ⟨err, s₁, herr⟩ := hfails t rest e htokens hrest he
        rw [exec_parseEval_of_tree host fuel htokens he, herr] at hok
        exact absurd (Prod.mk.inj hok).1 (by simp)
    · obtain ⟨e, he⟩ := exists_denote_of_rest host.ops.toFloatText htokens hrest
      rw [exec_parseEval_of_tree host fuel htokens he]
      exact hfails t rest e htokens hrest he

end Whole

/-- `1 2` returns `1`, although it is not one expression. -/
theorem parseEval_skips_second_expression :
    ((parseEval recorder 1 ['1', ' ', '2']).exec ⟨[], [], [], []⟩).1 = .ok (.number 1) ∧
    ¬ ∃ t : TokenTree, tokenize ['1', ' ', '2'] = t.flatten parens := by
  refine ⟨rfl, ?_⟩
  rintro ⟨t, ht⟩
  let one : parens.Atom := ⟨['1'], by decide, by decide⟩
  have hone : tokenize ['1', ' ', '2'] = (Bracketed.atom one).flatten parens ++ [['2']] := by
    rw [Bracketed.flatten_atom_append]
    decide
  rw [hone, ← List.append_nil (t.flatten parens)] at ht
  exact absurd (Bracketed.flatten_inj _ t ht).2 (by decide)

end SilOS.Risp
