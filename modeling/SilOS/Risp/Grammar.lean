/-
# The grammar of expressions

The reader accepts the bracketed sequences of `Lib.Brackets`, with the tokens `(` and `)` as
brackets and `parse_atom` at the leaves: an expression is read from a list of tokens exactly if
the list begins with a tree, and it is the expression that the tree denotes.

Soundness is by induction on the calls of the reader, completeness by induction on the tree.  That
there is one tree at most is a property of the grammar alone.
-/
import SilOS.Lib.Brackets
import SilOS.Risp.Parse

namespace SilOS.Risp

open Lib

variable {F : Type} {text : FloatText F}

/-- The brackets of the language. -/
def parens : Brackets Str where
  opening := ['(']
  closing := [')']
  opening_ne_closing := by decide

/-- Trees of atom tokens. -/
abbrev TokenTree := Bracketed parens.Atom

mutual

/-- The expression that a tree stands for; the atoms are read by `parse_atom`. -/
def denote (text : FloatText F) : TokenTree → Except Stop (RispExp F)
  | .atom a => parseAtom text a.1
  | .seq trees => (denoteAll text trees).map .list

/-- The expressions that several trees stand for. -/
def denoteAll (text : FloatText F) : List TokenTree → Except Stop (List (RispExp F))
  | [] => .ok []
  | t :: trees => do
      let e ← denote text t
      let es ← denoteAll text trees
      return e :: es

end

lemma denote_atom (text : FloatText F) (a : parens.Atom) :
    denote text (.atom a) = parseAtom text a.1 := by
  rw [denote]

lemma denote_seq_eq_ok {trees : List TokenTree} {e : RispExp F} :
    denote text (.seq trees) = .ok e ↔ ∃ es, denoteAll text trees = .ok es ∧ .list es = e := by
  rw [denote, map_eq_ok]

lemma denoteAll_cons_eq_ok {t : TokenTree} {trees : List TokenTree} {es : List (RispExp F)} :
    denoteAll text (t :: trees) = .ok es ↔
      ∃ e es', denote text t = .ok e ∧ denoteAll text trees = .ok es' ∧ e :: es' = es := by
  rw [denoteAll, bind_eq_ok]
  constructor
  · rintro ⟨e, he, hes⟩
    obtain ⟨es', hes', heq⟩ := bind_eq_ok.mp hes
    exact ⟨e, es', he, hes', Except.ok.inj heq⟩
  · rintro ⟨e, es', he, hes', rfl⟩
    exact ⟨e, he, bind_eq_ok.mpr ⟨es', hes', rfl⟩⟩

/-! ### What is read is a tree -/

/-- The tokens begin with a tree that denotes what was read. -/
def ReadsTree (text : FloatText F) (tokens : List Str) (r : Reading F) : Prop :=
  ∀ e rest, r = .ok (e, rest) →
    ∃ t : TokenTree, tokens = t.flatten parens ++ rest ∧ denote text t = .ok e

/-- The tokens begin with trees and a closing bracket, and the trees denote the elements that were
read behind `res`. -/
def ReadsTrees (text : FloatText F) (res : List (RispExp F)) (tokens : List Str) (r : Reading F) :
    Prop :=
  ∀ e rest, r = .ok (e, rest) → ∃ trees es,
    tokens = flattenAll parens trees ++ [')'] :: rest ∧ denoteAll text trees = .ok es ∧
      e = .list (res ++ es)

lemma readsTree_reading (text : FloatText F) (fuel : ℕ) :
    (∀ tokens, ReadsTree text tokens (parseFrom text fuel tokens)) ∧
      ∀ res tokens, ReadsTrees text res tokens (readSeqFrom text fuel res tokens) := by
  refine reading_induction text (P := fun _ tokens r => ReadsTree text tokens r)
    (Q := fun _ res tokens r => ReadsTrees text res tokens r) ?_ ?_ ?_ ?_ ?_ ?_ ?_ ?_ ?_ ?_ ?_ fuel
  · exact fun _ _ _ h => absurd h (by simp)
  · exact fun _ _ _ h => absurd h (by simp)
  · -- an opening bracket: the trees that are read become one
    intro fuel rest r _ hQ e rest' h
    obtain ⟨trees, es, rfl, hes, rfl⟩ := hQ e rest' h
    refine ⟨.seq trees, ?_, denote_seq_eq_ok.mpr ⟨es, hes, rfl⟩⟩
    rw [Bracketed.flatten_seq_append]
    rfl
  · exact fun _ _ _ _ h => absurd h (by simp)
  · intro fuel token rest atom hopen hclose hatom e rest' h
    simp only [Except.ok.injEq, Prod.mk.injEq] at h
    obtain ⟨rfl, rfl⟩ := h
    let a : parens.Atom := ⟨token, hopen, hclose⟩
    exact ⟨.atom a, (Bracketed.flatten_atom_append a rest).symm, (denote_atom text a).trans hatom⟩
  · exact fun _ _ _ _ _ _ _ _ _ h => absurd h (by simp)
  · exact fun _ _ _ _ h => absurd h (by simp)
  · exact fun _ _ _ _ h => absurd h (by simp)
  · intro fuel res rest e rest' h
    simp only [Except.ok.injEq, Prod.mk.injEq] at h
    obtain ⟨rfl, rfl⟩ := h
    exact ⟨[], [], by simp [flattenAll], by rw [denoteAll], by simp⟩
  · exact fun _ _ _ _ _ _ _ _ _ _ h => absurd h (by simp)
  · -- one more element, then the others
    intro fuel res token rest exp newXs r _ _ hP _ hQ e rest' h
    obtain ⟨t, htokens, ht⟩ := hP exp newXs rfl
    obtain ⟨trees, es, rfl, hes, rfl⟩ := hQ e rest' h
    refine ⟨t :: trees, exp :: es, ?_, denoteAll_cons_eq_ok.mpr ⟨exp, es, ht, hes, rfl⟩, ?_⟩
    · rw [flattenAll_cons_append, htokens]
    · rw [List.append_assoc, List.singleton_append]

/-! ### A tree is read -/

mutual

/-- With enough depth, the tokens of a tree are read, whatever follows them. -/
lemma parseFrom_flatten : ∀ (t : TokenTree) {e : RispExp F}, denote text t = .ok e →
    ∃ n, ∀ fuel ≥ n, ∀ rest, parseFrom text fuel (t.flatten parens ++ rest) = .ok (e, rest)
  | .atom a, e, he => by
      refine ⟨1, fun fuel hfuel rest => ?_⟩
      obtain ⟨fuel, rfl⟩ := Nat.exists_eq_add_of_le' hfuel
      rw [denote_atom] at he
      rw [Bracketed.flatten_atom_append, parseFrom_atom a.2.1 a.2.2 he]
  | .seq trees, e, he => by
      obtain ⟨es, hes, rfl⟩ := denote_seq_eq_ok.mp he
      obtain ⟨n, hn⟩ := readSeqFrom_flattenAll trees hes
      refine ⟨n + 1, fun fuel hfuel rest => ?_⟩
      obtain ⟨m, rfl⟩ := Nat.exists_eq_add_of_le' hfuel
      rw [Bracketed.flatten_seq_append]
      change parseFrom text (m + n + 1) (['('] :: (flattenAll parens trees ++ [')'] :: rest)) = _
      rw [parseFrom_open, hn (m + n) (by omega) [] rest, List.nil_append]

lemma readSeqFrom_flattenAll : ∀ (trees : List TokenTree) {es : List (RispExp F)},
    denoteAll text trees = .ok es → ∃ n, ∀ fuel ≥ n, ∀ res rest,
      readSeqFrom text fuel res (flattenAll parens trees ++ [')'] :: rest) =
        .ok (.list (res ++ es), rest)
  | [], es, hes => by
      refine ⟨1, fun fuel hfuel res rest => ?_⟩
      obtain ⟨fuel, rfl⟩ := Nat.exists_eq_add_of_le' hfuel
      rw [denoteAll, Except.ok.injEq] at hes
      rw [flattenAll, List.nil_append, readSeqFrom_close, ← hes, List.append_nil]
  | t :: trees, es, hes => by
      obtain ⟨e, es', he, hes', rfl⟩ := denoteAll_cons_eq_ok.mp hes
      obtain ⟨n₁, hn₁⟩ := parseFrom_flatten t he
      obtain ⟨n₂, hn₂⟩ := readSeqFrom_flattenAll trees hes'
      refine ⟨max n₁ n₂ + 1, fun fuel hfuel res rest => ?_⟩
      obtain ⟨m, rfl⟩ := Nat.exists_eq_add_of_le' hfuel
      have hread := hn₁ (m + max n₁ n₂) (by omega) (flattenAll parens trees ++ [')'] :: rest)
      obtain ⟨token, tail, hflat, hclose⟩ := t.exists_flatten_eq_cons
      rw [hflat, List.cons_append] at hread
      rw [flattenAll_cons_append, hflat, List.cons_append, ← Nat.add_assoc,
        readSeqFrom_ok hclose hread, hn₂ (m + max n₁ n₂) (by omega),
        List.append_assoc, List.singleton_append]

end

lemma parse_flatten {t : TokenTree} {e : RispExp F} (he : denote text t = .ok e)
    (rest : List Str) : parse text (t.flatten parens ++ rest) = .ok (e, rest) := by
  obtain ⟨n, hn⟩ := parseFrom_flatten t he
  rw [← parseFrom_eq_parse (le_max_right n _)]
  exact hn _ (le_max_left _ _) rest

/-! ### Atoms that are read -/

lemma sliceInRange_of_parseAtom {token : Str}
    (h : parseAtom text token ≠ .error (.fault .panic)) : SliceInRange token := by
  intro hhead hlast hslice
  apply h
  have htrue : token ≠ boolText true := by
    rintro rfl
    exact absurd hhead (by decide)
  have hfalse : token ≠ boolText false := by
    rintro rfl
    exact absurd hhead (by decide)
  rw [parseAtom, if_neg htrue, if_neg hfalse, if_pos ⟨hhead, hlast⟩, hslice]

mutual

/-- A tree of tokens that can be read denotes an expression. -/
lemma exists_denote : ∀ (t : TokenTree),
    (∀ token ∈ t.flatten parens, SliceInRange token) → ∃ e : RispExp F, denote text t = .ok e
  | .atom a, h => by
      rw [denote_atom]
      cases hatom : parseAtom text a.1 with
      | ok e => exact ⟨e, rfl⟩
      | error stop => exact absurd (h a.1 (by simp [Bracketed.flatten])) (parseAtom_error hatom).2
  | .seq trees, h => by
      obtain ⟨es, hes⟩ := exists_denoteAll trees fun token htoken =>
        h token (by simp [Bracketed.flatten, htoken])
      exact ⟨.list es, denote_seq_eq_ok.mpr ⟨es, hes, rfl⟩⟩

lemma exists_denoteAll : ∀ (trees : List TokenTree),
    (∀ token ∈ flattenAll parens trees, SliceInRange token) →
      ∃ es : List (RispExp F), denoteAll text trees = .ok es
  | [], _ => ⟨[], by rw [denoteAll]⟩
  | t :: trees, h => by
      rw [flattenAll] at h
      obtain ⟨e, he⟩ := exists_denote t fun token htoken => h token (by simp [htoken])
      obtain ⟨es, hes⟩ := exists_denoteAll trees fun token htoken => h token (by simp [htoken])
      exact ⟨e :: es, denoteAll_cons_eq_ok.mpr ⟨e, es, he, hes, rfl⟩⟩

end

/-- **The reader accepts the grammar.**  For every list of tokens on none of which `parse_atom`
panics: reading ends, with an expression or an error; it returns an expression and the tokens left
over exactly if the tokens are those of a tree that denotes the expression, followed by the tokens
left over; the tree and what follows it are unique; and without such a tree the result is an
error. -/
theorem parse_eq_ok_iff_tree (text : FloatText F) (tokens : List Str)
    (hatoms : ∀ token ∈ tokens, parseAtom text token ≠ .error (.fault .panic)) :
    (∀ f, parse text tokens ≠ .error (.fault f)) ∧
    (∀ e rest, parse text tokens = .ok (e, rest) ↔
      ∃ t : TokenTree, tokens = t.flatten parens ++ rest ∧ denote text t = .ok e) ∧
    (∀ (t t' : TokenTree) (rest rest' : List Str), tokens = t.flatten parens ++ rest →
      tokens = t'.flatten parens ++ rest' → t = t' ∧ rest = rest') ∧
    ((¬ ∃ (t : TokenTree) (rest : List Str), tokens = t.flatten parens ++ rest) ↔
      ∃ err, parse text tokens = .error (.err err)) := by
  have hin : ∀ token ∈ tokens, SliceInRange token :=
    fun token htoken => sliceInRange_of_parseAtom (hatoms token htoken)
  have hsound : ReadsTree text tokens (parse text tokens) := (readsTree_reading text _).1 tokens
  refine ⟨parse_ne_fault hin, fun e rest => ⟨hsound e rest, ?_⟩, ?_, ?_, ?_⟩
  · rintro ⟨t, rfl, he⟩
    exact parse_flatten he rest
  · rintro t t' rest rest' rfl htokens
    exact t.flatten_inj t' htokens
  · intro hnone
    rcases hparse : parse text tokens with (err | f) | ⟨e, rest⟩
    · exact ⟨err, rfl⟩
    · exact absurd hparse (parse_ne_fault hin f)
    · obtain ⟨t, htokens, -⟩ := hsound e rest hparse
      exact absurd ⟨t, rest, htokens⟩ hnone
  · rintro ⟨err, herr⟩ ⟨t, rest, rfl⟩
    obtain ⟨e, he⟩ : ∃ e, denote text t = .ok e :=
      exists_denote t fun token htoken => hin token (List.mem_append_left _ htoken)
    rw [parse_flatten he rest] at herr
    exact absurd herr (by simp)

/-- The tokens `( 1 ) 2`: the list is read and the second number is left over. -/
theorem parse_eq_ok_iff_tree_list :
    ∃ t : TokenTree, [['('], ['1'], [')'], ['2']] = t.flatten parens ++ [['2']] ∧
      denote digitText t = .ok (.list [.number 1]) := by
  have hatoms : ∀ token ∈ [['('], ['1'], [')'], ['2']],
      parseAtom digitText token ≠ .error (.fault .panic) := by
    -- no token begins with a quote
    intro token htoken hpanic
    refine (parseAtom_error hpanic).2 fun hquote => ?_
    fin_cases htoken <;> exact absurd hquote (by decide)
  exact ((parse_eq_ok_iff_tree digitText _ hatoms).2.1 (.list [.number 1]) [['2']]).mp rfl

end SilOS.Risp
