/-
# Bracketed sequences

Trees whose leaves are tokens and whose inner nodes are sequences, written down as lists of
tokens with a pair of brackets around each sequence.  A list of tokens begins with at most one
tree: neither the tree nor what is left over behind it can be chosen (`Bracketed.flatten_inj`).
-/
import Mathlib

namespace Lib

universe u v

/-- A pair of brackets among the tokens `α`. -/
structure Brackets (α : Type u) where
  opening : α
  closing : α
  opening_ne_closing : opening ≠ closing

/-- A token that is not a bracket. -/
def Brackets.Atom {α : Type u} (B : Brackets α) : Type u :=
  { a : α // a ≠ B.opening ∧ a ≠ B.closing }

/-- Trees with leaves in `β`. -/
inductive Bracketed (β : Type v) where
  | atom (a : β)
  | seq (trees : List (Bracketed β))

variable {α : Type u} {B : Brackets α}

mutual

/-- The tokens of a tree. -/
def Bracketed.flatten (B : Brackets α) : Bracketed B.Atom → List α
  | .atom a => [a.1]
  | .seq trees => B.opening :: (flattenAll B trees ++ [B.closing])

/-- The tokens of several trees, one after the other. -/
def flattenAll (B : Brackets α) : List (Bracketed B.Atom) → List α
  | [] => []
  | t :: trees => t.flatten B ++ flattenAll B trees

end

lemma Bracketed.flatten_atom_append (a : B.Atom) (rest : List α) :
    (Bracketed.atom a).flatten B ++ rest = a.1 :: rest := by
  simp [Bracketed.flatten]

lemma Bracketed.flatten_seq_append (trees : List (Bracketed B.Atom)) (rest : List α) :
    (Bracketed.seq trees).flatten B ++ rest =
      B.opening :: (flattenAll B trees ++ B.closing :: rest) := by
  simp [Bracketed.flatten]

lemma flattenAll_cons_append (t : Bracketed B.Atom) (trees : List (Bracketed B.Atom))
    (rest : List α) :
    flattenAll B (t :: trees) ++ rest = t.flatten B ++ (flattenAll B trees ++ rest) := by
  simp [flattenAll]

/-- The tokens of a tree do not begin with a closing bracket. -/
lemma Bracketed.exists_flatten_eq_cons (t : Bracketed B.Atom) :
    ∃ a l, t.flatten B = a :: l ∧ a ≠ B.closing := by
  cases t with
  | atom a => exact ⟨a.1, [], by rw [Bracketed.flatten], a.2.2⟩
  | seq trees => exact ⟨B.opening, _, by rw [Bracketed.flatten], B.opening_ne_closing⟩

lemma Bracketed.flatten_append_ne_closing (t : Bracketed B.Atom) (l rest : List α) :
    t.flatten B ++ l ≠ B.closing :: rest := by
  obtain ⟨a, l', hl', ha⟩ := t.exists_flatten_eq_cons
  rw [hl', List.cons_append]
  intro h
  exact ha (List.cons.inj h).1

mutual

/-- **Unique readability.**  A list of tokens begins with at most one tree. -/
theorem Bracketed.flatten_inj : ∀ (t t' : Bracketed B.Atom) {rest rest' : List α},
    t.flatten B ++ rest = t'.flatten B ++ rest' → t = t' ∧ rest = rest'
  | .atom a, .atom a', rest, rest', h => by
      rw [Bracketed.flatten_atom_append, Bracketed.flatten_atom_append, List.cons.injEq] at h
      exact ⟨by rw [Subtype.ext h.1], h.2⟩
  | .atom a, .seq trees', rest, rest', h => by
      rw [Bracketed.flatten_atom_append, Bracketed.flatten_seq_append, List.cons.injEq] at h
      exact absurd h.1 a.2.1
  | .seq trees, .atom a', rest, rest', h => by
      rw [Bracketed.flatten_atom_append, Bracketed.flatten_seq_append, List.cons.injEq] at h
      exact absurd h.1.symm a'.2.1
  | .seq trees, .seq trees', rest, rest', h => by
      rw [Bracketed.flatten_seq_append, Bracketed.flatten_seq_append, List.cons.injEq] at h
      obtain ⟨rfl, hrest⟩ := flattenAll_inj trees trees' h.2
      exact ⟨rfl, hrest⟩

/-- The trees in front of a closing bracket. -/
theorem flattenAll_inj : ∀ (trees trees' : List (Bracketed B.Atom)) {rest rest' : List α},
    flattenAll B trees ++ B.closing :: rest = flattenAll B trees' ++ B.closing :: rest' →
      trees = trees' ∧ rest = rest'
  | [], [], rest, rest', h => ⟨rfl, (List.cons.inj h).2⟩
  | [], t' :: trees', rest, rest', h => by
      rw [flattenAll_cons_append] at h
      exact absurd h.symm (t'.flatten_append_ne_closing _ _)
  | t :: trees, [], rest, rest', h => by
      rw [flattenAll_cons_append] at h
      exact absurd h (t.flatten_append_ne_closing _ _)
  | t :: trees, t' :: trees', rest, rest', h => by
      rw [flattenAll_cons_append, flattenAll_cons_append] at h
      obtain ⟨rfl, htail⟩ := Bracketed.flatten_inj t t' h
      obtain ⟨rfl, hrest⟩ := flattenAll_inj trees trees' htail
      exact ⟨rfl, hrest⟩

end

end Lib
