/-
# Values that differ in hidden names only

Two values are alike if they are built in the same way, and the environments that their lambdas
have captured agree on the names that are shown.  What a lambda with a `sys` form as its body has
captured does not count: its body is a system call whatever it sees.  The built-in functions and
the printer do not tell values apart that are alike.
-/
import SilOS.Lib.Coupling
import SilOS.Risp.Discipline

namespace SilOS.Risp

open Lib

section Alike

variable {F : Type}

/-- A `sys` form. -/
def RispExp.isSys : RispExp F → Bool
  | .list (first :: _) => Form.ofFirst first = some .sysForm
  | _ => false

/-- The two values differ at most in names that are not shown. -/
inductive Alike (shown : Str → Bool) : RispExp F → RispExp F → Prop
  | bool (b : Bool) : Alike shown (.bool b) (.bool b)
  | symbol (s : Str) : Alike shown (.symbol s) (.symbol s)
  | number (n : F) : Alike shown (.number n) (.number n)
  | string (s : Str) : Alike shown (.string s) (.string s)
  | func (name : Str) : Alike shown (.func name) (.func name)
  | syscall (cmd : List Str) : Alike shown (.syscall cmd) (.syscall cmd)
  | list {l l' : List (RispExp F)} (h : List.Forall₂ (Alike shown) l l') :
      Alike shown (.list l) (.list l')
  | map {m m' : Entries F} (h : Assoc.Rel (Alike shown) m m') : Alike shown (.map m) (.map m')
  | lambda {paramsExp bodyExp : RispExp F} {capturedEnv capturedEnv' : Env F}
      (h : Assoc.Rel (Alike shown) (Assoc.restrict shown capturedEnv)
        (Assoc.restrict shown capturedEnv')) :
      Alike shown (.lambda paramsExp bodyExp capturedEnv) (.lambda paramsExp bodyExp capturedEnv')
  | sysLambda {paramsExp bodyExp : RispExp F} {capturedEnv capturedEnv' : Env F}
      (h : bodyExp.isSys = true) :
      Alike shown (.lambda paramsExp bodyExp capturedEnv) (.lambda paramsExp bodyExp capturedEnv')

/-- The two environments agree on the names that are shown. -/
abbrev AlikeEnv (shown : Str → Bool) (env env' : Env F) : Prop :=
  Assoc.Rel (Alike shown) (Assoc.restrict shown env) (Assoc.restrict shown env')

variable {shown : Str → Bool} {v v' : RispExp F} {args args' : List (RispExp F)}

mutual

lemma Alike.refl : ∀ v : RispExp F, Alike shown v v
  | .bool b => .bool b
  | .symbol s => .symbol s
  | .number n => .number n
  | .string s => .string s
  | .func name => .func name
  | .syscall cmd => .syscall cmd
  | .list l => .list (forall₂_alike_refl l)
  | .map m => .map (entries_alike_refl m)
  | .lambda _ _ env => .lambda ((env_alike_refl env).restrict shown)

lemma forall₂_alike_refl : ∀ l : List (RispExp F), List.Forall₂ (Alike shown) l l
  | [] => .nil
  | v :: l => .cons (.refl v) (forall₂_alike_refl l)

lemma entries_alike_refl : ∀ m : Entries F, Assoc.Rel (Alike shown) m m
  | [] => .nil
  | (_, v) :: m => .cons (.refl v) (entries_alike_refl m)

lemma env_alike_refl : ∀ env : Env F, Assoc.Rel (Alike shown) env env
  | [] => .nil
  | (_, v) :: env => .cons (.refl v) (env_alike_refl env)

end

/-! ### The printer -/

mutual

lemma display_alike (text : FloatText F) : ∀ {v v' : RispExp F}, Alike shown v v' →
    v.display text = v'.display text
  | .bool _, _, .bool _ => rfl
  | .symbol _, _, .symbol _ => rfl
  | .number _, _, .number _ => rfl
  | .string _, _, .string _ => rfl
  | .func _, _, .func _ => rfl
  | .syscall _, _, .syscall _ => rfl
  | .list _, _, .list h => by rw [RispExp.display, RispExp.display, displayAll_alike text h]
  | .map _, _, .map h => by rw [RispExp.display, RispExp.display, displayEntries_alike text h]
  | .lambda _ _ _, _, .lambda _ => rfl
  | .lambda _ _ _, _, .sysLambda _ => rfl

lemma displayAll_alike (text : FloatText F) : ∀ {l l' : List (RispExp F)},
    List.Forall₂ (Alike shown) l l' → displayAll text l = displayAll text l'
  | [], _, .nil => rfl
  | _ :: _, _, .cons h t => by
      rw [displayAll, displayAll, display_alike text h, displayAll_alike text t]

lemma displayEntries_alike (text : FloatText F) : ∀ {m m' : Entries F},
    Assoc.Rel (Alike shown) m m' → displayEntries text m = displayEntries text m'
  | [], _, .nil => rfl
  | (_, _) :: _, _, .cons h t => by
      rw [displayEntries, displayEntries, display_alike text h, displayEntries_alike text t]

end

/-! ### The built-in functions -/

lemma Alike.expToKey (ops : FloatOps F) (h : Alike shown v v') :
    expToKey ops v = expToKey ops v' := by
  cases h <;> rfl

lemma Alike.parseSingleFloat (h : Alike shown v v') :
    parseSingleFloat v = parseSingleFloat v' := by
  cases h <;> rfl

lemma parseListOfFloats_alike (h : List.Forall₂ (Alike shown) args args') :
    parseListOfFloats args = parseListOfFloats args' := by
  induction h with
  | nil => rfl
  | cons hv _ ih =>
      simp only [parseListOfFloats] at ih ⊢
      rw [List.mapM_cons, List.mapM_cons, hv.parseSingleFloat, ih]

/-- Results of the built-in functions. -/
abbrev SameResult (shown : Str → Bool) (r r' : Except RispErr (RispExp F)) : Prop :=
  SameEnd (Alike shown) r r'

lemma sameResult_of_eq {r r' : Except RispErr (RispExp F)} (h : r = r') : SameResult shown r r' :=
  .of_eq .refl h

lemma onNumbers_alike (f : F → List F → RispExp F) (h : List.Forall₂ (Alike shown) args args') :
    SameResult shown (onNumbers f args) (onNumbers f args') := by
  rw [onNumbers, onNumbers, parseListOfFloats_alike h]
  exact sameResult_of_eq rfl

lemma foldNumbers_alike (f : F → F → F) (unit : F) (h : List.Forall₂ (Alike shown) args args') :
    SameResult shown (foldNumbers f unit args) (foldNumbers f unit args') := by
  rw [foldNumbers, foldNumbers, parseListOfFloats_alike h]
  exact sameResult_of_eq rfl

lemma lenOf_alike (ops : FloatOps F) (h : List.Forall₂ (Alike shown) args args') :
    SameResult shown (lenOf ops args) (lenOf ops args') := by
  cases h with
  | nil => exact sameResult_of_eq rfl
  | cons hv ht =>
      cases hv with
      | list hl =>
          rw [lenOf, lenOf, hl.length_eq]
          exact sameResult_of_eq rfl
      | _ => exact sameResult_of_eq rfl

lemma getElem?_alike {l l' : List (RispExp F)} (h : List.Forall₂ (Alike shown) l l') (i : ℕ) :
    Option.Rel (Alike shown) l[i]? l'[i]? := by
  induction h generalizing i with
  | nil => exact .none
  | cons hv _ ih =>
      cases i with
      | zero => exact .some hv
      | succ i => exact ih i

lemma getD_alike {o o' : Option (RispExp F)} (h : Option.Rel (Alike shown) o o') (d : RispExp F) :
    Alike shown (o.getD d) (o'.getD d) := by
  cases h with
  | some hv => exact hv
  | none => exact .refl d

lemma ofOption_alike (e : RispErr) {o o' : Option (RispExp F)} : Option.Rel (Alike shown) o o' →
    SameResult shown (match o with | some v => .ok v | none => .error e)
      (match o' with | some v => .ok v | none => .error e) := by
  intro h
  cases h with
  | some hv => exact hv
  | none => exact rfl

lemma listIndex_alike {l l' : List (RispExp F)} (h : List.Forall₂ (Alike shown) l l') (index : ℤ) :
    SameResult shown (listIndex l index) (listIndex l' index) := by
  have helem : ∀ i : ℤ, Option.Rel (Alike shown) (if 0 ≤ i then l[i.toNat]? else none)
      (if 0 ≤ i then l'[i.toNat]? else none) := by
    intro i
    split_ifs
    · exact getElem?_alike h _
    · exact .none
  simp only [listIndex, h.length_eq]
  exact ofOption_alike _ (helem _)

lemma indexOf_alike (ops : FloatOps F) (h : List.Forall₂ (Alike shown) args args') :
    SameResult shown (indexOf ops args) (indexOf ops args') := by
  rcases h with _ | ⟨hv, _ | ⟨hindex, _ | _⟩⟩
  · exact sameResult_of_eq rfl
  · cases hv <;> exact sameResult_of_eq rfl
  · cases hv with
    | list hl =>
        simp only [indexOf, hindex.parseSingleFloat]
        split
        · exact rfl
        · exact listIndex_alike hl _
    | map hm =>
        simp only [indexOf, hindex.expToKey]
        split
        · exact rfl
        · exact getD_alike (hm.lookup _) _
    | _ => exact sameResult_of_eq rfl
  · cases hv <;> exact sameResult_of_eq rfl

lemma mapEntries_alike (ops : FloatOps F) (h : List.Forall₂ (Alike shown) args args')
    {m m' : Entries F} (hm : Assoc.Rel (Alike shown) m m') :
    SameEnd (Assoc.Rel (Alike shown)) (mapEntries ops args m) (mapEntries ops args' m') := by
  fun_induction mapEntries ops args m generalizing args' m' with
  | case1 k v rest m e hkey =>
      rcases h with _ | ⟨hk, _ | ⟨hv, hrest⟩⟩
      rw [mapEntries, ← hk.expToKey, hkey]
      exact rfl
  | case2 k v rest m key hkey ih =>
      rcases h with _ | ⟨hk, _ | ⟨hv, hrest⟩⟩
      rw [mapEntries, ← hk.expToKey, hkey]
      exact ih hrest (hm.insert key hv)
  | case3 args m hshort =>
      rcases h with _ | ⟨hk, _ | ⟨hv, hrest⟩⟩
      · exact hm
      · exact hm
      · exact absurd rfl (hshort _ _ _)

lemma mapOf_alike (ops : FloatOps F) (h : List.Forall₂ (Alike shown) args args') :
    SameResult shown (mapOf ops args) (mapOf ops args') := by
  rw [mapOf, mapOf, h.length_eq]
  split_ifs
  · exact rfl
  · have hentries := mapEntries_alike ops h (m := []) .nil
    revert hentries
    generalize mapEntries ops args [] = r
    generalize mapEntries ops args' [] = r'
    intro hentries
    cases r <;> cases r'
    · exact hentries
    · exact hentries.elim
    · exact hentries.elim
    · exact Alike.map hentries

lemma mapKeys_alike (ops : FloatOps F) (h : List.Forall₂ (Alike shown) args args') :
    SameResult shown (mapKeys ops args) (mapKeys ops args') := by
  cases h with
  | nil => exact sameResult_of_eq rfl
  | cons hv ht =>
      cases hv with
      | @map m m' hm =>
          have hkeys : m.map (fun p => keyToExp ops p.1) = m'.map fun p => keyToExp ops p.1 := by
            have := congrArg (List.map (keyToExp ops)) hm.map_fst
            rwa [List.map_map, List.map_map] at this
          rw [mapKeys, mapKeys, hkeys]
          exact sameResult_of_eq rfl
      | _ => exact sameResult_of_eq rfl

/-- A built-in function makes values that are alike of values that are alike. -/
lemma callFunc_alike (ops : FloatOps F) (name : Str)
    (h : List.Forall₂ (Alike shown) args args') :
    SameResult shown (callFunc ops name args) (callFunc ops name args') := by
  refine callFunc_induction ops (P := fun f => SameResult shown (f args) (f args'))
    ?_ ?_ ?_ ?_ ?_ ?_ ?_ ?_ ?_ name
  · exact fun f unit => foldNumbers_alike f unit h
  · exact fun f => onNumbers_alike _ h
  · exact fun check => onNumbers_alike _ h
  · exact Alike.list h
  · exact lenOf_alike ops h
  · exact indexOf_alike ops h
  · exact mapOf_alike ops h
  · exact mapKeys_alike ops h
  · exact rfl

end Alike

end SilOS.Risp
