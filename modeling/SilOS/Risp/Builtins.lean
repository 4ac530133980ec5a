/-
# The built-in functions of the Lisp interpreter

The functions that `default_env` binds, with the conversions between values and map keys.  They
have no effect and they do not panic: each returns a value or an error.  The arithmetic of 64-bit
floats is any type with the operations that the functions use.
-/
import SilOS.Lib.Assoc
import SilOS.Risp.Reader

namespace SilOS.Risp

open Lib

/-- The operations on `f64` that the interpreter uses. -/
structure FloatOps (F : Type) extends FloatText F where
  zero : F
  one : F
  add : F → F → F
  sub : F → F → F
  mul : F → F → F
  div : F → F → F
  eq : F → F → Bool
  lt : F → F → Bool
  le : F → F → Bool
  /-- `as i64`. -/
  toI64 : F → ℤ
  /-- `as f64` of an integer. -/
  ofInt : ℤ → F

/-- `RispEnv`. -/
abbrev Env (F : Type) := List (Str × RispExp F)

/-- The entries of a map value. -/
abbrev Entries (F : Type) := List (RispKey × RispExp F)

/-! ### Keys -/

namespace RispKey

/-- The derived order: strings, then numbers, then Booleans. -/
def less : RispKey → RispKey → Bool
  | .string a, .string b => decide (a < b)
  | .string _, _ => true
  | .number _, .string _ => false
  | .number a, .number b => decide (a < b)
  | .number _, .bool _ => true
  | .bool a, .bool b => !a && b
  | .bool _, _ => false

instance : LT RispKey := ⟨fun a b => less a b = true⟩

instance : DecidableLT RispKey := fun a b => inferInstanceAs (Decidable (less a b = true))

end RispKey

section Builtins

variable {F : Type} (ops : FloatOps F)

/-- An error of the interpreter. -/
def fail {α : Type} (msg : String) : Except RispErr α := .error (.reason msg)

/-- `exp_to_key`. -/
def expToKey : RispExp F → Except RispErr RispKey
  | .string s => .ok (.string s)
  | .number n => .ok (.number (ops.toI64 n))
  | .bool b => .ok (.bool b)
  | _ => fail "only strings, numbers, and bools can be map keys"

/-- `key_to_exp`. -/
def keyToExp : RispKey → RispExp F
  | .string s => .string s
  | .number n => .number (ops.ofInt n)
  | .bool b => .bool b

/-! ### Functions on numbers -/

/-- `parse_single_float`. -/
def parseSingleFloat : RispExp F → Except RispErr F
  | .number num => .ok num
  | _ => fail "expected a number"

/-- `parse_list_of_floats`. -/
def parseListOfFloats (args : List (RispExp F)) : Except RispErr (List F) :=
  args.mapM parseSingleFloat

/-- A function of a first number and the numbers after it. -/
def onNumbers (f : F → List F → RispExp F) (args : List (RispExp F)) :
    Except RispErr (RispExp F) :=
  match parseListOfFloats args with
  | .error e => .error e
  | .ok [] => fail "expected at least one number"
  | .ok (first :: rest) => .ok (f first rest)

/-- The function `f` of `ensure_tonicity`. -/
def tonic (check : F → F → Bool) : F → List F → Bool
  | _, [] => true
  | prev, x :: xs => check prev x && tonic check x xs

/-- `ensure_tonicity`. -/
def ensureTonicity (check : F → F → Bool) : List (RispExp F) → Except RispErr (RispExp F) :=
  onNumbers fun first rest => .bool (tonic check first rest)

/-- The fold of `+` and `*`. -/
def foldNumbers (f : F → F → F) (unit : F) (args : List (RispExp F)) :
    Except RispErr (RispExp F) :=
  match parseListOfFloats args with
  | .error e => .error e
  | .ok floats => .ok (.number (floats.foldl f unit))

/-- `&` on `i64`. -/
def andI64 (a b : ℤ) : ℤ := (BitVec.ofInt 64 a &&& BitVec.ofInt 64 b).toInt

/-! ### Functions on lists and maps -/

/-- `len`. -/
def lenOf : List (RispExp F) → Except RispErr (RispExp F)
  | [] => fail "len requires 1 argument"
  | .list l :: _ => .ok (.number (ops.ofInt l.length))
  | .string s :: _ => .ok (.number (ops.ofInt (byteLen s)))
  | _ => fail "len only works on lists and strings"

/-- The element of a list at an index, which counts from the end if it is negative. -/
def listIndex (l : List (RispExp F)) (index : ℤ) : Except RispErr (RispExp F) :=
  let idx := if index < 0 then (l.length : ℤ) + index else index
  match if 0 ≤ idx then l[idx.toNat]? else none with
  | some v => .ok v
  | none => fail "index out of bounds"

/-- `!!`. -/
def indexOf : List (RispExp F) → Except RispErr (RispExp F)
  | [.list l, index] =>
      match parseSingleFloat index with
      | .error e => .error e
      | .ok idx => listIndex l (ops.toI64 idx)
  | [.map m, index] =>
      match expToKey ops index with
      | .error e => .error e
      | .ok key => .ok ((m.lookup key).getD (.string []))
  | [_, _] => fail "!! only works on lists, strings, and maps"
  | _ => fail "!! requires exactly 2 arguments"

/-- The loop of `map`. -/
def mapEntries : List (RispExp F) → Entries F → Except RispErr (Entries F)
  | k :: v :: rest, m =>
      match expToKey ops k with
      | .error e => .error e
      | .ok key => mapEntries rest (Assoc.insert key v m)
  | _, m => .ok m

/-- `map`. -/
def mapOf (args : List (RispExp F)) : Except RispErr (RispExp F) :=
  if args.length % 2 ≠ 0 then fail "map requires an even number of arguments"
  else
    match mapEntries ops args [] with
    | .error e => .error e
    | .ok m => .ok (.map m)

/-- `mkeys`. -/
def mapKeys : List (RispExp F) → Except RispErr (RispExp F)
  | [] => fail "mkeys requires 1 argument"
  | .map m :: _ => .ok (.list (m.map fun p => keyToExp ops p.1))
  | _ => fail "mkeys only works on maps"

/-! ### The default environment -/

/-- The functions of `default_env`, in the order of the source. -/
def builtins : List (Str × (List (RispExp F) → Except RispErr (RispExp F))) :=
  [(['+'], foldNumbers ops.add ops.zero),
   (['-'], onNumbers fun first rest => .number (ops.sub first (rest.foldl ops.add ops.zero))),
   (['='], ensureTonicity ops.eq),
   (['!', '='], ensureTonicity fun a b => !ops.eq a b),
   (['>'], ensureTonicity fun a b => ops.lt b a),
   (['>', '='], ensureTonicity fun a b => ops.le b a),
   (['<'], ensureTonicity ops.lt),
   (['<', '='], ensureTonicity ops.le),
   (['*'], foldNumbers ops.mul ops.one),
   (['/'], onNumbers fun first rest => .number (rest.foldl ops.div first)),
   (['&'], onNumbers fun first rest => .number (ops.ofInt
      (rest.foldl (fun acc a => andI64 acc (ops.toI64 a)) (ops.toI64 first)))),
   (['l', 'i', 's', 't'], fun args => .ok (.list args)),
   (['l', 'e', 'n'], lenOf ops),
   (['!', '!'], indexOf ops),
   (['m', 'a', 'p'], mapOf ops),
   (['m', 'k', 'e', 'y', 's'], mapKeys ops)]

/-- The call of a built-in function.  A function value always has a name of the table. -/
def callFunc (name : Str) (args : List (RispExp F)) : Except RispErr (RispExp F) :=
  match (builtins ops).lookup name with
  | some f => f args
  | none => fail "unexpected function"

/-- **Rule for built-in functions.**  What holds of the functions on numbers, of comparisons and of
the five others holds of every call. -/
theorem callFunc_induction {P : (List (RispExp F) → Except RispErr (RispExp F)) → Prop}
    (hfold : ∀ f unit, P (foldNumbers f unit))
    (hnumber : ∀ f : F → List F → F, P (onNumbers fun first rest => .number (f first rest)))
    (hcompare : ∀ check, P (ensureTonicity check)) (hlist : P fun args => .ok (.list args))
    (hlen : P (lenOf ops)) (hindex : P (indexOf ops)) (hmap : P (mapOf ops))
    (hkeys : P (mapKeys ops)) (hnone : P fun _ => fail "unexpected function") (name : Str) :
    P (callFunc ops name) := by
  cases hf : (builtins ops).lookup name with
  | none =>
      have heq : callFunc ops name = fun _ => fail "unexpected function" := by
        funext args
        rw [callFunc, hf]
      exact heq ▸ hnone
  | some f =>
      have heq : callFunc ops name = f := by
        funext args
        rw [callFunc, hf]
      rw [heq]
      have hmem := Assoc.mem_of_lookup hf
      simp only [builtins, List.mem_cons, Prod.mk.injEq, List.not_mem_nil, or_false] at hmem
      rcases hmem with ⟨-, rfl⟩ | ⟨-, rfl⟩ | ⟨-, rfl⟩ | ⟨-, rfl⟩ | ⟨-, rfl⟩ | ⟨-, rfl⟩ | ⟨-, rfl⟩ |
        ⟨-, rfl⟩ | ⟨-, rfl⟩ | ⟨-, rfl⟩ | ⟨-, rfl⟩ | ⟨-, rfl⟩ | ⟨-, rfl⟩ | ⟨-, rfl⟩ | ⟨-, rfl⟩ |
        ⟨-, rfl⟩
      · exact hfold _ _
      · exact hnumber _
      · exact hcompare _
      · exact hcompare _
      · exact hcompare _
      · exact hcompare _
      · exact hcompare _
      · exact hcompare _
      · exact hfold _ _
      · exact hnumber _
      · exact hnumber _
      · exact hlist
      · exact hlen
      · exact hindex
      · exact hmap
      · exact hkeys

/-- `default_env`. -/
def defaultEnv : Env F :=
  Assoc.insert ['[', ']'] (.list [])
    (Assoc.insertAll [] ((builtins ops).map fun p => (p.1, .func p.1)))

end Builtins

end SilOS.Risp
