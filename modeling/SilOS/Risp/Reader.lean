/-
# The reader of the Lisp interpreter

The front end of `src/parser.rs`: a character scanner with modes for strings and comments
(`tokenize`), a recursive reader on the tokens (`parse`, `read_seq`, `parse_atom`), and the
`Display` instance that prints values.

Strings are lists of characters.  The 64-bit floats only appear as numbers that are read and
printed, so they are any type with the two conversions of the standard library.  Reading can
fail with an error of the interpreter, which is a value of the program, or it can panic.  The
two reading functions call each other; they are given a depth that is enough for every list of
tokens (`parse_ne_fuel`).
-/
import SilOS.Lib.Checked
import SilOS.Lib.Utf8
import SilOS.Lib.Words

namespace SilOS.Risp

open Lib

/-- A string. -/
abbrev Str := List Char

/-- `RispErr`. -/
inductive RispErr where
  | reason (msg : String)
deriving DecidableEq, Repr

/-- Why a computation of the interpreter did not return a value: an error it reports, or a
fault of the program itself. -/
inductive Stop where
  | err (e : RispErr)
  | fault (f : Fault)
deriving DecidableEq, Repr

/-- The conversions between floats and text: `str::parse::<f64>` and the `Display` of `f64`. -/
structure FloatText (F : Type) where
  parse : Str → Option F
  display : F → Str

/-- `RispKey`. -/
inductive RispKey where
  | string (s : Str)
  | number (n : ℤ)
  | bool (b : Bool)
deriving DecidableEq

/-- `RispExp`.  A built-in function is identified by its name in `default_env`; maps and
environments are lists of their entries in the order of the keys. -/
inductive RispExp (F : Type) where
  | bool (b : Bool)
  | symbol (s : Str)
  | number (n : F)
  | string (s : Str)
  | list (l : List (RispExp F))
  | map (m : List (RispKey × RispExp F))
  | func (name : Str)
  | lambda (paramsExp bodyExp : RispExp F) (capturedEnv : List (Str × RispExp F))
  | syscall (cmd : List Str)

/-! ### The scanner -/

/-- The variables of the loop of `tokenize`. -/
structure Scanner where
  tokens : List Str
  currentToken : Str
  inString : Bool
  inComment : Bool
deriving DecidableEq

namespace Scanner

/-- The variables before the loop. -/
def start : Scanner := ⟨[], [], false, false⟩

/-- `if !current_token.is_empty() { tokens.push(current_token.clone()); current_token.clear() }` -/
def flush (s : Scanner) : Scanner :=
  if s.currentToken = [] then s
  else { s with tokens := s.tokens ++ [s.currentToken], currentToken := [] }

/-- The body of the loop of `tokenize`. -/
def step (s : Scanner) (c : Char) : Scanner :=
  if s.inComment then
    if c = '#' then { s with inComment := false } else s
  else if s.inString then
    let current := s.currentToken ++ [c]
    if c = '"' then
      { s with tokens := s.tokens ++ [current], currentToken := [], inString := false }
    else { s with currentToken := current }
  else if c = '#' then { s.flush with inComment := true }
  else if c = '"' then { s.flush with currentToken := [c], inString := true }
  else if c = '(' ∨ c = ')' then { s.flush with tokens := s.flush.tokens ++ [[c]] }
  else if isWhitespace c then s.flush
  else { s with currentToken := s.currentToken ++ [c] }

/-- The loop of `tokenize`. -/
def scan (s : Scanner) (expr : Str) : Scanner := expr.foldl step s

end Scanner

/-- `tokenize`. -/
def tokenize (expr : Str) : List Str := (Scanner.start.scan expr).flush.tokens

/-! ### The reader -/

/-- `bool::to_string`. -/
def boolText : Bool → Str
  | true => ['t', 'r', 'u', 'e']
  | false => ['f', 'a', 'l', 's', 'e']

/-- The slice `token[1..token.len() - 1]` of a token that starts with a quote. -/
def unquote (token : Str) : Option Str := sliceBytes token 1 (byteLen token - 1)

/-- `parse_atom`. -/
def parseAtom {F : Type} (text : FloatText F) (token : Str) : Except Stop (RispExp F) :=
  if token = boolText true then .ok (.bool true)
  else if token = boolText false then .ok (.bool false)
  else if token.head? = some '"' ∧ token.getLast? = some '"' then
    match unquote token with
    | none => .error (.fault .panic)
    | some stringVal => .ok (.string stringVal)
  else
    match text.parse token with
    | some v => .ok (.number v)
    | none => .ok (.symbol token)

mutual

/-- `parse`, with a bound on the depth of the calls. -/
def parseFrom {F : Type} (text : FloatText F) :
    ℕ → List Str → Except Stop (RispExp F × List Str)
  | 0, _ => .error (.fault .fuel)
  | _ + 1, [] => .error (.err (.reason "could not get token"))
  | fuel + 1, token :: rest =>
      if token = ['('] then readSeqFrom text fuel [] rest
      else if token = [')'] then .error (.err (.reason "unexpected `)`"))
      else
        match parseAtom text token with
        | .error e => .error e
        | .ok atom => .ok (atom, rest)

/-- The loop of `read_seq`: `res` are the expressions read so far. -/
def readSeqFrom {F : Type} (text : FloatText F) :
    ℕ → List (RispExp F) → List Str → Except Stop (RispExp F × List Str)
  | 0, _, _ => .error (.fault .fuel)
  | _ + 1, _, [] => .error (.err (.reason "could not find closing `)`"))
  | fuel + 1, res, nextToken :: rest =>
      if nextToken = [')'] then .ok (.list res, rest)
      else
        match parseFrom text fuel (nextToken :: rest) with
        | .error e => .error e
        | .ok (exp, newXs) => readSeqFrom text fuel (res ++ [exp]) newXs

end

/-- `parse`. -/
def parse {F : Type} (text : FloatText F) (tokens : List Str) :
    Except Stop (RispExp F × List Str) :=
  parseFrom text (2 * tokens.length + 1) tokens

/-! ### Printing -/

/-- The `Display` of `RispKey`. -/
def RispKey.display : RispKey → Str
  | .string s => '"' :: s ++ ['"']
  | .number n => (toString n).toList
  | .bool b => boolText b

mutual

/-- The `Display` of `RispExp`. -/
def RispExp.display {F : Type} (text : FloatText F) : RispExp F → Str
  | .bool b => boolText b
  | .symbol s => s
  | .number n => text.display n
  | .string s => s
  | .list l => '(' :: List.intercalate [' '] (displayAll text l) ++ [')']
  | .map m => '\x7b' :: List.intercalate [',', ' '] (displayEntries text m) ++ ['\x7d']
  | .func _ => ['<', 'F', 'u', 'n', 'c', 't', 'i', 'o', 'n', '>']
  | .lambda _ _ _ => ['<', 'L', 'a', 'm', 'b', 'd', 'a', '>']
  | .syscall cmd =>
      ['<', 'S', 'y', 's', 'c', 'a', 'l', 'l', ':', ' ', '['] ++
        List.intercalate [',', ' '] cmd ++ [']', '>']

/-- The elements of a list, printed. -/
def displayAll {F : Type} (text : FloatText F) : List (RispExp F) → List Str
  | [] => []
  | e :: l => e.display text :: displayAll text l

/-- The entries of a map, printed. -/
def displayEntries {F : Type} (text : FloatText F) : List (RispKey × RispExp F) → List Str
  | [] => []
  | (k, v) :: m => (k.display ++ [':', ' '] ++ v.display text) :: displayEntries text m

end

end SilOS.Risp
