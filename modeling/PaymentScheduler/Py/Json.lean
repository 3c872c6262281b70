import Mathlib
import PaymentScheduler.Py.Text

/-!
# `decimal.Decimal` and JSON values

`Decimal.parse` is `Decimal(s)` for a string: whitespace around the number, underscores and the
decimal digits of all scripts are accepted, and `inf` and `nan` in any case; what is left is an
`InvalidOperation`. `Json` is what `json.loads` gives for a JSONB value: a float is the decimal
number of its `repr`.
-/

namespace PaymentScheduler

/-- `decimal.Decimal`. -/
inductive Decimal where
  /-- `coefficient * 10 ^ exponent`, or its negative. -/
  | finite (negative : Bool) (coefficient : Nat) (exponent : Int)
  | infinity (negative : Bool)
  | nan (negative signaling : Bool)
  deriving DecidableEq, Repr

namespace Decimal

/-- The ASCII form of the characters of a number: spaces at the ends and underscores are dropped,
decimal digits become ASCII digits. -/
def ascii (s : String) : Option (List Char) :=
  ((stripChars s.toList).filter (· ≠ '_')).mapM fun c =>
    if c.toNat < 128 then some c.toLower
    else (digitValue? c).map fun d => Char.ofNat (48 + d)

/-- A sign, and the rest. -/
def sign : List Char → Bool × List Char
  | '-' :: cs => (true, cs)
  | '+' :: cs => (false, cs)
  | cs => (false, cs)

/-- The value of a list of ASCII digits. -/
def digits (cs : List Char) : Option Nat :=
  if cs.all Char.isDigit then some (cs.foldl (fun n c => n * 10 + (c.toNat - 48)) 0) else none

/-- The exponent part: `e`, a sign and at least one digit; or nothing. -/
def exponentPart : List Char → Option Int
  | [] => some 0
  | _ :: cs =>
    let (negative, ds) := sign cs
    if ds = [] then none else (digits ds).map fun (n : Nat) => if negative then -(n : Int) else n

/-- `MAX_EMAX` and `MIN_ETINY`: an exact result outside is an `InvalidOperation`. -/
def inRange (coefficient : Nat) (exponent : Int) : Bool :=
  exponent + (Nat.toDigits 10 coefficient).length - 1 ≤ 999999999999999999 &&
    -1999999999999999997 ≤ exponent

/-- Digits with at most one point, and an exponent. -/
def number (negative : Bool) (cs : List Char) : Option Decimal :=
  let (mantissa, rest) := cs.span (· ≠ 'e')
  let (whole, fraction) := mantissa.span (· ≠ '.')
  let ds := whole ++ fraction.drop 1
  if ds = [] then none else do
    let coefficient ← digits ds
    let e ← exponentPart rest
    let exponent := e - (fraction.drop 1).length
    if inRange coefficient exponent then some (finite negative coefficient exponent) else none

/-- `Decimal(s)`: `none` is an `InvalidOperation`. -/
def parse (s : String) : Option Decimal := do
  let (negative, cs) := sign (← ascii s)
  match cs with
  | 'n' :: 'a' :: 'n' :: ds => if ds.all Char.isDigit then some (nan negative false) else none
  | 's' :: 'n' :: 'a' :: 'n' :: ds => if ds.all Char.isDigit then some (nan negative true) else none
  | 'i' :: 'n' :: 'f' :: ds =>
    if ds = [] ∨ ds = ['i', 'n', 'i', 't', 'y'] then some (infinity negative) else none
  | cs => number negative cs

/-- `d <= 0`: `none` is an `InvalidOperation` (an order comparison with a NaN). -/
def nonpositive? : Decimal → Option Bool
  | finite negative coefficient _ => some (negative || coefficient = 0)
  | infinity negative => some negative
  | nan _ _ => none

/-- `str(d)`: the scientific string of the decimal arithmetic specification. -/
def str : Decimal → String
  | infinity negative => (if negative then "-" else "") ++ "Infinity"
  | nan negative signaling => (if negative then "-" else "") ++ if signaling then "sNaN" else "NaN"
  | finite negative coefficient exponent =>
    let ds := Nat.toDigits 10 coefficient
    let adjusted := exponent + ds.length - 1
    let point (n : Nat) := ds.take n ++ (if n < ds.length then '.' :: ds.drop n else [])
    let cs :=
      if exponent ≤ 0 ∧ -6 ≤ adjusted then
        if 0 ≤ adjusted then point (adjusted + 1).toNat
        else '0' :: '.' :: (List.replicate (-adjusted - 1).toNat '0' ++ ds)
      else point 1 ++ 'E' :: (if adjusted < 0 then '-' else '+') :: Nat.toDigits 10 adjusted.natAbs
    (if negative then "-" else "") ++ String.ofList cs

example : (parse " 1_2.50 ").map str = some "12.50" := by decide +kernel

end Decimal

/-- A JSON value. -/
inductive Json where
  | null
  | bool (b : Bool)
  | int (n : Int)
  | float (negative : Bool) (coefficient : Nat) (exponent : Int)
  /-- A number beyond the floats: `json.loads` gives an infinity. -/
  | inf (negative : Bool)
  | str (s : String)
  | arr (xs : List Json)
  | obj (fields : List (String × Json))

/-- A `dict` with string keys. -/
abbrev Dict := List (String × Json)

namespace Json

/-- `bool(v)`. -/
def truthy : Json → Bool
  | null => false
  | bool b => b
  | int n => n ≠ 0
  | float _ coefficient _ => coefficient ≠ 0
  | inf _ => true
  | str s => s ≠ ""
  | arr xs => !xs.isEmpty
  | obj fields => !fields.isEmpty

/-- `Decimal(str(v))`: `none` is an `InvalidOperation`. The `str` of a value that is no number and
no string is never a number. -/
def decimal? : Json → Option Decimal
  | int n => some (.finite (n < 0) n.natAbs 0)
  | float negative coefficient exponent => some (.finite negative coefficient exponent)
  | inf negative => some (.infinity negative)
  | str s => Decimal.parse s
  | _ => none

/-- `len(v)`: `none` is a `TypeError`. -/
def len? : Json → Option Nat
  | str s => some s.length
  | arr xs => some xs.length
  | obj fields => some fields.length
  | _ => none

end Json

end PaymentScheduler
