import Mathlib.Algebra.Order.Floor.Defs
import Mathlib.Data.Rat.Floor
import QaCopilot.Python.Float

/-!
# Python decimals

`Decimal` values other than NaN, and the arithmetic of the default context: 28 digits, ties to
even, with `Overflow`, `InvalidOperation` and `DivisionByZero` trapped. Results are numbers:
only a value that was given as a `Decimal` is ever printed.
-/

namespace QaCopilot.Python

inductive DecimalSignal where
  | overflow
  | invalidOperation
  | divisionByZero
deriving DecidableEq

/-- `±coefficient * 10 ^ exponent`, or an infinity. -/
inductive Decimal where
  | finite (negative : Bool) (coefficient : Nat) (exponent : Int)
  | infinite (negative : Bool)
deriving DecidableEq

/-- The number a `Decimal` stands for. -/
inductive Number where
  | finite (q : Rat)
  | infinite (negative : Bool)
deriving DecidableEq

namespace Number

def precision : Nat := 28

def maxExponent : Int := 999999

/-- The least exponent of a subnormal: `Emin - prec + 1`. -/
def leastExponent : Int := -1000026

/-- The `e` with `10 ^ e ≤ n / d < 10 ^ (e + 1)`. -/
def adjusted (n d : Nat) : Int :=
  let e : Int := (digits n).length - (digits d).length
  if d * 10 ^ e.toNat ≤ n * 10 ^ (-e).toNat then e else e - 1

/-- Rounds an exact result to the context. -/
def fix (q : Rat) : Except DecimalSignal Number :=
  if q = 0 then .ok (.finite 0)
  else
    let e := max (adjusted q.num.natAbs q.den - (precision - 1)) leastExponent
    let coefficient := roundHalfEven (q.num.natAbs * 10 ^ (-e).toNat) (q.den * 10 ^ e.toNat)
    if maxExponent < e + (digits coefficient).length - 1 then .error .overflow
    else .ok (.finite (q.num.sign * coefficient * 10 ^ e.toNat / 10 ^ (-e).toNat))

def isNegative : Number → Bool
  | .finite q => q < 0
  | .infinite negative => negative

def isZero : Number → Bool
  | .finite q => q = 0
  | .infinite _ => false

def add : Number → Number → Except DecimalSignal Number
  | .finite a, .finite b => fix (a + b)
  | .infinite m, .infinite n => if m = n then .ok (.infinite m) else .error .invalidOperation
  | .infinite m, .finite _ => .ok (.infinite m)
  | .finite _, .infinite n => .ok (.infinite n)

def mul : Number → Number → Except DecimalSignal Number
  | .finite a, .finite b => fix (a * b)
  | a, b =>
    if a.isZero ∨ b.isZero then .error .invalidOperation
    else .ok (.infinite (a.isNegative != b.isNegative))

def div : Number → Number → Except DecimalSignal Number
  | .finite a, .finite b =>
    if b = 0 then .error (if a = 0 then .invalidOperation else .divisionByZero) else fix (a / b)
  | .finite _, .infinite _ => .ok (.finite 0)
  | .infinite _, .infinite _ => .error .invalidOperation
  | .infinite m, b => .ok (.infinite (m != b.isNegative))

/-- Comparison is exact. -/
def lt : Number → Number → Bool
  | .finite a, .finite b => a < b
  | .infinite m, .infinite n => m && !n
  | .infinite m, .finite _ => m
  | .finite _, .infinite n => !n

end Number

namespace Decimal

def toNumber : Decimal → Number
  | .finite negative coefficient exponent =>
    .finite ((if negative then -1 else 1) * coefficient * 10 ^ exponent.toNat
      / 10 ^ (-exponent).toNat)
  | .infinite negative => .infinite negative

/-- `Decimal(n)`: exact. -/
def ofInt (n : Int) : Number := .finite n

/-- `str(d)`: to-scientific-string. -/
def text : Decimal → Str
  | .infinite negative => (if negative then lit "-" else []) ++ lit "Infinity"
  | .finite negative coefficient exponent =>
    let ds := digits coefficient
    let point : Int := ds.length + exponent
    let exponentText :=
      lit "E" ++ (if point - 1 < 0 then lit "-" else lit "+") ++ digits (point - 1).natAbs
    (if negative then lit "-" else []) ++
      if exponent = 0 then ds
      else if exponent < 0 ∧ -6 ≤ point - 1 then
        if 0 < point then ds.take point.toNat ++ lit "." ++ ds.drop point.toNat
        else zeros 1 ++ lit "." ++ zeros (-point).toNat ++ ds
      else ds.take 1 ++ (if ds.length = 1 then [] else lit "." ++ ds.drop 1) ++ exponentText

end Decimal

end QaCopilot.Python
