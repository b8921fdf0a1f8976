import QaCopilot.Python.Json

/-!
# Numbers of type `int | float`

An int and a float compare by their exact values. `sum` adds ints exactly as long as there are
only ints, and compensates the rounding of the floats that it adds after that.

* `lt_iff_units`, `eq_iff_units`: numbers that are finite and not negative compare as ints do.
-/

namespace QaCopilot.Python

/-- `OverflowError` -/
structure Overflow where
deriving DecidableEq

/-! ## Floats -/

/-- A finite double in units, with its sign. -/
def Finite.value (x : Finite) : Int := if x.negative then -x.units else x.units

namespace PyFloat

def zero : PyFloat := .finite ⟨false, 0, representable_zero⟩

def neg : PyFloat → PyFloat
  | .finite x => .finite ⟨!x.negative, x.units, x.representable⟩
  | .infinite negative => .infinite !negative
  | .nan => .nan

/-- The sum of two doubles, rounded once. Two zeros make a negative one only if both are. -/
def add : PyFloat → PyFloat → PyFloat
  | .nan, _ | _, .nan => .nan
  | .infinite a, .infinite b => if a = b then .infinite a else .nan
  | .infinite a, .finite _ | .finite _, .infinite a => .infinite a
  | .finite x, .finite y =>
    let sum := x.value + y.value
    if sum = 0 then .finite ⟨x.negative && y.negative, 0, representable_zero⟩
    else .ofRatio (sum < 0) sum.natAbs scale

/-- The product of two doubles, rounded once. -/
def mul : PyFloat → PyFloat → PyFloat
  | .nan, _ | _, .nan => .nan
  | .infinite a, .infinite b => .infinite (a != b)
  | .infinite a, .finite x | .finite x, .infinite a =>
    if x.units = 0 then .nan else .infinite (a != x.negative)
  | .finite x, .finite y => .ofRatio (x.negative != y.negative) (x.units * y.units) (scale * scale)

/-- `round(x, places)`, which returns an infinity and a `nan` as they are. -/
def round (places : Nat) : PyFloat → Except Overflow PyFloat
  | .finite x =>
    match roundPlaces x places with
    | .finite y => .ok (.finite y)
    | _ => .error ⟨⟩
  | x => .ok x

/-- `fabs(x) <= fabs(y)` -/
def absLe : PyFloat → PyFloat → Bool
  | .nan, _ | _, .nan => false
  | _, .infinite _ => true
  | .infinite _, .finite _ => false
  | .finite x, .finite y => x.units ≤ y.units

/-- `f += c` if `c` is finite and not zero. -/
def compensate (f : PyFloat) : PyFloat → PyFloat
  | .finite c => if c.units = 0 then f else f.add (.finite c)
  | _ => f

end PyFloat

/-! ## Numbers -/

/-- A value of type `int | float`; a bool is an int. -/
inductive IntOrFloat where
  | bool (b : Bool)
  | int (n : Int)
  | float (x : PyFloat)
deriving DecidableEq

/-- `float(n)` -/
def floatOfInt (n : Int) : Except Overflow PyFloat :=
  match trueDivide n 1 with
  | some x => .ok (.finite x)
  | none => .error ⟨⟩

namespace IntOrFloat

def toJson : IntOrFloat → Json
  | .bool b => .bool b
  | .int n => .int n
  | .float x => .float x

/-- `math.isfinite` -/
def isFinite : IntOrFloat → Except Overflow Bool
  | .bool _ => .ok true
  | .int n => (floatOfInt n).map fun _ => true
  | .float (.finite _) => .ok true
  | .float _ => .ok false

/-- The exact value: a number of units of 2^-1074 at level 0, or an infinity at level -1 or 1;
none for a `nan`. -/
def exact : IntOrFloat → Option (Int × Int)
  | .bool b => some (0, (if b then scale else 0 : Nat))
  | .int n => some (0, n * scale)
  | .float (.finite x) => some (0, x.value)
  | .float (.infinite negative) => some (if negative then -1 else 1, 0)
  | .float .nan => none

/-- `a < b` -/
def lt (a b : IntOrFloat) : Bool :=
  match a.exact, b.exact with
  | some (i, m), some (j, n) => i < j || i = j && m < n
  | _, _ => false

/-- `a == b` -/
def eq (a b : IntOrFloat) : Bool :=
  match a.exact, b.exact with
  | some x, some y => x = y
  | _, _ => false

/-- `isinstance(v, int | float)` without the bools, finite, and `v >= 0`. -/
def nonNegative (v : IntOrFloat) : Except Overflow Bool :=
  match v with
  | .bool _ => .ok false
  | v => do return (← v.isFinite) && !v.lt (.int 0)

/-- `sorted` of numbers none of which is a `nan`. -/
def sorted (values : List IntOrFloat) : List IntOrFloat := values.insertionSort fun a b => !b.lt a

/-- The exact value of a finite number, in units of 2^-1074. -/
def units (v : IntOrFloat) : Int := (v.exact.getD (0, 0)).2

theorem exact_of_nonNegative {v : IntOrFloat} (h : v.nonNegative = .ok true) :
    v.exact = some (0, v.units) := by
  match v with
  | .bool b => cases h
  | .int n => rfl
  | .float (.finite x) => rfl
  | .float (.infinite b) => cases h
  | .float .nan => cases h

theorem lt_iff_units {a b : IntOrFloat} (ha : a.nonNegative = .ok true)
    (hb : b.nonNegative = .ok true) : a.lt b = true ↔ a.units < b.units := by
  simp [lt, exact_of_nonNegative ha, exact_of_nonNegative hb]

theorem eq_iff_units {a b : IntOrFloat} (ha : a.nonNegative = .ok true)
    (hb : b.nonNegative = .ok true) : a.eq b = true ↔ a.units = b.units := by
  simp [eq, exact_of_nonNegative ha, exact_of_nonNegative hb]

/-! ## `sum` -/

/-- `PyNumber_Add` -/
def add : IntOrFloat → IntOrFloat → Except Overflow IntOrFloat
  | .float x, .float y => .ok (.float (x.add y))
  | .float x, .int n | .int n, .float x => do return .float (x.add (← floatOfInt n))
  | .float x, .bool b | .bool b, .float x => do return .float (x.add (← floatOfInt b.toNat))
  | .int m, .int n => .ok (.int (m + n))
  | .int m, .bool b | .bool b, .int m => .ok (.int (m + b.toNat))
  | .bool a, .bool b => .ok (.int (a.toNat + b.toNat))

/-- What a C `long` holds. -/
def isLong (n : Int) : Bool := -2 ^ 63 ≤ n && n < 2 ^ 63

/-- The value of an int that fits a C `long`. -/
def long? : IntOrFloat → Option Int
  | .bool b => some b.toNat
  | .int n => if isLong n then some n else none
  | .float _ => none

/-- The items added one by one. -/
def sumObjects (total : IntOrFloat) (items : List IntOrFloat) : Except Overflow IntOrFloat :=
  items.foldlM add total

/-- The items added to a float, with the compensation `c` of the rounding so far. -/
def sumFloats (f c : PyFloat) : List IntOrFloat → Except Overflow IntOrFloat
  | [] => .ok (.float (f.compensate c))
  | .float x :: items =>
    let t := f.add x
    let c := if x.absLe f then c.add ((f.add t.neg).add x) else c.add ((x.add t.neg).add f)
    sumFloats t c items
  | v :: items =>
    match v.long? with
    | some n => do sumFloats (f.add (← floatOfInt n)) c items
    | none => do sumObjects (← add (.float (f.compensate c)) v) items

/-- The items added to a C `long`. -/
def sumLongs (total : Int) : List IntOrFloat → Except Overflow IntOrFloat
  | [] => .ok (.int total)
  | v :: items =>
    match v.long? with
    | some n =>
      if isLong (total + n) then sumLongs (total + n) items
      else sumObjects (.int (total + n)) items
    | none => do
      match ← add (.int total) v with
      | .float f => sumFloats f .zero items
      | total => sumObjects total items

/-- `sum` -/
def sum (items : List IntOrFloat) : Except Overflow IntOrFloat := sumLongs 0 items

end IntOrFloat

end QaCopilot.Python
