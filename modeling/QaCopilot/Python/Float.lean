import Mathlib.Data.List.Induction
import Mathlib.Tactic.Linarith
import Mathlib.Tactic.Ring
import QaCopilot.Python.Text

/-!
# Python floats

A finite double is a whole number of units of 2^-1074. Conversions round to nearest,
ties to even, from the exact ratio, and `repr` is the shortest decimal literal that reads
back as the same double.
-/

namespace QaCopilot.Python

/-! ## Decimal digits -/

def isDigit (c : CodePoint) : Bool := 48 ≤ c.val && c.val ≤ 57

/-- The decimal digits of `n`, most significant first. -/
def digits (n : Nat) : Str := (Nat.toDigits 10 n).map CodePoint.ofChar

def ofDigits (s : Str) : Nat := s.foldl (fun n c => 10 * n + (c.val - 48)) 0

theorem foldl_digits (s t : Str) (n : Nat) :
    (s ++ t).foldl (fun n c => 10 * n + (c.val - 48)) n
      = (s.foldl (fun n c => 10 * n + (c.val - 48)) n) * 10 ^ t.length
        + t.foldl (fun n c => 10 * n + (c.val - 48)) 0 := by
  induction t using List.reverseRecOn generalizing s with
  | nil => simp
  | append_singleton t c ih =>
    rw [← List.append_assoc, List.foldl_append, ih]
    simp only [List.foldl_cons, List.foldl_nil, List.foldl_append, List.length_append,
      List.length_singleton, pow_succ]
    ring

theorem ofDigits_append (s t : Str) :
    ofDigits (s ++ t) = ofDigits s * 10 ^ t.length + ofDigits t :=
  foldl_digits s t 0

theorem ofDigits_zeros (k : Nat) : ofDigits (List.replicate k (CodePoint.ofChar '0')) = 0 := by
  induction k with
  | zero => rfl
  | succ k ih =>
    rw [List.replicate_succ, ← List.singleton_append, ofDigits_append, ih]
    have zero : ofDigits [CodePoint.ofChar '0'] = 0 := by decide
    rw [zero, zero_mul]

theorem ofDigits_digits (n : Nat) : ofDigits (digits n) = n := by
  have step : ∀ (l : List Char) (init : Nat),
      (l.map CodePoint.ofChar).foldl (fun n c => 10 * n + (c.val - 48)) init
        = Nat.ofDigitChars 10 l init := by
    intro l init
    induction l generalizing init with
    | nil => rfl
    | cons c l ih =>
      rw [List.map_cons, List.foldl_cons, ih, Nat.ofDigitChars_cons]
      rfl
  rw [ofDigits, digits, step, Nat.ofDigitChars_ten_toDigits]

theorem digits_injective {m n : Nat} (same : digits m = digits n) : m = n := by
  rw [← ofDigits_digits m, same, ofDigits_digits]

theorem digits_ne_nil (n : Nat) : digits n ≠ [] := by
  simp [digits, Nat.toDigits_ne_nil]

theorem digits_isDigit {n : Nat} {c : CodePoint} (h : c ∈ digits n) : isDigit c = true := by
  obtain ⟨d, hd, rfl⟩ := List.mem_map.mp h
  have := Nat.isDigit_of_mem_toDigits (by decide) (by decide) hd
  simp only [Char.isDigit, Bool.and_eq_true, decide_eq_true_eq, UInt32.le_iff_toNat_le] at this
  simp only [isDigit, Bool.and_eq_true, decide_eq_true_eq]
  exact this

theorem length_digits_le_iff {n k : Nat} (h : 0 < k) : (digits n).length ≤ k ↔ n < 10 ^ k := by
  rw [digits, List.length_map, Nat.length_toDigits_le_iff (by decide) h]

/-- Only zero starts with the digit zero. -/
theorem digits_head {n : Nat} {c : CodePoint} {s : Str} (h : digits n = c :: s)
    (zero : c.val = 48) : n = 0 ∧ s = [] := by
  have value := ofDigits_digits n
  rw [h, ← List.singleton_append, ofDigits_append] at value
  have tail : ofDigits s < 10 ^ s.length := by
    have all : ∀ t : Str, (∀ d ∈ t, isDigit d = true) → ofDigits t < 10 ^ t.length := by
      intro t ht
      induction t with
      | nil => simp [ofDigits]
      | cons d t ih =>
        have hd := ht d (by simp)
        have := ih (fun e he => ht e (by simp [he]))
        rw [← List.singleton_append, ofDigits_append]
        simp only [isDigit, Bool.and_eq_true, decide_eq_true_eq] at hd
        simp only [ofDigits, List.foldl_cons, List.foldl_nil] at this ⊢
        have hle : (10 * 0 + (d.val - 48)) ≤ 9 := by omega
        simp only [List.length_append, List.length_singleton, pow_add]
        nlinarith [Nat.pow_pos (n := t.length) (show 0 < 10 by decide)]
    exact all s (fun d hd => digits_isDigit (n := n) (by rw [h]; simp [hd]))
  have first : ofDigits [c] = 0 := by simp [ofDigits, zero]
  rw [first] at value
  by_cases hs : s = []
  · subst hs
    exact ⟨by simpa [ofDigits] using value.symm, rfl⟩
  · have long : ¬ (digits n).length ≤ s.length := by simp [h]
    have pos : 0 < s.length := List.length_pos_iff.mpr hs
    rw [length_digits_le_iff pos] at long
    omega

/-! ## Finite doubles -/

def unitBits : Nat := 1074

def scale : Nat := 2 ^ unitBits

/-- Past the largest double, counted in units. -/
def unitLimit : Nat := 2 ^ (unitBits + 1024)

/-- The bit below which a double of `u` units has no precision. -/
def ulpExponent (u : Nat) : Nat := u.log2 - 52

def Representable (u : Nat) : Prop := 2 ^ ulpExponent u ∣ u ∧ u < unitLimit

instance (u : Nat) : Decidable (Representable u) := inferInstanceAs (Decidable (_ ∧ _))

/-- A finite double: sign and magnitude in units of 2^-1074. -/
structure Finite where
  negative : Bool
  units : Nat
  representable : Representable units
deriving DecidableEq

inductive PyFloat where
  | finite (x : Finite)
  | infinite (negative : Bool)
  | nan
deriving DecidableEq

/-- `n / d` to the nearest integer, ties to even. -/
def roundHalfEven (n d : Nat) : Nat :=
  let q := n / d
  if 2 * (n % d) < d ∨ 2 * (n % d) = d ∧ q % 2 = 0 then q else q + 1

/-- The units of the double nearest to `n / d`, before the range check. -/
def roundUnits (n d : Nat) : Nat :=
  let e := ulpExponent (scale * n / d)
  roundHalfEven (scale * n) (d * 2 ^ e) * 2 ^ e

/-- The double nearest to `±n / d`; infinite past the largest double. -/
def PyFloat.ofRatio (negative : Bool) (n d : Nat) : PyFloat :=
  if h : Representable (roundUnits n d) then .finite ⟨negative, roundUnits n d, h⟩
  else .infinite negative

/-- The double nearest to `±m * 10 ^ p`. -/
def PyFloat.ofDecimal (negative : Bool) (m : Nat) (p : Int) : PyFloat :=
  if 0 ≤ p then .ofRatio negative (m * 10 ^ p.toNat) 1
  else .ofRatio negative m (10 ^ (-p).toNat)

theorem roundHalfEven_scale (n d : Nat) {c : Nat} (hc : 0 < c) :
    roundHalfEven (n * c) (d * c) = roundHalfEven n d := by
  unfold roundHalfEven
  rw [Nat.mul_div_mul_right n d hc, Nat.mul_mod_mul_right]
  have lt : 2 * (n % d * c) < d * c ↔ 2 * (n % d) < d := by
    rw [← mul_assoc]; exact Nat.mul_lt_mul_right hc
  have eq : 2 * (n % d * c) = d * c ↔ 2 * (n % d) = d := by
    rw [← mul_assoc]; exact Nat.mul_left_inj (by omega)
  simp only [lt, eq]

theorem roundHalfEven_exact (n : Nat) {d : Nat} (hd : 0 < d) : roundHalfEven (n * d) d = n := by
  unfold roundHalfEven
  simp [Nat.mul_div_cancel n hd, hd]

theorem roundUnits_scale (n d : Nat) {c : Nat} (hc : 0 < c) :
    roundUnits (n * c) (d * c) = roundUnits n d := by
  have e : scale * (n * c) / (d * c) = scale * n / d := by
    rw [← mul_assoc, Nat.mul_div_mul_right _ _ hc]
  unfold roundUnits
  rw [e]
  dsimp only
  rw [← mul_assoc, mul_right_comm d c, roundHalfEven_scale _ _ hc]

theorem roundUnits_scale_self {u : Nat} (h : Representable u) : roundUnits u scale = u := by
  have pos : 0 < scale := Nat.two_pow_pos unitBits
  unfold roundUnits
  rw [Nat.mul_div_cancel_left u pos]
  obtain ⟨m, hm⟩ := h.1
  have split : scale * u = m * (scale * 2 ^ ulpExponent u) := by
    conv_lhs => rw [hm]
    ring
  dsimp only
  rw [split, roundHalfEven_exact m (Nat.mul_pos pos (Nat.two_pow_pos _)), mul_comm, ← hm]

theorem roundUnits_zero (d : Nat) : roundUnits 0 d = 0 := by
  simp [roundUnits, roundHalfEven]

namespace PyFloat

theorem ofRatio_scale (negative : Bool) (n d : Nat) {c : Nat} (hc : 0 < c) :
    ofRatio negative (n * c) (d * c) = ofRatio negative n d := by
  simp only [ofRatio, roundUnits_scale n d hc]

/-- A double depends on the value of a decimal literal only. -/
theorem ofDecimal_shift (negative : Bool) (m k : Nat) (p : Int) :
    ofDecimal negative (m * 10 ^ k) (p - k) = ofDecimal negative m p := by
  have ten : ∀ j, 0 < 10 ^ j := fun j => Nat.pow_pos (by decide)
  unfold ofDecimal
  by_cases hp : 0 ≤ p
  · rw [if_pos hp]
    by_cases hk : 0 ≤ p - k
    · rw [if_pos hk, mul_assoc, ← pow_add]
      congr 3
      omega
    · rw [if_neg hk, ← ofRatio_scale negative (m * 10 ^ p.toNat) 1 (ten (-(p - k)).toNat),
        mul_assoc, ← pow_add, one_mul]
      congr 4
      omega
  · rw [if_neg hp, if_neg (by omega), ← ofRatio_scale negative m _ (ten k), ← pow_add]
    congr 2
    omega

end PyFloat

/-- `a / b` of two ints, `0 < b`; none for `OverflowError`. -/
def trueDivide (a : Int) (b : Nat) : Option Finite :=
  match PyFloat.ofRatio (a < 0) a.natAbs b with
  | .finite x => some x
  | _ => none

/-- `round(x, places)`. -/
def roundPlaces (x : Finite) (places : Nat) : PyFloat :=
  .ofDecimal x.negative (roundHalfEven (10 ^ places * x.units) scale) (-places)

theorem representable_scale : Representable scale := by decide +kernel

theorem representable_zero : Representable 0 := ⟨dvd_zero _, Nat.two_pow_pos _⟩

theorem PyFloat.ofDecimal_zero (negative : Bool) (p : Int) :
    ofDecimal negative 0 p = .finite ⟨negative, 0, representable_zero⟩ := by
  simp only [ofDecimal, Nat.zero_mul, ite_self, ofRatio, roundUnits_zero, representable_zero,
    dite_true]

/-! ## Shortest representation -/

namespace Finite

/-- All decimal digits of the magnitude: it is `expansion * 10 ^ -unitBits`. -/
def expansion (x : Finite) : Nat := 5 ^ unitBits * x.units

/-- The two decimals of `n` digits around the magnitude, the nearer one first. -/
def neighbours (x : Finite) (n : Nat) : List (Nat × Int) :=
  let drop := (digits x.expansion).length - n
  let below := x.expansion / 10 ^ drop
  let p : Int := drop - unitBits
  if roundHalfEven x.expansion (10 ^ drop) = below then [(below, p), (below + 1, p)]
  else [(below + 1, p), (below, p)]

/-- The fewest digits that read back as `x`. Seventeen always do; past them stands the exact
expansion. -/
def nearest (x : Finite) : Nat × Int :=
  (((List.range 17).flatMap fun n => x.neighbours (n + 1)).find? fun c =>
    PyFloat.ofDecimal x.negative c.1 c.2 = .finite x).getD (x.expansion, -unitBits)

/-- Drops trailing zeros, at most `fuel` of them. -/
def trim : Nat → Nat × Int → Nat × Int
  | 0, c => c
  | fuel + 1, c => if c.1 % 10 = 0 then trim fuel (c.1 / 10, c.2 + 1) else c

def shortest (x : Finite) : Nat × Int :=
  if x.units = 0 then (0, 0) else trim (digits x.nearest.1).length x.nearest

theorem ofDecimal_expansion (x : Finite) :
    PyFloat.ofDecimal x.negative x.expansion (-unitBits) = .finite x := by
  have ten : ∀ k : Nat, (10 : Nat) ^ k = 2 ^ k * 5 ^ k := fun k => by rw [← Nat.mul_pow]
  have exact : PyFloat.ofRatio x.negative x.units scale = .finite x := by
    unfold PyFloat.ofRatio
    simp only [roundUnits_scale_self x.representable, x.representable, dite_true]
  have below : ¬ 0 ≤ -(unitBits : Int) := by decide
  rw [PyFloat.ofDecimal, if_neg below, Int.neg_neg, Int.toNat_natCast, ten, expansion,
    mul_comm (5 ^ unitBits), ← scale, PyFloat.ofRatio_scale _ _ _ (Nat.pow_pos (by decide)), exact]

theorem ofDecimal_nearest (x : Finite) :
    PyFloat.ofDecimal x.negative x.nearest.1 x.nearest.2 = .finite x := by
  unfold nearest
  cases h : List.find? _ _ with
  | none => exact ofDecimal_expansion x
  | some c => simpa using List.find?_some h

theorem ofDecimal_trim (negative : Bool) (fuel : Nat) (c : Nat × Int) :
    PyFloat.ofDecimal negative (trim fuel c).1 (trim fuel c).2
      = PyFloat.ofDecimal negative c.1 c.2 := by
  induction fuel generalizing c with
  | zero => rfl
  | succ fuel ih =>
    unfold trim
    split
    · rename_i zero
      rw [ih, ← PyFloat.ofDecimal_shift negative (c.1 / 10) 1]
      congr 1 <;> simp only [pow_one] <;> omega
    · rfl

theorem ofDecimal_shortest (x : Finite) :
    PyFloat.ofDecimal x.negative x.shortest.1 x.shortest.2 = .finite x := by
  unfold shortest
  split
  · rename_i zero
    obtain ⟨negative, units, h⟩ := x
    obtain rfl : units = 0 := zero
    exact PyFloat.ofDecimal_zero negative 0
  · rw [ofDecimal_trim, ofDecimal_nearest]

theorem shortest_zero {x : Finite} (h : x.shortest.1 = 0) : x.shortest.2 = 0 := by
  have zero : x.units = 0 := by
    have value := ofDecimal_shortest x
    rw [h, PyFloat.ofDecimal_zero] at value
    exact (congrArg Finite.units (PyFloat.finite.inj value)).symm
  simp [shortest, zero]

end Finite

/-! ## Number literals -/

/-- A decimal literal `-whole.fraction e±digits`; the fraction may be empty. -/
structure Literal where
  negative : Bool
  whole : Str
  fraction : Str
  exponent : Option (Bool × Str)
deriving DecidableEq

namespace Literal

def exponentText : Option (Bool × Str) → Str
  | none => []
  | some (negative, ds) => lit "e" ++ (if negative then lit "-" else lit "+") ++ ds

def fractionText (ds : Str) : Str := if ds = [] then [] else lit "." ++ ds

def text (l : Literal) : Str :=
  (if l.negative then lit "-" else []) ++ l.whole ++ fractionText l.fraction
    ++ exponentText l.exponent

def exponentValue : Option (Bool × Str) → Int
  | none => 0
  | some (negative, ds) => if negative then -(ofDigits ds) else ofDigits ds

def value (l : Literal) : PyFloat :=
  .ofDecimal l.negative (ofDigits (l.whole ++ l.fraction))
    (exponentValue l.exponent - l.fraction.length)

/-- The literals of the number grammar that `float` reads. -/
structure WellFormed (l : Literal) : Prop where
  whole_digits : ∀ c ∈ l.whole, isDigit c = true
  whole_ne_nil : l.whole ≠ []
  /-- No leading zero but in zero itself. -/
  whole_head : ∀ c s, l.whole = c :: s → c.val = 48 → s = []
  fraction_digits : ∀ c ∈ l.fraction, isDigit c = true
  exponent_digits : ∀ b ds, l.exponent = some (b, ds) → ds ≠ [] ∧ ∀ c ∈ ds, isDigit c = true
  /-- Otherwise it is an integer literal. -/
  floating : l.fraction ≠ [] ∨ l.exponent ≠ none

end Literal

def zeros (k : Nat) : Str := List.replicate k (CodePoint.ofChar '0')

/-- Exponents are written with two digits at least. -/
def exponentDigits (k : Nat) : Str := (if k < 10 then zeros 1 else []) ++ digits k

namespace Finite

/-- `float.__repr__`: fixed notation while the decimal point stays within 4 places before and
16 after the first digit. -/
def literal (x : Finite) : Literal :=
  let d := digits x.shortest.1
  let point := d.length + x.shortest.2
  if -4 < point ∧ point ≤ 16 then
    if point ≤ 0 then ⟨x.negative, zeros 1, zeros (-point).toNat ++ d, none⟩
    else if point < d.length then ⟨x.negative, d.take point.toNat, d.drop point.toNat, none⟩
    else ⟨x.negative, d ++ zeros (point - d.length).toNat, zeros 1, none⟩
  else
    ⟨x.negative, d.take 1, d.drop 1, some (point - 1 < 0, exponentDigits (point - 1).natAbs)⟩

def repr (x : Finite) : Str := x.literal.text

theorem ofDigits_exponentDigits (k : Nat) : ofDigits (exponentDigits k) = k := by
  unfold exponentDigits
  split
  · rw [ofDigits_append, zeros, ofDigits_zeros, ofDigits_digits, zero_mul, zero_add]
  · exact ofDigits_digits k

/-- `float(repr(x)) == x`. -/
theorem value_literal (x : Finite) : x.literal.value = .finite x := by
  rw [← ofDecimal_shortest x]
  have value := ofDigits_digits x.shortest.1
  have pos := List.length_pos_iff.mpr (digits_ne_nil x.shortest.1)
  unfold literal Literal.value
  generalize digits x.shortest.1 = d at value pos
  generalize x.shortest.1 = m at value
  generalize x.shortest.2 = p
  dsimp only
  split_ifs with fixed small inside
  · simp only [ofDigits_append, zeros, ofDigits_zeros, Literal.exponentValue, value]
    congr 1
    · simp
    · simp only [List.length_append, List.length_replicate]
      omega
  · simp only [List.take_append_drop, Literal.exponentValue, value, List.length_drop]
    congr 1
    omega
  · rw [← PyFloat.ofDecimal_shift x.negative m (p.toNat + 1)]
    simp only [ofDigits_append, zeros, ofDigits_zeros, Literal.exponentValue, value,
      List.length_replicate, pow_succ, pow_zero, one_mul]
    congr 1
    · rw [show ((d.length : Int) + p - d.length).toNat = p.toNat by omega, add_zero, add_zero,
        mul_assoc]
    · push_cast
      omega
  · have exponent : Literal.exponentValue
        (some (decide ((d.length : Int) + p - 1 < 0), exponentDigits (d.length + p - 1).natAbs))
        = d.length + p - 1 := by
      simp only [Literal.exponentValue, ofDigits_exponentDigits, decide_eq_true_eq]
      split <;> omega
    simp only [List.take_append_drop, value, exponent, List.length_drop]
    congr 1
    omega

theorem wellFormed_literal (x : Finite) : x.literal.WellFormed := by
  have zero_digit : ∀ k, ∀ c ∈ zeros k, isDigit c = true := by
    intro k c hc
    rw [List.eq_of_mem_replicate hc]
    decide
  have digit : ∀ c ∈ digits x.shortest.1, isDigit c = true := fun c hc => digits_isDigit hc
  have exponent : ∀ k, exponentDigits k ≠ [] ∧ ∀ c ∈ exponentDigits k, isDigit c = true := by
    intro k
    refine ⟨by simp [exponentDigits, digits_ne_nil], fun c hc => ?_⟩
    rcases List.mem_append.mp hc with hc | hc
    · split at hc
      · exact zero_digit 1 c hc
      · simp at hc
    · exact digits_isDigit hc
  have ne := digits_ne_nil x.shortest.1
  have head : ∀ c s, digits x.shortest.1 = c :: s → c.val = 48 → s = [] :=
    fun c s h z => (digits_head h z).2
  have pos := List.length_pos_iff.mpr ne
  have zero : ∀ c s, digits x.shortest.1 = c :: s → c.val = 48 → x.shortest.2 = 0 :=
    fun c s h z => shortest_zero (digits_head h z).1
  unfold literal
  generalize digits x.shortest.1 = d at digit ne head pos zero
  generalize x.shortest.2 = p at zero
  dsimp only
  split_ifs with fixed small inside
  · refine ⟨zero_digit 1, by simp [zeros], ?_, ?_, by simp, .inl ?_⟩
    · rintro c s h -
      simpa [zeros] using (List.cons.inj h).2.symm
    · intro c hc
      rcases List.mem_append.mp hc with hc | hc
      · exact zero_digit _ c hc
      · exact digit c hc
    · simp [ne]
  · refine ⟨fun c hc => digit c (List.mem_of_mem_take hc), ?_, ?_,
      fun c hc => digit c (List.mem_of_mem_drop hc), by simp, .inl ?_⟩
    · simp only [ne_eq, List.take_eq_nil_iff, ne, or_false]
      omega
    · intro c s h z
      have whole : d = c :: (s ++ d.drop (d.length + p).toNat) := by
        rw [← List.cons_append, ← h, List.take_append_drop]
      exact (List.append_eq_nil_iff.mp (head c _ whole z)).1
    · simp only [ne_eq, List.drop_eq_nil_iff]
      omega
  · refine ⟨?_, by simp [ne], ?_, zero_digit 1, by simp, .inl (by simp [zeros])⟩
    · intro c hc
      rcases List.mem_append.mp hc with hc | hc
      · exact digit c hc
      · exact zero_digit _ c hc
    · intro c s h z
      obtain ⟨e, d, rfl⟩ := List.exists_cons_of_ne_nil ne
      obtain ⟨rfl, rfl⟩ := List.cons.inj h
      have alone := head e d rfl z
      subst alone
      simp [zeros, zero e [] rfl z]
  · refine ⟨fun c hc => digit c (List.mem_of_mem_take hc), by simp [ne], ?_,
      fun c hc => digit c (List.mem_of_mem_drop hc), ?_, .inr (by simp)⟩
    · intro c s h z
      cases d with
      | nil => simp at ne
      | cons e d => simpa using (List.cons.inj h).2.symm
    · rintro b ds h
      obtain ⟨-, rfl⟩ := by simpa using h
      exact exponent _

end Finite

end QaCopilot.Python
