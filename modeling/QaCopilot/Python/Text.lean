import Mathlib.Algebra.GroupWithZero.Nat
import Mathlib.Data.List.Basic
import Mathlib.Data.List.Nodup
import Mathlib.Data.List.TakeWhile

/-!
# Python text and bytes

A `str` is a list of code points, lone surrogates included. `utf8` is the strict
codec: it encodes no surrogate and decodes none.
-/

namespace QaCopilot.Python

abbrev CodePoint := Fin 0x110000

abbrev Str := List CodePoint

abbrev Bytes := List UInt8

/-- A UUID is its 128 bits, which order as its text does. -/
abbrev Uuid := BitVec 128

instance CodePoint.neZero : NeZero 0x110000 := ⟨by decide⟩

instance Str.lawfulBEq : LawfulBEq Str := inferInstanceAs (LawfulBEq (List CodePoint))

instance Uuid.lawfulBEq : LawfulBEq Uuid := inferInstanceAs (LawfulBEq (BitVec 128))

def CodePoint.ofChar (c : Char) : CodePoint :=
  ⟨c.toNat, by
    have h := c.valid
    simp only [UInt32.isValidChar, Nat.isValidChar] at h
    simp only [Char.toNat]
    omega⟩

def isHighSurrogate (c : CodePoint) : Bool := 0xD800 ≤ c.val && c.val < 0xDC00

def isLowSurrogate (c : CodePoint) : Bool := 0xDC00 ≤ c.val && c.val < 0xE000

def isSurrogate (c : CodePoint) : Bool := isHighSurrogate c || isLowSurrogate c

/-! ## UTF-8 -/

/-- The UTF-8 bytes of one code point; none for a surrogate. -/
def encodePoint (c : CodePoint) : Option Bytes :=
  let n := c.val
  if n < 0x80 then some [.ofNat n]
  else if n < 0x800 then some [.ofNat (0xC0 + n / 0x40), .ofNat (0x80 + n % 0x40)]
  else if isSurrogate c then none
  else if n < 0x10000 then
    some [.ofNat (0xE0 + n / 0x1000), .ofNat (0x80 + n / 0x40 % 0x40), .ofNat (0x80 + n % 0x40)]
  else
    some [.ofNat (0xF0 + n / 0x40000), .ofNat (0x80 + n / 0x1000 % 0x40),
      .ofNat (0x80 + n / 0x40 % 0x40), .ofNat (0x80 + n % 0x40)]

/-- `str.encode("utf-8")`; none where Python raises `UnicodeEncodeError`. -/
def utf8 : Str → Option Bytes
  | [] => some []
  | c :: s => do return (← encodePoint c) ++ (← utf8 s)

/-- The code point of the bytes, if they are its encoding. -/
def decodePoint (bytes : Bytes) : Option CodePoint := do
  let n ← match bytes.map UInt8.toNat with
    | [a] => some a
    | [a, b] => some (0x40 * (a - 0xC0) + (b - 0x80))
    | [a, b, c] => some (0x1000 * (a - 0xE0) + 0x40 * (b - 0x80) + (c - 0x80))
    | [a, b, c, d] =>
      some (0x40000 * (a - 0xF0) + 0x1000 * (b - 0x80) + 0x40 * (c - 0x80) + (d - 0x80))
    | _ => none
  if h : n < 0x110000 then
    if encodePoint ⟨n, h⟩ = some bytes then some ⟨n, h⟩ else none
  else none

/-- `bytes.decode("utf-8")`; none where Python raises `UnicodeDecodeError`. -/
def decodeUtf8 : Bytes → Option Str
  | [] => some []
  | a :: s =>
    if a < 0x80 then do return (← decodePoint [a]) :: (← decodeUtf8 s)
    else
      match s with
      | [] => none
      | b :: s =>
        if a < 0xE0 then do return (← decodePoint [a, b]) :: (← decodeUtf8 s)
        else
          match s with
          | [] => none
          | c :: s =>
            if a < 0xF0 then do return (← decodePoint [a, b, c]) :: (← decodeUtf8 s)
            else
              match s with
              | [] => none
              | d :: s => do return (← decodePoint [a, b, c, d]) :: (← decodeUtf8 s)

theorem encodePoint_isSome {c : CodePoint} : (encodePoint c).isSome = !isSurrogate c := by
  have wide : isSurrogate c = true → 0x800 ≤ c.val := by
    simp only [isSurrogate, isHighSurrogate, isLowSurrogate, Bool.or_eq_true, Bool.and_eq_true,
      decide_eq_true_eq]
    omega
  unfold encodePoint
  cases h : isSurrogate c
  · simp only [Bool.false_eq_true, ↓reduceIte]
    split_ifs <;> rfl
  · have := wide h
    simp only [↓reduceIte]
    rw [if_neg (by omega), if_neg (by omega)]
    rfl

theorem encodePoint_ofChar (c : Char) :
    encodePoint (.ofChar c) = some (String.utf8EncodeChar c) := by
  have valid := c.valid
  simp only [UInt32.isValidChar, Nat.isValidChar] at valid
  have value : (CodePoint.ofChar c).val = c.val.toNat := rfl
  have apart : isSurrogate (.ofChar c) = false := by
    simp only [isSurrogate, isHighSurrogate, isLowSurrogate, value, Bool.or_eq_false_iff,
      Bool.and_eq_false_iff, decide_eq_false_iff_not]
    omega
  simp only [encodePoint, String.utf8EncodeChar, value, apart, Bool.false_eq_true, if_false]
  generalize c.val.toNat = n at valid
  by_cases one : n < 0x80
  · rw [if_pos one, if_pos (by omega)]
  · by_cases two : n < 0x800
    · rw [if_neg one, if_pos two, if_neg (by omega), if_pos (by omega),
        show 0xC0 + n / 0x40 = n / 64 % 0x20 + 0xc0 by omega, Nat.add_comm 0x80]
    · by_cases three : n < 0x10000
      · rw [if_neg one, if_neg two, if_pos three, if_neg (by omega), if_neg (by omega),
          if_pos (by omega), show 0xE0 + n / 0x1000 = n / 4096 % 0x10 + 0xe0 by omega,
          Nat.add_comm 0x80, Nat.add_comm 0x80]
      · rw [if_neg one, if_neg two, if_neg three, if_neg (by omega), if_neg (by omega),
          if_neg (by omega), show 0xF0 + n / 0x40000 = n / 262144 % 0x08 + 0xf0 by omega,
          Nat.add_comm 0x80, Nat.add_comm 0x80, Nat.add_comm 0x80]

/-- Bytes that encode a code point are decoded to it. -/
theorem decodePoint_encodePoint {c : CodePoint} {bytes : Bytes}
    (made : encodePoint c = some bytes) : decodePoint bytes = some c := by
  have size := c.isLt
  have byte (n : Nat) (small : n < 256) : (UInt8.ofNat n).toNat = n :=
    UInt8.toNat_ofNat_of_lt' small
  have shape := made
  unfold encodePoint at shape
  dsimp only at shape
  split_ifs at shape
  · obtain rfl := Option.some.inj shape
    have value := byte c.val (by omega)
    simp only [decodePoint, List.map, value, Option.bind_eq_bind, Option.bind_some, size,
      ↓reduceDIte, made, if_true]
  · obtain rfl := Option.some.inj shape
    have value : 0x40 * ((UInt8.ofNat (0xC0 + c.val / 0x40)).toNat - 0xC0) +
        ((UInt8.ofNat (0x80 + c.val % 0x40)).toNat - 0x80) = c.val := by
      rw [byte _ (by omega), byte _ (by omega)]
      omega
    simp only [decodePoint, List.map, value, Option.bind_eq_bind, Option.bind_some, size,
      ↓reduceDIte, made, if_true]
  · obtain rfl := Option.some.inj shape
    have value : 0x1000 * ((UInt8.ofNat (0xE0 + c.val / 0x1000)).toNat - 0xE0) +
        0x40 * ((UInt8.ofNat (0x80 + c.val / 0x40 % 0x40)).toNat - 0x80) +
        ((UInt8.ofNat (0x80 + c.val % 0x40)).toNat - 0x80) = c.val := by
      rw [byte _ (by omega), byte _ (by omega), byte _ (by omega)]
      omega
    simp only [decodePoint, List.map, value, Option.bind_eq_bind, Option.bind_some, size,
      ↓reduceDIte, made, if_true]
  · obtain rfl := Option.some.inj shape
    have value : 0x40000 * ((UInt8.ofNat (0xF0 + c.val / 0x40000)).toNat - 0xF0) +
        0x1000 * ((UInt8.ofNat (0x80 + c.val / 0x1000 % 0x40)).toNat - 0x80) +
        0x40 * ((UInt8.ofNat (0x80 + c.val / 0x40 % 0x40)).toNat - 0x80) +
        ((UInt8.ofNat (0x80 + c.val % 0x40)).toNat - 0x80) = c.val := by
      rw [byte _ (by omega), byte _ (by omega), byte _ (by omega), byte _ (by omega)]
      omega
    simp only [decodePoint, List.map, value, Option.bind_eq_bind, Option.bind_some, size,
      ↓reduceDIte, made, if_true]

theorem decodeUtf8_one {a : UInt8} {s : Bytes} (h : a.toNat < 0x80) :
    decodeUtf8 (a :: s) = do return (← decodePoint [a]) :: (← decodeUtf8 s) := by
  rw [decodeUtf8.eq_def]
  exact if_pos h

theorem decodeUtf8_two {a b : UInt8} {s : Bytes} (h : ¬ a.toNat < 0x80) (h' : a.toNat < 0xE0) :
    decodeUtf8 (a :: b :: s) = do return (← decodePoint [a, b]) :: (← decodeUtf8 s) := by
  rw [decodeUtf8.eq_def]
  exact (if_neg h).trans (if_pos h')

theorem decodeUtf8_three {a b c : UInt8} {s : Bytes} (h : ¬ a.toNat < 0xE0)
    (h' : a.toNat < 0xF0) : decodeUtf8 (a :: b :: c :: s) =
      do return (← decodePoint [a, b, c]) :: (← decodeUtf8 s) := by
  have more : ¬ a.toNat < 0x80 := by omega
  rw [decodeUtf8.eq_def]
  exact (if_neg more).trans ((if_neg h).trans (if_pos h'))

theorem decodeUtf8_four {a b c d : UInt8} {s : Bytes} (h : ¬ a.toNat < 0xF0) :
    decodeUtf8 (a :: b :: c :: d :: s) =
      do return (← decodePoint [a, b, c, d]) :: (← decodeUtf8 s) := by
  have more : ¬ a.toNat < 0x80 := by omega
  have more' : ¬ a.toNat < 0xE0 := by omega
  rw [decodeUtf8.eq_def]
  exact (if_neg more).trans ((if_neg more').trans (if_neg h))

/-- Bytes that encode a code point are decoded to it, whatever follows them. -/
theorem decodeUtf8_encodePoint {c : CodePoint} {bytes : Bytes} (made : encodePoint c = some bytes)
    (s : Bytes) : decodeUtf8 (bytes ++ s) = (decodeUtf8 s).map (c :: ·) := by
  have size := c.isLt
  have own := decodePoint_encodePoint made
  have last : (do return (← some c) :: (← decodeUtf8 s)) = (decodeUtf8 s).map (c :: ·) := by
    cases decodeUtf8 s <;> rfl
  have byte (n : Nat) (small : n < 256) : (UInt8.ofNat n).toNat = n :=
    UInt8.toNat_ofNat_of_lt' small
  unfold encodePoint at made
  dsimp only at made
  split_ifs at made
  · obtain rfl := Option.some.inj made
    have lead := byte c.val (by omega)
    rw [List.singleton_append, decodeUtf8_one (by omega), own, last]
  · obtain rfl := Option.some.inj made
    have lead := byte (0xC0 + c.val / 0x40) (by omega)
    rw [List.cons_append, List.singleton_append, decodeUtf8_two (by omega) (by omega), own, last]
  · obtain rfl := Option.some.inj made
    have lead := byte (0xE0 + c.val / 0x1000) (by omega)
    rw [List.cons_append, List.cons_append, List.singleton_append,
      decodeUtf8_three (by omega) (by omega), own, last]
  · obtain rfl := Option.some.inj made
    have lead := byte (0xF0 + c.val / 0x40000) (by omega)
    rw [List.cons_append, List.cons_append, List.cons_append, List.singleton_append,
      decodeUtf8_four (by omega), own, last]

theorem decodeUtf8_utf8Encode (cs : List Char) :
    decodeUtf8 (cs.flatMap String.utf8EncodeChar) = some (cs.map CodePoint.ofChar) := by
  induction cs with
  | nil => rfl
  | cons c cs ih =>
    rw [List.flatMap_cons, decodeUtf8_encodePoint (encodePoint_ofChar c), ih]
    rfl

/-! ## Literals -/

/-- A literal of the source, read from its bytes. -/
def lit (s : String) : Str := (decodeUtf8 s.toByteArray.data.toList).getD []

theorem lit_eq (s : String) : lit s = s.toList.map CodePoint.ofChar := by
  have bytes : s.toByteArray.data.toList = s.toList.flatMap String.utf8EncodeChar := by
    rw [← String.utf8Encode_toList, List.utf8Encode, List.data_toByteArray]
  rw [lit, bytes, decodeUtf8_utf8Encode, Option.getD_some]

theorem lit_ofList (cs : List Char) : lit (String.ofList cs) = cs.map CodePoint.ofChar := by
  rw [lit_eq, String.toList_ofList]

theorem lit_injective : Function.Injective lit := by
  intro s t same
  rw [lit_eq, lit_eq] at same
  have chars : Function.Injective CodePoint.ofChar := by
    intro a b eq
    have values : (CodePoint.ofChar a).val = (CodePoint.ofChar b).val := by rw [eq]
    exact Char.toNat_inj.mp values
  exact String.toList_injective (chars.list_map same)

/-- The members of an enumeration that have different texts are told apart by them. -/
theorem texts_injective {K : Type} {f : K → Str} (all : List K) (complete : ∀ k, k ∈ all)
    (distinct : (all.map f).Nodup) : Function.Injective f :=
  fun k k' same => List.inj_on_of_nodup_map distinct (complete k) (complete k') same

example : decodeUtf8 [0x61, 0xE2, 0x82, 0xAC] = some (lit "a€") := by decide

/-! ## Blanks and numerals -/

/-- `str.isspace` of one character. -/
def isSpace (c : CodePoint) : Bool :=
  (0x09 ≤ c.val && c.val ≤ 0x0D) || (0x1C ≤ c.val && c.val ≤ 0x20) || c.val == 0x85 ||
    c.val == 0xA0 || c.val == 0x1680 || (0x2000 ≤ c.val && c.val ≤ 0x200A) ||
    c.val == 0x2028 || c.val == 0x2029 || c.val == 0x202F || c.val == 0x205F || c.val == 0x3000

def lstrip (s : Str) : Str := s.dropWhile isSpace

def rstrip (s : Str) : Str := s.reverse.dropWhile isSpace |>.reverse

def strip (s : Str) : Str := rstrip (lstrip s)

/-- A text without blanks at its ends. -/
theorem strip_eq_self {s : Str} (first : ∀ c t, s = c :: t → isSpace c = false)
    (last : ∀ c t, s = t ++ [c] → isSpace c = false) : strip s = s := by
  have front : lstrip s = s := by
    cases s with
    | nil => rfl
    | cons c t => simp [lstrip, first c t rfl]
  rw [strip, front, rstrip]
  rcases List.eq_nil_or_concat s with rfl | ⟨t, c, rfl⟩
  · rfl
  · have := last c t (by simp)
    simp [this]

theorem dropWhile_first {s t : Str} {c : CodePoint} (h : s.dropWhile isSpace = c :: t) :
    isSpace c = false := by
  have := List.head?_dropWhile_not isSpace s
  rw [h] at this
  simpa using this

theorem rstrip_isPrefix (s : Str) : rstrip s <+: s := by
  rw [← List.reverse_suffix, rstrip, List.reverse_reverse]
  exact List.dropWhile_suffix isSpace

theorem strip_ends (s : Str) : (∀ c t, strip s = c :: t → isSpace c = false) ∧
    ∀ c t, strip s = t ++ [c] → isSpace c = false := by
  constructor
  · intro c t h
    obtain ⟨rest, eq⟩ := rstrip_isPrefix (lstrip s)
    rw [← strip, h, List.cons_append] at eq
    exact dropWhile_first eq.symm
  · intro c t h
    have kept : (lstrip s).reverse.dropWhile isSpace = c :: t.reverse := by
      rw [← List.reverse_reverse ((lstrip s).reverse.dropWhile isSpace)]
      exact (congrArg List.reverse h).trans (by simp)
    exact dropWhile_first kept

theorem strip_strip (s : Str) : strip (strip s) = strip s :=
  strip_eq_self (strip_ends s).1 (strip_ends s).2

/-- The tables of Unicode that a `str` method consults: `str.lower`, and the value of a character
that `int` takes for a decimal digit. -/
structure Unicode where
  lower : Str → Str
  decimal : CodePoint → Option Nat

/-- The digits of a decimal numeral; an underscore may stand between two of them. -/
def numeral (decimal : CodePoint → Option Nat) : Str → Option (List Nat)
  | [] => none
  | [c] => do return [← decimal c]
  | c :: d :: s => do
    let head ← decimal c
    if d = CodePoint.ofChar '_' then return head :: (← numeral decimal s)
    return head :: (← numeral decimal (d :: s))

/-- `sys.int_info.default_max_str_digits` -/
def maxStrDigits : Nat := 4300

/-- `int(s)`; none where Python raises `ValueError`. -/
def parseInt (decimal : CodePoint → Option Nat) (s : Str) : Option Int := do
  let (negative, body) := match strip s with
    | c :: body =>
      if c = CodePoint.ofChar '-' then (true, body)
      else if c = CodePoint.ofChar '+' then (false, body)
      else (false, c :: body)
    | [] => (false, [])
  let digits ← numeral decimal body
  if maxStrDigits < digits.length then none
  let n : Int := Int.ofNat (digits.foldl (fun n d => 10 * n + d) 0)
  return if negative then -n else n

/-! ## Digests -/

def hexDigit (n : Nat) : CodePoint := CodePoint.ofChar (Nat.digitChar n)

/-- `hexdigest()` of a SHA-256 hash. -/
def hexdigest (hash : BitVec 256) : Str :=
  (List.range 64).map fun i => hexDigit (hash.toNat / 16 ^ (63 - i) % 16)

/-- A lowercase hexadecimal SHA-256 digest. -/
def isDigest (s : Str) : Bool :=
  s.length = 64 && s.all fun c =>
    (0x30 ≤ c.val && c.val ≤ 0x39) || (0x61 ≤ c.val && c.val ≤ 0x66)

theorem isDigest_hexdigest (hash : BitVec 256) : isDigest (hexdigest hash) = true := by
  have digit : ∀ n, n < 16 → ((0x30 ≤ (hexDigit n).val && (hexDigit n).val ≤ 0x39) ||
      (0x61 ≤ (hexDigit n).val && (hexDigit n).val ≤ 0x66)) = true := by decide
  simp only [isDigest, Bool.and_eq_true, decide_eq_true_eq, List.all_eq_true]
  constructor
  · simp [hexdigest]
  · intro c hc
    obtain ⟨i, -, rfl⟩ := List.mem_map.mp hc
    exact digit _ (Nat.mod_lt _ (by decide))

end QaCopilot.Python
