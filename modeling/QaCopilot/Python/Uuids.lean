import QaCopilot.Python.JsonRoundTrip

/-!
# UUIDs and their text

`str(uuid)`, the constructor `UUID(text)`, which takes more texts than that one, and `uuid5`.

* `parseUuid_uuidText`: the constructor reads back what `str` wrote.
-/

namespace QaCopilot.Python

/-- The last `width` hexadecimal digits of `n`. -/
def hexText : Nat → Nat → Str
  | 0, _ => []
  | width + 1, n => hexText width (n / 16) ++ [hexDigit (n % 16)]

/-- `str(uuid)` -/
def uuidText (u : Uuid) : Str :=
  let hex := hexText 32 u.toNat
  hex.take 8 ++ lit "-" ++ (hex.drop 8).take 4 ++ lit "-" ++ (hex.drop 12).take 4 ++ lit "-" ++
    (hex.drop 16).take 4 ++ lit "-" ++ hex.drop 20

/-- `str.replace(old, "")`; the number counts what is left of an occurrence. -/
def removeText (old : Str) : Nat → Str → Str
  | _, [] => []
  | skip + 1, _ :: s => removeText old skip s
  | 0, c :: s =>
    if old.isPrefixOf (c :: s) then removeText old (old.length - 1) s else c :: removeText old 0 s

/-- `str.strip(chars)` -/
def stripChars (chars : Str) (s : Str) : Str :=
  ((s.dropWhile chars.contains).reverse.dropWhile chars.contains).reverse

/-- A digit of base 16, in ASCII or a decimal digit of another script. -/
def hexDigitValue (decimal : CodePoint → Option Nat) (c : CodePoint) : Option Nat :=
  match hexValue c with
  | some n => some n
  | none => decimal c

/-- The digits of a hexadecimal numeral without its `0x`, after which one underscore may stand. -/
def hexBody : Str → Str
  | zero :: x :: s =>
    if zero = CodePoint.ofChar '0' ∧ (x = CodePoint.ofChar 'x' ∨ x = CodePoint.ofChar 'X') then
      match s with
      | c :: s => if c = CodePoint.ofChar '_' then s else c :: s
      | [] => []
    else zero :: x :: s
  | s => s

/-- `int(s, 16)`; none where Python raises `ValueError`. -/
def parseHex (decimal : CodePoint → Option Nat) (s : Str) : Option Int := do
  let (negative, body) := match strip s with
    | c :: body =>
      if c = CodePoint.ofChar '-' then (true, body)
      else if c = CodePoint.ofChar '+' then (false, body)
      else (false, c :: body)
    | [] => (false, [])
  let digits ← numeral (hexDigitValue decimal) (hexBody body)
  let n : Int := Int.ofNat (digits.foldl (fun n d => 16 * n + d) 0)
  return if negative then -n else n

/-- `UUID(text)`; none where Python raises `ValueError`. -/
def parseUuid (decimal : CodePoint → Option Nat) (text : Str) : Option Uuid := do
  let hex := removeText (lit "uuid:") 0 (removeText (lit "urn:") 0 text)
  let hex := (stripChars (lit "\x7b\x7d") hex).filter (· ≠ CodePoint.ofChar '-')
  if hex.length ≠ 32 then none
  let n ← parseHex decimal hex
  if n < 0 ∨ 2 ^ 128 ≤ n then none
  return BitVec.ofInt 128 n

/-- `uuid5(namespace, name)`: the hash of both, with the version and the variant written over it. -/
def uuid5 (sha1 : Bytes → BitVec 160) (space : Uuid) (name : Str) : Uuid :=
  let hash := sha1 ((List.range 16).map (fun i => UInt8.ofNat (space.toNat / 256 ^ (15 - i) % 256))
    ++ (utf8 name).getD [])
  let bits : Uuid := hash.extractLsb' 32 128
  let variant := (bits &&& ~~~(0xC000#128 <<< 48)) ||| (0x8000#128 <<< 48)
  (variant &&& ~~~(0xF000#128 <<< 64)) ||| (5#128 <<< 76)

example : uuidText 0xf2e32d13e8fe4b5390e975443b896a35#128 =
    lit "f2e32d13-e8fe-4b53-90e9-75443b896a35" := by decide +kernel

/-! ## Reading a UUID back -/

theorem length_hexText (width n : Nat) : (hexText width n).length = width := by
  induction width generalizing n with
  | zero => rfl
  | succ width ih => simp [hexText, ih]

theorem mem_hexText {width n : Nat} {c : CodePoint} (h : c ∈ hexText width n) :
    ∃ d, d < 16 ∧ c = hexDigit d := by
  induction width generalizing n with
  | zero => cases h
  | succ width ih =>
    rcases List.mem_append.mp h with h | h
    · exact ih h
    · exact ⟨n % 16, Nat.mod_lt n (by decide), List.mem_singleton.mp h⟩

def isLowerHex (c : CodePoint) : Bool :=
  (0x30 ≤ c.val && c.val ≤ 0x39) || (0x61 ≤ c.val && c.val ≤ 0x66)

theorem isLowerHex_hexDigit : ∀ {d : Nat}, d < 16 → isLowerHex (hexDigit d) = true := by
  decide

/-- A digit is none of the other characters that the readers look for. -/
theorem hexDigit_ne {d : Nat} {c : CodePoint} (lt : d < 16) (other : isLowerHex c = false) :
    hexDigit d ≠ c := by
  rintro rfl
  simp [isLowerHex_hexDigit lt] at other

theorem isSpace_hexDigit : ∀ {d : Nat}, d < 16 → isSpace (hexDigit d) = false := by
  decide

theorem removeText_absent {old : Str} {mark : CodePoint} (marked : mark ∈ old) :
    ∀ {s : Str}, mark ∉ s → removeText old 0 s = s := by
  intro s absent
  induction s with
  | nil => rfl
  | cons c s ih =>
    have differs : old.isPrefixOf (c :: s) = false := by
      rw [Bool.eq_false_iff]
      intro starts
      exact absent ((List.isPrefixOf_iff_prefix.mp starts).subset marked)
    rw [removeText, if_neg (by simp [differs]), ih fun h => absent (List.mem_cons_of_mem c h)]

theorem stripChars_plain {chars s : Str} (plain : ∀ c ∈ s, c ∉ chars) : stripChars chars s = s := by
  have keeps : ∀ t : Str, (∀ c ∈ t, c ∉ chars) → t.dropWhile chars.contains = t := by
    intro t plain
    cases t with
    | nil => rfl
    | cons c t => simp [plain c List.mem_cons_self]
  rw [stripChars, keeps s plain, keeps s.reverse fun c hc => plain c (List.mem_reverse.mp hc),
    List.reverse_reverse]

theorem numeral_digits {f : CodePoint → Option Nat} {v : CodePoint → Nat} {s : Str} (some' : s ≠ [])
    (digits : ∀ c ∈ s, f c = some (v c) ∧ c ≠ CodePoint.ofChar '_') :
    numeral f s = some (s.map v) := by
  induction s with
  | nil => exact absurd rfl some'
  | cons c s ih =>
    have first := (digits c List.mem_cons_self).1
    cases s with
    | nil => simp [numeral, first]
    | cons d s =>
      have second := (digits d (by simp)).2
      rw [numeral.eq_def]
      simp only [first, if_neg second, ih (List.cons_ne_nil d s)
        fun e he => digits e (List.mem_cons_of_mem c he)]
      rfl

/-- The value of a digit. -/
def hexOf (c : CodePoint) : Nat := (hexValue c).getD 0

theorem foldl_hexText (width n init : Nat) :
    ((hexText width n).map hexOf).foldl (fun n d => 16 * n + d) init =
      16 ^ width * init + n % 16 ^ width := by
  induction width generalizing n with
  | zero => simp [hexText, Nat.mod_one]
  | succ width ih =>
    have digit : hexOf (hexDigit (n % 16)) = n % 16 := by
      rw [hexOf, hexValue_hexDigit (Nat.mod_lt n (by decide)), Option.getD_some]
    have split : n % 16 ^ (width + 1) = 16 * (n / 16 % 16 ^ width) + n % 16 := by
      rw [pow_succ, Nat.mul_comm, Nat.mod_mul, Nat.add_comm]
    rw [hexText, List.map_append, List.foldl_append, ih]
    simp only [List.map_cons, List.map_nil, List.foldl_cons, List.foldl_nil, digit, split]
    ring

theorem parseHex_hexText (decimal : CodePoint → Option Nat) (width n : Nat) :
    parseHex decimal (hexText (width + 2) n) = some ((n % 16 ^ (width + 2) : Nat) : Int) := by
  have digits : ∀ c ∈ hexText (width + 2) n, ∃ d, d < 16 ∧ c = hexDigit d := fun c h => mem_hexText h
  have trimmed : strip (hexText (width + 2) n) = hexText (width + 2) n := by
    apply strip_eq_self
    · intro c t eq
      obtain ⟨d, lt, rfl⟩ := digits c (eq ▸ List.mem_cons_self)
      exact isSpace_hexDigit lt
    · intro c t eq
      obtain ⟨d, lt, rfl⟩ := digits c (eq ▸ List.mem_append_right t (List.mem_singleton_self c))
      exact isSpace_hexDigit lt
  have value := foldl_hexText (width + 2) n 0
  have length := length_hexText (width + 2) n
  revert digits trimmed value length
  generalize hexText (width + 2) n = text
  intro digits trimmed value length
  obtain ⟨a, b, s, rfl⟩ : ∃ a b s, text = a :: b :: s := by
    match text, length with
    | a :: b :: s, _ => exact ⟨a, b, s, rfl⟩
  obtain ⟨da, lta, rfl⟩ := digits a List.mem_cons_self
  obtain ⟨db, ltb, rfl⟩ := digits b (by simp)
  have body : hexBody (hexDigit da :: hexDigit db :: s) = hexDigit da :: hexDigit db :: s := by
    rw [hexBody.eq_def]
    simp only [hexDigit_ne ltb (c := CodePoint.ofChar 'x') (by decide),
      hexDigit_ne ltb (c := CodePoint.ofChar 'X') (by decide), or_self, and_false, ↓reduceIte]
  have read : numeral (hexDigitValue decimal) (hexDigit da :: hexDigit db :: s) =
      some ((hexDigit da :: hexDigit db :: s).map hexOf) := by
    apply numeral_digits (List.cons_ne_nil _ _)
    intro c hc
    obtain ⟨d, lt, rfl⟩ := digits c hc
    constructor
    · simp only [hexDigitValue, hexOf, hexValue_hexDigit lt, Option.getD_some]
    · exact hexDigit_ne lt (by decide)
  rw [parseHex, trimmed]
  simp only [hexDigit_ne lta (c := CodePoint.ofChar '-') (by decide),
    hexDigit_ne lta (c := CodePoint.ofChar '+') (by decide), ↓reduceIte, body, read, Option.bind_eq_bind, Option.bind_some, value, Nat.mul_zero, Nat.zero_add,
    Bool.false_eq_true]
  rfl

theorem mem_uuidText {u : Uuid} {c : CodePoint} (h : c ∈ uuidText u) :
    c = CodePoint.ofChar '-' ∨ ∃ d, d < 16 ∧ c = hexDigit d := by
  have dash : ∀ {c}, c ∈ lit "-" → c = CodePoint.ofChar '-' := by
    intro c hc
    simpa [lit_eq] using hc
  simp only [uuidText, List.mem_append] at h
  rcases h with (((((((h | h) | h) | h) | h) | h) | h) | h) | h
  · exact .inr (mem_hexText (List.mem_of_mem_take h))
  · exact .inl (dash h)
  · exact .inr (mem_hexText (List.mem_of_mem_drop (List.mem_of_mem_take h)))
  · exact .inl (dash h)
  · exact .inr (mem_hexText (List.mem_of_mem_drop (List.mem_of_mem_take h)))
  · exact .inl (dash h)
  · exact .inr (mem_hexText (List.mem_of_mem_drop (List.mem_of_mem_take h)))
  · exact .inl (dash h)
  · exact .inr (mem_hexText (List.mem_of_mem_drop h))

/-- The groups of a UUID without the dashes. -/
theorem filter_uuidText (u : Uuid) :
    (uuidText u).filter (· ≠ CodePoint.ofChar '-') = hexText 32 u.toNat := by
  have keeps : ∀ {s : Str}, s ⊆ hexText 32 u.toNat →
      s.filter (· ≠ CodePoint.ofChar '-') = s := by
    intro s sub
    apply List.filter_eq_self.mpr
    intro c hc
    obtain ⟨d, lt, rfl⟩ := mem_hexText (sub hc)
    simpa using hexDigit_ne lt (c := CodePoint.ofChar '-') (by decide)
  have dash : (lit "-").filter (· ≠ CodePoint.ofChar '-') = [] := by decide
  have sub : ∀ a b, ((hexText 32 u.toNat).drop a).take b ⊆ hexText 32 u.toNat :=
    fun a b _ h => List.mem_of_mem_drop (List.mem_of_mem_take h)
  have tail : ∀ k n, (hexText 32 u.toNat).drop (n + k) =
      ((hexText 32 u.toNat).drop n).drop k := by
    intro k n
    rw [List.drop_drop]
  simp only [uuidText, List.filter_append, dash, List.append_nil,
    keeps fun _ h => List.mem_of_mem_take h, keeps fun _ h => sub _ _ h,
    keeps fun _ h => List.mem_of_mem_drop h]
  rw [tail 4 16, tail 4 12, tail 4 8, List.append_assoc, List.append_assoc, List.append_assoc,
    List.take_append_drop, List.take_append_drop, List.take_append_drop, List.take_append_drop]

theorem parseUuid_uuidText (decimal : CodePoint → Option Nat) (u : Uuid) :
    parseUuid decimal (uuidText u) = some u := by
  have absent : ∀ {mark}, mark ≠ CodePoint.ofChar '-' → isLowerHex mark = false →
      mark ∉ uuidText u := by
    intro mark dash other h
    rcases mem_uuidText h with rfl | ⟨d, lt, rfl⟩
    · exact dash rfl
    · exact hexDigit_ne lt other rfl
  have colon : CodePoint.ofChar ':' ∉ uuidText u := absent (by decide) (by decide)
  have urn : CodePoint.ofChar ':' ∈ lit "urn:" := by decide
  have prefixed : CodePoint.ofChar ':' ∈ lit "uuid:" := by decide
  have braces : stripChars (lit "\x7b\x7d") (uuidText u) = uuidText u := by
    apply stripChars_plain
    intro c hc brace
    have which : c = CodePoint.ofChar '\x7b' ∨ c = CodePoint.ofChar '\x7d' := by
      simpa [lit_eq] using brace
    rcases which with rfl | rfl
    · exact absent (by decide) (by decide) hc
    · exact absent (by decide) (by decide) hc
  have small : u.toNat % 16 ^ (30 + 2) = u.toNat := Nat.mod_eq_of_lt (by simpa using u.isLt)
  have bound : ¬ ((u.toNat : Int) < 0 ∨ (2 : Int) ^ 128 ≤ u.toNat) := by
    have := u.isLt
    omega
  rw [parseUuid, removeText_absent urn colon, removeText_absent prefixed colon, braces, filter_uuidText,
    length_hexText, parseHex_hexText decimal 30, small]
  simp only [ne_eq, not_true_eq_false, ↓reduceIte, Option.bind_eq_bind, Option.bind_some, if_neg bound]
  simp

theorem parseUuid_uuidTexts (decimal : CodePoint → Option Nat) (us : List Uuid) :
    (us.map uuidText).mapM (parseUuid decimal) = some us := by
  induction us with
  | nil => rfl
  | cons u us ih =>
    rw [List.map_cons, List.mapM_cons, parseUuid_uuidText, ih]
    rfl

theorem uuidText_injective {u v : Uuid} (same : uuidText u = uuidText v) : u = v := by
  have read := parseUuid_uuidText (fun _ => none) u
  rw [same, parseUuid_uuidText] at read
  exact (Option.some.inj read).symm

end QaCopilot.Python
