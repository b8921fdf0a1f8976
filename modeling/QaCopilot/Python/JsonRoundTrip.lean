import QaCopilot.Python.JsonLoads

/-!
# `loads` after `dumps`

* `loads_dumps`: `loads` gives back a value from the text that `dumps` made of it, as long as its
  dicts have distinct keys and, where the text is ASCII, no string holds a high surrogate before a
  low one;
* `dumps_injective`: so two such values of one text are the same.
-/

namespace QaCopilot.Python

/-! ## Tokens -/

theorem lexFrom_append (text s : Str) : lexFrom text.length (text ++ s) = lexFrom 0 s := by
  induction text with
  | nil => rfl
  | cons c text ih => exact ih

/-- A token is followed by those of the text after it. -/
theorem lexFrom_token {c : CodePoint} (text : Str) {s : Str} {t : Token}
    (space : isJsonSpace c = false) (scan : scanToken c (text ++ s) = some (t, text.length)) :
    lexFrom 0 (c :: (text ++ s)) = t :: lexFrom 0 s := by
  simp only [lexFrom, space, scan, Bool.false_eq_true, ↓reduceIte, lexFrom_append]

/-! ## Strings -/

theorem hexValue_hexDigit : ∀ {n : Nat}, n < 16 → hexValue (hexDigit n) = some n := by
  decide

theorem scanUnits_raw {c : CodePoint} (quote : c.val ≠ 0x22) (backslash : c.val ≠ 0x5C)
    (printable : 0x20 ≤ c.val) (s : Str) :
    scanUnits (c :: s) = (scanUnits s).map fun r => ((c, false) :: r.1, r.2 + 1) := by
  rw [scanUnits.eq_def]
  simp only [if_neg quote, if_neg backslash, if_neg (Nat.not_lt.mpr printable)]
  cases scanUnits s <;> rfl

theorem scanUnits_quote (s : Str) : scanUnits (lit "\"" ++ s) = some ([], 1) := by
  change scanUnits (CodePoint.ofChar '"' :: s) = some ([], 1)
  rw [scanUnits.eq_def]
  simp only [if_pos (show (CodePoint.ofChar '"').val = 0x22 by decide)]

theorem scanUnits_escape {e unit : CodePoint} (letter : e.val ≠ 0x75)
    (means : unescape e = some unit) (s : Str) :
    scanUnits (CodePoint.ofChar '\\' :: e :: s) =
      (scanUnits s).map fun r => ((unit, true) :: r.1, r.2 + 2) := by
  rw [scanUnits.eq_def]
  simp only [if_neg (show (CodePoint.ofChar '\\').val ≠ 0x22 by decide),
    if_pos (show (CodePoint.ofChar '\\').val = 0x5C by decide), if_neg letter, means]
  cases scanUnits s <;> rfl

theorem scanUnits_escapeUnit {n : Nat} (h : n < 0x10000) (s : Str) :
    scanUnits (escapeUnit n ++ s) =
      (scanUnits s).map fun r => ((Fin.ofNat _ n, true) :: r.1, r.2 + 6) := by
  have digit (k : Nat) : hexValue (hexDigit (k % 16)) = some (k % 16) :=
    hexValue_hexDigit (Nat.mod_lt k (by decide))
  have value : 0x1000 * (n / 0x1000 % 16) + 0x100 * (n / 0x100 % 16) + 16 * (n / 16 % 16)
      + n % 16 = n := by omega
  have text : escapeUnit n ++ s = CodePoint.ofChar '\\' :: CodePoint.ofChar 'u' ::
      hexDigit (n / 0x1000 % 16) :: hexDigit (n / 0x100 % 16) :: hexDigit (n / 16 % 16) ::
      hexDigit (n % 16) :: s := rfl
  have unit : hexUnit (hexDigit (n / 0x1000 % 16)) (hexDigit (n / 0x100 % 16))
      (hexDigit (n / 16 % 16)) (hexDigit (n % 16)) = some (Fin.ofNat _ n) := by
    simp only [hexUnit, digit, Option.pure_def, Option.bind_eq_bind, Option.bind_some, value]
  rw [text, scanUnits, if_neg (by decide), if_pos (by decide), if_pos (by decide), unit]
  cases scanUnits s <;> rfl

/-- The units that a character is written in, and whether they are escaped. -/
def charUnits (ensureAscii : Bool) (c : CodePoint) : List (CodePoint × Bool) :=
  match shortEscapes.lookup c.val with
  | some _ => [(c, true)]
  | none =>
    if 0x20 ≤ c.val ∧ (c.val < 0x7F ∨ ensureAscii = false) then [(c, false)]
    else if c.val < 0x10000 then [(c, true)]
    else [(Fin.ofNat _ (highUnit c), true), (Fin.ofNat _ (lowUnit c), true)]

theorem shortEscapes_lookup {n : Nat} {letter : Char} (h : shortEscapes.lookup n = some letter) :
    (CodePoint.ofChar letter).val ≠ 0x75 ∧
      unescape (CodePoint.ofChar letter) = some (Fin.ofNat _ n) := by
  have all : ∀ p ∈ shortEscapes, (CodePoint.ofChar p.2).val ≠ 0x75 ∧
      unescape (CodePoint.ofChar p.2) = some (Fin.ofNat _ p.1) := by decide
  obtain ⟨before, after, eq, -⟩ := List.lookup_eq_some_iff.mp h
  exact all (n, letter) (by simp [eq])

theorem charUnits_escapeChar (ensureAscii : Bool) (c : CodePoint) (s : Str) :
    scanUnits (escapeChar ensureAscii c ++ s) =
      (scanUnits s).map fun r =>
        (charUnits ensureAscii c ++ r.1, r.2 + (escapeChar ensureAscii c).length) := by
  rw [escapeChar, charUnits]
  cases short : shortEscapes.lookup c.val with
  | some letter =>
    obtain ⟨plain, means⟩ := shortEscapes_lookup short
    have same : Fin.ofNat 0x110000 c.val = c := Fin.ofNat_val_eq_self c
    rw [same] at means
    exact scanUnits_escape plain means s
  | none =>
    have quote : c.val ≠ 0x22 := by
      intro eq
      rw [eq] at short
      cases short
    have backslash : c.val ≠ 0x5C := by
      intro eq
      rw [eq] at short
      cases short
    by_cases raw : 0x20 ≤ c.val ∧ (c.val < 0x7F ∨ ensureAscii = false)
    · simp only [if_pos raw]
      exact scanUnits_raw quote backslash raw.1 s
    · by_cases basic : c.val < 0x10000
      · simp only [if_neg raw, if_pos basic]
        rw [scanUnits_escapeUnit basic, Fin.ofNat_val_eq_self]
        rfl
      · have bound := c.isLt
        have high : highUnit c < 0x10000 := by
          simp only [highUnit]
          omega
        have low : lowUnit c < 0x10000 := by
          simp only [lowUnit]
          omega
        simp only [if_neg raw, if_neg basic, List.append_assoc]
        rw [scanUnits_escapeUnit high, scanUnits_escapeUnit low, Option.map_map]
        rfl

theorem scanUnits_text (ensureAscii : Bool) (s rest : Str) :
    scanUnits (s.flatMap (escapeChar ensureAscii) ++ (lit "\"" ++ rest)) =
      some (s.flatMap (charUnits ensureAscii), (s.flatMap (escapeChar ensureAscii)).length + 1) := by
  induction s with
  | nil => exact scanUnits_quote rest
  | cons c s ih =>
    rw [List.flatMap_cons, List.append_assoc, charUnits_escapeChar, ih, List.flatMap_cons]
    simp only [Option.map_some, List.length_append]
    congr 2
    omega

/-- No high surrogate stands before a low one. -/
def pairFree : Str → Bool
  | c :: d :: s => !(isHighSurrogate c && isLowSurrogate d) && pairFree (d :: s)
  | _ => true

/-- A unit that does not begin an escaped pair stands for itself. -/
theorem joinUnits_cons {c : CodePoint} {escaped : Bool} {units : List (CodePoint × Bool)}
    (alone : ∀ d rest, units = (d, true) :: rest → escaped = true → isHighSurrogate c = true →
      isLowSurrogate d = false) : joinUnits ((c, escaped) :: units) = c :: joinUnits units := by
  cases units with
  | nil => rfl
  | cons unit rest =>
    obtain ⟨d, escaped'⟩ := unit
    have single : ¬ (escaped && escaped' && isHighSurrogate c && isLowSurrogate d) = true := by
      intro pair
      simp only [Bool.and_eq_true] at pair
      obtain ⟨⟨⟨hc, rfl⟩, high⟩, low⟩ := pair
      rw [alone d rest rfl hc high] at low
      cases low
    rw [joinUnits, if_neg single]

theorem joinUnits_pair {c : CodePoint} (wide : 0x10000 ≤ c.val) (units : List (CodePoint × Bool)) :
    joinUnits ((Fin.ofNat _ (highUnit c), true) :: (Fin.ofNat _ (lowUnit c), true) :: units) =
      c :: joinUnits units := by
  have bound := c.isLt
  have high : (Fin.ofNat 0x110000 (highUnit c)).val = 0xD800 + (c.val - 0x10000) / 0x400 := by
    simp only [Fin.ofNat, highUnit]
    omega
  have low : (Fin.ofNat 0x110000 (lowUnit c)).val = 0xDC00 + (c.val - 0x10000) % 0x400 := by
    simp only [Fin.ofNat, lowUnit]
    omega
  have pair : (true && true && isHighSurrogate (Fin.ofNat _ (highUnit c)) &&
      isLowSurrogate (Fin.ofNat _ (lowUnit c))) = true := by
    simp only [isHighSurrogate, isLowSurrogate, high, low, Bool.and_self, Bool.true_and,
      Bool.and_eq_true, decide_eq_true_eq]
    omega
  have whole : joinPair (Fin.ofNat _ (highUnit c)) (Fin.ofNat _ (lowUnit c)) = c := by
    apply Fin.ext
    rw [joinPair, high, low]
    simp only [Fin.ofNat]
    omega
  rw [joinUnits, if_pos pair, whole]

/-- The first unit of a character is no low surrogate but the character itself. -/
theorem charUnits_head (ensureAscii : Bool) (d : CodePoint) :
    ∃ x escaped rest, charUnits ensureAscii d = (x, escaped) :: rest ∧
      (isLowSurrogate x = true → isLowSurrogate d = true) := by
  rw [charUnits]
  split
  · exact ⟨d, true, [], rfl, id⟩
  · split_ifs with raw basic
    · exact ⟨d, false, [], rfl, id⟩
    · exact ⟨d, true, [], rfl, id⟩
    · refine ⟨_, true, _, rfl, ?_⟩
      have bound := d.isLt
      have high : (Fin.ofNat 0x110000 (highUnit d)).val = 0xD800 + (d.val - 0x10000) / 0x400 := by
        simp only [Fin.ofNat, highUnit]
        omega
      simp only [isLowSurrogate, high, Bool.and_eq_true, decide_eq_true_eq]
      omega

theorem shortEscapes_surrogate {c : CodePoint} (high : isHighSurrogate c = true) :
    shortEscapes.lookup c.val = none := by
  have ascii : ∀ p ∈ shortEscapes, p.1 < 0x80 := by decide
  rw [List.lookup_eq_none_iff]
  intro p hp
  have := ascii p hp
  simp only [isHighSurrogate, Bool.and_eq_true, decide_eq_true_eq] at high
  simp only [bne_iff_ne, ne_eq]
  omega

/-- Outside ASCII text a surrogate stands for itself. -/
theorem charUnits_surrogate {c : CodePoint} (high : isHighSurrogate c = true) :
    charUnits false c = [(c, false)] := by
  simp only [charUnits, shortEscapes_surrogate high]
  simp only [isHighSurrogate, Bool.and_eq_true, decide_eq_true_eq] at high
  rw [if_pos ⟨by omega, .inr trivial⟩]

theorem charUnits_single {ensureAscii : Bool} {c : CodePoint}
    (narrow : ¬ (shortEscapes.lookup c.val = none ∧ 0x10000 ≤ c.val ∧ ensureAscii = true)) :
    ∃ escaped, charUnits ensureAscii c = [(c, escaped)] := by
  rw [charUnits]
  split
  · exact ⟨true, rfl⟩
  · rename_i short
    split_ifs with raw basic
    · exact ⟨false, rfl⟩
    · exact ⟨true, rfl⟩
    · refine absurd ⟨short, by omega, ?_⟩ narrow
      cases ensureAscii with
      | false => exact absurd ⟨by omega, .inr rfl⟩ raw
      | true => rfl

theorem joinUnits_charUnits {ensureAscii : Bool} {s : Str}
    (free : ensureAscii = true → pairFree s = true) :
    joinUnits (s.flatMap (charUnits ensureAscii)) = s := by
  induction s with
  | nil => rfl
  | cons c s ih =>
    have rest : ensureAscii = true → pairFree s = true := by
      intro ascii
      have := free ascii
      cases s with
      | nil => rfl
      | cons d s =>
        simp only [pairFree, Bool.and_eq_true] at this
        exact this.2
    rw [List.flatMap_cons]
    by_cases wide : shortEscapes.lookup c.val = none ∧ 0x10000 ≤ c.val ∧ ensureAscii = true
    · obtain ⟨short, wide, rfl⟩ := wide
      have units : charUnits true c =
          [(Fin.ofNat _ (highUnit c), true), (Fin.ofNat _ (lowUnit c), true)] := by
        simp only [charUnits, short]
        rw [if_neg (by simp; omega), if_neg (by omega)]
      rw [units]
      simp only [List.cons_append, List.nil_append]
      rw [joinUnits_pair wide, ih rest]
    · obtain ⟨escaped, units⟩ := charUnits_single wide
      rw [units, List.singleton_append, joinUnits_cons, ih rest]
      intro d later eq hescaped high
      subst hescaped
      cases ensureAscii with
      | false =>
        rw [charUnits_surrogate high] at units
        cases units
      | true =>
        cases s with
        | nil => cases eq
        | cons e s =>
          obtain ⟨x, escaped', more, head, low⟩ := charUnits_head true e
          rw [List.flatMap_cons, head] at eq
          obtain ⟨rfl, -⟩ := Prod.mk.inj (List.cons.inj eq).1
          have := free rfl
          simp only [pairFree, high, Bool.true_and, Bool.and_eq_true, Bool.not_eq_true'] at this
          exact Bool.eq_false_of_not_eq_true fun hx => by simp [low hx] at this

theorem lexFrom_dumpsStr (o : DumpsOptions) {s : Str}
    (free : o.ensureAscii = true → pairFree s = true) (rest : Str) :
    lexFrom 0 (dumpsStr o s ++ rest) = .str s :: lexFrom 0 rest := by
  have text : dumpsStr o s ++ rest = CodePoint.ofChar '"' ::
      (s.flatMap (escapeChar o.ensureAscii) ++ lit "\"" ++ rest) := by
    simp [dumpsStr, lit_eq]
  rw [text]
  apply lexFrom_token _ (by decide)
  have quote : punctuation.lookup (CodePoint.ofChar '"').val = none := rfl
  rw [scanToken, quote]
  simp only [if_pos (show (CodePoint.ofChar '"').val = 0x22 by decide)]
  rw [List.append_assoc, scanUnits_text, Option.map_some, joinUnits_charUnits free,
    List.length_append]
  rfl

/-! ## Numbers -/

/-- What follows does not go on with a number. -/
def NumberEnd (s : Str) : Prop :=
  ∀ c t, s = c :: t → isDigit c = false ∧ c.val ≠ 0x2E ∧ c.val ≠ 0x65 ∧ c.val ≠ 0x45

theorem takeWhile_digits {ds s : Str} (digits : ∀ c ∈ ds, isDigit c = true)
    (stop : ∀ c t, s = c :: t → isDigit c = false) : (ds ++ s).takeWhile isDigit = ds := by
  rw [List.takeWhile_append_of_pos digits]
  cases s with
  | nil => simp
  | cons c t => simp [stop c t rfl]

/-- The parts of a number literal, an integer or a float. -/
structure Literal.Scans (l : Literal) : Prop where
  whole_digits : ∀ c ∈ l.whole, isDigit c = true
  whole_ne_nil : l.whole ≠ []
  whole_head : ∀ c s, l.whole = c :: s → c.val = 48 → s = []
  fraction_digits : ∀ c ∈ l.fraction, isDigit c = true
  exponent_digits : ∀ b ds, l.exponent = some (b, ds) → ds ≠ [] ∧ ∀ c ∈ ds, isDigit c = true

theorem scanWhole_append {ds s : Str} (digits : ∀ c ∈ ds, isDigit c = true) (ne : ds ≠ [])
    (head : ∀ c t, ds = c :: t → c.val = 48 → t = [])
    (stop : ∀ c t, s = c :: t → isDigit c = false) : scanWhole (ds ++ s) = ds := by
  obtain ⟨c, t, rfl⟩ := List.exists_cons_of_ne_nil ne
  rw [List.cons_append, scanWhole]
  by_cases zero : c.val = 0x30
  · rw [if_pos zero, head c t rfl zero]
  · rw [if_neg zero, ← List.cons_append]
    exact takeWhile_digits digits stop

theorem scanFraction_append {ds s : Str} (digits : ∀ c ∈ ds, isDigit c = true)
    (stop : ∀ c t, s = c :: t → isDigit c = false ∧ c.val ≠ 0x2E) :
    scanFraction (Literal.fractionText ds ++ s) = ds := by
  rw [Literal.fractionText]
  by_cases none' : ds = []
  · rw [if_pos none', none', List.nil_append]
    cases s with
    | nil => rfl
    | cons c t => simp only [scanFraction, if_neg (stop c t rfl).2]
  · rw [if_neg none']
    have text : lit "." ++ ds ++ s = CodePoint.ofChar '.' :: (ds ++ s) := rfl
    rw [text, scanFraction, if_pos (by decide)]
    exact takeWhile_digits digits fun c t h => (stop c t h).1

theorem scanExponent_append {exponent : Option (Bool × Str)} {s : Str}
    (digits : ∀ b ds, exponent = some (b, ds) → ds ≠ [] ∧ ∀ c ∈ ds, isDigit c = true)
    (stop : NumberEnd s) : scanExponent (Literal.exponentText exponent ++ s) =
      exponent.map fun e => (e, (Literal.exponentText exponent).length) := by
  cases exponent with
  | none =>
    cases s with
    | nil => rfl
    | cons c s =>
      obtain ⟨-, -, e, E⟩ := stop c s rfl
      cases s with
      | nil => rfl
      | cons d s => simp [Literal.exponentText, scanExponent, e, E]
  | some e =>
    obtain ⟨negative, ds⟩ := e
    obtain ⟨ne, digit⟩ := digits negative ds rfl
    have text : Literal.exponentText (some (negative, ds)) ++ s = CodePoint.ofChar 'e' ::
        CodePoint.ofChar (if negative then '-' else '+') :: (ds ++ s) := by
      cases negative <;> rfl
    have run : (ds ++ s).takeWhile isDigit = ds :=
      takeWhile_digits digit fun c t h => (stop c t h).1
    have length : (Literal.exponentText (some (negative, ds))).length = ds.length + 2 := by
      cases negative <;> simp [Literal.exponentText, lit_eq]
    rw [text, scanExponent, if_pos (by decide), run, if_neg ne, Option.map_some, length]
    cases negative <;> simp [CodePoint.ofChar]

/-- The text of a literal without its sign. -/
def Literal.unsignedText (l : Literal) : Str :=
  l.whole ++ (fractionText l.fraction ++ exponentText l.exponent)

/-- After the fraction comes no digit and no point. -/
theorem exponentText_end (exponent : Option (Bool × Str)) {s : Str} (stop : NumberEnd s) :
    ∀ c t, Literal.exponentText exponent ++ s = c :: t → isDigit c = false ∧ c.val ≠ 0x2E := by
  intro c t eq
  cases exponent with
  | none => exact ⟨(stop c t eq).1, (stop c t eq).2.1⟩
  | some e =>
    obtain ⟨rfl, -⟩ := List.cons.inj eq
    exact ⟨rfl, by decide⟩

theorem fractionText_end (ds : Str) {s : Str} (stop : ∀ c t, s = c :: t → isDigit c = false) :
    ∀ c t, Literal.fractionText ds ++ s = c :: t → isDigit c = false := by
  intro c t eq
  rw [Literal.fractionText] at eq
  split at eq
  · exact stop c t eq
  · obtain ⟨rfl, -⟩ := List.cons.inj eq
    rfl

theorem length_fractionText (ds : Str) :
    (Literal.fractionText ds).length = scanUnsigned.fractionLength ds := by
  rw [Literal.fractionText, scanUnsigned.fractionLength]
  split
  · rfl
  · simp [lit_eq]

theorem scanUnsigned_append {l : Literal} (scans : l.Scans) {s : Str} (stop : NumberEnd s) :
    scanUnsigned l.negative (l.unsignedText ++ s) =
      some (numberToken l, l.unsignedText.length) := by
  have afterFraction := exponentText_end l.exponent stop
  have afterWhole := fractionText_end l.fraction fun c t h => (afterFraction c t h).1
  have text : l.unsignedText ++ s = l.whole ++ (Literal.fractionText l.fraction ++
      (Literal.exponentText l.exponent ++ s)) := by
    simp only [Literal.unsignedText, List.append_assoc]
  have whole : scanWhole (l.unsignedText ++ s) = l.whole := by
    rw [text]
    exact scanWhole_append scans.whole_digits scans.whole_ne_nil scans.whole_head afterWhole
  have fraction : scanFraction ((l.unsignedText ++ s).drop l.whole.length) = l.fraction := by
    rw [text, List.drop_left]
    exact scanFraction_append scans.fraction_digits afterFraction
  have exponent : scanExponent ((l.unsignedText ++ s).drop
      (l.whole.length + scanUnsigned.fractionLength l.fraction)) =
        l.exponent.map fun e => (e, (Literal.exponentText l.exponent).length) := by
    rw [text, ← length_fractionText, ← List.length_append, ← List.append_assoc, List.drop_left]
    exact scanExponent_append scans.exponent_digits stop
  simp only [scanUnsigned, whole, fraction, exponent, if_neg scans.whole_ne_nil]
  have length : l.unsignedText.length = l.whole.length + scanUnsigned.fractionLength l.fraction
      + (Literal.exponentText l.exponent).length := by
    simp only [Literal.unsignedText, List.length_append, length_fractionText, Nat.add_assoc]
  rw [length]
  obtain ⟨negative, w, f, e⟩ := l
  cases e <;> rfl

theorem scanNumber_append {l : Literal} (scans : l.Scans) {s : Str} (stop : NumberEnd s) :
    scanNumber (l.text ++ s) = some (numberToken l, l.text.length) := by
  have unsigned := scanUnsigned_append scans stop
  have text : l.text = (if l.negative then lit "-" else []) ++ l.unsignedText := by
    simp only [Literal.text, Literal.unsignedText, List.append_assoc]
  rw [text]
  cases negative : l.negative with
  | true =>
    rw [negative] at unsigned
    have head : lit "-" ++ l.unsignedText ++ s = CodePoint.ofChar '-' :: (l.unsignedText ++ s) :=
      rfl
    simp only [↓reduceIte]
    rw [head, scanNumber, if_pos (by decide), unsigned]
    simp [lit_eq]
  | false =>
    rw [negative] at unsigned
    obtain ⟨c, w, whole⟩ := List.exists_cons_of_ne_nil scans.whole_ne_nil
    have digit := scans.whole_digits c (by simp [whole])
    have plain : c.val ≠ 0x2D := by
      simp only [isDigit, Bool.and_eq_true, decide_eq_true_eq] at digit
      omega
    have head : ∃ t, l.unsignedText ++ s = c :: t :=
      ⟨w ++ (Literal.fractionText l.fraction ++ Literal.exponentText l.exponent) ++ s, by
        simp [Literal.unsignedText, whole]⟩
    obtain ⟨t, head⟩ := head
    simp only [Bool.false_eq_true, ↓reduceIte, List.nil_append]
    rw [head] at unsigned ⊢
    rw [scanNumber, if_neg plain, unsigned]

theorem words_start : ∀ x ∈ words, ∃ a b w, x.1 = a :: b :: w ∧ isDigit a = false ∧
    isDigit b = false := by
  intro x hx
  simp only [words, List.mem_cons, List.not_mem_nil, or_false] at hx
  rcases hx with rfl | rfl | rfl | rfl | rfl | rfl <;> exact ⟨_, _, _, rfl, rfl, rfl⟩

theorem words_none {s : Str} (number : ∃ c t, s = c :: t ∧ (isDigit c = true ∨
    ∃ d u, t = d :: u ∧ isDigit d = true)) : words.find? (fun w => w.1.isPrefixOf s) = none := by
  obtain ⟨c, t, rfl, digit⟩ := number
  rw [List.find?_eq_none]
  intro x hx isPrefix
  obtain ⟨a, b, w, eq, first, second⟩ := words_start x hx
  rw [eq, List.isPrefixOf_iff_prefix, List.cons_prefix_cons] at isPrefix
  obtain ⟨rfl, isPrefix⟩ := isPrefix
  rcases digit with digit | ⟨d, u, rfl, digit⟩
  · simp [first] at digit
  · obtain ⟨rfl, -⟩ := List.cons_prefix_cons.mp isPrefix
    simp [second] at digit

/-- A literal begins with a digit, or with a sign and a digit. -/
theorem text_start {l : Literal} (scans : l.Scans) (s : Str) :
    ∃ c t, l.text ++ s = c :: t ∧ ((isDigit c = true) ∨
      c.val = 0x2D ∧ ∃ d u, t = d :: u ∧ isDigit d = true) := by
  obtain ⟨c, w, whole⟩ := List.exists_cons_of_ne_nil scans.whole_ne_nil
  have digit := scans.whole_digits c (by simp [whole])
  cases negative : l.negative with
  | true =>
    refine ⟨CodePoint.ofChar '-', c :: (w ++ Literal.fractionText l.fraction ++
      Literal.exponentText l.exponent ++ s), ?_, .inr ⟨rfl, c, _, rfl, digit⟩⟩
    simp [Literal.text, negative, whole, lit_eq]
  | false =>
    refine ⟨c, w ++ Literal.fractionText l.fraction ++ Literal.exponentText l.exponent ++ s, ?_,
      .inl digit⟩
    simp [Literal.text, negative, whole]

theorem lexFrom_literal {l : Literal} (scans : l.Scans) {s : Str} (stop : NumberEnd s) :
    lexFrom 0 (l.text ++ s) = numberToken l :: lexFrom 0 s := by
  have number := scanNumber_append scans stop
  obtain ⟨c, t, text, start⟩ := text_start scans s
  have range : c.val = 0x2D ∨ 48 ≤ c.val ∧ c.val ≤ 57 := by
    rcases start with digit | ⟨sign, -⟩
    · simp only [isDigit, Bool.and_eq_true, decide_eq_true_eq] at digit
      exact .inr digit
    · exact .inl sign
  have space : isJsonSpace c = false := by
    simp only [isJsonSpace, Bool.or_eq_false_iff, beq_eq_false_iff_ne, ne_eq]
    omega
  have mark : punctuation.lookup c.val = none := by
    rw [List.lookup_eq_none_iff]
    simp only [punctuation, List.mem_cons, List.not_mem_nil, or_false]
    rintro p (rfl | rfl | rfl | rfl | rfl | rfl) <;> simp <;> omega
  have word : words.find? (fun w => w.1.isPrefixOf (c :: t)) = none := by
    apply words_none
    rcases start with digit | ⟨-, next⟩
    · exact ⟨c, t, rfl, .inl digit⟩
    · exact ⟨c, t, rfl, .inr next⟩
  have ne : l.text ≠ [] := by
    intro empty
    have := scans.whole_ne_nil
    simp [Literal.text] at empty
    exact this empty.2.1
  obtain ⟨c', w, form⟩ := List.exists_cons_of_ne_nil ne
  rw [form, List.cons_append] at text number ⊢
  obtain ⟨rfl, rfl⟩ := List.cons.inj text
  apply lexFrom_token _ space
  rw [scanToken, mark]
  simp only [if_neg (show c'.val ≠ 0x22 by omega), word, number, Option.map_some]
  rfl

theorem numberToken_float {l : Literal} (wf : l.WellFormed) :
    numberToken l = .scalar (.float l.value) := by
  rw [numberToken, if_neg]
  rintro ⟨fraction, exponent⟩
  rcases wf.floating with h | h
  · exact h fraction
  · exact h exponent

theorem lexFrom_repr (x : Finite) {s : Str} (stop : NumberEnd s) :
    lexFrom 0 (x.repr ++ s) = .scalar (.float (.finite x)) :: lexFrom 0 s := by
  have wf := x.wellFormed_literal
  rw [Finite.repr, lexFrom_literal ⟨wf.whole_digits, wf.whole_ne_nil, wf.whole_head,
    wf.fraction_digits, wf.exponent_digits⟩ stop, numberToken_float wf, x.value_literal]

theorem lexFrom_int {n : Int} {text s : Str} (made : dumpsInt n = .ok text)
    (stop : NumberEnd s) : lexFrom 0 (text ++ s) = .scalar (.int n) :: lexFrom 0 s := by
  rw [dumpsInt] at made
  split at made
  · rename_i short
    obtain rfl := Except.ok.inj made
    have literal : intText n = (⟨n < 0, digits n.natAbs, [], none⟩ : Literal).text := by
      simp [intText, Literal.text, Literal.fractionText, Literal.exponentText]
    have scans : (⟨n < 0, digits n.natAbs, [], none⟩ : Literal).Scans := by
      constructor
      · exact fun c hc => digits_isDigit hc
      · exact digits_ne_nil _
      · exact fun c t h zero => (digits_head h zero).2
      · simp
      · simp
    have value : (if n < 0 then -(ofDigits (digits n.natAbs) : Int)
        else ofDigits (digits n.natAbs)) = n := by
      rw [ofDigits_digits]
      split <;> omega
    rw [literal, lexFrom_literal scans stop, numberToken]
    simp only [and_self, ↓reduceIte, if_neg (Nat.not_lt.mpr short), decide_eq_true_eq, value]
  · cases made

/-! ## Scalars -/

theorem lexFrom_word {word : Str} {v : Json} (h : (word, v) ∈ words) (s : Str) :
    lexFrom 0 (word ++ s) = .scalar v :: lexFrom 0 s := by
  simp only [words, List.mem_cons, List.not_mem_nil, or_false, Prod.mk.injEq] at h
  rcases h with ⟨rfl, rfl⟩ | ⟨rfl, rfl⟩ | ⟨rfl, rfl⟩ | ⟨rfl, rfl⟩ | ⟨rfl, rfl⟩ | ⟨rfl, rfl⟩
  · exact lexFrom_token (lit "ull") rfl rfl
  · exact lexFrom_token (lit "rue") rfl rfl
  · exact lexFrom_token (lit "alse") rfl rfl
  · exact lexFrom_token (lit "aN") rfl rfl
  · exact lexFrom_token (lit "nfinity") rfl rfl
  · exact lexFrom_token (lit "Infinity") rfl rfl

/-! ## Values -/

/-- No string and no key holds a high surrogate before a low one. -/
def Check.pairFree : Check where
  str := Python.pairFree
  keys := fun keys => keys.all Python.pairFree

theorem pairFree_unordered : Check.pairFree.Unordered := by
  intro l l' perm
  rw [Bool.eq_iff_iff]
  simp only [Check.pairFree, List.all_eq_true, perm.mem_iff]

mutual

def tokens : Json → List Token
  | .str s => [.str s]
  | .list xs => .openList :: (tokensList xs ++ [.closeList])
  | .dict items => .openDict :: (tokensItems items ++ [.closeDict])
  | v => [.scalar v]

def tokensList : List Json → List Token
  | [] => []
  | [v] => tokens v
  | v :: w :: vs => tokens v ++ .comma :: tokensList (w :: vs)

def tokensItems : List (Str × Json) → List Token
  | [] => []
  | [(k, v)] => .str k :: .colon :: tokens v
  | (k, v) :: w :: items => .str k :: .colon :: tokens v ++ .comma :: tokensItems (w :: items)

end

/-- The separators are a comma and a colon, with blanks after them at most. -/
structure DumpsOptions.Separates (o : DumpsOptions) : Prop where
  items : ∀ s, lexFrom 0 (o.itemSeparator ++ s) = .comma :: lexFrom 0 s
  keys : ∀ s, lexFrom 0 (o.keySeparator ++ s) = .colon :: lexFrom 0 s
  stop : ∀ s, NumberEnd (o.itemSeparator ++ s)

theorem numberEnd_mark {c : CodePoint} (s : Str)
    (mark : isDigit c = false ∧ c.val ≠ 0x2E ∧ c.val ≠ 0x65 ∧ c.val ≠ 0x45) :
    NumberEnd (c :: s) := by
  rintro d t eq
  obtain ⟨rfl, -⟩ := List.cons.inj eq
  exact mark

theorem separates_default : DumpsOptions.default.Separates :=
  ⟨fun _ => rfl, fun _ => rfl, fun _ => numberEnd_mark _ (by decide)⟩

theorem separates_compact : DumpsOptions.compact.Separates :=
  ⟨fun _ => rfl, fun _ => rfl, fun _ => numberEnd_mark _ (by decide)⟩

theorem separates_compactUnicode : DumpsOptions.compactUnicode.Separates :=
  ⟨fun _ => rfl, fun _ => rfl, fun _ => numberEnd_mark _ (by decide)⟩

theorem intercalate_cons (sep t u : Str) (ts : List Str) :
    sep.intercalate (t :: u :: ts) = t ++ (sep ++ sep.intercalate (u :: ts)) := by
  simp [List.intercalate, List.intersperse]

theorem dumpsFloat_lex {o : DumpsOptions} {x : PyFloat} {text s : Str}
    (made : dumpsFloat o x = .ok text) (stop : NumberEnd s) :
    lexFrom 0 (text ++ s) = .scalar (.float x) :: lexFrom 0 s := by
  cases x with
  | finite x =>
    obtain rfl := Except.ok.inj made
    exact lexFrom_repr x stop
  | infinite negative =>
    simp only [dumpsFloat] at made
    split at made
    · obtain rfl := Except.ok.inj made
      cases negative
      · exact lexFrom_word (by simp [words]) s
      · exact lexFrom_word (by simp [words]) s
    · cases made
  | nan =>
    simp only [dumpsFloat] at made
    split at made
    · obtain rfl := Except.ok.inj made
      exact lexFrom_word (by simp [words]) s
    · cases made

theorem dumps_list {o : DumpsOptions} {depth : Nat} {xs : List Json} {text : Str}
    (made : dumps o depth (.list xs) = .ok text) :
    ∃ inner texts, depth = inner + 1 ∧ dumpsList o inner xs = .ok texts ∧
      text = lit "[" ++ o.itemSeparator.intercalate texts ++ lit "]" := by
  cases depth with
  | zero => cases made
  | succ inner =>
    rw [dumps] at made
    cases inside : dumpsList o inner xs with
    | error e =>
      rw [inside] at made
      cases made
    | ok texts =>
      rw [inside] at made
      exact ⟨inner, texts, rfl, inside, (Except.ok.inj made).symm⟩

theorem dumps_dict {o : DumpsOptions} {depth : Nat} {items : List (Str × Json)} {text : Str}
    (made : dumps o depth (.dict items) = .ok text) :
    ∃ inner texts, depth = inner + 1 ∧ dumpsItems o inner items = .ok texts ∧
      text = lit "\x7b" ++ o.itemSeparator.intercalate texts ++ lit "\x7d" := by
  cases depth with
  | zero => cases made
  | succ inner =>
    rw [dumps] at made
    cases inside : dumpsItems o inner items with
    | error e =>
      rw [inside] at made
      cases made
    | ok texts =>
      rw [inside] at made
      exact ⟨inner, texts, rfl, inside, (Except.ok.inj made).symm⟩

theorem dumpsList_cons {o : DumpsOptions} {depth : Nat} {v : Json} {vs : List Json}
    {texts : List Str} (made : dumpsList o depth (v :: vs) = .ok texts) :
    ∃ text rest, dumps o depth v = .ok text ∧ dumpsList o depth vs = .ok rest ∧
      texts = text :: rest := by
  rw [dumpsList] at made
  cases first : dumps o depth v with
  | error e =>
    rw [first] at made
    cases made
  | ok text =>
    cases later : dumpsList o depth vs with
    | error e =>
      rw [first, later] at made
      cases made
    | ok rest =>
      rw [first, later] at made
      exact ⟨text, rest, rfl, rfl, (Except.ok.inj made).symm⟩

theorem dumpsItems_cons {o : DumpsOptions} {depth : Nat} {k : Str} {v : Json}
    {items : List (Str × Json)} {texts : List Str}
    (made : dumpsItems o depth ((k, v) :: items) = .ok texts) :
    ∃ text rest, dumps o depth v = .ok text ∧ dumpsItems o depth items = .ok rest ∧
      texts = (dumpsStr o k ++ o.keySeparator ++ text) :: rest := by
  rw [dumpsItems] at made
  cases first : dumps o depth v with
  | error e =>
    rw [first] at made
    cases made
  | ok text =>
    cases later : dumpsItems o depth items with
    | error e =>
      rw [first, later] at made
      cases made
    | ok rest =>
      rw [first, later] at made
      exact ⟨text, rest, rfl, rfl, (Except.ok.inj made).symm⟩

theorem lexFrom_mark {c : CodePoint} {t : Token} (space : isJsonSpace c = false)
    (mark : punctuation.lookup c.val = some t) (s : Str) :
    lexFrom 0 (c :: s) = t :: lexFrom 0 s := by
  apply lexFrom_token [] space
  rw [scanToken, mark]
  rfl

theorem pairFree_cons {k : Str} {v : Json} {items : List (Str × Json)} :
    (Json.dict ((k, v) :: items)).check .pairFree = true ↔
      (pairFree k = true ∧ v.check .pairFree = true) ∧
        (Json.dict items).check .pairFree = true := by
  simp only [Json.check, Check.pairFree, Json.checkItems, List.map_cons, List.all_cons,
    Bool.and_eq_true]
  exact and_and_and_comm

theorem lexFrom_item {o : DumpsOptions} (separates : o.Separates) {k : Str}
    (free : o.ensureAscii = true → pairFree k = true) {text : Str} {ts : List Token}
    (value : lexFrom 0 text = ts) :
    lexFrom 0 (dumpsStr o k ++ o.keySeparator ++ text) = .str k :: .colon :: ts := by
  rw [List.append_assoc, lexFrom_dumpsStr o free, separates.keys, value]

/-- A text that is cut into the tokens of a value, whatever follows. -/
def Lexes (text : Str) (v : Json) : Prop :=
  ∀ s, NumberEnd s → lexFrom 0 (text ++ s) = tokens v ++ lexFrom 0 s

/-- The text of an item of a dict. -/
def LexesItem (o : DumpsOptions) (text : Str) (i : Str × Json) : Prop :=
  ∃ t, text = dumpsStr o i.1 ++ o.keySeparator ++ t ∧ Lexes t i.2 ∧
    (o.ensureAscii = true → pairFree i.1 = true)

/-- The values of a list, with the separator between them. -/
theorem lexFrom_values {o : DumpsOptions} (separates : o.Separates) {texts : List Str}
    {vs : List Json} (all : List.Forall₂ Lexes texts vs) {s : Str} (stop : NumberEnd s) :
    lexFrom 0 (o.itemSeparator.intercalate texts ++ s) = tokensList vs ++ lexFrom 0 s := by
  induction all with
  | nil => rfl
  | @cons text v texts vs first later ih =>
    cases later with
    | nil => simpa [List.intercalate, tokensList] using first s stop
    | @cons text' w texts vs second later =>
      have value := first (o.itemSeparator ++ (o.itemSeparator.intercalate (text' :: texts) ++ s))
        (separates.stop _)
      rw [intercalate_cons, List.append_assoc, List.append_assoc, value, separates.items, ih,
        tokensList]
      simp

/-- The items of a dict, with the separator between them. -/
theorem lexFrom_items {o : DumpsOptions} (separates : o.Separates) {texts : List Str}
    {items : List (Str × Json)} (all : List.Forall₂ (LexesItem o) texts items) {s : Str}
    (stop : NumberEnd s) :
    lexFrom 0 (o.itemSeparator.intercalate texts ++ s) = tokensItems items ++ lexFrom 0 s := by
  induction all with
  | nil => rfl
  | @cons text i texts items first later ih =>
    obtain ⟨k, v⟩ := i
    obtain ⟨t, rfl, value, free⟩ := first
    cases later with
    | nil =>
      have item := lexFrom_item separates free (value s stop)
      simpa [List.intercalate, tokensItems] using item
    | @cons text' j texts items second later =>
      have value' := value (o.itemSeparator ++ (o.itemSeparator.intercalate (text' :: texts) ++ s))
        (separates.stop _)
      rw [separates.items, ih] at value'
      have item := lexFrom_item separates free value'
      rw [intercalate_cons, tokensItems]
      simpa using item

mutual

theorem lexFrom_dumps {o : DumpsOptions} (separates : o.Separates) (v : Json) {depth : Nat}
    {text : Str} (made : dumps o depth v = .ok text)
    (free : o.ensureAscii = true → v.check .pairFree = true) : Lexes text v := by
  intro s stop
  cases v with
  | null =>
    rw [dumps] at made
    obtain rfl := Except.ok.inj made
    exact lexFrom_word (by simp [words]) s
  | bool b =>
    rw [dumps] at made
    obtain rfl := Except.ok.inj made
    cases b
    · exact lexFrom_word (by simp [words]) s
    · exact lexFrom_word (by simp [words]) s
  | int n =>
    rw [dumps] at made
    exact lexFrom_int made stop
  | float x =>
    rw [dumps] at made
    exact dumpsFloat_lex made stop
  | str t =>
    rw [dumps] at made
    obtain rfl := Except.ok.inj made
    exact lexFrom_dumpsStr o
      (fun ascii => by simpa only [Json.check, Check.pairFree] using free ascii) s
  | list xs =>
    obtain ⟨inner, texts, -, inside, rfl⟩ := dumps_list made
    have items := lexFrom_values separates (lexFrom_dumpsList separates xs inside
      (fun ascii => by simpa only [Json.check, Check.pairFree] using free ascii))
      (s := lit "]" ++ s) (numberEnd_mark s (by decide))
    simp only [List.append_assoc]
    change lexFrom 0 (CodePoint.ofChar '[' ::
      (o.itemSeparator.intercalate texts ++ (lit "]" ++ s))) = _
    rw [lexFrom_mark (by decide) rfl, items]
    change _ :: (tokensList xs ++ lexFrom 0 (CodePoint.ofChar ']' :: s)) = _
    rw [lexFrom_mark (by decide) rfl, tokens]
    simp
  | dict items =>
    obtain ⟨inner, texts, -, inside, rfl⟩ := dumps_dict made
    have items := lexFrom_items separates (lexFrom_dumpsItems separates items inside free)
      (s := lit "\x7d" ++ s) (numberEnd_mark s (by decide))
    simp only [List.append_assoc]
    change lexFrom 0 (CodePoint.ofChar '\x7b' ::
      (o.itemSeparator.intercalate texts ++ (lit "\x7d" ++ s))) = _
    rw [lexFrom_mark (by decide) rfl, items]
    change _ :: (tokensItems _ ++ lexFrom 0 (CodePoint.ofChar '\x7d' :: s)) = _
    rw [lexFrom_mark (by decide) rfl, tokens]
    simp

theorem lexFrom_dumpsList {o : DumpsOptions} (separates : o.Separates) (vs : List Json)
    {depth : Nat} {texts : List Str} (made : dumpsList o depth vs = .ok texts)
    (free : o.ensureAscii = true → Json.checkList .pairFree vs = true) :
    List.Forall₂ Lexes texts vs := by
  match vs with
  | [] =>
    obtain rfl := Except.ok.inj made
    exact .nil
  | v :: vs =>
    obtain ⟨text, rest, first, later, rfl⟩ := dumpsList_cons made
    have both : o.ensureAscii = true →
        v.check .pairFree = true ∧ Json.checkList .pairFree vs = true := by
      intro ascii
      have := free ascii
      rw [Json.checkList, Bool.and_eq_true] at this
      exact this
    exact .cons (lexFrom_dumps separates v first fun ascii => (both ascii).1)
      (lexFrom_dumpsList separates vs later fun ascii => (both ascii).2)

theorem lexFrom_dumpsItems {o : DumpsOptions} (separates : o.Separates)
    (items : List (Str × Json)) {depth : Nat} {texts : List Str}
    (made : dumpsItems o depth items = .ok texts)
    (free : o.ensureAscii = true → (Json.dict items).check .pairFree = true) :
    List.Forall₂ (LexesItem o) texts items := by
  match items with
  | [] =>
    obtain rfl := Except.ok.inj made
    exact .nil
  | (k, v) :: items =>
    obtain ⟨text, rest, first, later, rfl⟩ := dumpsItems_cons made
    have all : o.ensureAscii = true → (pairFree k = true ∧ v.check .pairFree = true) ∧
        (Json.dict items).check .pairFree = true :=
      fun ascii => pairFree_cons.mp (free ascii)
    exact .cons ⟨text, rfl, lexFrom_dumps separates v first fun ascii => (all ascii).1.2,
      fun ascii => (all ascii).1.1⟩
      (lexFrom_dumpsItems separates items later fun ascii => (all ascii).2)

end

/-! ## Parsing -/

theorem setItem_new {items : List (Str × Json)} {key : Str} (new : key ∉ items.map (·.1))
    (v : Json) : setItem items key v = items ++ [(key, v)] := by
  rw [setItem, if_neg]
  simpa using new

/-- No value begins with a closing bracket. -/
theorem tokens_start (v : Json) : ∃ t ts, tokens v = t :: ts ∧ t ≠ .closeList := by
  cases v <;> exact ⟨_, _, rfl, by simp⟩

theorem parserStep_firstItem {limit : Nat} {frames : List Frame} {t : Token}
    (value : t ≠ .closeList) :
    parserStep limit (frames, .firstItem) t = parserStep limit (frames, .value) t := by
  cases frames with
  | nil => rfl
  | cons frame outer =>
    cases frame with
    | dict => rfl
    | list => cases t <;> first | rfl | exact absurd rfl value

theorem tokensList_start (v : Json) (vs : List Json) :
    ∃ t ts, tokensList (v :: vs) = t :: ts ∧ t ≠ .closeList := by
  obtain ⟨t, ts, eq, ne⟩ := tokens_start v
  cases vs with
  | nil => exact ⟨t, ts, eq, ne⟩
  | cons w vs => exact ⟨t, ts ++ .comma :: tokensList (w :: vs), by rw [tokensList, eq]; rfl, ne⟩

section
variable {limit : Nat}

theorem foldlM_firstItem {frames : List Frame} (v : Json) (vs : List Json) :
    (tokensList (v :: vs) ++ [Token.closeList]).foldlM (parserStep limit) (frames, .firstItem) =
      (tokensList (v :: vs) ++ [Token.closeList]).foldlM (parserStep limit) (frames, .value) := by
  obtain ⟨t, ts, eq, ne⟩ := tokensList_start v vs
  rw [eq, List.cons_append, List.foldlM_cons, List.foldlM_cons, parserStep_firstItem ne]

theorem foldlM_firstKey {frames : List Frame} (i : Str × Json) (is : List (Str × Json)) :
    (tokensItems (i :: is) ++ [Token.closeDict]).foldlM (parserStep limit) (frames, .firstKey) =
      (tokensItems (i :: is) ++ [Token.closeDict]).foldlM (parserStep limit)
        (frames, .key []) := by
  cases is <;> rfl

mutual

theorem parse_tokens (v : Json) (frames : List Frame) (distinct : v.check .distinctKeys = true)
    (room : frames.length + v.depth ≤ limit) :
    (tokens v).foldlM (parserStep limit) (frames, .value) = .ok (frames, .done v) := by
  cases v with
  | null => rfl
  | bool b => rfl
  | int n => rfl
  | float x => rfl
  | str s => rfl
  | list xs =>
    simp only [Json.depth] at room
    rw [tokens, List.foldlM_cons]
    have opened : parserStep limit (frames, .value) .openList =
        .ok (.list [] :: frames, .firstItem) := if_pos (by omega)
    rw [opened]
    cases xs with
    | nil => rfl
    | cons v vs =>
      have items := parse_tokensList (v :: vs) frames [] (by simp) distinct (by omega)
      exact (foldlM_firstItem v vs).trans items
  | dict items =>
    simp only [Json.depth] at room
    simp only [Json.check, Check.distinctKeys, Bool.and_eq_true, decide_eq_true_eq] at distinct
    rw [tokens, List.foldlM_cons]
    have opened : parserStep limit (frames, .value) .openDict = .ok (frames, .firstKey) :=
      if_pos (by omega)
    rw [opened]
    cases items with
    | nil => rfl
    | cons i is =>
      have items := parse_tokensItems (i :: is) frames [] (by simp) (by simpa using distinct.1)
        distinct.2 (by omega)
      exact (foldlM_firstKey i is).trans items

theorem parse_tokensList (vs : List Json) (frames : List Frame) (items : List Json)
    (some' : vs ≠ []) (distinct : Json.checkList .distinctKeys vs = true)
    (room : frames.length + Json.depthList vs + 1 ≤ limit) :
    (tokensList vs ++ [Token.closeList]).foldlM (parserStep limit) (.list items :: frames, .value) =
      .ok (frames, .done (.list (items ++ vs))) := by
  match vs with
  | [] => exact absurd rfl some'
  | [v] =>
    simp only [Json.checkList, Bool.and_true] at distinct
    simp only [Json.depthList, Nat.max_zero] at room
    have value := parse_tokens v (.list items :: frames) distinct (by
      simp only [List.length_cons]
      omega)
    rw [tokensList, List.foldlM_append, value]
    rfl
  | v :: w :: vs =>
    rw [Json.checkList, Bool.and_eq_true] at distinct
    rw [Json.depthList] at room
    have value := parse_tokens v (.list items :: frames) distinct.1 (by
      simp only [List.length_cons]
      omega)
    have others := parse_tokensList (w :: vs) frames (items ++ [v]) (by simp) distinct.2 (by omega)
    rw [tokensList, List.append_assoc, List.foldlM_append, value]
    rw [List.append_assoc] at others
    exact others

theorem parse_tokensItems (vs : List (Str × Json)) (frames : List Frame)
    (items : List (Str × Json)) (some' : vs ≠ [])
    (keys : ((items ++ vs).map (·.1)).Nodup) (distinct : Json.checkItems .distinctKeys vs = true)
    (room : frames.length + Json.depthItems vs + 1 ≤ limit) :
    (tokensItems vs ++ [Token.closeDict]).foldlM (parserStep limit) (frames, .key items) =
      .ok (frames, .done (.dict (items ++ vs))) := by
  match vs with
  | [] => exact absurd rfl some'
  | [(k, v)] =>
    simp only [Json.checkItems, Bool.and_true] at distinct
    simp only [Json.depthItems, Nat.max_zero] at room
    have new : k ∉ items.map (·.1) := by
      rw [List.map_append] at keys
      exact fun old => (List.nodup_append.mp keys).2.2 k old k (by simp) rfl
    have value := parse_tokens v (.dict items k :: frames) distinct (by
      simp only [List.length_cons]
      omega)
    rw [tokensItems, List.cons_append, List.cons_append, List.foldlM_cons]
    change (tokens v ++ [Token.closeDict]).foldlM (parserStep limit)
      (.dict items k :: frames, .value) = _
    rw [List.foldlM_append, value]
    change Except.ok (frames, Mode.done (.dict (setItem items k v))) = _
    rw [setItem_new new]
  | (k, v) :: w :: vs =>
    rw [Json.checkItems, Bool.and_eq_true] at distinct
    rw [Json.depthItems] at room
    have new : k ∉ items.map (·.1) := by
      rw [List.map_append] at keys
      exact fun old => (List.nodup_append.mp keys).2.2 k old k (by simp) rfl
    have value := parse_tokens v (.dict items k :: frames) distinct.1 (by
      simp only [List.length_cons]
      omega)
    have others := parse_tokensItems (w :: vs) frames (items ++ [(k, v)]) (by simp)
      (by simpa using keys) distinct.2 (by omega)
    rw [tokensItems, List.append_assoc, List.cons_append, List.cons_append, List.foldlM_cons]
    change (tokens v ++ (Token.comma :: tokensItems (w :: vs) ++ [Token.closeDict])).foldlM
      (parserStep limit) (.dict items k :: frames, .value) = _
    rw [List.foldlM_append, value]
    change (tokensItems (w :: vs) ++ [Token.closeDict]).foldlM (parserStep limit)
      (frames, .key (setItem items k v)) = _
    rw [setItem_new new, others, List.append_assoc]
    rfl

end

end

/-! ## Round trip -/

mutual

/-- `dumps` refuses what nests too deep. -/
theorem depth_of_dumps {o : DumpsOptions} (v : Json) {depth : Nat} {text : Str}
    (made : dumps o depth v = .ok text) : v.depth ≤ depth := by
  cases v with
  | list xs =>
    obtain ⟨inner, texts, rfl, inside, -⟩ := dumps_list made
    have := depth_of_dumpsList xs inside
    simp only [Json.depth]
    omega
  | dict items =>
    obtain ⟨inner, texts, rfl, inside, -⟩ := dumps_dict made
    have := depth_of_dumpsItems items inside
    simp only [Json.depth]
    omega
  | null | bool | int | float | str => exact Nat.zero_le depth

theorem depth_of_dumpsList {o : DumpsOptions} (vs : List Json) {depth : Nat} {texts : List Str}
    (made : dumpsList o depth vs = .ok texts) : Json.depthList vs ≤ depth := by
  match vs with
  | [] => exact Nat.zero_le depth
  | v :: vs =>
    obtain ⟨text, rest, first, later, -⟩ := dumpsList_cons made
    exact Nat.max_le.mpr ⟨depth_of_dumps v first, depth_of_dumpsList vs later⟩

theorem depth_of_dumpsItems {o : DumpsOptions} (items : List (Str × Json)) {depth : Nat}
    {texts : List Str} (made : dumpsItems o depth items = .ok texts) :
    Json.depthItems items ≤ depth := by
  match items with
  | [] => exact Nat.zero_le depth
  | (k, v) :: items =>
    obtain ⟨text, rest, first, later, -⟩ := dumpsItems_cons made
    exact Nat.max_le.mpr ⟨depth_of_dumps v first, depth_of_dumpsItems items later⟩

end

/-- A byte order mark is no token. -/
theorem lexFrom_byteOrderMark {s : Str} (mark : s.head?.any (·.val = 0xFEFF) = true) :
    lexFrom 0 s = [.bad] := by
  cases s with
  | nil => cases mark
  | cons c s =>
    have hc : c = Fin.ofNat _ 0xFEFF := Fin.ext (by simpa using mark)
    subst hc
    rfl

/-- A text that is cut into the tokens of a value. -/
theorem loads_of_tokens {v : Json} {text : Str} {limit : Nat} (read : lexFrom 0 text = tokens v)
    (distinct : v.check .distinctKeys = true) (room : v.depth ≤ limit) :
    loads limit text = .ok v := by
  have parsed : (tokens v).foldlM (parserStep limit) ([], .value) = .ok ([], .done v) :=
    parse_tokens v [] distinct (by simpa using room)
  rw [loads]
  by_cases mark : text.head?.any (·.val = 0xFEFF) = true
  · rw [lexFrom_byteOrderMark mark] at read
    rw [← read] at parsed
    cases parsed
  · rw [if_neg mark, read, parsed]
    rfl

theorem loads_dumps {o : DumpsOptions} (separates : o.Separates) {v : Json} {depth limit : Nat}
    {text : Str} (made : dumps o depth v = .ok text) (distinct : v.check .distinctKeys = true)
    (free : o.ensureAscii = true → v.check .pairFree = true) (room : v.depth ≤ limit) :
    loads limit text = .ok v := by
  have read := lexFrom_dumps separates v made free [] fun c t eq => nomatch eq
  simp only [List.append_nil, lexFrom] at read
  exact loads_of_tokens read distinct room

/-- One text comes from one value. -/
theorem dumps_injective {o : DumpsOptions} (separates : o.Separates) {v w : Json}
    {depth depth' : Nat} {text : Str} (made : dumps o depth v = .ok text)
    (made' : dumps o depth' w = .ok text) (distinct : v.check .distinctKeys = true)
    (distinct' : w.check .distinctKeys = true) (free : o.ensureAscii = true → v.check .pairFree = true)
    (free' : o.ensureAscii = true → w.check .pairFree = true) : v = w := by
  have room := depth_of_dumps v made
  have room' := depth_of_dumps w made'
  have first := loads_dumps separates made distinct free (Nat.le_max_left v.depth w.depth)
  have second := loads_dumps separates made' distinct' free' (Nat.le_max_right v.depth w.depth)
  exact Except.ok.inj (first.symm.trans second)

end QaCopilot.Python
