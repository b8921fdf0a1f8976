import QaCopilot.Python.JsonRoundTrip

/-!
# JSON text in ASCII

* `ascii_dumps`: what `dumps` prints with `ensure_ascii` has ASCII characters only;
* `utf8_ascii`: such a text has one byte a character, and `utf8_injective`: no other text has them;
* `hexdigest_injective`: two hashes have two digests.
-/

namespace QaCopilot.Python

/-- A text of ASCII characters. -/
def Ascii (s : Str) : Prop := ∀ c ∈ s, c.val < 0x80

theorem ascii_of_all {s : Str} (all : s.all (·.val < 0x80) = true) : Ascii s :=
  fun c hc => of_decide_eq_true (List.all_eq_true.mp all c hc)

theorem ascii_nil : Ascii [] := fun _ hc => absurd hc List.not_mem_nil

theorem ascii_append {s t : Str} (hs : Ascii s) (ht : Ascii t) : Ascii (s ++ t) := by
  intro c hc
  rcases List.mem_append.mp hc with hc | hc
  · exact hs c hc
  · exact ht c hc

theorem ascii_digits {s : Str} (digits : ∀ c ∈ s, isDigit c = true) : Ascii s := by
  intro c hc
  have digit := digits c hc
  simp only [isDigit, Bool.and_eq_true, decide_eq_true_eq] at digit
  omega

/-! ## Scalars -/

theorem ascii_hexDigit : ∀ {n : Nat}, n < 16 → (hexDigit n).val < 0x80 := by decide

theorem ascii_escapeUnit (n : Nat) : Ascii (escapeUnit n) := by
  refine ascii_append (ascii_of_all (by decide)) ?_
  intro c hc
  simp only [List.mem_cons, List.not_mem_nil, or_false] at hc
  rcases hc with rfl | rfl | rfl | rfl
  all_goals exact ascii_hexDigit (Nat.mod_lt _ (by decide))

theorem ascii_escapeChar (c : CodePoint) : Ascii (escapeChar true c) := by
  rw [escapeChar]
  cases short : shortEscapes.lookup c.val with
  | some letter =>
    have all : ∀ p ∈ shortEscapes,
        [CodePoint.ofChar '\\', CodePoint.ofChar p.2].all (·.val < 0x80) = true := by decide
    obtain ⟨before, after, eq, -⟩ := List.lookup_eq_some_iff.mp short
    exact ascii_of_all (all (c.val, letter) (by simp [eq]))
  | none =>
    simp only [Bool.true_eq_false, or_false]
    split
    · rename_i plain
      intro d hd
      obtain rfl := List.mem_singleton.mp hd
      omega
    · split
      · exact ascii_escapeUnit _
      · exact ascii_append (ascii_escapeUnit _) (ascii_escapeUnit _)

theorem ascii_dumpsStr {o : DumpsOptions} (ensure : o.ensureAscii = true) (s : Str) :
    Ascii (dumpsStr o s) := by
  have quote : Ascii (lit "\"") := ascii_of_all (by decide)
  refine ascii_append (ascii_append quote ?_) quote
  intro c hc
  obtain ⟨d, -, hc⟩ := List.mem_flatMap.mp hc
  rw [ensure] at hc
  exact ascii_escapeChar d c hc

theorem ascii_intText (n : Int) : Ascii (intText n) := by
  have sign : Ascii (if n < 0 then lit "-" else []) := by
    split
    · exact ascii_of_all (by decide)
    · exact ascii_nil
  exact ascii_append sign (ascii_digits fun c hc => digits_isDigit hc)

theorem ascii_exponentText {exponent : Option (Bool × Str)}
    (digits : ∀ b ds, exponent = some (b, ds) → ∀ c ∈ ds, isDigit c = true) :
    Ascii (Literal.exponentText exponent) := by
  cases exponent with
  | none => exact ascii_nil
  | some e =>
    obtain ⟨negative, ds⟩ := e
    have sign : Ascii (if negative then lit "-" else lit "+") := by
      split <;> exact ascii_of_all (by decide)
    exact ascii_append (ascii_append (ascii_of_all (by decide)) sign) (ascii_digits (digits _ _ rfl))

theorem ascii_repr (x : Finite) : Ascii x.repr := by
  have wf := x.wellFormed_literal
  have sign : Ascii (if x.literal.negative then lit "-" else []) := by
    split
    · exact ascii_of_all (by decide)
    · exact ascii_nil
  have fraction : Ascii (Literal.fractionText x.literal.fraction) := by
    rw [Literal.fractionText]
    split
    · exact ascii_nil
    · exact ascii_append (ascii_of_all (by decide)) (ascii_digits wf.fraction_digits)
  exact ascii_append (ascii_append (ascii_append sign (ascii_digits wf.whole_digits)) fraction)
    (ascii_exponentText fun b ds h => (wf.exponent_digits b ds h).2)

theorem ascii_dumpsFloat {o : DumpsOptions} {x : PyFloat} {text : Str}
    (made : dumpsFloat o x = .ok text) : Ascii text := by
  cases x with
  | finite x =>
    obtain rfl := Except.ok.inj made
    exact ascii_repr x
  | infinite negative =>
    simp only [dumpsFloat] at made
    split at made
    · obtain rfl := Except.ok.inj made
      split <;> exact ascii_of_all (by decide)
    · cases made
  | nan =>
    simp only [dumpsFloat] at made
    split at made
    · obtain rfl := Except.ok.inj made
      exact ascii_of_all (by decide)
    · cases made

/-! ## Containers -/

theorem ascii_intercalate {sep : Str} {texts : List Str} (hs : Ascii sep)
    (all : ∀ t ∈ texts, Ascii t) : Ascii (sep.intercalate texts) := by
  induction texts with
  | nil => exact ascii_nil
  | cons t ts ih =>
    obtain ⟨first, rest⟩ := List.forall_mem_cons.mp all
    cases ts with
    | nil => simpa [List.intercalate] using first
    | cons u us =>
      rw [intercalate_cons]
      exact ascii_append first (ascii_append hs (ih rest))

/-- The options print ASCII. -/
structure DumpsOptions.PrintsAscii (o : DumpsOptions) : Prop where
  ensure : o.ensureAscii = true
  items : Ascii o.itemSeparator
  keys : Ascii o.keySeparator

mutual

theorem ascii_dumps {o : DumpsOptions} (prints : o.PrintsAscii) (v : Json) {depth : Nat} {text : Str}
    (made : dumps o depth v = .ok text) : Ascii text := by
  cases v with
  | null =>
    rw [dumps] at made
    obtain rfl := Except.ok.inj made
    exact ascii_of_all (by decide)
  | bool b =>
    rw [dumps] at made
    obtain rfl := Except.ok.inj made
    cases b <;> exact ascii_of_all (by decide)
  | int n =>
    rw [dumps, dumpsInt] at made
    split at made
    · obtain rfl := Except.ok.inj made
      exact ascii_intText n
    · cases made
  | float x =>
    rw [dumps] at made
    exact ascii_dumpsFloat made
  | str s =>
    rw [dumps] at made
    obtain rfl := Except.ok.inj made
    exact ascii_dumpsStr prints.ensure s
  | list xs =>
    obtain ⟨inner, texts, -, inside, rfl⟩ := dumps_list made
    have each := ascii_dumpsList prints xs inside
    exact ascii_append (ascii_append (ascii_of_all (by decide)) (ascii_intercalate prints.items each))
      (ascii_of_all (by decide))
  | dict items =>
    obtain ⟨inner, texts, -, inside, rfl⟩ := dumps_dict made
    have each := ascii_dumpsItems prints items inside
    exact ascii_append (ascii_append (ascii_of_all (by decide)) (ascii_intercalate prints.items each))
      (ascii_of_all (by decide))

theorem ascii_dumpsList {o : DumpsOptions} (prints : o.PrintsAscii) (xs : List Json) {depth : Nat}
    {texts : List Str} (made : dumpsList o depth xs = .ok texts) : ∀ t ∈ texts, Ascii t := by
  cases xs with
  | nil =>
    rw [dumpsList] at made
    obtain rfl := Except.ok.inj made
    exact fun t ht => absurd ht List.not_mem_nil
  | cons v vs =>
    obtain ⟨text, rest, first, later, rfl⟩ := dumpsList_cons made
    exact List.forall_mem_cons.mpr ⟨ascii_dumps prints v first, ascii_dumpsList prints vs later⟩

theorem ascii_dumpsItems {o : DumpsOptions} (prints : o.PrintsAscii) (items : List (Str × Json))
    {depth : Nat} {texts : List Str} (made : dumpsItems o depth items = .ok texts) :
    ∀ t ∈ texts, Ascii t := by
  cases items with
  | nil =>
    rw [dumpsItems] at made
    obtain rfl := Except.ok.inj made
    exact fun t ht => absurd ht List.not_mem_nil
  | cons i items =>
    obtain ⟨k, v⟩ := i
    obtain ⟨text, rest, first, later, rfl⟩ := dumpsItems_cons made
    refine List.forall_mem_cons.mpr ⟨?_, ascii_dumpsItems prints items later⟩
    exact ascii_append (ascii_append (ascii_dumpsStr prints.ensure k) prints.keys)
      (ascii_dumps prints v first)

end

/-! ## Bytes and digests -/

theorem utf8_ascii {s : Str} (ascii : Ascii s) : utf8 s = some (s.map fun c => .ofNat c.val) := by
  induction s with
  | nil => rfl
  | cons c s ih =>
    obtain ⟨first, rest⟩ := List.forall_mem_cons.mp ascii
    have one : encodePoint c = some [.ofNat c.val] := by
      unfold encodePoint
      exact if_pos first
    rw [utf8, one, ih rest]
    rfl

theorem utf8_injective {s t : Str} (hs : Ascii s) (ht : Ascii t)
    (same : (utf8 s).getD [] = (utf8 t).getD []) : s = t := by
  rw [utf8_ascii hs, utf8_ascii ht, Option.getD_some, Option.getD_some] at same
  induction s generalizing t with
  | nil => exact (List.map_eq_nil_iff.mp same.symm).symm
  | cons c s ih =>
    cases t with
    | nil => cases same
    | cons d t =>
      obtain ⟨first, rest⟩ := List.cons.inj same
      have hc := hs c List.mem_cons_self
      have hd := ht d List.mem_cons_self
      have value := congrArg UInt8.toNat first
      rw [UInt8.toNat_ofNat', UInt8.toNat_ofNat', Nat.mod_eq_of_lt (by omega),
        Nat.mod_eq_of_lt (by omega)] at value
      rw [Fin.ext value, ih (fun c hc => hs c (List.mem_cons_of_mem _ hc))
        (fun d hd => ht d (List.mem_cons_of_mem _ hd)) rest]

theorem hexDigit_injective : ∀ m < 16, ∀ n < 16, hexDigit m = hexDigit n → m = n := by decide

/-- The hexadecimal digits of a number. -/
theorem eq_of_hexDigits {m n : Nat} (k : Nat) (hm : m < 16 ^ k) (hn : n < 16 ^ k)
    (same : ∀ i < k, m / 16 ^ i % 16 = n / 16 ^ i % 16) : m = n := by
  induction k generalizing m n with
  | zero => omega
  | succ k ih =>
    have low := same 0 (Nat.succ_pos k)
    have high : m / 16 = n / 16 := by
      refine ih (by omega) (by omega) fun i hi => ?_
      have next := same (i + 1) (by omega)
      rwa [pow_succ', ← Nat.div_div_eq_div_mul, ← Nat.div_div_eq_div_mul] at next
    simp only [pow_zero, Nat.div_one] at low
    omega

theorem hexdigest_injective {a b : BitVec 256} (same : hexdigest a = hexdigest b) : a = b := by
  apply BitVec.eq_of_toNat_eq
  refine eq_of_hexDigits 64 (a.isLt.trans_le (by decide)) (b.isLt.trans_le (by decide)) fun i hi => ?_
  have digit := congrArg (·[63 - i]?) same
  have place : 63 - (63 - i) = i := by omega
  simp only [hexdigest, List.getElem?_map, List.getElem?_range (show 63 - i < 64 by omega),
    Option.map_some, Option.some.injEq, place] at digit
  exact hexDigit_injective _ (Nat.mod_lt _ (by decide)) _ (Nat.mod_lt _ (by decide)) digit

end QaCopilot.Python
