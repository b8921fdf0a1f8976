import QaCopilot.Lib.Results
import QaCopilot.Python.Surrogates

/-!
# The values that `json.loads` makes

What holds of every scalar that a text can spell, and of every key, holds of the whole value.

* `check_loads`: the value passes a check that the tokens of its text pass;
* `Decoded.distinct`, `Decoded.printable`, `Decoded.pairFree`: what holds of a decoded document.
-/

namespace QaCopilot.Python

open QaCopilot.Results

/-! ## Tokens -/

/-- What a token says of a value passes the check. -/
def Token.Checks (c : Check) : Token → Prop
  | .scalar v => v.check c = true
  | .str s => c.str s = true
  | _ => True

/-- The check passes whatever a token spells, where a text has plain characters only. -/
structure Check.Spelled (c : Check) (plain : CodePoint → Prop) : Prop where
  int : ∀ n : Int, (digits n.natAbs).length ≤ maxStrDigits → c.int n = true
  float : ∀ x, c.float x = true
  str : ∀ units : List (CodePoint × Bool), (∀ u ∈ units, u.2 = false → plain u.1) →
    c.str (joinUnits units) = true

section
variable {c : Check} {plain : CodePoint → Prop}

theorem scanWhole_digits (s : Str) : ∀ d ∈ scanWhole s, isDigit d = true := by
  unfold scanWhole
  split
  · nofun
  · rename_i a t
    split_ifs with zero
    · refine List.forall_mem_singleton.mpr ?_
      simp [isDigit, zero]
    · exact fun d hd => List.mem_takeWhile_imp hd

theorem ofDigits_lt {ds : Str} (all : ∀ d ∈ ds, isDigit d = true) : ofDigits ds < 10 ^ ds.length := by
  induction ds with
  | nil => exact Nat.one_pos
  | cons d ds ih =>
    obtain ⟨first, rest⟩ := List.forall_mem_cons.mp all
    have tail := ih rest
    have head : ofDigits [d] ≤ 9 := by
      simp only [isDigit, Bool.and_eq_true, decide_eq_true_eq] at first
      simp only [ofDigits, List.foldl_cons, List.foldl_nil]
      omega
    rw [← List.singleton_append, ofDigits_append, List.length_append, List.length_singleton, pow_add]
    have := Nat.mul_le_mul_right (10 ^ ds.length) head
    omega

theorem numberToken_checks (spelled : c.Spelled plain) {l : Literal}
    (whole : ∀ d ∈ l.whole, isDigit d = true) : (numberToken l).Checks c := by
  unfold numberToken
  split_ifs with integer long negative
  · trivial
  all_goals
    try exact spelled.float _
  all_goals
    refine spelled.int _ ?_
    rw [length_digits_le_iff (by decide)]
    have small := (ofDigits_lt whole).trans_le (Nat.pow_le_pow_right (by decide) (Nat.le_of_not_lt long))
    omega

theorem scanNumber_checks (spelled : c.Spelled plain) {s : Str} {t : Token} {more : Nat}
    (h : scanNumber s = some (t, more)) : t.Checks c := by
  have unsigned : ∀ {negative : Bool} {s : Str} {t : Token} {more : Nat},
      scanUnsigned negative s = some (t, more) → t.Checks c := by
    intro negative s t more h
    unfold scanUnsigned at h
    dsimp only at h
    split_ifs at h
    split at h <;> obtain ⟨rfl, -⟩ := Prod.mk.inj (Option.some.inj h) <;>
      exact numberToken_checks spelled (scanWhole_digits s)
  cases s with
  | nil => cases h
  | cons a s =>
    rw [scanNumber] at h
    split_ifs at h
    · obtain ⟨⟨t', more'⟩, found, same⟩ := Option.map_eq_some_iff.mp h
      obtain ⟨rfl, -⟩ := Prod.mk.inj same
      exact unsigned found
    · exact unsigned h

/-- A character of a string that was not escaped is one of the text. -/
theorem scanUnits_plain {s : Str} (text : ∀ a ∈ s, plain a) {units : List (CodePoint × Bool)}
    {length : Nat} (h : scanUnits s = some (units, length)) : ∀ u ∈ units, u.2 = false → plain u.1 := by
  induction s using scanUnits.induct generalizing units length with
  | case1 => cases h
  | case2 c s quote =>
    rw [scanUnits.eq_def] at h
    simp only [quote, ↓reduceIte, Option.some.injEq, Prod.mk.injEq] at h
    rw [← h.1]
    exact fun u hu => absurd hu List.not_mem_nil
  | case3 c other slash =>
    rw [scanUnits.eq_def] at h
    simp only [if_neg other, if_pos slash, reduceCtorEq] at h
  | case4 c other slash e letter a b c' d s ih =>
    rw [scanUnits.eq_def] at h
    simp only [if_neg other, if_pos slash, if_pos letter] at h
    obtain ⟨unit, -, h⟩ := Option.bind_eq_some_iff.mp h
    obtain ⟨⟨rest, more⟩, scanned, h⟩ := Option.bind_eq_some_iff.mp h
    obtain ⟨rfl, -⟩ := Prod.mk.inj (Option.some.inj h)
    have later := ih (fun x hx => text x (by simp [hx])) scanned
    exact List.forall_mem_cons.mpr ⟨fun escaped => Bool.noConfusion escaped, later⟩
  | case5 c other slash e s letter short =>
    rw [scanUnits.eq_def] at h
    simp only [if_neg other, if_pos slash, if_pos letter, reduceCtorEq] at h
  | case6 c other slash e s letter ih =>
    rw [scanUnits.eq_def] at h
    simp only [if_neg other, if_pos slash, if_neg letter] at h
    obtain ⟨unit, -, h⟩ := Option.bind_eq_some_iff.mp h
    obtain ⟨⟨rest, more⟩, scanned, h⟩ := Option.bind_eq_some_iff.mp h
    obtain ⟨rfl, -⟩ := Prod.mk.inj (Option.some.inj h)
    have later := ih (fun x hx => text x (by simp [hx])) scanned
    exact List.forall_mem_cons.mpr ⟨fun escaped => Bool.noConfusion escaped, later⟩
  | case7 c s other plain' control =>
    rw [scanUnits.eq_def] at h
    simp only [if_neg other, if_neg plain', if_pos control, reduceCtorEq] at h
  | case8 c s other plain' visible ih =>
    rw [scanUnits.eq_def] at h
    simp only [if_neg other, if_neg plain', if_neg visible] at h
    obtain ⟨⟨rest, more⟩, scanned, h⟩ := Option.bind_eq_some_iff.mp h
    obtain ⟨rfl, -⟩ := Prod.mk.inj (Option.some.inj h)
    obtain ⟨own, others⟩ := List.forall_mem_cons.mp text
    exact List.forall_mem_cons.mpr ⟨fun _ => own, ih others scanned⟩

theorem scanToken_checks (spelled : c.Spelled plain) {a : CodePoint} {s : Str}
    (text : ∀ b ∈ s, plain b) {t : Token} {more : Nat} (h : scanToken a s = some (t, more)) :
    t.Checks c := by
  have marks : ∀ p ∈ punctuation, p.2.Checks c := by simp [punctuation, Token.Checks]
  have known : ∀ w ∈ words, w.2.check c = true := by
    intro w hw
    simp only [words, List.mem_cons, List.not_mem_nil, or_false] at hw
    rcases hw with rfl | rfl | rfl | rfl | rfl | rfl <;> first | rfl | exact spelled.float _
  unfold scanToken at h
  split at h
  · rename_i mark found
    obtain ⟨rfl, -⟩ := Prod.mk.inj (Option.some.inj h)
    obtain ⟨front, back, whole, -⟩ := List.lookup_eq_some_iff.mp found
    exact marks (a.val, mark) (by simp [whole])
  · split_ifs at h
    · obtain ⟨⟨units, length⟩, scanned, same⟩ := Option.map_eq_some_iff.mp h
      obtain ⟨rfl, -⟩ := Prod.mk.inj same
      exact spelled.str units (scanUnits_plain text scanned)
    · split at h
      · rename_i word v found
        obtain ⟨rfl, -⟩ := Prod.mk.inj (Option.some.inj h)
        exact known _ (List.mem_of_find?_eq_some found)
      · obtain ⟨⟨t', more'⟩, found, same⟩ := Option.map_eq_some_iff.mp h
        obtain ⟨rfl, -⟩ := Prod.mk.inj same
        exact scanNumber_checks spelled found

theorem lexFrom_checks (spelled : c.Spelled plain) {s : Str} (text : ∀ a ∈ s, plain a) (taken : Nat) :
    ∀ t ∈ lexFrom taken s, t.Checks c := by
  induction s generalizing taken with
  | nil => simp [lexFrom]
  | cons a s ih =>
    have rest : ∀ b ∈ s, plain b := fun b hb => text b (List.mem_cons_of_mem a hb)
    cases taken with
    | succ taken => exact ih rest taken
    | zero =>
      rw [lexFrom]
      split_ifs
      · exact ih rest 0
      · split
        · rename_i t more found
          exact List.forall_mem_cons.mpr ⟨scanToken_checks spelled rest found, ih rest more⟩
        · simp [Token.Checks]

/-! ## Values -/

/-- The check passes a dict when it passes the keys that are set in it. -/
structure Check.Settable (c : Check) : Prop where
  none : c.keys [] = true
  set : ∀ keys key, c.keys keys = true → c.str key = true → key ∉ keys → c.keys (keys ++ [key]) = true

theorem check_setItem (settable : c.Settable) {items : List (Str × Json)} {key : Str} {v : Json}
    (dict : (Json.dict items).check c = true) (name : c.str key = true) (value : v.check c = true) :
    (Json.dict (setItem items key v)).check c = true := by
  rw [Json.check, Bool.and_eq_true, checkItems_eq_true] at dict ⊢
  obtain ⟨keys, values⟩ := dict
  unfold setItem
  split_ifs with present
  · have same : (items.map fun i => if i.1 == key then (key, v) else i).map (·.1) = items.map (·.1) := by
      rw [List.map_map]
      refine List.map_congr_left fun i _ => ?_
      rw [Function.comp_apply]
      split_ifs with found
      · exact (eq_of_beq found).symm
      · rfl
    refine ⟨same ▸ keys, List.forall_mem_map.mpr fun i hi => ?_⟩
    split_ifs
    · exact value
    · exact values i hi
  · have isNew : key ∉ items.map (·.1) := by
      intro h
      obtain ⟨i, hi, rfl⟩ := List.mem_map.mp h
      exact present (List.any_eq_true.mpr ⟨i, hi, beq_self_eq_true i.1⟩)
    rw [List.map_append]
    exact ⟨settable.set _ _ keys name isNew,
      List.forall_mem_append.mpr ⟨values, List.forall_mem_singleton.mpr value⟩⟩

/-- What was read so far passes the check. -/
def Frame.Checks (c : Check) : Frame → Prop
  | .list items => ∀ v ∈ items, v.check c = true
  | .dict items key => (Json.dict items).check c = true ∧ c.str key = true

def Mode.Checks (c : Check) : Mode → Prop
  | .key items => (Json.dict items).check c = true
  | .colon items name => (Json.dict items).check c = true ∧ c.str name = true
  | .done v => v.check c = true
  | .value | .firstItem | .firstKey => True

def Parser.Checks (c : Check) (p : Parser) : Prop := (∀ f ∈ p.1, f.Checks c) ∧ p.2.Checks c

theorem beginValue_checks {limit : Nat} {frames : List Frame} {t : Token} {p : Parser}
    (before : ∀ f ∈ frames, f.Checks c) (token : t.Checks c) (h : beginValue limit frames t = .ok p) :
    p.Checks c := by
  cases t with
  | str s => exact Except.ok.inj h ▸ ⟨before, token⟩
  | scalar v => exact Except.ok.inj h ▸ ⟨before, token⟩
  | openList =>
    rw [beginValue] at h
    split_ifs at h
    obtain rfl := Except.ok.inj h
    refine ⟨List.forall_mem_cons.mpr ⟨?_, before⟩, trivial⟩
    simp [Frame.Checks]
  | openDict =>
    rw [beginValue] at h
    split_ifs at h
    exact Except.ok.inj h ▸ ⟨before, trivial⟩
  | tooLong | closeList | closeDict | comma | colon | bad => cases h

theorem endValue_checks (settable : c.Settable) {frames : List Frame} {v : Json} {t : Token} {q : Parser}
    (before : ∀ f ∈ frames, f.Checks c) (value : v.check c = true) (h : endValue frames v t = .ok q) :
    q.Checks c := by
  unfold endValue at h
  split at h
  · obtain ⟨list, outer⟩ := List.forall_mem_cons.mp before
    refine Except.ok.inj h ▸ ⟨List.forall_mem_cons.mpr ⟨?_, outer⟩, trivial⟩
    exact List.forall_mem_append.mpr ⟨list, List.forall_mem_singleton.mpr value⟩
  · obtain ⟨list, outer⟩ := List.forall_mem_cons.mp before
    refine Except.ok.inj h ▸ ⟨outer, checkList_eq_true.mpr ?_⟩
    exact List.forall_mem_append.mpr ⟨list, List.forall_mem_singleton.mpr value⟩
  · obtain ⟨⟨dict, name⟩, outer⟩ := List.forall_mem_cons.mp before
    exact Except.ok.inj h ▸ ⟨outer, check_setItem settable dict name value⟩
  · obtain ⟨⟨dict, name⟩, outer⟩ := List.forall_mem_cons.mp before
    exact Except.ok.inj h ▸ ⟨outer, check_setItem settable dict name value⟩
  · cases h

theorem parserStep_checks (settable : c.Settable) {limit : Nat} {p q : Parser} {t : Token}
    (before : p.Checks c) (token : t.Checks c) (h : parserStep limit p t = .ok q) : q.Checks c := by
  obtain ⟨frames, mode⟩ := p
  obtain ⟨outer, inner⟩ := before
  have empty : (Json.dict []).check c = true := by
    rw [Json.check, List.map_nil, settable.none]
    rfl
  cases mode with
  | value => exact beginValue_checks outer token h
  | firstItem =>
    unfold parserStep at h
    dsimp only at h
    split at h
    · exact Except.ok.inj h ▸ ⟨(List.forall_mem_cons.mp outer).2, rfl⟩
    · exact beginValue_checks outer token h
  | firstKey =>
    unfold parserStep at h
    dsimp only at h
    split at h
    · exact Except.ok.inj h ▸ ⟨outer, empty⟩
    · exact Except.ok.inj h ▸ ⟨outer, empty, token⟩
    · cases h
  | key items =>
    unfold parserStep at h
    dsimp only at h
    split at h
    · exact Except.ok.inj h ▸ ⟨outer, inner, token⟩
    · cases h
  | colon items key =>
    unfold parserStep at h
    dsimp only at h
    split at h
    · exact Except.ok.inj h ▸ ⟨List.forall_mem_cons.mpr ⟨inner, outer⟩, trivial⟩
    · cases h
  | done v => exact endValue_checks settable outer inner h

theorem run_checks (settable : c.Settable) {limit : Nat} {ts : List Token} {p q : Parser}
    (start : p.Checks c) (tokens : ∀ t ∈ ts, t.Checks c) (run : ts.foldlM (parserStep limit) p = .ok q) :
    q.Checks c := by
  induction ts generalizing p with
  | nil => exact Except.ok.inj run ▸ start
  | cons t ts ih =>
    obtain ⟨first, later⟩ := List.forall_mem_cons.mp tokens
    obtain ⟨p', step, run⟩ := bind_ok.mp run
    exact ih (parserStep_checks settable start first step) later run

/-- The value that is read from a text of plain characters passes the check. -/
theorem check_loads (spelled : c.Spelled plain) (settable : c.Settable) {limit : Nat} {s : Str}
    (text : ∀ a ∈ s, plain a) {v : Json} (h : loads limit s = .ok v) : v.check c = true := by
  unfold loads at h
  split_ifs at h
  obtain ⟨⟨frames, mode⟩, run, result⟩ := bind_ok.mp h
  have start : Parser.Checks c ([], .value) := ⟨nofun, trivial⟩
  have read := run_checks settable start (lexFrom_checks spelled text 0) run
  cases frames with
  | cons => cases result
  | nil =>
    cases mode with
    | done w => exact Except.ok.inj result ▸ read.2
    | value | firstItem | firstKey | key | colon => cases result

end

/-! ## Checks that every text passes -/

theorem settable_distinct : Check.distinctKeys.Settable where
  none := rfl
  set := by
    intro keys key distinct _ isNew
    refine decide_eq_true ?_
    rw [← List.concat_eq_append, List.nodup_concat]
    exact ⟨isNew, of_decide_eq_true distinct⟩

theorem spelled_distinct : Check.distinctKeys.Spelled fun _ => True :=
  ⟨fun _ _ => rfl, fun _ => rfl, fun _ _ => rfl⟩

theorem settable_accepts (o : DumpsOptions) : o.accepts.Settable := ⟨rfl, fun _ _ _ _ _ => rfl⟩

theorem spelled_accepts : DumpsOptions.default.accepts.Spelled fun _ => True :=
  ⟨fun _ short => decide_eq_true short, fun _ => rfl, fun _ _ => rfl⟩

theorem settable_pairFree : Check.pairFree.Settable where
  none := rfl
  set := by
    intro keys key all free _
    exact List.all_eq_true.mpr (List.forall_mem_append.mpr
      ⟨List.all_eq_true.mp all, List.forall_mem_singleton.mpr free⟩)

theorem joinUnits_head {d e : CodePoint} {escaped : Bool} {units : List (CodePoint × Bool)} {t : Str}
    (h : joinUnits ((d, escaped) :: units) = e :: t) : e = d ∨ isLowSurrogate e = false := by
  cases units with
  | nil => exact .inl (List.cons.inj h).1.symm
  | cons u units =>
    rw [joinUnits] at h
    split_ifs at h with pair
    · obtain ⟨rfl, -⟩ := List.cons.inj h
      simp only [Bool.and_eq_true] at pair
      have wide := (joinPair_units pair.1.2 pair.2).1
      refine .inr ?_
      simp only [isLowSurrogate, Bool.and_eq_false_iff, decide_eq_false_iff_not]
      omega
    · exact .inl (List.cons.inj h).1.symm

/-- A high surrogate and a low one that were both escaped are one character. -/
theorem pairFree_joinUnits {units : List (CodePoint × Bool)}
    (raw : ∀ u ∈ units, u.2 = false → isSurrogate u.1 = false) : pairFree (joinUnits units) = true := by
  induction units using joinUnits.induct with
  | case1 => rfl
  | case2 c escaped => rfl
  | case3 c escaped d escaped' units pair ih =>
    rw [joinUnits, if_pos pair]
    simp only [Bool.and_eq_true] at pair
    refine pairFree_cons_of (ih fun u hu => raw u (by simp [hu])) fun e t _ joined => ?_
    have wide := (joinPair_units pair.1.2 pair.2).1
    rw [Bool.and_eq_true] at joined
    have high := joined.1
    simp only [isHighSurrogate, Bool.and_eq_true, decide_eq_true_eq] at high
    omega
  | case4 c escaped d escaped' units single ih =>
    rw [joinUnits, if_neg single]
    refine pairFree_cons_of (ih fun u hu => raw u (List.mem_cons_of_mem _ hu)) fun e t head joined => ?_
    have marked : ∀ u ∈ (c, escaped) :: (d, escaped') :: units, isSurrogate u.1 = true → u.2 = true := by
      intro u hu surrogate
      by_contra bare
      exact absurd surrogate (by rw [raw u hu (Bool.not_eq_true _ ▸ bare)]; decide)
    rw [Bool.and_eq_true] at joined
    obtain ⟨high, low⟩ := joined
    rcases joinUnits_head head with rfl | other
    · refine single ?_
      have first := marked (c, escaped) (by simp) (by simp [isSurrogate, high])
      have second := marked (e, escaped') (by simp) (by simp [isSurrogate, low])
      dsimp only at first second
      rw [first, second, high, low]
      rfl
    · rw [other] at low
      cases low

theorem spelled_pairFree : Check.pairFree.Spelled fun c => isSurrogate c = false :=
  ⟨fun _ _ => rfl, fun _ => rfl, fun _ => pairFree_joinUnits⟩

/-! ## Documents -/

/-- What `json.loads` makes of a JSON document, which is encoded in UTF-8. -/
def Decoded (v : Json) : Prop :=
  ∃ (raw : Bytes) (text : Str) (limit : Nat), decodeUtf8 raw = some text ∧ loads limit text = .ok v

theorem decodePoint_plain {bytes : Bytes} {c : CodePoint} (h : decodePoint bytes = some c) :
    isSurrogate c = false := by
  unfold decodePoint at h
  extract_lets point at h
  have whole : ∀ {n}, point n = some c → isSurrogate c = false := by
    intro n h
    dsimp only [point] at h
    split_ifs at h with small encoded
    obtain rfl := Option.some.inj h
    have some' := encodePoint_isSome (c := ⟨n, small⟩)
    rw [encoded] at some'
    simpa using some'
  split at h <;> obtain ⟨n, -, h⟩ := Option.bind_eq_some_iff.mp h <;> exact whole h

theorem decodeUtf8_plain {raw : Bytes} {text : Str} (h : decodeUtf8 raw = some text) :
    ∀ c ∈ text, isSurrogate c = false := by
  have point : ∀ {first : Option CodePoint} {rest : Option Str} {text : Str},
      (∀ c, first = some c → isSurrogate c = false) →
      (∀ text, rest = some text → ∀ c ∈ text, isSurrogate c = false) →
      (do return (← first) :: (← rest)) = some text → ∀ c ∈ text, isSurrogate c = false := by
    intro first rest text plain later h
    obtain ⟨c, found, h⟩ := Option.bind_eq_some_iff.mp h
    obtain ⟨text', read, h⟩ := Option.bind_eq_some_iff.mp h
    obtain rfl := Option.some.inj h
    exact List.forall_mem_cons.mpr ⟨plain c found, later text' read⟩
  induction raw using decodeUtf8.induct generalizing text with
  | case1 =>
    obtain rfl := Option.some.inj h
    nofun
  | case2 a s one ih =>
    rw [decodeUtf8.eq_def] at h
    simp only [if_pos one] at h
    exact point (fun _ => decodePoint_plain) (fun _ => ih) h
  | case3 a one =>
    rw [decodeUtf8.eq_def] at h
    simp only [if_neg one, reduceCtorEq] at h
  | case4 a one b s two ih =>
    rw [decodeUtf8.eq_def] at h
    simp only [if_neg one, if_pos two] at h
    exact point (fun _ => decodePoint_plain) (fun _ => ih) h
  | case5 a one b two =>
    rw [decodeUtf8.eq_def] at h
    simp only [if_neg one, if_neg two, reduceCtorEq] at h
  | case6 a one b two c s three ih =>
    rw [decodeUtf8.eq_def] at h
    simp only [if_neg one, if_neg two, if_pos three] at h
    exact point (fun _ => decodePoint_plain) (fun _ => ih) h
  | case7 a one b two c three =>
    rw [decodeUtf8.eq_def] at h
    simp only [if_neg one, if_neg two, if_neg three, reduceCtorEq] at h
  | case8 a one b two c three d s ih =>
    rw [decodeUtf8.eq_def] at h
    simp only [if_neg one, if_neg two, if_neg three] at h
    exact point (fun _ => decodePoint_plain) (fun _ => ih) h

theorem Decoded.distinct {v : Json} (h : Decoded v) : v.check .distinctKeys = true := by
  obtain ⟨_, _, _, -, read⟩ := h
  exact check_loads spelled_distinct settable_distinct (fun _ _ => trivial) read

theorem Decoded.printable {v : Json} (h : Decoded v) :
    v.check DumpsOptions.default.accepts = true := by
  obtain ⟨_, _, _, -, read⟩ := h
  exact check_loads spelled_accepts (settable_accepts _) (fun _ _ => trivial) read

theorem Decoded.pairFree {v : Json} (h : Decoded v) : v.check .pairFree = true := by
  obtain ⟨_, _, _, decoded, read⟩ := h
  exact check_loads spelled_pairFree settable_pairFree (decodeUtf8_plain decoded) read

end QaCopilot.Python
