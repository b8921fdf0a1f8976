import QaCopilot.Python.JsonRoundTrip

/-!
# Surrogate pairs in JSON texts

`json.dumps` escapes a high surrogate and a low one after it exactly as the character that they
stand for, so `json.loads` reads that character.
-/

namespace QaCopilot.Python

/-- Every high surrogate and the low one after it made one character. -/
def joinPairs : Str → Str
  | c :: d :: s =>
    if isHighSurrogate c && isLowSurrogate d then joinPair c d :: joinPairs s
    else c :: joinPairs (d :: s)
  | s => s

/-- Induction on a text as the pairs are joined. -/
theorem joinPairs_induction {motive : Str → Prop}
    (pair : ∀ c d s, (isHighSurrogate c && isLowSurrogate d) = true → motive s →
      motive (c :: d :: s))
    (single : ∀ c d s, ¬ (isHighSurrogate c && isLowSurrogate d) = true → motive (d :: s) →
      motive (c :: d :: s))
    (short : ∀ s, (∀ c d t, s = c :: d :: t → False) → motive s) (s : Str) : motive s := by
  induction s using List.twoStepInduction with
  | nil => exact short [] fun _ _ _ same => List.cons_ne_nil _ _ same.symm
  | singleton c => exact short [c] fun _ _ _ same => List.cons_ne_nil _ _ (List.cons.inj same).2.symm
  | cons_cons c d s ih later =>
    by_cases joined : (isHighSurrogate c && isLowSurrogate d) = true
    · exact pair c d s joined ih
    · exact single c d s joined (later d)

theorem joinPair_units {c d : CodePoint} (high : isHighSurrogate c = true)
    (low : isLowSurrogate d = true) : 0x10000 ≤ (joinPair c d).val ∧
      highUnit (joinPair c d) = c.val ∧ lowUnit (joinPair c d) = d.val := by
  simp only [isHighSurrogate, isLowSurrogate, Bool.and_eq_true, decide_eq_true_eq] at high low
  have value : (joinPair c d).val = 0x10000 + 0x400 * (c.val - 0xD800) + (d.val - 0xDC00) := by
    simp only [joinPair, Fin.ofNat]
    omega
  refine ⟨by omega, ?_, ?_⟩
  · rw [highUnit, value]
    omega
  · rw [lowUnit, value]
    omega

theorem escapeChar_wide {c : CodePoint} (wide : 0x7F ≤ c.val) :
    escapeChar true c = if c.val < 0x10000 then escapeUnit c.val
      else escapeUnit (highUnit c) ++ escapeUnit (lowUnit c) := by
  have ascii : ∀ p ∈ shortEscapes, p.1 < 0x7F := by decide
  have short : shortEscapes.lookup c.val = none := by
    rw [List.lookup_eq_none_iff]
    intro p hp
    have := ascii p hp
    simp only [bne_iff_ne, ne_eq]
    omega
  rw [escapeChar, short]
  simp only
  rw [if_neg (by simp; omega)]

theorem escapeChar_pair {c d : CodePoint} (high : isHighSurrogate c = true)
    (low : isLowSurrogate d = true) :
    escapeChar true (joinPair c d) = escapeChar true c ++ escapeChar true d := by
  obtain ⟨wide, first, second⟩ := joinPair_units high low
  simp only [isHighSurrogate, isLowSurrogate, Bool.and_eq_true, decide_eq_true_eq] at high low
  rw [escapeChar_wide (by omega), escapeChar_wide (c := c) (by omega),
    escapeChar_wide (c := d) (by omega), if_neg (by omega), if_pos (by omega), if_pos (by omega),
    first, second]

/-- The text of a string does not tell a pair from its character. -/
theorem flatMap_escapeChar_joinPairs (s : Str) :
    (joinPairs s).flatMap (escapeChar true) = s.flatMap (escapeChar true) := by
  induction s using joinPairs_induction with
  | pair c d s pair ih =>
    rw [joinPairs, if_pos pair]
    rw [Bool.and_eq_true] at pair
    simp only [List.flatMap_cons, ih, escapeChar_pair pair.1 pair.2, List.append_assoc]
  | single c d s single ih =>
    rw [joinPairs, if_neg single, List.flatMap_cons, ih]
    rfl
  | short s short =>
    rw [joinPairs]
    exact short

theorem dumpsStr_joinPairs {o : DumpsOptions} (ascii : o.ensureAscii = true) (s : Str) :
    dumpsStr o (joinPairs s) = dumpsStr o s := by
  rw [dumpsStr, dumpsStr, ascii, flatMap_escapeChar_joinPairs]

/-! ## Texts without pairs -/

theorem pairFree_cons_cons {c d : CodePoint} {s : Str} : pairFree (c :: d :: s) = true ↔
    ¬ (isHighSurrogate c && isLowSurrogate d) = true ∧ pairFree (d :: s) = true := by
  rw [pairFree, Bool.and_eq_true, Bool.not_eq_true', Bool.not_eq_true]

theorem joinPairs_of_pairFree {s : Str} (free : pairFree s = true) : joinPairs s = s := by
  induction s using joinPairs_induction with
  | pair c d s pair ih => exact absurd pair (pairFree_cons_cons.mp free).1
  | single c d s single ih => rw [joinPairs, if_neg single, ih (pairFree_cons_cons.mp free).2]
  | short s short =>
    rw [joinPairs]
    exact short

/-- The first character is no low surrogate unless it was there. -/
theorem joinPairs_head {d e : CodePoint} {s t : Str} (h : joinPairs (d :: s) = e :: t) :
    e = d ∨ isLowSurrogate e = false := by
  cases s with
  | nil =>
    obtain ⟨rfl, -⟩ := List.cons.inj h
    exact .inl rfl
  | cons f s =>
    rw [joinPairs] at h
    split at h
    · rename_i pair
      obtain ⟨rfl, -⟩ := List.cons.inj h
      rw [Bool.and_eq_true] at pair
      have wide := (joinPair_units pair.1 pair.2).1
      refine .inr ?_
      simp only [isLowSurrogate, Bool.and_eq_false_iff, decide_eq_false_iff_not]
      omega
    · obtain ⟨rfl, -⟩ := List.cons.inj h
      exact .inl rfl

theorem pairFree_cons_of {c : CodePoint} {s : Str} (free : pairFree s = true)
    (alone : ∀ d t, s = d :: t → ¬ (isHighSurrogate c && isLowSurrogate d) = true) :
    pairFree (c :: s) = true := by
  cases s with
  | nil => rfl
  | cons d s => exact pairFree_cons_cons.mpr ⟨alone d s rfl, free⟩

/-- A text without surrogates. -/
theorem pairFree_of_low {s : Str} (low : ∀ c ∈ s, c.val < 0xD800) : pairFree s = true := by
  induction s with
  | nil => rfl
  | cons c t ih =>
    refine pairFree_cons_of (ih fun d hd => low d (List.mem_cons_of_mem c hd)) ?_
    rintro d u rfl pair
    have := low c List.mem_cons_self
    simp only [isHighSurrogate, Bool.and_eq_true, decide_eq_true_eq] at pair
    omega

theorem pairFree_joinPairs (s : Str) : pairFree (joinPairs s) = true := by
  induction s using joinPairs_induction with
  | pair c d s pair ih =>
    rw [joinPairs, if_pos pair]
    refine pairFree_cons_of ih fun e t _ joined => ?_
    rw [Bool.and_eq_true] at pair joined
    have wide := (joinPair_units pair.1 pair.2).1
    have high := joined.1
    simp only [isHighSurrogate, Bool.and_eq_true, decide_eq_true_eq] at high
    omega
  | single c d s single ih =>
    rw [joinPairs, if_neg single]
    refine pairFree_cons_of ih fun e t head joined => ?_
    rcases joinPairs_head head with rfl | low
    · exact single joined
    · rw [low, Bool.and_false] at joined
      cases joined
  | short s short =>
    cases s with
    | nil => rfl
    | cons c s =>
      cases s with
      | nil => rfl
      | cons d s => exact absurd rfl (short c d s)

theorem pairFree_tail {c : CodePoint} {s : Str} (free : pairFree (c :: s) = true) :
    pairFree s = true := by
  cases s with
  | nil => rfl
  | cons d s => exact (pairFree_cons_cons.mp free).2

theorem pairFree_of_append {s t : Str} (free : pairFree (s ++ t) = true) :
    pairFree s = true ∧ pairFree t = true := by
  induction s with
  | nil => exact ⟨rfl, free⟩
  | cons c s ih =>
    have rest := ih (pairFree_tail free)
    refine ⟨pairFree_cons_of rest.1 ?_, rest.2⟩
    rintro d u rfl
    exact (pairFree_cons_cons.mp free).1

theorem pairFree_strip {s : Str} (free : pairFree s = true) : pairFree (strip s) = true := by
  obtain ⟨front, hfront⟩ := List.dropWhile_suffix isSpace (l := s)
  obtain ⟨back, hback⟩ := rstrip_isPrefix (lstrip s)
  rw [← hfront] at free
  have middle := (pairFree_of_append free).2
  rw [← lstrip, ← hback] at middle
  exact (pairFree_of_append middle).1

/-! ## Ends of texts -/

theorem joinPairs_ne_nil {s : Str} (some' : s ≠ []) : joinPairs s ≠ [] := by
  cases s with
  | nil => exact absurd rfl some'
  | cons c s =>
    cases s with
    | nil => exact some'
    | cons d s =>
      rw [joinPairs]
      split_ifs <;> exact List.cons_ne_nil _ _

theorem isSpace_wide {c : CodePoint} (wide : 0x10000 ≤ c.val) : isSpace c = false := by
  simp only [isSpace, Bool.or_eq_false_iff, Bool.and_eq_false_iff, decide_eq_false_iff_not,
    beq_eq_false_iff_ne, ne_eq]
  omega

/-- A joined text begins as the text does, or with a character outside the basic plane. -/
theorem joinPairs_first {s t : Str} {e : CodePoint} (h : joinPairs s = e :: t) :
    (∃ u, s = e :: u) ∨ 0x10000 ≤ e.val := by
  cases s with
  | nil => cases h
  | cons c s =>
    cases s with
    | nil => exact .inl ⟨_, h⟩
    | cons d s =>
      rw [joinPairs] at h
      split at h
      · rename_i pair
        obtain ⟨rfl, -⟩ := List.cons.inj h
        rw [Bool.and_eq_true] at pair
        exact .inr (joinPair_units pair.1 pair.2).1
      · obtain ⟨rfl, -⟩ := List.cons.inj h
        exact .inl ⟨_, rfl⟩

/-- It ends as the text does, or with such a character. -/
theorem joinPairs_last {s t : Str} {e : CodePoint} (h : joinPairs s = t ++ [e]) :
    (∃ u, s = u ++ [e]) ∨ 0x10000 ≤ e.val := by
  induction s using joinPairs_induction generalizing t with
  | pair c d s pair ih =>
    rw [joinPairs, if_pos pair] at h
    cases t with
    | nil =>
      obtain ⟨rfl, -⟩ := List.cons.inj h
      rw [Bool.and_eq_true] at pair
      exact .inr (joinPair_units pair.1 pair.2).1
    | cons b t =>
      rcases ih (List.cons.inj h).2 with ⟨u, rfl⟩ | wide
      · exact .inl ⟨c :: d :: u, rfl⟩
      · exact .inr wide
  | single c d s single ih =>
    rw [joinPairs, if_neg single] at h
    cases t with
    | nil => exact absurd (List.cons.inj h).2 (joinPairs_ne_nil (List.cons_ne_nil d s))
    | cons b t =>
      rcases ih (List.cons.inj h).2 with ⟨u, same⟩ | wide
      · exact .inl ⟨c :: u, by rw [same]; rfl⟩
      · exact .inr wide
  | short s short =>
    rw [joinPairs] at h
    · exact .inl ⟨_, h⟩
    · exact short

/-- Joining makes no blanks at the ends. -/
theorem strip_joinPairs {s : Str} (solid : strip s = s) : strip (joinPairs s) = joinPairs s := by
  obtain ⟨first, last⟩ := strip_ends s
  rw [solid] at first last
  refine strip_eq_self (fun c t h => ?_) fun c t h => ?_
  · rcases joinPairs_first h with ⟨u, same⟩ | wide
    · exact first c u same
    · exact isSpace_wide wide
  · rcases joinPairs_last h with ⟨u, same⟩ | wide
    · exact last c u same
    · exact isSpace_wide wide

/-! ## Values -/

mutual

/-- A function applied to the strings of a value, its keys apart. -/
def Json.mapStr (f : Str → Str) : Json → Json
  | .str s => .str (f s)
  | .list xs => .list (Json.mapStrList f xs)
  | .dict items => .dict (Json.mapStrItems f items)
  | v => v

def Json.mapStrList (f : Str → Str) : List Json → List Json
  | [] => []
  | v :: vs => v.mapStr f :: Json.mapStrList f vs

def Json.mapStrItems (f : Str → Str) : List (Str × Json) → List (Str × Json)
  | [] => []
  | (k, v) :: items => (k, v.mapStr f) :: Json.mapStrItems f items

end

theorem mapStrList_eq (f : Str → Str) (xs : List Json) :
    Json.mapStrList f xs = xs.map (Json.mapStr f) := by
  induction xs with
  | nil => rfl
  | cons v vs ih => rw [Json.mapStrList, ih, List.map_cons]

theorem mapStrItems_eq (f : Str → Str) (items : List (Str × Json)) :
    Json.mapStrItems f items = items.map fun i => (i.1, i.2.mapStr f) := by
  induction items with
  | nil => rfl
  | cons i items ih => rw [Json.mapStrItems, ih, List.map_cons]

theorem sortItems_map (g : Json → Json) (items : List (Str × Json)) :
    sortItems (items.map fun i => (i.1, g i.2)) = (sortItems items).map fun i => (i.1, g i.2) := by
  rw [sortItems, sortItems]
  exact (List.map_insertionSort _ _ (fun i : Str × Json => (i.1, g i.2)) items
    fun _ _ _ _ => Iff.rfl).symm

mutual

theorem sorted_mapStr (f : Str → Str) (v : Json) : (v.mapStr f).sorted = v.sorted.mapStr f := by
  cases v with
  | list xs => simp only [Json.mapStr, Json.sorted, sorted_mapStrList f xs]
  | dict items =>
    simp only [Json.mapStr, Json.sorted, sorted_mapStrItems f items]
    rw [mapStrItems_eq, mapStrItems_eq, sortItems_map]
  | null | bool | int | float | str => rfl

theorem sorted_mapStrList (f : Str → Str) (xs : List Json) :
    Json.sortedList (Json.mapStrList f xs) = Json.mapStrList f (Json.sortedList xs) := by
  match xs with
  | [] => rfl
  | v :: vs => simp only [Json.mapStrList, Json.sortedList, sorted_mapStr f v, sorted_mapStrList f vs]

theorem sorted_mapStrItems (f : Str → Str) (items : List (Str × Json)) :
    Json.sortedItems (Json.mapStrItems f items) = Json.mapStrItems f (Json.sortedItems items) := by
  match items with
  | [] => rfl
  | (k, v) :: items =>
    simp only [Json.mapStrItems, Json.sortedItems, sorted_mapStr f v, sorted_mapStrItems f items]

end

mutual

/-- Joining changes nothing in a value without pairs. -/
theorem mapStr_of_pairFree {v : Json} (free : v.check .pairFree = true) :
    v.mapStr joinPairs = v := by
  cases v with
  | null | bool | int | float => rfl
  | str s => exact congrArg Json.str (joinPairs_of_pairFree free)
  | list xs => exact congrArg Json.list (mapStrList_of_pairFree free)
  | dict items =>
    rw [Json.check, Bool.and_eq_true] at free
    exact congrArg Json.dict (mapStrItems_of_pairFree free.2)

theorem mapStrList_of_pairFree {vs : List Json} (free : Json.checkList .pairFree vs = true) :
    Json.mapStrList joinPairs vs = vs := by
  match vs with
  | [] => rfl
  | v :: vs =>
    rw [Json.checkList, Bool.and_eq_true] at free
    rw [Json.mapStrList, mapStr_of_pairFree free.1, mapStrList_of_pairFree free.2]

theorem mapStrItems_of_pairFree {items : List (Str × Json)}
    (free : Json.checkItems .pairFree items = true) : Json.mapStrItems joinPairs items = items := by
  match items with
  | [] => rfl
  | (k, v) :: items =>
    rw [Json.checkItems, Bool.and_eq_true] at free
    rw [Json.mapStrItems, mapStr_of_pairFree free.1, mapStrItems_of_pairFree free.2]

end

end QaCopilot.Python
