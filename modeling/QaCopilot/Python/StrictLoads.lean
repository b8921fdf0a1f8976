import QaCopilot.Python.DecodedValues

/-!
# Strict `json.loads`

`json.loads` with hooks that refuse the constants beyond JSON and repeated keys.

* `distinctKeys_loadsStrict`: no dict of a value that is read repeats a key;
* `loadsStrict_pairs`: nor does an object of its source, all of whose pairs are read.
-/

namespace QaCopilot.Python

open QaCopilot.Results

/-- The words for which `parse_constant` is called. -/
def constants : List Str := [lit "NaN", lit "Infinity", lit "-Infinity"]

/-- `lexFrom` with a `parse_constant` that raises: the text is refused at such a word. -/
def lexFinite : Nat → Str → List Token
  | _, [] => []
  | taken + 1, _ :: s => lexFinite taken s
  | 0, c :: s =>
    if isJsonSpace c then lexFinite 0 s
    else if constants.any (·.isPrefixOf (c :: s)) then [.bad]
    else
      match scanToken c s with
      | some (t, more) => t :: lexFinite more s
      | none => [.bad]

/-- `loads` with such a `parse_constant`. -/
def loadsFinite (limit : Nat) (s : Str) : Except LoadsError Json :=
  if s.head?.any (·.val = 0xFEFF) then .error .decode
  else do parserResult (← (lexFinite 0 s).foldlM (parserStep limit) ([], .value))

/-- `parserStep` with an `object_pairs_hook` that refuses repeated keys: it sees all pairs of an
object when the object ends. -/
def strictStep (limit : Nat) : Parser → Token → Except LoadsError Parser
  | (.dict items key :: frames, .done v), .comma => .ok (frames, .key (items ++ [(key, v)]))
  | (.dict items key :: frames, .done v), .closeDict =>
    if ((items ++ [(key, v)]).map (·.1)).Nodup then
      .ok (frames, .done (.dict (items ++ [(key, v)])))
    else .error .decode
  | p, t => parserStep limit p t

/-- `loads` with both hooks; what a hook raises is a `.decode` like a fault of the text. -/
def loadsStrict (limit : Nat) (s : Str) : Except LoadsError Json :=
  if s.head?.any (·.val = 0xFEFF) then .error .decode
  else do parserResult (← (lexFinite 0 s).foldlM (strictStep limit) ([], .value))

example : (loadsStrict 10 (lit "[-Infinity]")).toBool = false ∧
    (loadsStrict 10 (lit "\x7b\"a\": 1, \"a\": 2\x7d")).toBool = false ∧
    (loadsStrict 10 (lit "\x7b\"a\": 1, \"b\": [2]\x7d")).toBool = true := by decide +kernel

/-! ## Keys -/

/-- The values inside a container that is open have distinct keys. -/
def Frame.Distinct : Frame → Prop
  | .list items => ∀ v ∈ items, v.check .distinctKeys = true
  | .dict items _ => ∀ i ∈ items, i.2.check .distinctKeys = true

def Mode.Distinct : Mode → Prop
  | .key items | .colon items _ => ∀ i ∈ items, i.2.check .distinctKeys = true
  | .done v => v.check .distinctKeys = true
  | _ => True

def Parser.Distinct (p : Parser) : Prop := (∀ f ∈ p.1, f.Distinct) ∧ p.2.Distinct

theorem lexFinite_checks {c : Check} {plain : CodePoint → Prop} (spelled : c.Spelled plain) {s : Str}
    (text : ∀ a ∈ s, plain a) (taken : Nat) : ∀ t ∈ lexFinite taken s, t.Checks c := by
  induction s generalizing taken with
  | nil => simp [lexFinite]
  | cons a s ih =>
    have rest : ∀ b ∈ s, plain b := fun b hb => text b (List.mem_cons_of_mem a hb)
    cases taken with
    | succ taken => exact ih rest taken
    | zero =>
      rw [lexFinite]
      split_ifs
      · exact ih rest 0
      · simp [Token.Checks]
      · split
        · rename_i t more found
          exact List.forall_mem_cons.mpr ⟨scanToken_checks spelled rest found, ih rest more⟩
        · simp [Token.Checks]

theorem beginValue_distinct {limit : Nat} {frames : List Frame} {t : Token} {p : Parser}
    (before : ∀ f ∈ frames, f.Distinct) (plain : t.Checks .distinctKeys) (h : beginValue limit frames t = .ok p) :
    p.Distinct := by
  cases t with
  | str s => exact Except.ok.inj h ▸ ⟨before, rfl⟩
  | scalar v => exact Except.ok.inj h ▸ ⟨before, plain⟩
  | openList =>
    rw [beginValue] at h
    split_ifs at h
    obtain rfl := Except.ok.inj h
    refine ⟨List.forall_mem_cons.mpr ⟨?_, before⟩, trivial⟩
    simp [Frame.Distinct]
  | openDict =>
    rw [beginValue] at h
    split_ifs at h
    exact Except.ok.inj h ▸ ⟨before, trivial⟩
  | tooLong | closeList | closeDict | comma | colon | bad => cases h

theorem parserStep_distinct {limit : Nat} {p q : Parser} {t : Token} (before : p.Distinct)
    (plain : t.Checks .distinctKeys) (other : ∀ items key frames v, p ≠ (.dict items key :: frames, .done v))
    (h : parserStep limit p t = .ok q) : q.Distinct := by
  obtain ⟨frames, mode⟩ := p
  obtain ⟨outer, inner⟩ := before
  cases mode with
  | value => exact beginValue_distinct outer plain h
  | firstItem =>
    unfold parserStep at h
    dsimp only at h
    split at h
    · exact Except.ok.inj h ▸ ⟨(List.forall_mem_cons.mp outer).2, rfl⟩
    · exact beginValue_distinct outer plain h
  | firstKey =>
    unfold parserStep at h
    dsimp only at h
    split at h
    · exact Except.ok.inj h ▸ ⟨outer, rfl⟩
    · exact Except.ok.inj h ▸ ⟨outer, by simp [Mode.Distinct]⟩
    · cases h
  | key items =>
    unfold parserStep at h
    dsimp only at h
    split at h
    · exact Except.ok.inj h ▸ ⟨outer, inner⟩
    · cases h
  | colon items key =>
    unfold parserStep at h
    dsimp only at h
    split at h
    · exact Except.ok.inj h ▸ ⟨List.forall_mem_cons.mpr ⟨inner, outer⟩, trivial⟩
    · cases h
  | done v =>
    unfold parserStep at h
    dsimp only at h
    unfold endValue at h
    split at h
    · rename_i items frames
      obtain ⟨list, outer⟩ := List.forall_mem_cons.mp outer
      refine Except.ok.inj h ▸ ⟨List.forall_mem_cons.mpr ⟨?_, outer⟩, trivial⟩
      exact List.forall_mem_append.mpr ⟨list, List.forall_mem_singleton.mpr inner⟩
    · rename_i items frames
      obtain ⟨list, outer⟩ := List.forall_mem_cons.mp outer
      refine Except.ok.inj h ▸ ⟨outer, ?_⟩
      exact checkList_eq_true.mpr
        (List.forall_mem_append.mpr ⟨list, List.forall_mem_singleton.mpr inner⟩)
    · exact absurd rfl (other _ _ _ _)
    · exact absurd rfl (other _ _ _ _)
    · cases h

theorem strictStep_distinct {limit : Nat} {p q : Parser} {t : Token} (before : p.Distinct)
    (plain : t.Checks .distinctKeys) (h : strictStep limit p t = .ok q) : q.Distinct := by
  unfold strictStep at h
  split at h
  · rename_i items key frames v
    obtain ⟨dict, outer⟩ := List.forall_mem_cons.mp before.1
    refine Except.ok.inj h ▸ ⟨outer, ?_⟩
    exact List.forall_mem_append.mpr ⟨dict, List.forall_mem_singleton.mpr before.2⟩
  · rename_i items key frames v
    split_ifs at h with keys
    obtain ⟨dict, outer⟩ := List.forall_mem_cons.mp before.1
    refine Except.ok.inj h ▸ ⟨outer, Bool.and_eq_true_iff.mpr ⟨decide_eq_true keys, ?_⟩⟩
    exact checkItems_eq_true.mpr
      (List.forall_mem_append.mpr ⟨dict, List.forall_mem_singleton.mpr before.2⟩)
  · rename_i comma close
    by_cases dict : ∃ items key frames v, p = (.dict items key :: frames, .done v)
    · obtain ⟨items, key, frames, v, rfl⟩ := dict
      cases t with
      | comma => exact absurd rfl (comma _ _ _ _ rfl)
      | closeDict => exact absurd rfl (close _ _ _ _ rfl)
      | openList | closeList | openDict | colon | str | scalar | tooLong | bad => cases h
    · refine parserStep_distinct before plain ?_ h
      intro items key frames v same
      exact dict ⟨items, key, frames, v, same⟩

theorem run_distinct {limit : Nat} {ts : List Token} {p q : Parser} (start : p.Distinct)
    (plain : ∀ t ∈ ts, t.Checks .distinctKeys) (run : ts.foldlM (strictStep limit) p = .ok q) : q.Distinct := by
  induction ts generalizing p with
  | nil => exact Except.ok.inj run ▸ start
  | cons t ts ih =>
    obtain ⟨first, later⟩ := List.forall_mem_cons.mp plain
    obtain ⟨p', step, run⟩ := bind_ok.mp run
    exact ih (strictStep_distinct start first step) later run

/-- No dict of a value that is read repeats a key. -/
theorem distinctKeys_loadsStrict {limit : Nat} {s : Str} {v : Json}
    (h : loadsStrict limit s = .ok v) : v.check .distinctKeys = true := by
  unfold loadsStrict at h
  split_ifs at h
  obtain ⟨⟨frames, mode⟩, run, result⟩ := bind_ok.mp h
  have start : Parser.Distinct ([], .value) := ⟨nofun, trivial⟩
  have read := run_distinct start (lexFinite_checks spelled_distinct (fun _ _ => trivial) 0) run
  cases frames with
  | cons => cases result
  | nil =>
    cases mode with
    | done w => exact Except.ok.inj result ▸ read.2
    | value | firstItem | firstKey | key | colon => cases result

/-! ## The pairs of the source -/

/-- `parserStep` with an `object_pairs_hook` that keeps all pairs. -/
def pairsStep (limit : Nat) : Parser → Token → Except LoadsError Parser
  | (.dict items key :: frames, .done v), .comma => .ok (frames, .key (items ++ [(key, v)]))
  | (.dict items key :: frames, .done v), .closeDict =>
    .ok (frames, .done (.dict (items ++ [(key, v)])))
  | p, t => parserStep limit p t

/-- `loads` with such a hook: every object with all the pairs that the text spells. -/
def loadsPairs (limit : Nat) (s : Str) : Except LoadsError Json :=
  if s.head?.any (·.val = 0xFEFF) then .error .decode
  else do parserResult (← (lexFinite 0 s).foldlM (pairsStep limit) ([], .value))

theorem strictStep_pairs {limit : Nat} {p q : Parser} {t : Token} (h : strictStep limit p t = .ok q) :
    pairsStep limit p t = .ok q := by
  unfold strictStep at h
  split at h
  · exact h
  · split_ifs at h
    exact h
  · rename_i comma close
    unfold pairsStep
    split
    · exact absurd rfl (comma _ _ _ _ rfl)
    · exact absurd rfl (close _ _ _ _ rfl)
    · exact h

theorem strictRun_pairs {limit : Nat} {ts : List Token} {p q : Parser}
    (run : ts.foldlM (strictStep limit) p = .ok q) : ts.foldlM (pairsStep limit) p = .ok q := by
  induction ts generalizing p with
  | nil => exact run
  | cons t ts ih =>
    rw [List.foldlM_cons] at run ⊢
    obtain ⟨p', step, run⟩ := bind_ok.mp run
    exact bind_ok.mpr ⟨p', strictStep_pairs step, ih run⟩

/-- A value that is read has all pairs of the source. -/
theorem loadsStrict_pairs {limit : Nat} {s : Str} {v : Json} (h : loadsStrict limit s = .ok v) :
    loadsPairs limit s = .ok v := by
  unfold loadsStrict at h
  unfold loadsPairs
  split_ifs at h ⊢
  obtain ⟨q, run, result⟩ := bind_ok.mp h
  exact bind_ok.mpr ⟨q, strictRun_pairs run, result⟩

end QaCopilot.Python
