import QaCopilot.Openapi.Facts

/-!
# The laws of a difference of facts

* `difference_reverse`: the difference at a key, the other way round;
* `get?_applied`: what the differences make of an index at a key;
* `diff_laws`: a difference is empty, is a patch and is reversed where it should be.
-/

namespace QaCopilot.Openapi

open QaCopilot.Python QaCopilot.Results

abbrev FactKey := OpenapiFactKind × Str

abbrev FactIndex := Dict FactKey OpenapiFact

/-! ## Patches -/

def OpenapiFactDifference.key (d : OpenapiFactDifference) : FactKey := (d.factKind, d.identifier)

/-- An added or changed fact is set, a removed one is deleted. -/
def applyDifference (index : FactIndex) (d : OpenapiFactDifference) : FactIndex :=
  match d.kind, d.after with
  | .removed, _ => index.erase d.key
  | _, some f => index.set d.key f
  | _, none => index

def OpenapiFactDifferenceKind.reverse : OpenapiFactDifferenceKind → OpenapiFactDifferenceKind
  | .added => .removed
  | .removed => .added
  | .changed => .changed

/-- Added and removed exchanged, and a change reversed. -/
def OpenapiFactDifference.reverse (d : OpenapiFactDifference) : OpenapiFactDifference :=
  ⟨d.kind.reverse, d.factKind, d.identifier, d.after, d.before⟩

/-! ## One key -/

/-- The facts at a key of two indexes have that key. -/
structure AtKey (k : FactKey) (left right : Option OpenapiFact) : Prop where
  left : ∀ f, left = some f → f.key = k
  right : ∀ f, right = some f → f.key = k

theorem difference_key {k : FactKey} {left right : Option OpenapiFact} (at' : AtKey k left right)
    {d : OpenapiFactDifference} (h : difference left right = some d) : d.key = k := by
  cases left with
  | none =>
    cases right with
    | none => cases h
    | some f =>
      obtain rfl := Option.some.inj h
      exact at'.right f rfl
  | some f =>
    cases right with
    | none =>
      obtain rfl := Option.some.inj h
      exact at'.left f rfl
    | some g =>
      rw [difference] at h
      split_ifs at h
      obtain rfl := Option.some.inj h
      exact at'.left f rfl

theorem difference_self (f : Option OpenapiFact) : difference f f = none := by
  cases f with
  | none => rfl
  | some f => exact if_pos rfl

theorem difference_reverse {k : FactKey} {left right : Option OpenapiFact} (at' : AtKey k left right) :
    difference right left = (difference left right).map .reverse := by
  cases left with
  | none => cases right <;> rfl
  | some f =>
    cases right with
    | none => rfl
    | some g =>
      have same : f.key = g.key := (at'.left f rfl).trans (at'.right g rfl).symm
      obtain ⟨kind, identifier⟩ := Prod.mk.inj same
      by_cases unchanged : f = g
      · rw [unchanged, difference_self]
        rfl
      · rw [difference, difference, if_neg unchanged, if_neg (Ne.symm unchanged), ← kind, ← identifier]
        rfl

/-- What a difference makes of an index at its own key. -/
theorem applied_own {left right : Option OpenapiFact} {d : OpenapiFactDifference}
    (h : difference left right = some d) (index : FactIndex) :
    (applyDifference index d).get? d.key = right := by
  cases left with
  | none =>
    cases right with
    | none => cases h
    | some f =>
      obtain rfl := Option.some.inj h
      exact Dict.get?_set_self _ _ _
  | some f =>
    cases right with
    | none =>
      obtain rfl := Option.some.inj h
      exact (Dict.get?_erase _ _ _).trans (if_pos rfl)
    | some g =>
      rw [difference] at h
      split_ifs at h
      obtain rfl := Option.some.inj h
      exact Dict.get?_set_self _ _ _

theorem applied_other (index : FactIndex) (d : OpenapiFactDifference) {k : FactKey} (other : k ≠ d.key) :
    (applyDifference index d).get? k = index.get? k := by
  unfold applyDifference
  split
  · rw [Dict.get?_erase, if_neg other]
  · exact Dict.get?_set_other _ _ other
  · rfl

/-! ## All keys -/

variable {left right : FactIndex}

/-- Every fact of an index is at its key. -/
def Keyed (index : FactIndex) : Prop := ∀ k f, index.get? k = some f → f.key = k

theorem Keyed.both (keyedLeft : Keyed left) (keyedRight : Keyed right) (k : FactKey) :
    AtKey k (left.get? k) (right.get? k) :=
  ⟨fun f => keyedLeft k f, fun f => keyedRight k f⟩

theorem keyed_indexFacts {facts : List OpenapiFact} {index : FactIndex}
    (h : indexFacts facts = .ok index) : Keyed index := by
  unfold indexFacts at h
  extract_lets made at h
  split_ifs at h
  obtain rfl := Except.ok.inj h
  intro k f found
  have item := Dict.mem_comprehension (Dict.get?_eq_some.mp found)
  obtain ⟨g, -, same⟩ := List.mem_map.mp item
  obtain ⟨key, rfl⟩ := Prod.mk.inj same
  exact key

/-- The differences at some keys. -/
def differencesAt (left right : FactIndex) (keys : List FactKey) : List OpenapiFactDifference :=
  keys.filterMap fun k => difference (left.get? k) (right.get? k)

theorem differencesAt_cons (k : FactKey) (keys : List FactKey) :
    differencesAt left right (k :: keys) =
      (difference (left.get? k) (right.get? k)).toList ++ differencesAt left right keys := by
  rw [differencesAt, List.filterMap_cons]
  cases difference (left.get? k) (right.get? k) <;> rfl

/-- Applied at keys that differ, the differences leave the right index there. -/
theorem get?_applied (keyedLeft : Keyed left) (keyedRight : Keyed right) {keys : List FactKey}
    (distinct : keys.Nodup) {index : FactIndex} (start : ∀ k ∈ keys, index.get? k = left.get? k)
    (k : FactKey) : ((differencesAt left right keys).foldl applyDifference index).get? k =
      if k ∈ keys then right.get? k else index.get? k := by
  induction keys generalizing index with
  | nil => rfl
  | cons a keys ih =>
    obtain ⟨isNew, distinct⟩ := List.nodup_cons.mp distinct
    obtain ⟨atFirst, atOthers⟩ := List.forall_mem_cons.mp start
    cases change : difference (left.get? a) (right.get? a) with
    | none =>
      have same : left.get? a = right.get? a := by
        cases hl : left.get? a <;> cases hr : right.get? a <;> simp_all [difference]
      rw [differencesAt_cons, change, Option.toList_none, List.nil_append, ih distinct atOthers]
      by_cases own : k = a
      · subst own
        rw [if_neg isNew, if_pos List.mem_cons_self, atFirst, same]
      · simp only [List.mem_cons, own, false_or]
    | some d =>
      have key := difference_key (keyedLeft.both keyedRight a) change
      have kept : ∀ b ∈ keys, (applyDifference index d).get? b = left.get? b := by
        intro b hb
        rw [applied_other index d (key ▸ fun same => isNew (same ▸ hb)), atOthers b hb]
      rw [differencesAt_cons, change, Option.toList_some, List.singleton_append, List.foldl_cons,
        ih distinct kept]
      by_cases own : k = a
      · subst own
        rw [if_neg isNew, if_pos List.mem_cons_self]
        exact key ▸ applied_own change index
      · rw [applied_other index d (key ▸ own)]
        simp only [List.mem_cons, own, false_or]

theorem differencesAt_reverse (keyedLeft : Keyed left) (keyedRight : Keyed right) (keys : List FactKey) :
    differencesAt right left keys = (differencesAt left right keys).map .reverse := by
  rw [differencesAt, differencesAt, List.map_filterMap]
  exact List.filterMap_congr fun k _ => difference_reverse (keyedLeft.both keyedRight k)

/-! ## The keys of two indexes -/

/-- `set(before) | set(after)`, sorted. -/
def unionKeys (left right : FactIndex) : List FactKey :=
  sortByTexts keyTexts (left.update right.items).keys

theorem keyTexts_injective {a b : FactKey} (same : keyTexts a = keyTexts b) : a = b := by
  obtain ⟨kind, identifier⟩ := a
  obtain ⟨kind', identifier'⟩ := b
  simp only [keyTexts, List.cons.injEq, and_true] at same
  obtain ⟨kinds, rfl⟩ := same
  rw [OpenapiFactKind.value_injective kinds]

theorem mem_unionKeys {k : FactKey} : k ∈ unionKeys left right ↔ k ∈ left.keys ∨ k ∈ right.keys := by
  rw [unionKeys, (sortByTexts_perm _ _).mem_iff, Dict.mem_keys_update]
  exact Iff.rfl

theorem unionKeys_nodup : (unionKeys left right).Nodup :=
  (sortByTexts_perm _ _).nodup_iff.mpr (Dict.nodup_keys _)

theorem unionKeys_comm : unionKeys left right = unionKeys right left := by
  refine sortByTexts_eq ?_ fun a _ b _ => keyTexts_injective
  refine (List.perm_ext_iff_of_nodup (Dict.nodup_keys _) (Dict.nodup_keys _)).mpr fun k => ?_
  rw [Dict.mem_keys_update, Dict.mem_keys_update, or_comm]
  exact Iff.rfl

theorem diff_eq {before after : OpenapiFactsV1} (known : before.schemaVersion = openapiFactSchemaVersion)
    (known' : after.schemaVersion = openapiFactSchemaVersion)
    (indexed : indexFacts before.facts = .ok left) (indexed' : indexFacts after.facts = .ok right) :
    diffOpenapiFacts before after = .ok (differencesAt left right (unionKeys left right)) := by
  rw [diffOpenapiFacts, if_neg (by simp [known, known']), indexed, ok_bind, indexed']
  rfl

/-- The differences of two lists of facts whose identifiers differ within each are none of a list and
itself, turn one index into the other, and are reversed the other way round. -/
theorem diff_laws {before after : OpenapiFactsV1} (known : before.schemaVersion = openapiFactSchemaVersion)
    (known' : after.schemaVersion = openapiFactSchemaVersion) (unique : UniqueFacts before.facts)
    (unique' : UniqueFacts after.facts) :
    diffOpenapiFacts before before = .ok [] ∧
      ∃ left right differences, indexFacts before.facts = .ok left ∧
        indexFacts after.facts = .ok right ∧ diffOpenapiFacts before after = .ok differences ∧
        (∀ k, (differences.foldl applyDifference left).get? k = right.get? k) ∧
        diffOpenapiFacts after before = .ok (differences.map .reverse) := by
  obtain ⟨left, indexed⟩ := indexFacts_isOk.mpr unique
  obtain ⟨right, indexed'⟩ := indexFacts_isOk.mpr unique'
  have keyed := keyed_indexFacts indexed
  have keyed' := keyed_indexFacts indexed'
  refine ⟨?_, left, right, _, indexed, indexed', diff_eq known known' indexed indexed', ?_, ?_⟩
  · have none' : differencesAt left left (unionKeys left left) = [] :=
      List.filterMap_eq_nil_iff.mpr fun k _ => difference_self (left.get? k)
    rw [diff_eq known known indexed indexed, none']
  · intro k
    rw [get?_applied keyed keyed' unionKeys_nodup fun _ _ => rfl]
    split_ifs with listed
    · rfl
    · rw [mem_unionKeys, not_or, ← Dict.get?_eq_none, ← Dict.get?_eq_none] at listed
      rw [listed.1, listed.2]
  · rw [diff_eq known' known indexed' indexed, unionKeys_comm, differencesAt_reverse keyed keyed']

/-- The facts of a document with these operations. -/
def operationFacts (operations : List (String × String)) : OpenapiFactsV1 :=
  ⟨openapiFactSchemaVersion, lit "3.1.0", operations.map fun o =>
    ⟨.operation, lit o.1, lit "/paths/~1orders/get", [(lit "deprecated", lit o.2)]⟩⟩

theorem diff_laws_sample :
    let before := operationFacts [("GET /orders", "false"), ("PUT /orders", "false")]
    let after := operationFacts [("POST /orders", "false"), ("GET /orders", "true")]
    ∃ left right differences, indexFacts before.facts = .ok left ∧
      indexFacts after.facts = .ok right ∧ diffOpenapiFacts before after = .ok differences ∧
      (∀ k, (differences.foldl applyDifference left).get? k = right.get? k) ∧
      diffOpenapiFacts after before = .ok (differences.map .reverse) :=
  (diff_laws rfl rfl (by unfold UniqueFacts; decide +kernel) (by unfold UniqueFacts; decide +kernel)).2

end QaCopilot.Openapi
