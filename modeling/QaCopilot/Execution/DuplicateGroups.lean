import QaCopilot.Execution.SemanticKeys

/-!
# Groups of duplicates

* `duplicates_partition`: the groups are the classes of two tests and more that behave the same, and
  the order of the tests does not count;
* `Spelled.of_decoded`: the theorem is about every test that is read from JSON.
-/

namespace QaCopilot.Execution

open Python Results

variable {n : Normalizer} {tests others : List GeneratedTestCase} {key : GeneratedTestCase → Str}

/-! ## Tests by their keys -/

/-- The function tells the keys of the tests. -/
def Keyed (limit : Nat) (tests : List GeneratedTestCase) (key : GeneratedTestCase → Str) : Prop :=
  ∀ t ∈ tests, semanticKey limit t = .ok (key t)

/-- The ids of the tests with a key, in the order of their texts. -/
def idsOf (tests : List GeneratedTestCase) (key : GeneratedTestCase → Str) (k : Str) : List Uuid :=
  sortByTexts (fun u => [uuidText u]) ((tests.filter (key · = k)).map (·.id))

/-- The group of the tests with a key, when there are two. -/
def groupOf (n : Normalizer) (tests : List GeneratedTestCase) (key : GeneratedTestCase → Str) (k : Str) :
    Option DuplicateCandidateGroup :=
  if (idsOf tests key k).length < 2 then none
  else some ⟨uuid5 n.sha1 duplicateGroupNamespace k, fingerprint n k, idsOf tests key k⟩

theorem groupOf_eq_some {k : Str} {g : DuplicateCandidateGroup} :
    groupOf n tests key k = some g ↔ 2 ≤ (idsOf tests key k).length ∧
      (⟨uuid5 n.sha1 duplicateGroupNamespace k, fingerprint n k, idsOf tests key k⟩ :
        DuplicateCandidateGroup) = g := by
  rw [groupOf]
  split_ifs with few
  · exact iff_of_false (by simp) fun h => absurd h.1 (by omega)
  · rw [Option.some.injEq, and_iff_right (by omega)]

theorem mem_idsOf {k : Str} {id : Uuid} :
    id ∈ idsOf tests key k ↔ ∃ t ∈ tests, key t = k ∧ t.id = id := by
  rw [idsOf, (sortByTexts_perm _ _).mem_iff]
  simp only [List.mem_map, List.mem_filter, decide_eq_true_eq, and_assoc]

theorem nodup_idsOf (distinct : (tests.map (·.id)).Nodup) (k : Str) : (idsOf tests key k).Nodup := by
  rw [idsOf, (sortByTexts_perm _ _).nodup_iff]
  exact distinct.sublist (List.filter_sublist.map _)

theorem idsOf_perm (same : tests.Perm others) (k : Str) : idsOf tests key k = idsOf others key k :=
  sortByTexts_eq ((same.filter _).map _) fun _ _ _ _ texts =>
    uuidText_injective (List.cons.inj texts).1

/-- The keys of the tests, each once, and their groups in order. -/
theorem groups_eq (keyed : Keyed n.recursionLimit tests key) (distinct : (tests.map (·.id)).Nodup) :
    ∃ keys : List Str, keys.Nodup ∧ (∀ k, k ∈ keys ↔ k ∈ tests.map key) ∧
      groupDuplicateCandidates n tests = .ok ((sortedTexts keys).filterMap (groupOf n tests key)) := by
  let view : GeneratedTestCase → NormalizedTestCase := fun t =>
    ⟨t.id, normalizeTitle n t.title, key t, fingerprint n (key t)⟩
  have views : tests.mapM (normalizeGeneratedTestCase n) = .ok (tests.map view) := by
    refine mapM_of_map fun t ht => ?_
    rw [normalizeGeneratedTestCase, keyed t ht]
    rfl
  let members := Dict.empty.appends ((tests.map view).map fun t => (t.semanticKey, t.testCaseId))
  have listed : ∀ k, k ∈ members.keys ↔ k ∈ tests.map key := by
    intro k
    rw [Dict.mem_keys_appends, Dict.keys_empty, List.map_map, List.map_map]
    simp [view, Function.comp_def]
  refine ⟨members.keys, members.nodup_keys, listed, ?_⟩
  rw [groupDuplicateCandidates, if_neg (not_not.mpr distinct), views]
  refine congrArg Except.ok (List.filterMap_congr fun k hk => ?_)
  have ids : (members.get? k).getD [] = (tests.filter (key · = k)).map (·.id) := by
    rw [Dict.get?_appends, Dict.get?_empty, Option.getD_none, List.nil_append, List.map_map,
      List.filter_map, List.map_map]
    rfl
  have printed : ((Dict.empty.update ((tests.map view).map fun t =>
      (t.semanticKey, t.semanticFingerprint))).get? k).getD [] = fingerprint n k := by
    rw [Dict.get?_update_of (v := fingerprint n k) ?_ ?_, Option.getD_some]
    · rw [List.map_map, List.map_map]
      exact (listed k).mp (mem_sortedTexts.mp hk)
    · simp only [List.forall_mem_map]
      rintro t - rfl
      rfl
  rw [duplicateGroup, ids, printed]
  rfl

/-! ## The partition -/

/-- The groups are the classes of two tests and more that behave the same. -/
structure Partitions (tests : List GeneratedTestCase) (groups : List DuplicateCandidateGroup) : Prop where
  equivalence : Equivalence fun t u : {t // t ∈ tests} => SameBehaviour t.1 u.1
  classes : ∀ g ∈ groups, ∃ t ∈ tests, ∀ id, id ∈ g.testCaseIds ↔ ∃ u ∈ tests, u.id = id ∧ SameBehaviour t u
  large : ∀ g ∈ groups, 2 ≤ g.testCaseIds.length
  complete : ∀ t ∈ tests, ∀ u ∈ tests, t.id ≠ u.id → SameBehaviour t u →
    ∃ g ∈ groups, t.id ∈ g.testCaseIds ∧ u.id ∈ g.testCaseIds
  once : (groups.flatMap (·.testCaseIds)).Nodup

section
variable {keys : List Str}

theorem mem_groups (listed : ∀ k, k ∈ keys ↔ k ∈ tests.map key) {g : DuplicateCandidateGroup} :
    g ∈ (sortedTexts keys).filterMap (groupOf n tests key) ↔
      ∃ t ∈ tests, groupOf n tests key (key t) = some g := by
  simp only [List.mem_filterMap, mem_sortedTexts, listed, List.mem_map]
  constructor
  · rintro ⟨_, ⟨t, ht, rfl⟩, made⟩
    exact ⟨t, ht, made⟩
  · rintro ⟨t, ht, made⟩
    exact ⟨_, ⟨t, ht, rfl⟩, made⟩

/-- No id is in two groups. -/
theorem groups_once (distinct : (tests.map (·.id)).Nodup) (each : keys.Nodup) :
    (((sortedTexts keys).filterMap (groupOf n tests key)).flatMap (·.testCaseIds)).Nodup := by
  rw [List.nodup_flatMap]
  constructor
  · intro g hg
    obtain ⟨k, -, made⟩ := List.mem_filterMap.mp hg
    obtain ⟨-, rfl⟩ := groupOf_eq_some.mp made
    exact nodup_idsOf distinct k
  · refine List.pairwise_filterMap.mpr (((sortedTexts_perm keys).nodup_iff.mpr each).imp ?_)
    intro k k' differ g made g' made' id shared shared'
    obtain ⟨-, rfl⟩ := groupOf_eq_some.mp made
    obtain ⟨-, rfl⟩ := groupOf_eq_some.mp made'
    obtain ⟨t, ht, rfl, rfl⟩ := mem_idsOf.mp shared
    obtain ⟨u, hu, rfl, same⟩ := mem_idsOf.mp shared'
    exact differ (congrArg key (List.inj_on_of_nodup_map distinct ht hu same.symm))

theorem groups_complete (listed : ∀ k, k ∈ keys ↔ k ∈ tests.map key) {t u : GeneratedTestCase}
    (ht : t ∈ tests) (hu : u ∈ tests) (differ : t.id ≠ u.id) (same : key t = key u) :
    ∃ g ∈ (sortedTexts keys).filterMap (groupOf n tests key),
      t.id ∈ g.testCaseIds ∧ u.id ∈ g.testCaseIds := by
  have first : t.id ∈ idsOf tests key (key t) := mem_idsOf.mpr ⟨t, ht, rfl, rfl⟩
  have second : u.id ∈ idsOf tests key (key t) := mem_idsOf.mpr ⟨u, hu, same.symm, rfl⟩
  have two : 2 ≤ (idsOf tests key (key t)).length := by
    by_contra few
    obtain ⟨id, one⟩ := List.length_eq_one_iff.mp
      (Nat.le_antisymm (by omega) (List.length_pos_of_mem first))
    rw [one, List.mem_singleton] at first second
    exact differ (first.trans second.symm)
  exact ⟨_, (mem_groups listed).mpr ⟨t, ht, groupOf_eq_some.mpr ⟨two, rfl⟩⟩, first, second⟩

end

/-- The groups of validated tests that JSON spells are the classes of two tests and more that behave
the same, whatever the order of the tests. -/
theorem duplicates_partition (n : Normalizer) (decimal : CodePoint → Option Nat)
    (enough : 12 ≤ n.recursionLimit) (tests : List GeneratedTestCase)
    (valid : ∀ t ∈ tests, IsValidated decimal t) (spelled : ∀ t ∈ tests, Spelled t)
    (distinct : (tests.map (·.id)).Nodup) :
    ∃ groups, groupDuplicateCandidates n tests = .ok groups ∧ Partitions tests groups ∧
      ∀ others : List GeneratedTestCase, tests.Perm others →
        groupDuplicateCandidates n others = .ok groups := by
  have each : ∀ t ∈ tests, ∃ key, semanticKey n.recursionLimit t = .ok key := fun t ht =>
    semanticKey_isOk (valid t ht) (spelled t ht) enough
  obtain ⟨made, all⟩ := mapM_isOk.mpr each
  obtain ⟨key, keyed, -⟩ := mapM_ok_map all
  have same_iff : ∀ t ∈ tests, ∀ u ∈ tests, key t = key u ↔ SameBehaviour t u := fun t ht u hu =>
    semanticKey_eq_iff (valid t ht) (valid u hu) (spelled t ht) (spelled u hu) (keyed t ht) (keyed u hu)
  obtain ⟨keys, once, listed, grouped⟩ := groups_eq keyed distinct
  refine ⟨_, grouped, ⟨⟨?_, ?_, ?_⟩, ?_, ?_, ?_, groups_once distinct once⟩, ?_⟩
  · rintro ⟨t, ht⟩
    exact (same_iff t ht t ht).mp rfl
  · rintro ⟨t, ht⟩ ⟨u, hu⟩ same
    exact (same_iff u hu t ht).mp ((same_iff t ht u hu).mpr same).symm
  · rintro ⟨t, ht⟩ ⟨u, hu⟩ ⟨v, hv⟩ first second
    exact (same_iff t ht v hv).mp
      (((same_iff t ht u hu).mpr first).trans ((same_iff u hu v hv).mpr second))
  · intro g hg
    obtain ⟨t, ht, made⟩ := (mem_groups listed).mp hg
    obtain ⟨-, rfl⟩ := groupOf_eq_some.mp made
    refine ⟨t, ht, fun id => mem_idsOf.trans ?_⟩
    constructor
    · rintro ⟨u, hu, same, rfl⟩
      exact ⟨u, hu, rfl, (same_iff t ht u hu).mp same.symm⟩
    · rintro ⟨u, hu, rfl, same⟩
      exact ⟨u, hu, ((same_iff t ht u hu).mpr same).symm, rfl⟩
  · intro g hg
    obtain ⟨t, -, made⟩ := (mem_groups listed).mp hg
    obtain ⟨large, rfl⟩ := groupOf_eq_some.mp made
    exact large
  · exact fun t ht u hu differ same => groups_complete listed ht hu differ ((same_iff t ht u hu).mpr same)
  · intro others perm
    have distinct' := (perm.map (·.id)).nodup_iff.mp distinct
    have keyed' : Keyed n.recursionLimit others key := fun t ht => keyed t (perm.mem_iff.mpr ht)
    obtain ⟨keys', once', listed', grouped'⟩ := groups_eq keyed' distinct'
    have sorted : sortedTexts keys' = sortedTexts keys := by
      refine sortedTexts_eq.mpr ((List.perm_ext_iff_of_nodup once' once).mpr fun k => ?_)
      rw [listed, listed', (perm.map key).mem_iff]
    have grouping : groupOf n others key = groupOf n tests key := by
      funext k
      rw [groupOf, groupOf, idsOf_perm perm]
    rw [grouped', sorted, grouping]

/-- A test that was read from JSON is spelled by JSON. -/
theorem Spelled.of_decoded {decimal : CodePoint → Option Nat} {payload : List (Str × Json)}
    {t : GeneratedTestCase} (decoded : Decoded (.dict payload))
    (accepted : validateGeneratedTestCase decimal (Json.toItems payload) = .ok t) : Spelled t := by
  have behaves : ∀ {c : Check}, Kept c → (Json.dict payload).check c = true → Behaves c t := by
    intro c kept checked
    have passes := passes_asPayload kept checked accepted
    rw [GeneratedTestCase.asPayload, Json.check, Bool.and_eq_true, checkItems_eq_true] at passes
    simp only [List.forall_mem_cons, List.not_mem_nil, false_implies, implies_true, and_true] at passes
    obtain ⟨-, -, -, -, -, -, -, request, assertions⟩ := passes
    exact ⟨request, assertions⟩
  exact ⟨behaves kept_pairFree decoded.pairFree, behaves kept_accepts decoded.printable⟩

/-! ## Samples -/

/-- A test that posts an order of this quantity to a path. -/
def submittedPayload (id : String) (path : Str) (header : String) (quantity : Int) :
    List (Object × Object) :=
  let entry (key : String) (v : Object) : Object × Object := (.str (lit key), v)
  let listed (name : String) (value : String) : Object :=
    .dict [entry "name" (.str (lit name)), entry "value" (.str (lit value))]
  let request := [entry "method" (.str (lit "POST")), entry "path" (.str path),
    entry "query" (.list [listed "dry" "no"]), entry "headers" (.list [listed header "1"]),
    entry "json_body" (.dict [entry "quantity" (.int quantity)])]
  let assertion := [entry "target" (.str (lit "status_code")), entry "selector" .none,
    entry "operator" (.str (lit "equals")), entry "expected_value" (.int 201)]
  [entry "schema_version" (.str (lit "generated-test-case/v1")), entry "id" (.str (lit id)),
    entry "title" (.str (lit "An order is created")), entry "kind" (.str (lit "positive")),
    entry "source_finding_id" (.str (lit "00000000-0000-0000-0000-000000000603")),
    entry "citation_ids" (.list [.str (lit "00000000-0000-0000-0000-000000000604")]),
    entry "request" (.dict request), entry "assertions" (.list [.dict assertion])]

/-- The tests are valid, with two ids, and the check tells something of them. -/
def bothValid (first second : Validated GeneratedTestCase)
    (tells : GeneratedTestCase → GeneratedTestCase → Bool) : Bool :=
  match first, second with
  | .ok t, .ok u => t.id ≠ u.id && tells t u
  | _, _ => false

theorem bothValid_ok {first second : Validated GeneratedTestCase}
    {tells : GeneratedTestCase → GeneratedTestCase → Bool} (h : bothValid first second tells = true) :
    ∃ t u, first = .ok t ∧ second = .ok u ∧ t.id ≠ u.id ∧ tells t u = true := by
  unfold bothValid at h
  split at h
  · rename_i t u
    rw [Bool.and_eq_true, decide_eq_true_eq] at h
    exact ⟨t, u, rfl, rfl, h⟩
  · cases h

def isSpelled (t : GeneratedTestCase) : Bool :=
  t.request.asPayload.check .pairFree && t.request.asPayload.check normalDumps.accepts &&
    (Json.list (t.assertions.map GeneratedAssertion.asPayload)).check .pairFree &&
      (Json.list (t.assertions.map GeneratedAssertion.asPayload)).check normalDumps.accepts

theorem isSpelled_eq_true {t : GeneratedTestCase} (h : isSpelled t = true) : Spelled t := by
  simp only [isSpelled, Bool.and_eq_true] at h
  obtain ⟨⟨⟨texts, integers⟩, asserted⟩, printed⟩ := h
  exact ⟨⟨texts, asserted⟩, ⟨integers, printed⟩⟩

def firstOrder : List (Object × Object) :=
  submittedPayload "00000000-0000-0000-0000-000000000601" (lit "/orders") "X-Trace" 2

/-- The same order with the header in capitals. -/
def secondOrder : List (Object × Object) :=
  submittedPayload "00000000-0000-0000-0000-000000000602" (lit "/orders") "X-TRACE" 2

theorem duplicates_partition_sample : ∃ t u,
    validateGeneratedTestCase asciiDecimal firstOrder = .ok t ∧
      validateGeneratedTestCase asciiDecimal secondOrder = .ok u ∧
      ∀ n : Normalizer, n.recursionLimit = 1000 → ∃ groups,
        groupDuplicateCandidates n [t, u] = .ok groups ∧ Partitions [t, u] groups ∧
          groupDuplicateCandidates n [u, t] = .ok groups := by
  have valid : bothValid (validateGeneratedTestCase asciiDecimal firstOrder)
      (validateGeneratedTestCase asciiDecimal secondOrder)
      (fun t u => isSpelled t && isSpelled u) = true := by decide +kernel
  obtain ⟨t, u, first, second, differ, spelled⟩ := bothValid_ok valid
  rw [Bool.and_eq_true] at spelled
  refine ⟨t, u, first, second, fun n limit => ?_⟩
  obtain ⟨groups, grouped, partitions, order⟩ := duplicates_partition n asciiDecimal (by omega) [t, u]
    (List.forall_mem_cons.mpr ⟨⟨_, first⟩, List.forall_mem_singleton.mpr ⟨_, second⟩⟩)
    (List.forall_mem_cons.mpr ⟨isSpelled_eq_true spelled.1,
      List.forall_mem_singleton.mpr (isSpelled_eq_true spelled.2)⟩)
    (List.nodup_cons.mpr ⟨by simpa using differ, List.nodup_singleton _⟩)
  exact ⟨groups, grouped, partitions, order _ (List.Perm.swap u t [])⟩

/-- The path has a character beyond the first plane. -/
def characterOrder : List (Object × Object) :=
  submittedPayload "00000000-0000-0000-0000-000000000601" [0x2F, 0x1F600] "X-Trace" 2

/-- The path has the two surrogates that stand for it. -/
def surrogateOrder : List (Object × Object) :=
  submittedPayload "00000000-0000-0000-0000-000000000602" [0x2F, 0xD83D, 0xDE00] "X-Trace" 2

/-- An order of an integer that has no decimal text. -/
def hugeOrder : List (Object × Object) :=
  submittedPayload "00000000-0000-0000-0000-000000000602" (lit "/orders") "X-Trace" (10 ^ 4300)

/-- Validated tests with two paths are in one group, and a validated test has no key. -/
theorem surrogates_grouped :
    (∃ t u, validateGeneratedTestCase asciiDecimal characterOrder = .ok t ∧
      validateGeneratedTestCase asciiDecimal surrogateOrder = .ok u ∧
      t.id ≠ u.id ∧ t.request.path ≠ u.request.path ∧ ¬ SameBehaviour t u ∧
      ∀ n : Normalizer, n.recursionLimit = 1000 → ∃ groups,
        groupDuplicateCandidates n [t, u] = .ok groups ∧
          ∃ g ∈ groups, t.id ∈ g.testCaseIds ∧ u.id ∈ g.testCaseIds) ∧
    ∃ t u, validateGeneratedTestCase asciiDecimal firstOrder = .ok t ∧
      validateGeneratedTestCase asciiDecimal hugeOrder = .ok u ∧ t.id ≠ u.id ∧
      ∀ n : Normalizer, n.recursionLimit = 1000 →
        groupDuplicateCandidates n [t, u] = .error .value := by
  constructor
  · have valid : bothValid (validateGeneratedTestCase asciiDecimal characterOrder)
        (validateGeneratedTestCase asciiDecimal surrogateOrder) (fun t u =>
          t.request.path ≠ u.request.path && (semanticKey 1000 t).toBool &&
            semanticKey 1000 t = semanticKey 1000 u) = true := by decide +kernel
    obtain ⟨t, u, first, second, differ, told⟩ := bothValid_ok valid
    simp only [Bool.and_eq_true, decide_eq_true_eq] at told
    obtain ⟨⟨paths, isOk⟩, same⟩ := told
    refine ⟨t, u, first, second, differ, paths, fun behave => paths behave.path, fun n limit => ?_⟩
    cases made : semanticKey 1000 t with
    | error e =>
      rw [made] at isOk
      cases isOk
    | ok k =>
      have keyed : Keyed n.recursionLimit [t, u] fun _ => k := by
        rw [limit]
        exact List.forall_mem_cons.mpr ⟨made, List.forall_mem_singleton.mpr (same ▸ made)⟩
      obtain ⟨keys, -, listed, grouped⟩ := groups_eq keyed
        (List.nodup_cons.mpr ⟨by simpa using differ, List.nodup_singleton _⟩)
      exact ⟨_, grouped, groups_complete listed (by simp) (by simp) differ rfl⟩
  · have valid : bothValid (validateGeneratedTestCase asciiDecimal firstOrder)
        (validateGeneratedTestCase asciiDecimal hugeOrder) (fun t u => (semanticKey 1000 t).toBool &&
          semanticKey 1000 u = .error .value) = true := by decide +kernel
    obtain ⟨t, u, first, second, differ, told⟩ := bothValid_ok valid
    rw [Bool.and_eq_true, decide_eq_true_eq] at told
    refine ⟨t, u, first, second, differ, fun n limit => ?_⟩
    cases made : semanticKey 1000 t with
    | error e =>
      rw [made] at told
      cases told.1
    | ok k =>
      have nodup : ([t, u].map (·.id)).Nodup :=
        List.nodup_cons.mpr ⟨by simpa using differ, List.nodup_singleton _⟩
      rw [groupDuplicateCandidates, if_neg (not_not.mpr nodup)]
      simp [normalizeGeneratedTestCase, limit, made, told.2]

end QaCopilot.Execution
