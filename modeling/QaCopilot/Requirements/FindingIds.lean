import QaCopilot.Requirements.Contradictions

/-!
# The identifiers of findings

The identifier of a finding is hashed from its rule and the citations it cites. The rules on vague and
on performance terms may find several terms in one passage, and the identifiers of these findings are
the same.

* `ids_distinct_iff`: when the identifiers of a run differ.
-/

namespace QaCopilot.Requirements

open QaCopilot.Python QaCopilot.Findings

variable {t : Tables} {sha1 : Bytes → BitVec 160} {cs : List Citation}

/-! ## Names -/

theorem colon_not_mem_uuidText (u : Uuid) : CodePoint.ofChar ':' ∉ uuidText u := by
  intro listed
  rcases mem_uuidText listed with same | ⟨d, small, same⟩
  · exact absurd same (by decide)
  · have digit : ∀ d, d < 16 → CodePoint.ofChar ':' ≠ hexDigit d := by decide
    exact digit d small same

theorem findingName_eq (rule : Str) {ids : List Uuid} (some' : ids ≠ []) :
    findingName rule ids = [CodePoint.ofChar ':'].intercalate (rule :: ids.map uuidText) := by
  obtain ⟨u, us, rfl⟩ := List.exists_cons_of_ne_nil some'
  rw [List.map_cons, List.intercalate_cons_cons]
  rfl

/-- The name of a finding gives its rule and its citations back. -/
theorem findingName_inj {rule rule' : Str} {ids ids' : List Uuid}
    (plain : CodePoint.ofChar ':' ∉ rule) (plain' : CodePoint.ofChar ':' ∉ rule') (some' : ids ≠ [])
    (some'' : ids' ≠ []) (same : findingName rule ids = findingName rule' ids') :
    rule = rule' ∧ ids = ids' := by
  have parts : ∀ {r : Str} {us : List Uuid}, CodePoint.ofChar ':' ∉ r → us ≠ [] →
      (findingName r us).splitOn (CodePoint.ofChar ':') = r :: us.map uuidText := by
    intro r us clean cited
    rw [findingName_eq r cited]
    refine List.splitOn_intercalate _ ?_ (List.cons_ne_nil _ _)
    intro text ht
    rcases List.mem_cons.mp ht with rfl | ht
    · exact clean
    · obtain ⟨u, -, rfl⟩ := List.mem_map.mp ht
      exact colon_not_mem_uuidText u
  have split := parts plain some'
  rw [same, parts plain' some''] at split
  obtain ⟨rules, texts⟩ := List.cons.inj split
  exact ⟨rules.symm, (List.map_injective_iff.mpr (fun _ _ => uuidText_injective) texts).symm⟩

/-! ## What a run finds -/

/-- The terms that the passage has without a number beside them. -/
def unboundedTerms (t : Tables) (c : Citation) (terms : List Str) : List Str :=
  let passage := t.casefold c.passage.text
  terms.filter fun term => occursIn term passage && !hasMeasurableBound t passage

/-- The rules that find something in the passage, once for each finding. -/
def passageRules (t : Tables) (c : Citation) : List Str :=
  let passage := t.casefold c.passage.text
  let mentions (terms : List Str) := terms.any (occursIn · passage)
  (if hasRequirementMarker t.word none passage && !mentions acceptanceMarkers then
    [lit "missing_acceptance_criteria"] else []) ++
  (unboundedTerms t c ambiguousTerms).map (fun _ => lit "ambiguity") ++
  (if mentions actionTerms && !mentions authorizationTerms then [lit "authorization_gap"] else []) ++
  (if mentions actionTerms && !mentions errorTerms then [lit "error_handling_gap"] else []) ++
  (unboundedTerms t c performanceTerms).map (fun _ => lit "performance_risk")

theorem passageFindings_ids (t : Tables) (sha1 : Bytes → BitVec 160) (c : Citation) :
    (passageFindings t sha1 c).map (·.id) =
      (passageRules t c).map fun rule => uuid5 sha1 findingNamespace (findingName rule [c.id]) := by
  have single : ∀ (found : Prop) [Decidable found] (f : RequirementFindingV1) (rule : Str),
      f.id = uuid5 sha1 findingNamespace (findingName rule [c.id]) →
      (if found then [f] else []).map (·.id) = (if found then [rule] else []).map fun rule =>
        uuid5 sha1 findingNamespace (findingName rule [c.id]) := by
    intro found _ f rule same
    by_cases h : found
    · rw [if_pos h, if_pos h, List.map_singleton, List.map_singleton, same]
    · rw [if_neg h, if_neg h]
      rfl
  have terms : ∀ (known : List Str) (f : Str → RequirementFindingV1) (rule : Str),
      (∀ term, (f term).id = uuid5 sha1 findingNamespace (findingName rule [c.id])) →
      (known.map f).map (·.id) = (known.map fun _ => rule).map fun rule =>
        uuid5 sha1 findingNamespace (findingName rule [c.id]) := by
    intro known f rule same
    rw [List.map_map, List.map_map]
    exact List.map_congr_left fun term _ => same term
  simp only [passageFindings, passageRules, List.map_append]
  rw [single _ (missingAcceptanceCriteria sha1 c) _ rfl, single _ (authorizationGap sha1 c) _ rfl,
    single _ (errorHandlingGap sha1 c) _ rfl, terms _ (ambiguity sha1 c) _ fun _ => rfl,
    terms _ (performanceRisk sha1 c) _ fun _ => rfl]
  rfl

/-- What the identifiers of a run are derived from. -/
def runKeys (t : Tables) (cs : List Citation) : List (Str × List Uuid) :=
  (orderedCitations cs).flatMap (fun c => (passageRules t c).map (·, [c.id])) ++
    (opposedPairs t cs).map fun p => (lit "contradiction", [p.1.id, p.2.id])

/-- The names that the identifiers of a run are hashes of. -/
def runNames (t : Tables) (cs : List Citation) : List Str :=
  (runKeys t cs).map fun key => findingName key.1 key.2

theorem analyzeCitations_ids (t : Tables) (sha1 : Bytes → BitVec 160) (cs : List Citation) :
    (analyzeCitations t sha1 cs).map (·.id) =
      (runNames t cs).map (uuid5 sha1 findingNamespace) := by
  have passages : ((orderedCitations cs).flatMap (passageFindings t sha1)).map (·.id) =
      ((orderedCitations cs).flatMap fun c => (passageRules t c).map fun rule => (rule, [c.id])).map
        fun key => uuid5 sha1 findingNamespace (findingName key.1 key.2) := by
    rw [List.map_flatMap, List.map_flatMap]
    simp only [passageFindings_ids, List.map_map]
    rfl
  rw [analyzeCitations, List.map_append, passages, contradictions_eq, runNames, runKeys,
    List.map_map, List.map_map, List.map_append, List.map_map]
  rfl

/-! ## When the identifiers differ -/

/-- The hash keeps these names apart. -/
def CollisionFree (sha1 : Bytes → BitVec 160) (names : List Str) : Prop :=
  ∀ m ∈ names, ∀ n ∈ names,
    uuid5 sha1 findingNamespace m = uuid5 sha1 findingNamespace n → m = n

theorem rule_plain {c : Citation} {rule : Str} (h : rule ∈ passageRules t c) :
    CodePoint.ofChar ':' ∉ rule ∧ rule ≠ lit "contradiction" := by
  simp only [passageRules, List.mem_append, List.mem_map, List.mem_ite_nil_right,
    List.mem_singleton] at h
  rcases h with (((⟨-, rfl⟩ | ⟨term, -, rfl⟩) | ⟨-, rfl⟩) | ⟨-, rfl⟩) | ⟨term, -, rfl⟩ <;>
    decide

theorem contradiction_plain : CodePoint.ofChar ':' ∉ lit "contradiction" := by decide

theorem runKey_plain {key : Str × List Uuid} (h : key ∈ runKeys t cs) :
    CodePoint.ofChar ':' ∉ key.1 ∧ key.2 ≠ [] := by
  rcases List.mem_append.mp h with h | h
  · obtain ⟨c, -, h⟩ := List.mem_flatMap.mp h
    obtain ⟨rule, listed, rfl⟩ := List.mem_map.mp h
    exact ⟨(rule_plain listed).1, List.cons_ne_nil _ _⟩
  · obtain ⟨p, -, rfl⟩ := List.mem_map.mp h
    exact ⟨contradiction_plain, List.cons_ne_nil _ _⟩

theorem nodup_runNames (keys : (runKeys t cs).Nodup) : (runNames t cs).Nodup := by
  apply keys.map_on
  intro key hk key' hk' same
  obtain ⟨plain, cited⟩ := runKey_plain hk
  obtain ⟨plain', cited'⟩ := runKey_plain hk'
  obtain ⟨rules, ids⟩ := findingName_inj plain plain' cited cited' same
  exact Prod.ext rules ids

theorem nodup_analyzeCitations_iff (free : CollisionFree sha1 (runNames t cs)) :
    ((analyzeCitations t sha1 cs).map (·.id)).Nodup ↔ (runKeys t cs).Nodup := by
  rw [analyzeCitations_ids]
  constructor
  · intro ids
    exact (ids.of_map _).of_map _
  · intro keys
    exact (nodup_runNames keys).map_on free

/-- A rule for each of these, of which two may find several terms. -/
theorem nodup_rules {a b c d e : Str} (rules : [a, b, c, d, e].Nodup) (p q r : Prop) [Decidable p]
    [Decidable q] [Decidable r] (m n : Nat) :
    ((if p then [a] else []) ++ List.replicate m b ++ (if q then [c] else []) ++
      (if r then [d] else []) ++ List.replicate n e).Nodup ↔ m ≤ 1 ∧ n ≤ 1 := by
  simp only [List.nodup_cons, List.mem_cons, List.not_mem_nil, or_false, not_or] at rules
  obtain ⟨⟨ab, ac, ad, ae⟩, ⟨bc, bd, be⟩, ⟨cd, ce⟩, de, -⟩ := rules
  constructor
  · intro nodup
    have upTo := nodup.of_append_left.of_append_left.of_append_left
    exact ⟨List.nodup_replicate.mp upTo.of_append_right,
      List.nodup_replicate.mp nodup.of_append_right⟩
  · rintro ⟨hm, hn⟩
    have first : (if p then [a] else []).Nodup := by split <;> simp
    have third : (if q then [c] else []).Nodup := by split <;> simp
    have fourth : (if r then [d] else []).Nodup := by split <;> simp
    simp only [List.nodup_append, List.mem_append, List.mem_replicate, List.mem_ite_nil_right,
      List.mem_singleton, first, third, fourth, List.nodup_replicate.mpr hm,
      List.nodup_replicate.mpr hn, true_and]
    grind

theorem nodup_passageRules_iff {c : Citation} : (passageRules t c).Nodup ↔
    (unboundedTerms t c ambiguousTerms).length ≤ 1 ∧
      (unboundedTerms t c performanceTerms).length ≤ 1 := by
  simp only [passageRules, List.map_const']
  exact nodup_rules (by decide) _ _ _ _ _

theorem nodup_runKeys_iff (distinct : Distinct cs) :
    (runKeys t cs).Nodup ↔ ∀ c ∈ cs, (passageRules t c).Nodup := by
  have pairKeys : ((opposedPairs t cs).map fun p =>
      ((lit "contradiction", [p.1.id, p.2.id]) : Str × List Uuid)).Nodup := by
    apply (opposedPairs_nodup distinct).map_on
    rintro ⟨a, b⟩ hp ⟨c, d⟩ hq same
    obtain ⟨ha, hb, -, -⟩ := (mem_opposedPairs distinct).mp hp
    obtain ⟨hc, hd, -, -⟩ := (mem_opposedPairs distinct).mp hq
    simp only [Prod.mk.injEq, List.cons.injEq, and_true, true_and] at same
    rw [distinct.eq_of_id ha hc same.1, distinct.eq_of_id hb hd same.2]
  have passages : ((orderedCitations cs).flatMap fun c =>
      (passageRules t c).map fun rule => (rule, [c.id])).Nodup ↔
        ∀ c ∈ cs, (passageRules t c).Nodup := by
    have single : ∀ c : Citation, ((passageRules t c).map fun rule => (rule, [c.id])).Nodup ↔
        (passageRules t c).Nodup :=
      fun c => List.nodup_map_iff fun _ _ same => (Prod.mk.inj same).1
    have apart : (orderedCitations cs).Pairwise (Function.onFun List.Disjoint fun c =>
        (passageRules t c).map fun rule => (rule, [c.id])) := by
      refine (orderedCitations_sorted distinct).imp fun {a b} less key ha hb => ?_
      obtain ⟨rule, -, rfl⟩ := List.mem_map.mp ha
      obtain ⟨rule', -, same⟩ := List.mem_map.mp hb
      have ids : b.id = a.id := by simpa using (Prod.mk.inj same).2
      rw [ids] at less
      exact absurd less (lt_irrefl _)
    rw [List.nodup_flatMap, and_iff_left apart]
    simp only [single, mem_orderedCitations]
  rw [runKeys, List.nodup_append, passages, and_iff_left_iff_imp]
  intro _
  refine ⟨pairKeys, ?_⟩
  rintro key hk key' hk' rfl
  obtain ⟨c, -, hk⟩ := List.mem_flatMap.mp hk
  obtain ⟨rule, listed, rfl⟩ := List.mem_map.mp hk
  obtain ⟨p, -, same⟩ := List.mem_map.mp hk'
  exact (rule_plain listed).2 (Prod.mk.inj same).1.symm

/-- The identifiers of a run differ if and only if no passage without a number has two of the vague
terms or two of the performance terms. -/
theorem ids_distinct_iff (t : Tables) {sha1 : Bytes → BitVec 160} {cs : List Citation}
    (distinct : Distinct cs) (free : CollisionFree sha1 (runNames t cs)) :
    ((analyzeCitations t sha1 cs).map (·.id)).Nodup ↔
      ∀ c ∈ cs, (unboundedTerms t c ambiguousTerms).length ≤ 1 ∧
        (unboundedTerms t c performanceTerms).length ≤ 1 := by
  rw [nodup_analyzeCitations_iff free, nodup_runKeys_iff distinct]
  simp only [nodup_passageRules_iff]

/-- One passage with two vague terms. -/
def vaguePassage : List Citation :=
  [⟨11#128, 1#128, ⟨lit "Users get a fast and reasonable reply.", by decide⟩⟩]

theorem vague_ids_repeat : Distinct vaguePassage ∧
    ∀ sha1, ¬ ((analyzeCitations sampleTables sha1 vaguePassage).map (·.id)).Nodup := by
  refine ⟨by rw [Distinct]; decide, fun sha1 ids => ?_⟩
  rw [analyzeCitations_ids] at ids
  exact absurd (ids.of_map _) (by decide +kernel)

/-- One passage that lacks acceptance criteria and has a vague term. -/
def fastPassage : List Citation :=
  [⟨11#128, 1#128, ⟨lit "Users must get a fast reply.", by decide⟩⟩]

/-- SHA-1 on the two names of the findings of `fastPassage`, which start differently. -/
def fastSha1 (data : Bytes) : BitVec 160 :=
  if data.getD 16 0 = 109 then 0x49170eba7b5ab3c9ec6d8ad30d5c8bd33de01113#160
  else 0x5404604c0776fb5e341534b66393746b86a7b656#160

theorem ids_distinct_iff_sample :
    ((analyzeCitations sampleTables fastSha1 fastPassage).map (·.id)).Nodup ↔
      ∀ c ∈ fastPassage, (unboundedTerms sampleTables c ambiguousTerms).length ≤ 1 ∧
        (unboundedTerms sampleTables c performanceTerms).length ≤ 1 :=
  ids_distinct_iff sampleTables (by decide : (fastPassage.map (·.id)).Nodup)
    (by decide +kernel : ∀ m ∈ runNames sampleTables fastPassage,
      ∀ n ∈ runNames sampleTables fastPassage,
        uuid5 fastSha1 findingNamespace m = uuid5 fastSha1 findingNamespace n → m = n)

example : runNames sampleTables fastPassage =
    [lit "missing_acceptance_criteria:00000000-0000-0000-0000-00000000000b",
      lit "ambiguity:00000000-0000-0000-0000-00000000000b"] := by decide +kernel

end QaCopilot.Requirements
