import QaCopilot.Openapi.Consistency

/-!
# The mismatches of an analysis

* `analysis_exact_iff`: when the analysis reports every expectation that fails, in an order of its own.
-/

namespace QaCopilot.Openapi

open QaCopilot.Python QaCopilot.Results QaCopilot.Findings

variable {rt : Runtime} {facts : OpenapiFactsV1} {es : List OpenapiConsistencyExpectation}
  {index : Dict (OpenapiFactKind × Str) OpenapiFact}

/-! ## Expectations that fail -/

/-- The fact that an expectation is about. -/
def factFor (facts : List OpenapiFact) (e : OpenapiConsistencyExpectation) : Option OpenapiFact :=
  facts.find? fun f => f.key = (expectedFactKind e.kind, e.factIdentifier)

/-- No fact of the document has the attributes that are expected. -/
def Fails (facts : List OpenapiFact) (e : OpenapiConsistencyExpectation) : Prop :=
  matchesExpectation e (factFor facts e) = false

instance (facts : List OpenapiFact) (e : OpenapiConsistencyExpectation) : Decidable (Fails facts e) :=
  inferInstanceAs (Decidable (_ = _))

/-- What is observed in place of the expected attributes. -/
def observed (facts : List OpenapiFact) (e : OpenapiConsistencyExpectation) : Option Attributes :=
  (factFor facts e).map (·.attributes)

/-- How long the description of these attributes is. -/
def descriptionLength (attributes : Attributes) : Nat :=
  (attributes.map fun a => a.1.length + a.2.length + 1).sum + 2 * (attributes.length - 1)

/-- How long an expectation and what is observed are when they are written out. -/
def analysisLength (e : OpenapiConsistencyExpectation) (actual : Option Attributes) : Nat :=
  e.kind.value.length + e.factIdentifier.length + descriptionLength e.expectedAttributes +
    (match actual with
      | some attributes => descriptionLength attributes
      | none => 27) + 39

theorem length_attributesDescription (attributes : Attributes) :
    (attributesDescription attributes).length = descriptionLength attributes := by
  rw [attributesDescription, descriptionLength]
  induction attributes with
  | nil => rfl
  | cons a attributes ih =>
    have one : (a.1 ++ lit "=" ++ a.2).length = a.1.length + a.2.length + 1 := by
      simp only [List.length_append, show (lit "=").length = 1 from rfl]
      omega
    cases attributes with
    | nil =>
      rw [List.map_singleton, List.intercalate_singleton, one]
      rfl
    | cons b attributes =>
      rw [List.map_cons, List.map_cons] at ih ⊢
      rw [List.map_cons, List.intercalate_cons_cons, List.length_append, List.length_append, ih, one]
      simp only [List.map_cons, List.sum_cons, List.length_cons, show (lit ", ").length = 2 from rfl]
      omega

theorem length_mismatchAnalysis (e : OpenapiConsistencyExpectation) (actual : Option Attributes) :
    (mismatchAnalysis e actual).length = analysisLength e actual := by
  have observed : (actualDescription actual).length = match actual with
      | some attributes => descriptionLength attributes
      | none => 27 := by
    cases actual with
    | none => decide +kernel
    | some attributes => exact length_attributesDescription attributes
  have texts : (lit " mismatch for '").length + (lit "': expected ").length +
      (lit "; observed ").length + (lit ".").length = 39 := by decide +kernel
  simp only [mismatchAnalysis, analysisLength, List.length_append, length_attributesDescription,
    observed]
  omega

/-! ## Validation -/

theorem validateExpectation_ok {p : Platform} {e : OpenapiConsistencyExpectation}
    {keys keys' : List (Uuid × OpenapiConsistencyKind × Str × Attributes)} :
    validateExpectation p keys e = .ok keys' ↔
      checkExpectation p e = .ok () ∧ expectationKey e ∉ keys ∧ keys' = keys ++ [expectationKey e] := by
  have unlisted : keys.contains (expectationKey e) = false ↔ expectationKey e ∉ keys := by
    rw [← Bool.not_eq_true, List.contains_iff_mem]
  constructor
  · intro h
    obtain ⟨_, checked, h⟩ := bind_ok.mp h
    obtain ⟨_, isNew, h⟩ := bind_ok.mp h
    exact ⟨checked, unlisted.mp (refuseWhen_ok.mp isNew), (Except.ok.inj h).symm⟩
  · rintro ⟨checked, isNew, rfl⟩
    rw [validateExpectation, checked, ok_bind, unlisted.mpr isNew]
    rfl

/-- The expectations pass when each of them does and their keys differ, in whatever order. -/
theorem validateExpectations_ok {p : Platform} : validateExpectations p es = .ok () ↔
    (∀ e ∈ es, checkExpectation p e = .ok ()) ∧ (es.map expectationKey).Nodup := by
  have from' : ∀ keys : List (Uuid × OpenapiConsistencyKind × Str × Attributes), keys.Nodup →
      ((∃ keys', es.foldlM (validateExpectation p) keys = .ok keys') ↔
        (∀ e ∈ es, checkExpectation p e = .ok ()) ∧ (keys ++ es.map expectationKey).Nodup) := by
    induction es with
    | nil =>
      intro keys distinct
      simpa [pure, Except.pure] using distinct
    | cons e es ih =>
      intro keys distinct
      have whole : keys ++ (e :: es).map expectationKey =
          keys ++ [expectationKey e] ++ es.map expectationKey := by simp
      rw [whole, List.forall_mem_cons]
      constructor
      · rintro ⟨keys', h⟩
        obtain ⟨next, first, h⟩ := bind_ok.mp h
        obtain ⟨checked, isNew, rfl⟩ := validateExpectation_ok.mp first
        have distinct' : (keys ++ [expectationKey e]).Nodup := by
          rw [← List.concat_eq_append, List.nodup_concat]
          exact ⟨isNew, distinct⟩
        obtain ⟨later, all⟩ := (ih _ distinct').mp ⟨keys', h⟩
        exact ⟨⟨checked, later⟩, all⟩
      · rintro ⟨⟨checked, later⟩, all⟩
        have distinct' := all.of_append_left
        have isNew : expectationKey e ∉ keys := by
          rw [← List.concat_eq_append, List.nodup_concat] at distinct'
          exact distinct'.1
        obtain ⟨keys', h⟩ := (ih _ distinct').mpr ⟨later, all⟩
        exact ⟨keys', bind_ok.mpr ⟨_, validateExpectation_ok.mpr ⟨checked, isNew, rfl⟩, h⟩⟩
  have start := from' [] List.nodup_nil
  rw [List.nil_append] at start
  rw [← start, validateExpectations]
  constructor
  · intro h
    obtain ⟨keys', h, -⟩ := bind_ok.mp h
    exact ⟨keys', h⟩
  · rintro ⟨keys', h⟩
    rw [h]
    rfl

theorem checkExpectation_bounded {p : Platform} {e : OpenapiConsistencyExpectation}
    (h : checkExpectation p e = .ok ()) : e.factIdentifier.length ≤ maxFactIdentifierLength := by
  obtain ⟨_, bounded, -⟩ := bind_ok.mp h
  rw [refuseWhen_ok, Bool.or_eq_false_iff, decide_eq_false_iff_not, decide_eq_false_iff_not] at bounded
  exact Nat.le_of_not_lt bounded.2

/-! ## Comparison -/

theorem foldlM_compare (ms : List OpenapiConsistencyMismatch) :
    es.foldlM (compare rt index) ms =
      (do return ms ++ (← (es.filter fun e => !matchesExpectation e (factOf index e)).mapM
        (mismatchOf rt index))) := by
  induction es generalizing ms with
  | nil => simp [pure, Except.pure]
  | cons e es ih =>
    rw [List.foldlM_cons, compare, List.filter_cons]
    cases fails : matchesExpectation e (factOf index e) with
    | true => exact ih ms
    | false =>
      simp only [Bool.false_eq_true, if_false, Bool.not_false, if_true, List.mapM_cons]
      cases mismatchOf rt index e with
      | error error => rfl
      | ok m =>
        simp only [ok_bind, pure, Except.pure, ih]
        cases (es.filter fun e => !matchesExpectation e (factOf index e)).mapM (mismatchOf rt index) with
        | error error => rfl
        | ok rest =>
          change Except.ok _ = Except.ok _
          rw [List.append_assoc, List.singleton_append]

/-- The facts are found in the index where they are in their list. -/
theorem factOf_eq (unique : UniqueFacts facts.facts)
    (indexed : indexConsistencyFacts facts.facts = .ok index) (e : OpenapiConsistencyExpectation) :
    factOf index e = factFor facts.facts e := by
  have eq : index = Dict.empty.update (facts.facts.map fun f => (f.key, f)) := by
    have made := mapError_ok.mp indexed
    rw [indexFacts] at made
    split_ifs at made
    exact (Except.ok.inj made).symm
  rw [factOf, factFor, eq]
  cases found : facts.facts.find? fun f => f.key = (expectedFactKind e.kind, e.factIdentifier) with
  | none =>
    rw [Dict.get?_update_other, Dict.get?_empty]
    rw [List.map_map]
    intro listed
    obtain ⟨f, hf, same⟩ := List.mem_map.mp listed
    exact absurd (decide_eq_true same) (List.find?_eq_none.mp found f hf)
  | some f =>
    have hf := List.mem_of_find?_eq_some found
    have key : f.key = (expectedFactKind e.kind, e.factIdentifier) := by
      simpa using List.find?_some found
    apply Dict.get?_update_of
    · rw [List.map_map]
      exact List.mem_map.mpr ⟨f, hf, key⟩
    · intro i hi same
      obtain ⟨g, hg, rfl⟩ := List.mem_map.mp hi
      exact List.inj_on_of_nodup_map unique hg hf (same.trans key.symm)

/-- The expectations that fail, in the order of the analysis. -/
def failing (facts : OpenapiFactsV1) (es : List OpenapiConsistencyExpectation) :
    List OpenapiConsistencyExpectation :=
  (sortByTexts expectationSortKey es).filter fun e => Fails facts.facts e

theorem mem_failing {e : OpenapiConsistencyExpectation} :
    e ∈ failing facts es ↔ e ∈ es ∧ Fails facts.facts e := by
  rw [failing, List.mem_filter, (sortByTexts_perm _ _).mem_iff, decide_eq_true_eq]

/-- What the analysis computes of valid expectations. -/
theorem analyze_eq (known : facts.schemaVersion = openapiFactSchemaVersion)
    (unique : UniqueFacts facts.facts) (indexed : indexConsistencyFacts facts.facts = .ok index)
    (valid : validateExpectations rt.toPlatform es = .ok ()) :
    analyzeOpenapiConsistency rt es facts = (failing facts es).mapM (mismatchOf rt index) := by
  have supported : refuseWhen (facts.schemaVersion ≠ openapiFactSchemaVersion)
      "Unsupported OpenAPI facts schema version" = .ok () := by simp [known]
  have same : ∀ e, (!matchesExpectation e (factOf index e)) = decide (Fails facts.facts e) := by
    intro e
    rw [factOf_eq unique indexed]
    cases eq : matchesExpectation e (factFor facts.facts e) <;> simp [Fails, eq]
  rw [analyzeOpenapiConsistency, supported, ok_bind, valid, ok_bind, indexed, ok_bind, foldlM_compare,
    failing]
  simp only [same, List.nil_append]
  cases ((sortByTexts expectationSortKey es).filter fun e => Fails facts.facts e).mapM
    (mismatchOf rt index) <;> rfl

theorem mismatchOf_key {e : OpenapiConsistencyExpectation} {m : OpenapiConsistencyMismatch}
    (some' : strip e.citation.passage ≠ [])
    (bounded : e.factIdentifier.length ≤ maxFactIdentifierLength) (h : mismatchOf rt index e = .ok m) :
    mismatchKey m = some (expectationKey e) := by
  obtain ⟨f, made, h⟩ := bind_ok.mp h
  obtain rfl := Except.ok.inj h
  obtain ⟨identity, observedFact, eq⟩ :=
    findingForMismatch_ok rt some' bounded (findingForMismatch_short made)
  obtain rfl := Except.ok.inj (made.symm.trans eq)
  rfl

/-! ## When the analysis is exact -/

/-- Every expectation that fails is reported once, and no other. -/
def Reported (rt : Runtime) (es : List OpenapiConsistencyExpectation) (facts : OpenapiFactsV1) :
    Prop :=
  ∃ ms, analyzeOpenapiConsistency rt es facts = .ok ms ∧
    (ms.map mismatchKey).Perm
      ((es.filter fun e => Fails facts.facts e).map fun e => some (expectationKey e))

/-- The order of the expectations does not matter. -/
def OrderFree (rt : Runtime) (es : List OpenapiConsistencyExpectation) (facts : OpenapiFactsV1) :
    Prop :=
  ∀ es', es'.Perm es →
    analyzeOpenapiConsistency rt es' facts = analyzeOpenapiConsistency rt es facts

/-- The texts of every expectation that fails are short enough to be written out. -/
def Short (es : List OpenapiConsistencyExpectation) (facts : OpenapiFactsV1) : Prop :=
  ∀ e ∈ es, Fails facts.facts e → analysisLength e (observed facts.facts e) ≤ maxFindingTextLength

/-- No two expectations that fail are about one fact and one citation. -/
def Untied (es : List OpenapiConsistencyExpectation) (facts : OpenapiFactsV1) : Prop :=
  ∀ a ∈ es, ∀ b ∈ es, Fails facts.facts a → Fails facts.facts b → a.kind = b.kind →
    a.factIdentifier = b.factIdentifier → a.citation.id = b.citation.id → a = b

/-- What the claims about the analysis suppose. -/
structure Analysed (rt : Runtime) (es : List OpenapiConsistencyExpectation)
    (facts : OpenapiFactsV1) : Prop where
  known : facts.schemaVersion = openapiFactSchemaVersion
  unique : UniqueFacts facts.facts
  valid : validateExpectations rt.toPlatform es = .ok ()
  cited : ∀ e ∈ es, strip e.citation.passage ≠ []

theorem Analysed.perm (h : Analysed rt es facts) {es' : List OpenapiConsistencyExpectation}
    (same : es'.Perm es) : Analysed rt es' facts where
  known := h.known
  unique := h.unique
  valid := by
    obtain ⟨checked, distinct⟩ := validateExpectations_ok.mp h.valid
    refine validateExpectations_ok.mpr ⟨fun e he => checked e (same.mem_iff.mp he), ?_⟩
    exact (same.map expectationKey).nodup_iff.mpr distinct
  cited := fun e he => h.cited e (same.mem_iff.mp he)

theorem Analysed.bounded (h : Analysed rt es facts) {e : OpenapiConsistencyExpectation}
    (he : e ∈ es) : e.factIdentifier.length ≤ maxFactIdentifierLength :=
  checkExpectation_bounded ((validateExpectations_ok.mp h.valid).1 e he)

theorem Analysed.indexed (h : Analysed rt es facts) :
    ∃ index, indexConsistencyFacts facts.facts = .ok index := by
  obtain ⟨index, indexed⟩ := indexFacts_isOk.mpr h.unique
  exact ⟨index, mapError_ok.mpr indexed⟩

/-- A mismatch is made of an expectation exactly when its texts are short enough. -/
theorem Analysed.mismatchOf_isOk (h : Analysed rt es facts)
    (indexed : indexConsistencyFacts facts.facts = .ok index) {e : OpenapiConsistencyExpectation}
    (he : e ∈ es) : (∃ m, mismatchOf rt index e = .ok m) ↔
      analysisLength e (observed facts.facts e) ≤ maxFindingTextLength := by
  have actual : (factOf index e).map (·.attributes) = observed facts.facts e := by
    rw [factOf_eq h.unique indexed, observed]
  rw [mismatchOf, actual, ← length_mismatchAnalysis]
  constructor
  · rintro ⟨m, made⟩
    obtain ⟨f, made, -⟩ := bind_ok.mp made
    exact findingForMismatch_short made
  · intro short
    obtain ⟨identity, observedFact, made⟩ :=
      findingForMismatch_ok rt (h.cited e he) (h.bounded he) short
    exact ⟨_, by rw [made]; rfl⟩

/-- The keys of the mismatches are those of the expectations that fail. -/
theorem Analysed.keys (h : Analysed rt es facts) {ms : List OpenapiConsistencyMismatch}
    (run : analyzeOpenapiConsistency rt es facts = .ok ms) :
    ms.map mismatchKey = (failing facts es).map fun e => some (expectationKey e) := by
  obtain ⟨index, indexed⟩ := h.indexed
  rw [analyze_eq h.known h.unique indexed h.valid, mapM_ok] at run
  have all : ∀ e ∈ failing facts es, e ∈ es := fun e he => (mem_failing.mp he).1
  generalize failing facts es = expectations at run all
  induction run with
  | nil => rfl
  | cons made _ ih =>
    obtain ⟨first, later⟩ := List.forall_mem_cons.mp all
    rw [List.map_cons, List.map_cons, ih later,
      mismatchOf_key (h.cited _ first) (h.bounded first) made]

theorem Analysed.isOk_iff (h : Analysed rt es facts) :
    (∃ ms, analyzeOpenapiConsistency rt es facts = .ok ms) ↔ Short es facts := by
  obtain ⟨index, indexed⟩ := h.indexed
  rw [analyze_eq h.known h.unique indexed h.valid, mapM_isOk]
  constructor
  · intro made e he fails
    exact (h.mismatchOf_isOk indexed he).mp (made e (mem_failing.mpr ⟨he, fails⟩))
  · intro short e he
    obtain ⟨he, fails⟩ := mem_failing.mp he
    exact (h.mismatchOf_isOk indexed he).mpr (short e he fails)

theorem failing_perm : (failing facts es).Perm (es.filter fun e => Fails facts.facts e) :=
  (sortByTexts_perm expectationSortKey es).filter _

theorem Analysed.reported_iff (h : Analysed rt es facts) : Reported rt es facts ↔ Short es facts := by
  rw [← h.isOk_iff]
  constructor
  · rintro ⟨ms, run, -⟩
    exact ⟨ms, run⟩
  · rintro ⟨ms, run⟩
    exact ⟨ms, run, by rw [h.keys run]; exact failing_perm.map _⟩

/-! ## The order of the expectations -/

theorem failing_eq (untied : Untied es facts) {es' : List OpenapiConsistencyExpectation}
    (same : es'.Perm es) : failing facts es' = failing facts es := by
  have perm := ((sortByTexts_perm expectationSortKey es').trans
    (same.trans (sortByTexts_perm expectationSortKey es).symm)).filter fun e => Fails facts.facts e
  refine perm.eq_of_pairwise ?_ ((sortByTexts_pairwise _ es').filter _)
    ((sortByTexts_pairwise _ es).filter _)
  intro a b ha hb le ge
  obtain ⟨ha, failsA⟩ := mem_failing.mp ha
  obtain ⟨hb, failsB⟩ := mem_failing.mp hb
  have keys := textsLe_antisymm le ge
  simp only [expectationSortKey, List.cons.injEq, and_true] at keys
  obtain ⟨kinds, identifiers, citations⟩ := keys
  have kind : a.kind = b.kind := OpenapiConsistencyKind.value_injective kinds
  exact untied a (same.mem_iff.mp ha) b hb failsA failsB kind identifiers (uuidText_injective citations)

theorem Analysed.orderFree (h : Analysed rt es facts) (untied : Untied es facts) :
    OrderFree rt es facts := by
  intro es' same
  obtain ⟨index, indexed⟩ := h.indexed
  rw [analyze_eq h.known h.unique indexed (h.perm same).valid,
    analyze_eq h.known h.unique indexed h.valid, failing_eq untied same]

/-- A list without repetitions that reads backwards as forwards has one element at most. -/
theorem eq_of_reverse {α : Type} {l : List α} (distinct : l.Nodup) (same : l = l.reverse) {a b : α}
    (ha : a ∈ l) (hb : b ∈ l) : a = b := by
  cases l with
  | nil => cases ha
  | cons c l =>
    rcases List.eq_nil_or_concat l with rfl | ⟨front, d, rfl⟩
    · rw [List.mem_singleton.mp ha, List.mem_singleton.mp hb]
    · rw [List.concat_eq_append] at same distinct
      have first : c = d := by simpa using congrArg List.head? same
      subst first
      simp at distinct

/-- The sort key of an expectation by its key. -/
def keySortKey (key : Uuid × OpenapiConsistencyKind × Str × Attributes) : List Str :=
  [key.2.1.value, key.2.2.1, uuidText key.1]

/-- Expectations that tie keep their order. -/
theorem failing_tied (k : List Str) : (failing facts es).filter (expectationSortKey · = k) =
    (es.filter (expectationSortKey · = k)).filter fun e => Fails facts.facts e := by
  rw [failing, List.filter_comm, sortByTexts_stable]

/-- Two expectations that fail and tie come out in the order in which they went in. -/
theorem Analysed.untied (h : Analysed rt es facts) (short : Short es facts)
    (free : OrderFree rt es facts) : Untied es facts := by
  intro a ha b hb failsA failsB kind identifier citation
  obtain ⟨ms, run⟩ := h.isOk_iff.mpr short
  let tied := ((es.filter (expectationSortKey · = expectationSortKey a)).filter fun e =>
    Fails facts.facts e).map expectationKey
  have keys : (failing facts es).map expectationKey =
      (failing facts es.reverse).map expectationKey := by
    have reversed := (h.perm es.reverse_perm).keys ((free _ es.reverse_perm).trans run)
    rw [h.keys run] at reversed
    simpa [List.filterMap_map] using congrArg (List.filterMap id) reversed
  have palindrome : tied = tied.reverse := by
    have filtered := congrArg (List.filter fun key => keySortKey key = expectationSortKey a) keys
    rw [List.filter_map, List.filter_map] at filtered
    have key : (fun key => decide (keySortKey key = expectationSortKey a)) ∘ expectationKey =
        fun e => decide (expectationSortKey e = expectationSortKey a) := rfl
    rw [key, failing_tied, failing_tied, List.filter_reverse, List.filter_reverse, List.map_reverse]
      at filtered
    exact filtered
  have distinct : tied.Nodup := by
    have all := (validateExpectations_ok.mp h.valid).2
    exact all.sublist ((List.filter_sublist.trans List.filter_sublist).map expectationKey)
  have listed : ∀ e ∈ es, Fails facts.facts e → expectationSortKey e = expectationSortKey a →
      expectationKey e ∈ tied := by
    intro e he fails same
    exact List.mem_map_of_mem
      (List.mem_filter.mpr ⟨List.mem_filter.mpr ⟨he, by simpa using same⟩, by simpa using fails⟩)
  have tie : expectationSortKey b = expectationSortKey a := by
    simp only [expectationSortKey, kind, identifier, citation]
  have equal := eq_of_reverse distinct palindrome (listed a ha failsA rfl) (listed b hb failsB tie)
  exact List.inj_on_of_nodup_map (validateExpectations_ok.mp h.valid).2 ha hb equal

/-- The analysis is exact and order-free exactly when the texts of what fails are short enough and no
two failing expectations are about one fact and one citation. -/
theorem analysis_exact_iff (h : Analysed rt es facts) :
    Reported rt es facts ∧ OrderFree rt es facts ↔ Short es facts ∧ Untied es facts := by
  rw [h.reported_iff]
  exact and_congr_right fun short => ⟨h.untied short, h.orderFree⟩

/-! ## Samples -/

/-- No YAML is read. -/
def samplePlatform : Platform := ⟨⟨fun _ => ([], true), fun _ => .error ()⟩, 1000⟩

def sampleRuntime (sha1 : Bytes → BitVec 160) : Runtime :=
  { samplePlatform with
    decimal := fun c => if isDigit c then some (c.val - 0x30) else none
    sha1 := sha1 }

def sampleDocument : Str :=
  lit "\x7b\"openapi\":\"3.0.0\",\"components\":\x7b\"schemas\":\x7b\"User\":\x7b\"type\":\"object\"\x7d\x7d\x7d\x7d"

def sampleFacts : OpenapiFactsV1 :=
  ⟨openapiFactSchemaVersion, lit "3.0.0", [⟨.schema, lit "component:User",
    lit "/components/schemas/User", [(lit "type", lit "\"object\"")]⟩]⟩

theorem sampleFacts_extracted : extractOpenapiFacts samplePlatform .openapiJson
    ((utf8 sampleDocument).getD []) = .ok sampleFacts := by decide +kernel

/-- What one passage expects of the schema of the document. -/
def sampleExpectation (name value : Str) : OpenapiConsistencyExpectation :=
  ⟨⟨1#128, lit "A user has a name."⟩, .field, lit "component:User", [(name, value)]⟩

/-- Two expectations of one passage about one schema. -/
def tiedExpectations : List OpenapiConsistencyExpectation :=
  [sampleExpectation (lit "type") (lit "\"string\""),
    sampleExpectation (lit "format") (lit "\"uuid\"")]

/-- A value of 4000 characters. -/
def longExpectations : List OpenapiConsistencyExpectation :=
  [sampleExpectation (lit "format")
    (lit "\"" ++ List.replicate 3998 (CodePoint.ofChar 'a') ++ lit "\"")]

theorem tied_analysed (sha1 : Bytes → BitVec 160) :
    Analysed (sampleRuntime sha1) tiedExpectations sampleFacts where
  known := rfl
  unique := by rw [UniqueFacts]; decide +kernel
  valid := by
    change validateExpectations samplePlatform tiedExpectations = .ok ()
    decide +kernel
  cited := by decide +kernel

theorem long_analysed (sha1 : Bytes → BitVec 160) :
    Analysed (sampleRuntime sha1) longExpectations sampleFacts where
  known := rfl
  unique := by rw [UniqueFacts]; decide +kernel
  valid := by
    change validateExpectations samplePlatform longExpectations = .ok ()
    decide +kernel
  cited := by decide +kernel

/-- The first analysis depends on the order of its expectations, and the second raises. -/
theorem analysis_inexact :
    extractOpenapiFacts samplePlatform .openapiJson ((utf8 sampleDocument).getD []) = .ok sampleFacts ∧
      ∀ sha1, (Analysed (sampleRuntime sha1) tiedExpectations sampleFacts ∧
          ¬ OrderFree (sampleRuntime sha1) tiedExpectations sampleFacts) ∧
        Analysed (sampleRuntime sha1) longExpectations sampleFacts ∧
          ¬ Reported (sampleRuntime sha1) longExpectations sampleFacts := by
  refine ⟨sampleFacts_extracted, fun sha1 => ⟨⟨tied_analysed sha1, fun free => ?_⟩,
    long_analysed sha1, fun reported => ?_⟩⟩
  · have short : Short tiedExpectations sampleFacts := by
      rw [Short]
      decide +kernel
    have untied := (tied_analysed sha1).untied short free
    rw [Untied] at untied
    revert untied
    decide +kernel
  · have short := (long_analysed sha1).reported_iff.mp reported
    rw [Short] at short
    revert short
    decide +kernel

/-- The SHA-1 of the identities of the two tied findings, which differ from this byte on. -/
def tiedSha1 (data : Bytes) : BitVec 160 :=
  if data[189]? = some 0x74 then 0x449dbb85c1dbe2f0c7f396d1ca7bb8761f3772d5
  else 0x1c090911d07724681a8b1894e41f2092e242e88d

theorem analysis_exact_iff_sample :
    Reported (sampleRuntime tiedSha1) tiedExpectations sampleFacts ∧
        OrderFree (sampleRuntime tiedSha1) tiedExpectations sampleFacts ↔
      Short tiedExpectations sampleFacts ∧ Untied tiedExpectations sampleFacts :=
  analysis_exact_iff (tied_analysed tiedSha1)

end QaCopilot.Openapi
