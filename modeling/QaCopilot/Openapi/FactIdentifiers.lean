import QaCopilot.Openapi.ExtractedKeys
import QaCopilot.Openapi.Mismatches

/-!
# The identifiers of facts

* `documentKeys_nodup`: the keys of a document differ exactly when it is unambiguous;
* `facts_distinguished_iff`: when the facts of two documents can be indexed and compared.
-/

namespace QaCopilot.Openapi

open QaCopilot.Python QaCopilot.Results QaCopilot.NameTrees

variable {p : Platform} {root : Members}

/-! ## Schemas -/

theorem suffix_of_append_eq {α : Type} {x y s t : List α} (same : x ++ s = y ++ t) : s <:+ t ∨ t <:+ s :=
  List.suffix_or_suffix_of_suffix (List.suffix_append x s) (same ▸ List.suffix_append y t)

theorem mem_enumKeys {identifier : Str} {schema : Members} {k : Key}
    (h : k ∈ enumKeys identifier schema) : k = (.enum, identifier ++ lit "::enum") := by
  unfold enumKeys at h
  split_ifs at h
  · exact List.mem_singleton.mp h
  · cases h

theorem limitKeys_eq (identifier : Str) (schema : Members) : limitKeys identifier schema =
    (limitFields.filter fun limit => (schema.lookup limit).isSome).map fun limit =>
      (.limit, identifier ++ (lit "::" ++ limit)) := by
  unfold limitKeys
  generalize limitFields = limits
  induction limits with
  | nil => rfl
  | cons limit limits ih =>
    rw [List.flatMap_cons, ih, List.filter_cons, List.append_assoc]
    split_ifs <;> rfl

theorem mem_limitKeys {identifier : Str} {schema : Members} {k : Key}
    (h : k ∈ limitKeys identifier schema) :
    ∃ limit ∈ limitFields, k = (.limit, identifier ++ (lit "::" ++ limit)) := by
  rw [limitKeys_eq] at h
  obtain ⟨limit, listed, rfl⟩ := List.mem_map.mp h
  exact ⟨limit, List.mem_of_mem_filter listed, rfl⟩

theorem mem_schemaKeys {identifier : Str} {schema : Members} {k : Key}
    (h : k ∈ schemaKeys identifier schema) :
    k = (.schema, identifier) ∨ k = (.enum, identifier ++ lit "::enum") ∨
      ∃ limit ∈ limitFields, k = (.limit, identifier ++ (lit "::" ++ limit)) :=
  (List.mem_cons.mp h).imp_right fun h => (List.mem_append.mp h).imp mem_enumKeys mem_limitKeys

/-- Of two limits neither is the end of the other. -/
theorem limitFields_apart : ∀ limit ∈ limitFields, ∀ limit' ∈ limitFields,
    (lit "::" ++ limit) <:+ (lit "::" ++ limit') → limit = limit' := by decide

theorem limit_inj {x y limit limit' : Str} (h : limit ∈ limitFields) (h' : limit' ∈ limitFields)
    (same : x ++ (lit "::" ++ limit) = y ++ (lit "::" ++ limit')) : x = y ∧ limit = limit' := by
  have one : limit = limit' := by
    rcases suffix_of_append_eq same with ends | ends
    · exact limitFields_apart _ h _ h' ends
    · exact (limitFields_apart _ h' _ h ends).symm
  subst one
  exact ⟨List.append_cancel_right same, rfl⟩

theorem schemaKeys_nodup (identifier : Str) (schema : Members) :
    (schemaKeys identifier schema).Nodup := by
  have enum : (enumKeys identifier schema).Nodup := by
    unfold enumKeys
    split_ifs <;> simp
  have limits : (limitKeys identifier schema).Nodup := by
    have distinct : limitFields.Nodup := by decide
    rw [limitKeys_eq]
    refine (distinct.filter _).map fun limit limit' same => ?_
    exact List.append_cancel_left (List.append_cancel_left (Prod.mk.inj same).2)
  refine List.nodup_cons.mpr ⟨fun h => ?_, List.nodup_append.mpr ⟨enum, limits, ?_⟩⟩
  · rcases List.mem_append.mp h with h | h
    · cases mem_enumKeys h
    · obtain ⟨_, -, h⟩ := mem_limitKeys h
      cases h
  · rintro k hk _ hk' rfl
    obtain ⟨_, -, hk'⟩ := mem_limitKeys hk'
    cases (mem_enumKeys hk).symm.trans hk'

/-- The keys of two schemas have nothing in common exactly when their identifiers differ. -/
theorem schemaKeys_disjoint {identifier identifier' : Str} {schema schema' : Members} :
    List.Disjoint (schemaKeys identifier schema) (schemaKeys identifier' schema') ↔
      identifier ≠ identifier' := by
  constructor
  · rintro apart rfl
    exact apart List.mem_cons_self List.mem_cons_self
  · intro differ k h h'
    refine differ ?_
    rcases mem_schemaKeys h with rfl | rfl | ⟨limit, listed, rfl⟩ <;>
      rcases mem_schemaKeys h' with same | same | ⟨limit', listed', same⟩ <;>
        obtain ⟨⟨⟩, same⟩ := Prod.mk.inj same
    · exact same
    · exact List.append_cancel_right same
    · exact (limit_inj listed listed' same).1

/-! ## Trees -/

theorem treeKeys_one (kind : OpenapiFactKind) (identifier : Str) (t : Names) :
    treeKeys (oneKey kind) identifier t = (t.readings.map (·.1)).map fun name => (kind, identifier ++ name) := by
  rw [treeKeys, List.map_map, List.map_eq_flatMap]
  rfl

theorem treeKeys_one_nodup (kind : OpenapiFactKind) {t : Names} (named : t.Named) :
    (treeKeys (oneKey kind) [] t).Nodup ↔ t.Clear := by
  have injective : Function.Injective fun name : Str => (kind, ([] : Str) ++ name) :=
    fun _ _ same => (Prod.mk.inj same).2
  rw [treeKeys_one, List.nodup_map_iff injective, readings_nodup_iff t named]

theorem treeKeys_schema_nodup {t : Names} (named : t.Named) :
    (treeKeys schemaKeys [] t).Nodup ↔ t.Clear := by
  rw [treeKeys, List.nodup_flatMap, and_iff_right fun r _ => schemaKeys_nodup _ _,
    ← readings_nodup_iff t named]
  exact (List.Pairwise.iff fun {r s} => schemaKeys_disjoint).trans List.pairwise_map.symm

/-! ## Operations -/

theorem upper_lowerMethod (s : Str) : upperMethod (lowerMethod s) = upperMethod s := by
  rw [upperMethod, lowerMethod, List.map_map]
  refine List.map_congr_left fun c _ => ?_
  simp only [Function.comp_apply]
  split_ifs <;> simp only [Fin.ext_iff, Fin.ofNat] at * <;> omega

theorem lower_upperMethod (s : Str) : lowerMethod (upperMethod s) = lowerMethod s := by
  rw [upperMethod, lowerMethod, List.map_map]
  refine List.map_congr_left fun c _ => ?_
  simp only [Function.comp_apply]
  split_ifs <;> simp only [Fin.ext_iff, Fin.ofNat] at * <;> omega

/-- A method has no space. -/
theorem space_notMem_method {method : Str} (h : isMethod method = true) :
    CodePoint.ofChar ' ' ∉ upperMethod method := by
  have listed : lowerMethod method ∈ methods := List.contains_iff_mem.mp h
  have all : ∀ s ∈ methods, CodePoint.ofChar ' ' ∉ upperMethod s := by decide
  exact upper_lowerMethod method ▸ all _ listed

theorem before_inj {α : Type} {a : α} {x x' z z' : List α} (h : a ∉ x) (h' : a ∉ x')
    (same : x ++ a :: z = x' ++ a :: z') : x = x' ∧ z = z' := by
  induction x generalizing x' with
  | nil =>
    cases x' with
    | nil => exact ⟨rfl, (List.cons.inj same).2⟩
    | cons b x' => exact absurd ((List.cons.inj same).1 ▸ List.mem_cons_self) h'
  | cons b x ih =>
    cases x' with
    | nil => exact absurd ((List.cons.inj same).1 ▸ List.mem_cons_self) h
    | cons b' x' =>
      obtain ⟨first, later⟩ := List.cons.inj same
      obtain ⟨rest, end'⟩ := ih (fun m => h (List.mem_cons_of_mem _ m))
        (fun m => h' (List.mem_cons_of_mem _ m)) later
      exact ⟨first ▸ rest ▸ rfl, end'⟩

theorem operationName_inj {method method' path path' : Str} (h : isMethod method = true)
    (h' : isMethod method' = true) : operationName method path = operationName method' path' ↔
      lowerMethod method = lowerMethod method' ∧ path = path' := by
  have named : ∀ m q, operationName m q = upperMethod m ++ CodePoint.ofChar ' ' :: q := by
    intro m q
    rw [operationName, List.append_assoc]
    rfl
  rw [named, named]
  constructor
  · intro same
    obtain ⟨spelled, rest⟩ := before_inj (space_notMem_method h) (space_notMem_method h') same
    rw [← lower_upperMethod method, spelled, lower_upperMethod]
    exact ⟨rfl, rest⟩
  · rintro ⟨spelled, rfl⟩
    rw [← upper_lowerMethod method, spelled, upper_lowerMethod]

/-- The operations of a document have different names when no path item spells a method twice. -/
theorem operations_nodup (distinct : ((pathItems root).map (·.1)).Nodup) :
    ((operationsOf root).map (·.1)).Nodup ↔ ∀ item ∈ pathItems root,
      (((mapping (some item.2)).filter fun o => isMethod o.1).map fun o => lowerMethod o.1).Nodup := by
  have names : ∀ item : Str × Json, (itemOperations item).map (·.1) =
      ((mapping (some item.2)).filter fun o => isMethod o.1).map fun o => operationName o.1 item.1 :=
    fun item => List.map_map
  have apart : (pathItems root).Pairwise
      (Function.onFun List.Disjoint fun item => (itemOperations item).map (·.1)) := by
    refine (List.pairwise_map.mp distinct).imp fun {i j} differ => ?_
    rw [Function.onFun_apply, names, names]
    intro name hi hj
    obtain ⟨a, ha, rfl⟩ := List.mem_map.mp hi
    obtain ⟨b, hb, same⟩ := List.mem_map.mp hj
    refine differ ?_
    exact ((operationName_inj (List.mem_filter.mp hb).2 (List.mem_filter.mp ha).2).mp same).2.symm
  rw [operationsOf, List.map_flatMap, List.nodup_flatMap, and_iff_left apart]
  refine forall₂_congr fun item _ => ?_
  rw [names]
  refine List.pairwise_map.trans (.trans (List.Pairwise.iff_of_mem fun ha hb => ?_) List.pairwise_map.symm)
  rw [Ne, Ne, operationName_inj (List.mem_filter.mp ha).2 (List.mem_filter.mp hb).2, and_iff_left rfl]

/-! ## Security -/

theorem mem_requirementKeys {scope : Str} {v : Option Json} {k : Key} (h : k ∈ requirementKeys scope v) :
    k = (.security, lit "requirement:" ++ scope) := by
  unfold requirementKeys at h
  split at h
  · exact List.mem_singleton.mp h
  · cases h

theorem requirementKeys_nodup (scope : Str) (v : Option Json) : (requirementKeys scope v).Nodup := by
  unfold requirementKeys
  split <;> simp

theorem requirement_ne_scheme (scope name : Str) : lit "requirement:" ++ scope ≠ lit "scheme:" ++ name := by
  intro same
  have first : CodePoint.ofChar 'r' = CodePoint.ofChar 's' := (List.cons.inj same).1
  exact absurd first (by decide)

/-- The name of an operation has a space, which `global` has not. -/
theorem operationName_ne_global (method path : Str) : lit "global" ≠ operationName method path := by
  intro same
  have space : CodePoint.ofChar ' ' ∈ operationName method path := by
    rw [operationName, List.append_assoc]
    exact List.mem_append_right _ List.mem_cons_self
  rw [← same] at space
  revert space
  decide

theorem securityKeys_nodup
    (schemes : ((mapping (member (componentsOf root) "securitySchemes")).map (·.1)).Nodup)
    (operations : ((operationsOf root).map (·.1)).Nodup) : (securityKeys root).Nodup := by
  have ofScheme : ((mapping (member (componentsOf root) "securitySchemes")).map fun i =>
      ((.security, lit "scheme:" ++ i.1) : Key)).Nodup := by
    have injective : Function.Injective fun name => ((.security, lit "scheme:" ++ name) : Key) :=
      fun _ _ same => List.append_cancel_left (Prod.mk.inj same).2
    have mapped := schemes.map injective
    rwa [List.map_map] at mapped
  have ofOperation : ((operationsOf root).flatMap operationRequirementKeys).Nodup := by
    refine List.nodup_flatMap.mpr ⟨fun o _ => requirementKeys_nodup _ _, ?_⟩
    refine (List.pairwise_map.mp operations).imp fun {o o'} differ k h h' => differ ?_
    have same := (mem_requirementKeys h).symm.trans (mem_requirementKeys h')
    exact List.append_cancel_left (Prod.mk.inj same).2
  refine List.nodup_append.mpr ⟨requirementKeys_nodup _ _,
    List.nodup_append.mpr ⟨ofScheme, ofOperation, ?_⟩, ?_⟩
  · rintro k hk _ hk' rfl
    obtain ⟨i, -, rfl⟩ := List.mem_map.mp hk
    obtain ⟨o, -, hk'⟩ := List.mem_flatMap.mp hk'
    exact requirement_ne_scheme _ _ (Prod.mk.inj (mem_requirementKeys hk')).2.symm
  · rintro k hk _ hk' rfl
    obtain rfl := mem_requirementKeys hk
    rcases List.mem_append.mp hk' with hk' | hk'
    · obtain ⟨i, -, same⟩ := List.mem_map.mp hk'
      exact requirement_ne_scheme _ _ (Prod.mk.inj same).2.symm
    · obtain ⟨o, ho, hk'⟩ := List.mem_flatMap.mp hk'
      obtain ⟨item, -, ho⟩ := List.mem_flatMap.mp ho
      obtain ⟨o, -, rfl⟩ := List.mem_map.mp ho
      exact operationName_ne_global _ _
        (List.append_cancel_left (Prod.mk.inj (mem_requirementKeys hk')).2)

/-! ## Documents -/

theorem kind_of_securityKeys {k : Key} (h : k ∈ securityKeys root) : k.1 = .security := by
  rcases List.mem_append.mp h with h | h
  · rw [mem_requirementKeys h]
  · rcases List.mem_append.mp h with h | h
    · obtain ⟨i, -, rfl⟩ := List.mem_map.mp h
      rfl
    · obtain ⟨o, -, h⟩ := List.mem_flatMap.mp h
      rw [mem_requirementKeys h]

theorem kind_of_oneKey {kind : OpenapiFactKind} {identifier : Str} {t : Names} {k : Key}
    (h : k ∈ treeKeys (oneKey kind) identifier t) : k.1 = kind := by
  obtain ⟨r, -, h⟩ := List.mem_flatMap.mp h
  rw [List.mem_singleton.mp h]

theorem kind_of_schemaKeys {identifier : Str} {t : Names} {k : Key}
    (h : k ∈ treeKeys schemaKeys identifier t) : k.1 = .schema ∨ k.1 = .enum ∨ k.1 = .limit := by
  obtain ⟨r, -, h⟩ := List.mem_flatMap.mp h
  rcases mem_schemaKeys h with rfl | rfl | ⟨_, -, rfl⟩
  · exact .inl rfl
  · exact .inr (.inl rfl)
  · exact .inr (.inr rfl)

theorem nodup_append_kinds {keys keys' : List Key}
    (apart : ∀ k ∈ keys, ∀ k' ∈ keys', k.1 ≠ k'.1) :
    (keys ++ keys').Nodup ↔ keys.Nodup ∧ keys'.Nodup := by
  have differ : ∀ k ∈ keys, ∀ k' ∈ keys', k ≠ k' := fun k hk k' hk' same =>
    apart k hk k' hk' (congrArg Prod.fst same)
  rw [List.nodup_append]
  exact and_congr_right fun _ => and_iff_left differ

/-- The keys of a document differ exactly when it is unambiguous. -/
theorem documentKeys_nodup (distinct : (Json.dict root).check .distinctKeys = true) :
    (documentKeys root).Nodup ↔ Unambiguous root := by
  have whole : DistinctIn (some (.dict root)) := fun _ same => Option.some.inj same ▸ distinct
  have schemes := ((whole.member "components").member "securitySchemes").keys
  have security : ∀ k ∈ securityKeys root, k.1 = .security := fun _ => kind_of_securityKeys
  have operation : ∀ k ∈ (operationsOf root).map (fun o => ((.operation, o.1) : Key)), k.1 = .operation :=
    List.forall_mem_map.mpr fun _ _ => rfl
  have parameter : ∀ k ∈ treeKeys (oneKey .parameter) [] (parameterTree root), k.1 = .parameter :=
    fun _ => kind_of_oneKey
  have response : ∀ k ∈ treeKeys (oneKey .response) [] (responseTree root), k.1 = .response :=
    fun _ => kind_of_oneKey
  have schema : ∀ k ∈ treeKeys schemaKeys [] (schemaTree root),
      k.1 = .schema ∨ k.1 = .enum ∨ k.1 = .limit := fun _ => kind_of_schemaKeys
  have named : Function.Injective fun name : Str => ((.operation, name) : Key) :=
    fun _ _ same => (Prod.mk.inj same).2
  have operations : ((operationsOf root).map fun o => ((.operation, o.1) : Key)).Nodup ↔
      ((operationsOf root).map (·.1)).Nodup := by
    rw [← List.nodup_map_iff named, List.map_map]
    rfl
  rw [documentKeys, nodup_append_kinds (by grind), nodup_append_kinds (by grind),
    nodup_append_kinds (by grind), nodup_append_kinds (by grind), operations,
    treeKeys_one_nodup _ (parameterTree_named root), treeKeys_one_nodup _ (responseTree_named root),
    treeKeys_schema_nodup (schemaTree_named root)]
  constructor
  · rintro ⟨-, methods, parameters, responses, schemas⟩
    exact ⟨(operations_nodup (whole.member "paths").keys).mp methods, parameters, responses, schemas⟩
  · rintro ⟨methods, parameters, responses, schemas⟩
    have names := (operations_nodup (whole.member "paths").keys).mpr methods
    exact ⟨securityKeys_nodup schemes names, names, parameters, responses, schemas⟩

/-- The identifiers of an accepted document differ exactly when it is unambiguous. -/
theorem unique_iff {documentType : DocumentType} {raw : Bytes} {version : Str} {facts : OpenapiFactsV1}
    (parsed : parseOpenapiRoot p documentType raw = .ok (version, root))
    (extracted : extractOpenapiFacts p documentType raw = .ok facts) :
    UniqueFacts facts.facts ↔ Unambiguous root := by
  obtain ⟨document, -, h⟩ := bind_ok.mp extracted
  obtain ⟨⟨version', root'⟩, again, h⟩ := bind_ok.mp h
  obtain ⟨-, rfl⟩ := Prod.mk.inj (Except.ok.inj (again.symm.trans parsed))
  obtain ⟨found, walked, h⟩ := bind_ok.mp h
  obtain rfl := Except.ok.inj h
  have distinct := parseOpenapiRoot_keys parsed
  have sorted := (sortByTexts_perm (fun f : OpenapiFact => keyTexts f.key) found).map OpenapiFact.key
  rw [UniqueFacts, sorted.nodup_iff, (extractRoot_keys distinct walked).nodup_iff,
    documentKeys_nodup distinct]

/-! ## What the identifiers are for -/

/-- The consistency check with these facts raises for nothing but its expectations and texts that
are too long. -/
def Checkable (facts : OpenapiFactsV1) : Prop :=
  ∀ (rt : Runtime) (es : List OpenapiConsistencyExpectation),
    validateExpectations rt.toPlatform es = .ok () → (∀ e ∈ es, strip e.citation.passage ≠ []) →
      Short es facts → ∃ ms, analyzeOpenapiConsistency rt es facts = .ok ms

/-- The identifiers within two lists of facts differ, so that they can be compared with each other
and with expectations. -/
structure Distinguished (before after : OpenapiFactsV1) : Prop where
  unique : UniqueFacts before.facts ∧ UniqueFacts after.facts
  compared : ∃ differences, diffOpenapiFacts before after = .ok differences
  checkable : Checkable before ∧ Checkable after

theorem checkable_of_unique {facts : OpenapiFactsV1}
    (known : facts.schemaVersion = openapiFactSchemaVersion) (unique : UniqueFacts facts.facts) :
    Checkable facts := fun _ _ valid cited short =>
  (Analysed.isOk_iff ⟨known, unique, valid, cited⟩).mpr short

theorem extracted_version {documentType : DocumentType} {raw : Bytes} {facts : OpenapiFactsV1}
    (extracted : extractOpenapiFacts p documentType raw = .ok facts) :
    facts.schemaVersion = openapiFactSchemaVersion := by
  obtain ⟨_, -, h⟩ := bind_ok.mp extracted
  obtain ⟨_, -, h⟩ := bind_ok.mp h
  obtain ⟨_, -, h⟩ := bind_ok.mp h
  exact Except.ok.inj h ▸ rfl

/-- The facts of two accepted documents are distinguished exactly when both are unambiguous. -/
theorem facts_distinguished_iff {documentType documentType' : DocumentType} {raw raw' : Bytes}
    {version version' : Str} {root' : Members} {facts facts' : OpenapiFactsV1}
    (parsed : parseOpenapiRoot p documentType raw = .ok (version, root))
    (parsed' : parseOpenapiRoot p documentType' raw' = .ok (version', root'))
    (extracted : extractOpenapiFacts p documentType raw = .ok facts)
    (extracted' : extractOpenapiFacts p documentType' raw' = .ok facts') :
    Distinguished facts facts' ↔ Unambiguous root ∧ Unambiguous root' := by
  rw [← unique_iff parsed extracted, ← unique_iff parsed' extracted']
  have known := extracted_version extracted
  have known' := extracted_version extracted'
  constructor
  · exact Distinguished.unique
  · rintro ⟨unique, unique'⟩
    exact ⟨⟨unique, unique'⟩, (diff_isOk known known').mpr ⟨unique, unique'⟩,
      checkable_of_unique known unique, checkable_of_unique known' unique'⟩

/-! ## Samples -/

theorem facts_distinguished_iff_sample : Distinguished sampleFacts sampleFacts := by
  have accepted : (match parseOpenapiRoot samplePlatform .openapiJson ((utf8 sampleDocument).getD []) with
      | .ok x => decide (Unambiguous x.2)
      | .error _ => false) = true := by decide +kernel
  cases parsed : parseOpenapiRoot samplePlatform .openapiJson ((utf8 sampleDocument).getD []) with
  | error e =>
    rw [parsed] at accepted
    cases accepted
  | ok x =>
    rw [parsed] at accepted
    have clear : Unambiguous x.2 := of_decide_eq_true accepted
    exact (facts_distinguished_iff parsed parsed sampleFacts_extracted sampleFacts_extracted).mpr
      ⟨clear, clear⟩

/-- A schema with a property, and a schema whose name reads like that property. -/
def ambiguousDocument : Str :=
  lit "\x7b\"openapi\":\"3.0.0\",\"components\":\x7b\"schemas\":\x7b\"A\":\x7b\"properties\":\x7b\"b\":\x7b\"type\":\"string\"\x7d\x7d\x7d,\"A.b\":\x7b\"type\":\"string\"\x7d\x7d\x7d\x7d"

def ambiguousFacts : OpenapiFactsV1 :=
  ⟨openapiFactSchemaVersion, lit "3.0.0", [
    ⟨.schema, lit "component:A", lit "/components/schemas/A", []⟩,
    ⟨.schema, lit "component:A.b", lit "/components/schemas/A/properties/b",
      [(lit "type", lit "\"string\"")]⟩,
    ⟨.schema, lit "component:A.b", lit "/components/schemas/A.b", [(lit "type", lit "\"string\"")]⟩]⟩

/-- The document is accepted, its facts cannot be told apart, and both uses of them raise. -/
theorem ambiguous_facts :
    extractOpenapiFacts samplePlatform .openapiJson ((utf8 ambiguousDocument).getD []) =
        .ok ambiguousFacts ∧
      ¬ UniqueFacts ambiguousFacts.facts ∧
      (¬ ∃ differences, diffOpenapiFacts ambiguousFacts ambiguousFacts = .ok differences) ∧
      ∀ sha1, analyzeOpenapiConsistency (sampleRuntime sha1) [] ambiguousFacts =
        .error (.rejected "OpenAPI facts must have unique kind and identifier pairs") := by
  have repeated : ¬ UniqueFacts ambiguousFacts.facts := by
    rw [UniqueFacts]
    decide +kernel
  have refused : indexFacts ambiguousFacts.facts =
      .error "OpenAPI facts must have unique kind and identifier pairs" := by
    rw [indexFacts, if_pos (by decide +kernel)]
  refine ⟨by decide +kernel, repeated, fun compared => repeated ?_, fun sha1 => ?_⟩
  · exact ((diff_isOk rfl rfl).mp compared).1
  · rw [analyzeOpenapiConsistency, indexConsistencyFacts, refused]
    rfl

end QaCopilot.Openapi
