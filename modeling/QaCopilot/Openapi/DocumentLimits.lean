import QaCopilot.Openapi.Facts

/-!
# The limits of a document

The checks of the parser on a loaded value as statements about the values in it. The walks of the
parser are folds over these values.

* `validateValue_ok`: the limits that an accepted value keeps;
* `visitReferences_ok`: its references;
* `checkRoot_ok`: a loaded value is accepted exactly when it is admissible.
-/

namespace QaCopilot.Openapi

open QaCopilot.Python QaCopilot.Results

/-! ## Rejections -/

/-- The step raises nothing but `OpenApiParseRejected`. -/
def Rejects {α : Type} (x : Except OpenapiError α) : Prop :=
  ∀ e, x = .error e → ∃ code, e = .parseRejected code

theorem rejects_ok {α : Type} (a : α) : Rejects (.ok a) := nofun

theorem rejects_error {α : Type} (code : String) :
    Rejects (.error (.parseRejected code) : Except OpenapiError α) := by
  rintro _ ⟨⟩
  exact ⟨code, rfl⟩

theorem rejects_rejectWhen (c : Bool) (code : String) : Rejects (rejectWhen c code) := by
  cases c with
  | true => exact rejects_error code
  | false => exact rejects_ok ()

theorem Rejects.bind {α β : Type} {x : Except OpenapiError α} {f : α → Except OpenapiError β}
    (first : Rejects x) (later : ∀ a, Rejects (f a)) : Rejects (x >>= f) := by
  cases x with
  | error e =>
    rintro _ ⟨⟩
    exact first e rfl
  | ok a => exact later a

theorem Rejects.foldlM {α τ : Type} {step : α → τ → Except OpenapiError α}
    (each : ∀ a t, Rejects (step a t)) (ts : List τ) (a : α) : Rejects (ts.foldlM step a) := by
  induction ts generalizing a with
  | nil => exact rejects_ok a
  | cons t ts ih =>
    rw [List.foldlM_cons]
    exact (each a t).bind ih

/-! ## The values in a value -/

mutual

/-- The values in a value with their depths, in the order of the walk; a key is a value. -/
def places (depth : Nat) : Json → List (Nat × Json)
  | .dict items => (depth, .dict items) :: placesOfItems (depth + 1) items
  | .list xs => (depth, .list xs) :: placesOfValues (depth + 1) xs
  | v => [(depth, v)]

def placesOfValues (depth : Nat) : List Json → List (Nat × Json)
  | [] => []
  | v :: vs => places depth v ++ placesOfValues depth vs

def placesOfItems (depth : Nat) : Members → List (Nat × Json)
  | [] => []
  | (key, v) :: items => (depth, .str key) :: (places depth v ++ placesOfItems depth items)

end

/-- The value itself is no larger than the limits. -/
def Fits : Json → Prop
  | .dict items => items.length ≤ maxMembers
  | .list xs => xs.length ≤ maxMembers
  | .str s => s.length ≤ maxScalarLength
  | _ => True

/-- The check of the size of one value. -/
def checkSize : Json → Except OpenapiError Unit
  | .dict items => rejectWhen (maxMembers < items.length) "OPENAPI_COLLECTION_LIMIT"
  | .list xs => rejectWhen (maxMembers < xs.length) "OPENAPI_COLLECTION_LIMIT"
  | .str s => rejectWhen (maxScalarLength < s.length) "OPENAPI_SCALAR_LIMIT"
  | _ => .ok ()

/-- What the walk does at one value. -/
def visit (nodes : Nat) (place : Nat × Json) : Except OpenapiError Nat := do
  let nodes ← countNode place.1 nodes
  checkSize place.2
  return nodes

theorem validateText_eq (depth nodes : Nat) (s : Str) :
    validateText depth nodes s = visit nodes (depth, .str s) := rfl

theorem bind_visit {α : Type} {first : Except OpenapiError Nat} {size : Except OpenapiError Unit}
    (later : Nat → Except OpenapiError α) :
    (first >>= fun nodes => size >>= fun _ => later nodes) =
      (first >>= fun nodes => size >>= fun _ => .ok nodes) >>= later := by
  cases first with
  | error e => rfl
  | ok nodes => cases size <;> rfl

mutual

theorem validateValue_eq (depth nodes : Nat) (v : Json) :
    validateValue depth nodes v = (places depth v).foldlM visit nodes := by
  cases v with
  | dict items =>
    rw [validateValue, places, List.foldlM_cons]
    simp only [validateItems_eq]
    exact bind_visit _
  | list xs =>
    rw [validateValue, places, List.foldlM_cons]
    simp only [validateValues_eq]
    exact bind_visit _
  | str s =>
    rw [validateValue, places, List.foldlM_cons, validateText_eq]
    · exact (bind_pure _).symm
    · nofun
    · nofun
  | null | bool | int | float =>
    simp only [validateValue, places, List.foldlM_cons, List.foldlM_nil, visit]
    cases countNode depth nodes <;> rfl

theorem validateValues_eq (depth nodes : Nat) (vs : List Json) :
    validateValues depth nodes vs = (placesOfValues depth vs).foldlM visit nodes := by
  cases vs with
  | nil => rfl
  | cons v vs =>
    rw [validateValues, placesOfValues, List.foldlM_append, validateValue_eq]
    simp only [validateValues_eq depth _ vs]

theorem validateItems_eq (depth nodes : Nat) (items : Members) :
    validateItems depth nodes items = (placesOfItems depth items).foldlM visit nodes := by
  match items with
  | [] => rfl
  | (key, v) :: items =>
    rw [validateItems, placesOfItems, List.foldlM_cons, validateText_eq]
    simp only [validateValue_eq depth _ v, validateItems_eq depth _ items, List.foldlM_append]

end

theorem countNode_ok {depth n m : Nat} :
    countNode depth n = .ok m ↔ (depth ≤ maxDepth ∧ n + 1 ≤ maxNodes) ∧ m = n + 1 := by
  rw [countNode]
  by_cases fits : depth ≤ maxDepth ∧ n + 1 ≤ maxNodes
  · have small : (decide (maxDepth < depth) || decide (maxNodes < n + 1)) = false := by
      simpa using fits
    rw [small, iff_true_intro fits, true_and]
    exact ⟨fun h => (Except.ok.inj h).symm, fun h => h ▸ rfl⟩
  · have large : (decide (maxDepth < depth) || decide (maxNodes < n + 1)) = true := by
      rw [Bool.or_eq_true, decide_eq_true_eq, decide_eq_true_eq]
      omega
    rw [large]
    exact iff_of_false nofun fun h => fits h.1

theorem checkSize_ok {v : Json} {u : Unit} : checkSize v = .ok u ↔ Fits v := by
  cases v with
  | dict | list | str => simp only [checkSize, rejectWhen_ok, Fits, decide_eq_false_iff_not, not_lt]
  | null | bool | int | float => exact iff_of_true rfl trivial

theorem visit_ok {place : Nat × Json} {n m : Nat} : visit n place = .ok m ↔
    (place.1 ≤ maxDepth ∧ Fits place.2) ∧ n + 1 ≤ maxNodes ∧ m = n + 1 := by
  rw [visit, bind_ok]
  constructor
  · rintro ⟨k, counted, h⟩
    obtain ⟨⟨deep, few⟩, rfl⟩ := countNode_ok.mp counted
    obtain ⟨_, sized, h⟩ := bind_ok.mp h
    exact ⟨⟨deep, checkSize_ok.mp sized⟩, few, (Except.ok.inj h).symm⟩
  · rintro ⟨⟨deep, fits⟩, few, rfl⟩
    exact ⟨n + 1, countNode_ok.mpr ⟨⟨deep, few⟩, rfl⟩, bind_ok.mpr ⟨(), checkSize_ok.mpr fits, rfl⟩⟩

theorem visits_ok {places : List (Nat × Json)} {n m : Nat} (start : n ≤ maxNodes) :
    places.foldlM visit n = .ok m ↔
      (∀ place ∈ places, place.1 ≤ maxDepth ∧ Fits place.2) ∧ n + places.length ≤ maxNodes ∧
        m = n + places.length := by
  induction places generalizing n with
  | nil =>
    constructor
    · intro h
      exact ⟨nofun, start, (Except.ok.inj h).symm⟩
    · rintro ⟨-, -, rfl⟩
      rfl
  | cons place places ih =>
    rw [List.foldlM_cons, bind_ok, List.forall_mem_cons, List.length_cons]
    constructor
    · rintro ⟨k, first, later⟩
      obtain ⟨fits, few, rfl⟩ := visit_ok.mp first
      obtain ⟨all, total, rfl⟩ := (ih few).mp later
      exact ⟨⟨fits, all⟩, by omega, by omega⟩
    · rintro ⟨⟨fits, all⟩, total, rfl⟩
      refine ⟨n + 1, visit_ok.mpr ⟨fits, by omega, rfl⟩, ?_⟩
      exact (ih (by omega)).mpr ⟨all, by omega, by omega⟩

/-- The value keeps the limits of the parser. -/
structure WithinLimits (v : Json) : Prop where
  depth : ∀ place ∈ places 0 v, place.1 ≤ maxDepth
  nodes : (places 0 v).length ≤ maxNodes
  fits : ∀ place ∈ places 0 v, Fits place.2

theorem validateValue_ok {v : Json} : (∃ nodes, validateValue 0 0 v = .ok nodes) ↔ WithinLimits v := by
  simp only [validateValue_eq, visits_ok (Nat.zero_le maxNodes), Nat.zero_add]
  constructor
  · rintro ⟨_, all, few, -⟩
    exact ⟨fun place hp => (all place hp).1, few, fun place hp => (all place hp).2⟩
  · intro h
    exact ⟨_, fun place hp => ⟨h.depth place hp, h.fits place hp⟩, h.nodes, rfl⟩

theorem validateValue_rejects (depth nodes : Nat) (v : Json) : Rejects (validateValue depth nodes v) := by
  rw [validateValue_eq]
  refine Rejects.foldlM (fun nodes place => ?_) _ _
  have size : Rejects (checkSize place.2) := by
    cases place.2 with
    | dict | list | str => exact rejects_rejectWhen _ _
    | null | bool | int | float => exact rejects_ok _
  exact ((rejects_rejectWhen _ _).bind fun _ => rejects_ok _).bind fun _ => size.bind fun _ => rejects_ok _

/-! ## References -/

mutual

/-- The pairs of all mappings in a value, in the order of the walk. -/
def pairs : Json → Members
  | .dict items => pairsOfItems items
  | .list xs => pairsOfValues xs
  | _ => []

def pairsOfValues : List Json → Members
  | [] => []
  | v :: vs => pairs v ++ pairsOfValues vs

def pairsOfItems : Members → Members
  | [] => []
  | (key, v) :: items => (key, v) :: (pairs v ++ pairsOfItems items)

end

/-- What the walk does at one pair. -/
def visitPair (refs : Nat) (pair : Str × Json) : Except OpenapiError Nat := do
  rejectWhen (pair.1 = lit "$dynamicRef") "OPENAPI_DYNAMIC_REFERENCE_UNSUPPORTED"
  rejectWhen (pair.1 = lit "$ref" && !isReference pair.2) "OPENAPI_REFERENCE_UNSUPPORTED"
  return if pair.1 = lit "$ref" then refs + 1 else refs

mutual

theorem visitReferences_eq (refs : Nat) (v : Json) :
    visitReferences refs v = (pairs v).foldlM visitPair refs := by
  cases v with
  | dict items =>
    rw [visitReferences, pairs]
    exact visitItems_eq refs items
  | list xs =>
    rw [visitReferences, pairs]
    exact visitValues_eq refs xs
  | null | bool | int | float | str =>
    simp only [visitReferences, pairs]
    rfl

theorem visitValues_eq (refs : Nat) (vs : List Json) :
    visitValues refs vs = (pairsOfValues vs).foldlM visitPair refs := by
  cases vs with
  | nil => rfl
  | cons v vs =>
    rw [visitValues, pairsOfValues, List.foldlM_append, visitReferences_eq]
    simp only [visitValues_eq _ vs]

theorem visitItems_eq (refs : Nat) (items : Members) :
    visitItems refs items = (pairsOfItems items).foldlM visitPair refs := by
  match items with
  | [] => rfl
  | (key, v) :: items =>
    rw [visitItems, pairsOfItems, List.foldlM_cons]
    simp only [visitReferences_eq _ v, visitItems_eq _ items, visitPair, List.foldlM_append]
    cases rejectWhen (key = lit "$dynamicRef") "OPENAPI_DYNAMIC_REFERENCE_UNSUPPORTED" with
    | error e => rfl
    | ok =>
      cases rejectWhen (key = lit "$ref" && !isReference v) "OPENAPI_REFERENCE_UNSUPPORTED" <;> rfl

end

/-- The pair refers to nothing outside the document. -/
def LocalPair (pair : Str × Json) : Prop :=
  pair.1 ≠ lit "$dynamicRef" ∧ (pair.1 = lit "$ref" → isReference pair.2 = true)

/-- How many pairs are references. -/
def referenceCount (pairs : Members) : Nat := pairs.countP (·.1 = lit "$ref")

theorem visitPair_ok {pair : Str × Json} {n m : Nat} : visitPair n pair = .ok m ↔
    LocalPair pair ∧ m = n + referenceCount [pair] := by
  have count : referenceCount [pair] = if pair.1 = lit "$ref" then 1 else 0 := by
    simp [referenceCount, List.countP_cons]
  rw [visitPair, count]
  constructor
  · intro h
    obtain ⟨_, static, h⟩ := bind_ok.mp h
    obtain ⟨_, within, h⟩ := bind_ok.mp h
    rw [rejectWhen_ok, decide_eq_false_iff_not] at static
    rw [rejectWhen_ok, Bool.and_eq_false_iff, decide_eq_false_iff_not, Bool.not_eq_false'] at within
    refine ⟨⟨static, fun own => within.resolve_left (not_not_intro own)⟩, ?_⟩
    have same := Except.ok.inj h
    split_ifs at same ⊢ <;> exact same.symm
  · rintro ⟨⟨static, within⟩, rfl⟩
    refine bind_ok.mpr ⟨(), rejectWhen_ok.mpr (decide_eq_false static), bind_ok.mpr ⟨(), ?_, ?_⟩⟩
    · rw [rejectWhen_ok, Bool.and_eq_false_iff, decide_eq_false_iff_not, Bool.not_eq_false']
      exact or_iff_not_imp_left.mpr fun own => within (not_not.mp own)
    · split_ifs <;> rfl

theorem visitPairs_ok {pairs : Members} {n m : Nat} : pairs.foldlM visitPair n = .ok m ↔
    (∀ pair ∈ pairs, LocalPair pair) ∧ m = n + referenceCount pairs := by
  induction pairs generalizing n with
  | nil => exact ⟨fun h => ⟨nofun, (Except.ok.inj h).symm⟩, fun h => h.2 ▸ rfl⟩
  | cons pair pairs ih =>
    have count : referenceCount ([pair] ++ pairs) = referenceCount [pair] + referenceCount pairs :=
      List.countP_append
    rw [List.singleton_append] at count
    rw [List.foldlM_cons, bind_ok, List.forall_mem_cons, count]
    constructor
    · rintro ⟨k, first, later⟩
      obtain ⟨own, rfl⟩ := visitPair_ok.mp first
      obtain ⟨all, rfl⟩ := ih.mp later
      exact ⟨⟨own, all⟩, Nat.add_assoc _ _ _⟩
    · rintro ⟨⟨own, all⟩, rfl⟩
      exact ⟨_, visitPair_ok.mpr ⟨own, rfl⟩, ih.mpr ⟨all, (Nat.add_assoc _ _ _).symm⟩⟩

/-- The references of the value stay inside the document. -/
structure LocalReferences (v : Json) : Prop where
  within : ∀ pair ∈ pairs v, LocalPair pair
  few : referenceCount (pairs v) ≤ maxReferences

theorem validateReferences_ok {v : Json} {u : Unit} :
    validateReferences v = .ok u ↔ LocalReferences v := by
  rw [validateReferences, visitReferences_eq, bind_ok]
  constructor
  · rintro ⟨n, walked, few⟩
    obtain ⟨all, rfl⟩ := visitPairs_ok.mp walked
    rw [rejectWhen_ok, decide_eq_false_iff_not, not_lt, Nat.zero_add] at few
    exact ⟨all, few⟩
  · intro h
    refine ⟨_, visitPairs_ok.mpr ⟨h.within, rfl⟩, ?_⟩
    rw [rejectWhen_ok, decide_eq_false_iff_not, not_lt, Nat.zero_add]
    exact h.few

theorem validateReferences_rejects (v : Json) : Rejects (validateReferences v) := by
  rw [validateReferences, visitReferences_eq]
  have pair : ∀ n i, Rejects (visitPair n i) := fun n i =>
    (rejects_rejectWhen _ _).bind fun _ => (rejects_rejectWhen _ _).bind fun _ => rejects_ok _
  exact (Rejects.foldlM pair _ _).bind fun _ => rejects_rejectWhen _ _

/-! ## The root -/

/-- A member is a mapping, if it is there. -/
def IsMapping (v : Option Json) : Prop := ∀ w, v = some w → ∃ items, w = .dict items

theorem memberMapping_ok {m items : Members} {key code : String} :
    memberMapping m key code = .ok items ↔ IsMapping (member m key) ∧ items = mapping (member m key) := by
  unfold memberMapping
  match member m key with
  | none => exact ⟨fun h => ⟨nofun, (Except.ok.inj h).symm⟩, fun h => h.2 ▸ rfl⟩
  | some (.dict found) =>
    refine ⟨fun h => ⟨?_, (Except.ok.inj h).symm⟩, fun h => h.2 ▸ rfl⟩
    rintro _ ⟨⟩
    exact ⟨found, rfl⟩
  | some .null | some (.bool _) | some (.int _) | some (.float _) | some (.str _) | some (.list _) =>
    refine iff_of_false nofun fun h => ?_
    obtain ⟨_, same⟩ := h.1 _ rfl
    cases same

theorem memberMapping_rejects (m : Members) (key code : String) : Rejects (memberMapping m key code) := by
  unfold memberMapping
  split
  · exact rejects_ok _
  · exact rejects_ok _
  · exact rejects_error _

/-- The version is one that the parser supports. -/
def supported (version : Str) : Bool :=
  (lit "3.0.").isPrefixOf version || (lit "3.1.").isPrefixOf version

/-- The document keeps all rules of the parser. -/
structure Admissible (version : Str) (document : Members) : Prop where
  limits : WithinLimits (.dict document)
  stated : member document "openapi" = some (.str version)
  version : supported version = true
  references : LocalReferences (.dict document)
  paths : IsMapping (member document "paths")
  components : IsMapping (member document "components")
  schemas : IsMapping (member (mapping (member document "components")) "schemas")
  few : (mapping (member (mapping (member document "components")) "schemas")).length ≤ maxComponents

/-- What `_parse_openapi_root` does with the loaded value. -/
def checkRoot (v : Json) : Except OpenapiError (Str × Members) := do
  let _ ← validateValue 0 0 v
  match v with
  | .dict value =>
    match member value "openapi" with
    | some (.str version) =>
      rejectWhen (!supported version) "OPENAPI_VERSION_UNSUPPORTED"
      validateReferences v
      let _ ← memberMapping value "paths" "OPENAPI_PATHS_OBJECT_REQUIRED"
      let _ ← componentSchemas value
      return (version, value)
    | _ => .error (.parseRejected "OPENAPI_VERSION_UNSUPPORTED")
  | _ => .error (.parseRejected "OPENAPI_ROOT_OBJECT_REQUIRED")

theorem parseOpenapiRoot_eq (p : Platform) (documentType : DocumentType) (raw : Bytes) :
    parseOpenapiRoot p documentType raw = (do
      rejectWhen (documentType = .other) "OPENAPI_DOCUMENT_TYPE_UNSUPPORTED"
      match decodeUtf8 raw with
      | none => .error (.parseRejected "OPENAPI_TEXT_ENCODING_INVALID")
      | some text => loadText p documentType text >>= checkRoot) := rfl

theorem componentSchemas_ok {document schemas : Members} : componentSchemas document = .ok schemas ↔
    IsMapping (member document "components") ∧
      IsMapping (member (mapping (member document "components")) "schemas") ∧
      (mapping (member (mapping (member document "components")) "schemas")).length ≤ maxComponents ∧
      schemas = mapping (member (mapping (member document "components")) "schemas") := by
  rw [componentSchemas, bind_ok]
  constructor
  · rintro ⟨components, read, h⟩
    obtain ⟨isMapping, rfl⟩ := memberMapping_ok.mp read
    obtain ⟨found, read, h⟩ := bind_ok.mp h
    obtain ⟨inner, rfl⟩ := memberMapping_ok.mp read
    obtain ⟨_, few, h⟩ := bind_ok.mp h
    rw [rejectWhen_ok, decide_eq_false_iff_not, not_lt] at few
    exact ⟨isMapping, inner, few, (Except.ok.inj h).symm⟩
  · rintro ⟨isMapping, inner, few, rfl⟩
    refine ⟨_, memberMapping_ok.mpr ⟨isMapping, rfl⟩, bind_ok.mpr
      ⟨_, memberMapping_ok.mpr ⟨inner, rfl⟩, bind_ok.mpr ⟨(), ?_, rfl⟩⟩⟩
    rw [rejectWhen_ok, decide_eq_false_iff_not, not_lt]
    exact few

theorem checkRoot_ok {v : Json} {version : Str} {document : Members} :
    checkRoot v = .ok (version, document) ↔ v = .dict document ∧ Admissible version document := by
  unfold checkRoot
  constructor
  · intro h
    obtain ⟨nodes, limits, h⟩ := bind_ok.mp h
    split at h
    · split at h
      · rename_i value stated
        obtain ⟨_, version, h⟩ := bind_ok.mp h
        obtain ⟨_, references, h⟩ := bind_ok.mp h
        obtain ⟨_, paths, h⟩ := bind_ok.mp h
        obtain ⟨_, schemas, h⟩ := bind_ok.mp h
        obtain ⟨rfl, rfl⟩ := Prod.mk.inj (Except.ok.inj h)
        rw [rejectWhen_ok, Bool.not_eq_false'] at version
        obtain ⟨components, inner, few, -⟩ := componentSchemas_ok.mp schemas
        exact ⟨rfl, validateValue_ok.mp ⟨nodes, limits⟩, stated, version,
          validateReferences_ok.mp references, (memberMapping_ok.mp paths).1, components, inner, few⟩
      · cases h
    · cases h
  · rintro ⟨rfl, h⟩
    obtain ⟨nodes, walked⟩ := validateValue_ok.mpr h.limits
    have version : rejectWhen (!supported version) "OPENAPI_VERSION_UNSUPPORTED" = .ok () := by
      rw [rejectWhen_ok, Bool.not_eq_false', h.version]
    rw [walked, ok_bind]
    simp only [h.stated]
    exact bind_ok.mpr ⟨(), version, bind_ok.mpr ⟨(), validateReferences_ok.mpr h.references,
      bind_ok.mpr ⟨_, memberMapping_ok.mpr ⟨h.paths, rfl⟩, bind_ok.mpr
        ⟨_, componentSchemas_ok.mpr ⟨h.components, h.schemas, h.few, rfl⟩, rfl⟩⟩⟩⟩

theorem checkRoot_rejects (v : Json) : Rejects (checkRoot v) := by
  unfold checkRoot
  refine (validateValue_rejects 0 0 v).bind fun _ => ?_
  split
  · split
    · have schemas : ∀ value, Rejects (componentSchemas value) := fun value =>
        (memberMapping_rejects _ _ _).bind fun _ => (memberMapping_rejects _ _ _).bind fun _ =>
          (rejects_rejectWhen _ _).bind fun _ => rejects_ok _
      exact (rejects_rejectWhen _ _).bind fun _ => (validateReferences_rejects _).bind fun _ =>
        (memberMapping_rejects _ _ _).bind fun _ => (schemas _).bind fun _ => rejects_ok _
    · exact rejects_error _
  · exact rejects_error _

end QaCopilot.Openapi
