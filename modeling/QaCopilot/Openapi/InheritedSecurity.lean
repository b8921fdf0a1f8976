import QaCopilot.Openapi.ExtractedKeys
import QaCopilot.Openapi.FactPointers

/-!
# Inherited security

An operation without a security member inherits the requirements of the document, and a fact should
report them. The parser hands them on as a tuple, which the extraction takes for no list.

* `requirements_selected`: the requirement facts of an operation, inherited ones left out;
* `securityReported_iff`: reported as meant exactly when no operation inherits requirements.
-/

namespace QaCopilot.Openapi

open QaCopilot.Python QaCopilot.Results QaCopilot.Appends
open QaCopilot.Execution (PathStep render referenceTokens)

/-! ## Operations -/

/-- The items of the paths of a document. -/
def pathItem (document : Members) (path : Str) : Members :=
  mapping ((mapping (member document "paths")).lookup path)

/-- The path and the method are those of an operation of the document. -/
structure IsOperation (document : Members) (path method : Str) : Prop where
  listed : path ∈ (mapping (member document "paths")).map (·.1)
  named : method ∈ (pathItem document path).map (·.1)
  verb : isMethod method = true

/-- The security member of an operation. -/
def ownSecurity (document : Members) (path method : Str) : Option Json :=
  member (mapping ((pathItem document path).lookup method)) "security"

def securityPointer (path method : Str) : Str :=
  lit "/paths/" ++ escape path ++ lit "/" ++ escape method ++ lit "/security"

/-- The fact reports the requirements of an operation. -/
def Reports (p : Platform) (path method : Str) (requirements : List Json) (inherited : Bool)
    (f : OpenapiFact) : Prop :=
  ∃ text flag, canonical p (.list requirements) = .ok text ∧ canonical p (.bool inherited) = .ok flag ∧
    f = ⟨.security, lit "requirement:" ++ operationName method path, securityPointer path method,
      [(lit "requirements", text), (lit "inherited", flag)]⟩

/-- A requirement fact of the operation. -/
def isRequirement (path method : Str) (f : OpenapiFact) : Bool :=
  f.kind = .security ∧ f.jsonPointer = securityPointer path method

/-- The requirement facts are those of the member of the operation, of which there is one when the
member is a list. -/
def OwnReported (p : Platform) (path method : Str) (own : Json) (facts : List OpenapiFact) : Prop :=
  match own with
  | .list requirements => ∃ f, facts = [f] ∧ Reports p path method requirements false f
  | _ => facts = []

/-- Every operation reports its own requirements, or those of the document. -/
def SecurityReported (p : Platform) (document : Members) (facts : List OpenapiFact) : Prop :=
  ∀ requirements, member document "security" = some (.list requirements) → requirements ≠ [] →
    ∀ path method, IsOperation document path method →
      match ownSecurity document path method with
      | none => ∃ f ∈ facts, Reports p path method requirements true f
      | some own => OwnReported p path method own (facts.filter (isRequirement path method))

/-! ## Pointers -/

theorem render_key (key : Str) (path : List PathStep) :
    render (.key key :: path) = lit "/" ++ escape key ++ render path := by
  rw [escape_eq]
  rfl

theorem securityPointer_eq (path method : Str) : securityPointer path method =
    render ([lit "paths", path, method, lit "security"].map .key) := by
  have paths : escape (lit "paths") = lit "paths" :=
    escape_walked _ (by simp [walkedMembers])
  have security : escape (lit "security") = lit "security" :=
    escape_walked _ (by simp [walkedMembers])
  simp only [securityPointer, List.map_cons, List.map_nil, render_key, paths, security, List.append_assoc]
  rfl

theorem schemePointer_eq (name : Str) : lit "/components/securitySchemes/" ++ escape name =
    render ([lit "components", lit "securitySchemes", name].map .key) := by
  have components : escape (lit "components") = lit "components" :=
    escape_walked _ (by simp [walkedMembers])
  have schemes : escape (lit "securitySchemes") = lit "securitySchemes" :=
    escape_walked _ (by simp [walkedMembers])
  simp only [List.map_cons, List.map_nil, render_key, components, schemes, List.append_assoc]
  exact congrArg (lit "/components/securitySchemes/" ++ ·) (List.append_nil _).symm

theorem render_keys {keys others : List Str} (some' : keys ≠ []) (others' : others ≠ [])
    (same : render (keys.map .key) = render (others.map .key)) : keys = others := by
  have tokens := congrArg referenceTokens same
  rw [Execution.referenceTokens_render (by simpa using some'),
    Execution.referenceTokens_render (by simpa using others'), List.map_map, List.map_map] at tokens
  have texts : PathStep.text ∘ PathStep.key = id := rfl
  rwa [texts, List.map_id, List.map_id] at tokens

theorem securityPointer_inj {path method path' method' : Str}
    (same : securityPointer path method = securityPointer path' method') :
    path = path' ∧ method = method' := by
  rw [securityPointer_eq, securityPointer_eq] at same
  have keys := render_keys (List.cons_ne_nil _ _) (List.cons_ne_nil _ _) same
  simp only [List.cons.injEq, and_true, true_and] at keys
  exact keys

theorem schemePointer_ne (name path method : Str) :
    lit "/components/securitySchemes/" ++ escape name ≠ securityPointer path method := by
  intro same
  rw [securityPointer_eq, schemePointer_eq] at same
  have keys := render_keys (List.cons_ne_nil _ _) (List.cons_ne_nil _ _) same
  simp at keys

theorem globalPointer_ne (path method : Str) : lit "/security" ≠ securityPointer path method := by
  intro same
  have whole : lit "/security" = render ([lit "security"].map .key) := by decide +kernel
  rw [securityPointer_eq, whole] at same
  have keys := render_keys (List.cons_ne_nil _ _) (List.cons_ne_nil _ _) same
  simp at keys

/-! ## Facts of other things -/

variable {p : Platform} {pointer : Str}

/-- A fact of something else than security. -/
def Unsecured (f : OpenapiFact) : Prop := f.kind ≠ .security

theorem append_unsecured (kind : OpenapiFactKind) (other : kind ≠ .security) {identifier : Str}
    {attributes' : List (Str × Str)} :
    Only Unsecured fun l => append l kind identifier pointer attributes' := append_only other

theorem extractSchema_unsecured (calls : Nat) (identifier pointer : Str) (schema : Members) :
    Only Unsecured fun l => extractSchema p calls l identifier pointer schema := by
  induction calls generalizing identifier pointer schema with
  | zero => exact fun _ _ h => nomatch h
  | succ calls ih =>
    have enum : Only Unsecured fun l => appendEnum p l identifier pointer schema := by
      unfold appendEnum
      cases member schema "enum" with
      | none => exact Only.nothing
      | some v => exact Only.after _ fun _ _ => append_unsecured .enum nofun
    have limits : Only Unsecured fun l => limitFields.foldlM (appendLimit p identifier pointer schema) l := by
      refine Only.foldlM _ fun limit _ => ?_
      unfold appendLimit
      cases schema.lookup limit with
      | none => exact Only.nothing
      | some v => exact Only.after _ fun _ _ => append_unsecured .limit nofun
    have nested : ∀ (identifier pointer : Str) (schema : Members), Only Unsecured fun l =>
        if schema.isEmpty then .ok l else extractSchema p calls l identifier pointer schema := by
      intro identifier pointer schema
      cases schema.isEmpty with
      | true => exact Only.nothing
      | false => exact ih identifier pointer schema
    exact Only.after _ fun _ _ => (append_unsecured .schema nofun).then (enum.then (limits.then
      ((Only.foldlM _ fun _ _ => nested _ _ _).then (nested _ _ _))))

theorem extractSchemaOf_unsecured (identifier pointer : Str) (schema : Members) :
    Only Unsecured fun l => extractSchemaOf p l identifier pointer schema := by
  unfold extractSchemaOf
  cases schema.isEmpty with
  | true => exact Only.nothing
  | false => exact extractSchema_unsecured _ _ _ _

theorem extractParameters_unsecured (scope pointer : Str) (value : Option Json) :
    Only Unsecured fun l => extractParameters p l scope pointer value := by
  unfold extractParameters
  split
  · refine Only.foldlM _ fun _ _ => ?_
    exact Only.after _ fun _ _ => (append_unsecured .parameter nofun).then (extractSchemaOf_unsecured _ _ _)
  · exact Only.nothing

theorem extractResponses_unsecured (operationKey pointer : Str) (value : Option Json) :
    Only Unsecured fun l => extractResponses p l operationKey pointer value := by
  refine Only.foldlM _ fun status _ => ?_
  exact Only.after _ fun _ _ => Only.after _ fun _ _ => (append_unsecured .response nofun).then
    (Only.foldlM _ fun _ _ => extractSchemaOf_unsecured _ _ _)

theorem extractComponentSchemas_unsecured (schemas : Members) :
    Only Unsecured fun l => extractComponentSchemas p l schemas :=
  Only.foldlM _ fun _ _ => extractSchemaOf_unsecured _ _ _

/-! ## The requirements of one operation -/

section
variable {path method path' method' : Str} {inheritedSecurity : List Json}
  {R : List OpenapiFact → Prop}

theorem Only.skipsRequirement {walk : List OpenapiFact → Except OpenapiError (List OpenapiFact)}
    (h : Only Unsecured walk) : Skips (isRequirement path method) walk :=
  h.skips fun _ other => decide_eq_false fun both => other both.1

theorem append_elsewhere (kind : OpenapiFactKind) {identifier : Str} {attributes' : List (Str × Str)}
    (other : pointer ≠ securityPointer path method) :
    Skips (isRequirement path method) fun l => append l kind identifier pointer attributes' :=
  (append_only (P := fun f => f.jsonPointer ≠ securityPointer path method) other).skips
    fun _ apart => decide_eq_false fun both => apart both.2

theorem extractSecurityRequirements_elsewhere (scope : Str) (value : SecurityValue) (inherited : Bool)
    (other : pointer ≠ securityPointer path method) : Skips (isRequirement path method) fun l =>
      extractSecurityRequirements p l scope pointer value inherited := by
  unfold extractSecurityRequirements
  split
  · exact Selects.after _ fun _ _ => Selects.after _ fun _ _ => append_elsewhere .security other
  · exact Only.skipsRequirement Only.nothing

/-- What an operation appends, when it is the one or another one. -/
theorem extractOperation_selects {item : Members}
    (security : Selects (isRequirement path method) (fun l => extractSecurityRequirements p l
        (operationName method' path') (securityPointer path' method')
        (match member (mapping (item.lookup method')) "security" with
          | some v => .own (some v)
          | none => .inherited inheritedSecurity)
        (member (mapping (item.lookup method')) "security").isNone) R) :
    Selects (isRequirement path method) (fun l => extractOperation p inheritedSecurity path'
      (lit "/paths/" ++ escape path') item l method') R :=
  Selects.after _ fun _ _ => (Only.skipsRequirement (append_unsecured .operation nofun)).then
    ((Only.skipsRequirement (extractParameters_unsecured _ _ _)).then
      ((Only.skipsRequirement (extractResponses_unsecured _ _ _)).then security))

theorem extractOperation_elsewhere {item : Members} (other : ¬ (path' = path ∧ method' = method)) :
    Skips (isRequirement path method) fun l =>
      extractOperation p inheritedSecurity path' (lit "/paths/" ++ escape path') item l method' :=
  extractOperation_selects (extractSecurityRequirements_elsewhere _ _ _ fun same =>
    other (securityPointer_inj same))

/-- The requirement facts of an operation are those of its own member. -/
def Selected (p : Platform) (path method : Str) (own : Option Json) (facts : List OpenapiFact) : Prop :=
  match own with
  | none => facts = []
  | some own => OwnReported p path method own facts

theorem ownRequirements_selected (own : Option Json) :
    Selects (isRequirement path method) (fun l => extractSecurityRequirements p l
        (operationName method path) (securityPointer path method)
        (match own with
          | some v => .own (some v)
          | none => .inherited inheritedSecurity)
        own.isNone) (Selected p path method own) := by
  match own with
  | some (.list requirements) =>
    refine Selects.after _ fun text made => Selects.after _ fun flag stated => ?_
    intro before after h
    dsimp only [append] at h
    split_ifs at h
    obtain rfl := Except.ok.inj h
    refine ⟨_, List.filter_append _ _, ?_⟩
    rw [List.filter_cons_of_pos (by simp [isRequirement]), List.filter_nil]
    exact ⟨_, rfl, text, flag, made, stated, rfl⟩
  | none | some .null | some (.bool _) | some (.int _) | some (.float _) | some (.str _)
  | some (.dict _) => exact Only.skipsRequirement Only.nothing

end

/-! ## The document -/

variable {document : Members} {path method : Str}

theorem extractPath_selects (distinct : DistinctIn (some (.dict document)))
    (operation : IsOperation document path method) (inheritedSecurity : List Json) :
    Selects (isRequirement path method)
      (fun l => extractPath p inheritedSecurity (mapping (member document "paths")) l path)
      (Selected p path method (ownSecurity document path method)) := by
  have keys : ((pathItem document path).map (·.1)).Nodup :=
    ((distinct.lookup (lit "paths")).lookup path).keys
  have once : (sortedMethods (pathItem document path)).Nodup :=
    (sortedTexts_perm _).nodup_iff.mpr (keys.filter _)
  have listed : method ∈ sortedMethods (pathItem document path) :=
    mem_sortedTexts.mpr (List.mem_filter.mpr ⟨operation.named, operation.verb⟩)
  exact (Only.skipsRequirement (extractParameters_unsecured _ _ _)).then
    (Selects.foldlM once listed (extractOperation_selects (ownRequirements_selected _))
      fun method' _ other => extractOperation_elsewhere fun same => other same.2)

theorem extractPath_elsewhere {path' : Str} (other : path' ≠ path) (inheritedSecurity : List Json)
    (paths : Members) : Skips (isRequirement path method) fun l =>
      extractPath p inheritedSecurity paths l path' :=
  (Only.skipsRequirement (extractParameters_unsecured _ _ _)).then
    (Skips.foldlM _ fun _ _ => extractOperation_elsewhere fun same => other same.1)

/-- The requirement facts of an operation of an accepted document. -/
theorem requirements_selected {inheritedSecurity : List Json} {facts : List OpenapiFact}
    (distinct : DistinctIn (some (.dict document))) (operation : IsOperation document path method)
    (extracted : extractRoot p document inheritedSecurity = .ok facts) :
    Selected p path method (ownSecurity document path method)
      (facts.filter (isRequirement path method)) := by
  have topLevel : Skips (isRequirement path method) fun l => extractSecurityRequirements p l
      (lit "global") (lit "/security") (.own (member document "security")) false :=
    extractSecurityRequirements_elsewhere _ _ _ (globalPointer_ne path method)
  have schemes : ∀ members, Skips (isRequirement path method) fun l =>
      extractSecuritySchemes p l members := fun members => Skips.foldlM _ fun name _ =>
    Selects.after _ fun _ _ => append_elsewhere .security (schemePointer_ne name path method)
  have once : (sortedKeys (mapping (member document "paths"))).Nodup :=
    (sortedTexts_perm _).nodup_iff.mpr (distinct.lookup (lit "paths")).keys
  have operations := Selects.foldlM once (mem_sortedTexts.mpr operation.listed)
    (extractPath_selects (p := p) distinct operation inheritedSecurity)
    fun path' _ other => extractPath_elsewhere other inheritedSecurity _
  have schemas : ∀ members, Skips (isRequirement path method) fun l =>
      extractComponentSchemas p l members := fun members =>
    Only.skipsRequirement (extractComponentSchemas_unsecured members)
  let components := mapping (member document "components")
  have whole := topLevel.then ((schemes (mapping (member components "securitySchemes"))).then
    ((schemas (mapping (member components "schemas"))).then operations))
  obtain ⟨new, same, selected⟩ := whole [] facts extracted
  rw [same]
  exact selected

/-- Every operation of an accepted document reports the requirements that hold for it exactly when
there are no requirements of the document, or no operation inherits them. -/
theorem securityReported_iff {documentType : DocumentType} {raw : Bytes} {version : Str}
    {facts : OpenapiFactsV1} (parsed : parseOpenapiRoot p documentType raw = .ok (version, document))
    (extracted : extractOpenapiFacts p documentType raw = .ok facts) :
    SecurityReported p document facts.facts ↔
      ∀ requirements, member document "security" = some (.list requirements) → requirements ≠ [] →
        ∀ path method, IsOperation document path method → ownSecurity document path method ≠ none := by
  obtain ⟨summary, -, h⟩ := bind_ok.mp extracted
  rw [parsed, ok_bind] at h
  obtain ⟨unsorted, walked, h⟩ := bind_ok.mp h
  obtain rfl := Except.ok.inj h
  have distinct : DistinctIn (some (.dict document)) := by
    rintro w ⟨⟩
    exact parseOpenapiRoot_keys parsed
  have sorted : ∀ path method, ((sortByTexts (fun f => keyTexts f.key) unsorted).filter
      (isRequirement path method)).Perm (unsorted.filter (isRequirement path method)) :=
    fun path method => (sortByTexts_perm _ _).filter _
  refine forall_congr' fun requirements => forall_congr' fun stated => forall_congr' fun filled =>
    forall_congr' fun path => forall_congr' fun method => forall_congr' fun operation => ?_
  have selected := requirements_selected distinct operation walked
  cases own : ownSecurity document path method with
  | none =>
    rw [own] at selected
    refine iff_of_false ?_ fun some' => some' rfl
    rintro ⟨f, hf, text, flag, -, -, same⟩
    have requirement : isRequirement path method f = true := by
      subst same
      exact decide_eq_true ⟨rfl, rfl⟩
    have chosen := List.mem_filter.mpr ⟨(sortByTexts_perm _ _).mem_iff.mp hf, requirement⟩
    rw [show unsorted.filter (isRequirement path method) = [] from selected] at chosen
    cases chosen
  | some v =>
    refine iff_of_true ?_ nofun
    rw [own] at selected
    have same : (sortByTexts (fun f => keyTexts f.key) unsorted).filter (isRequirement path method) =
        unsorted.filter (isRequirement path method) := by
      have perm := sorted path method
      cases v with
      | list own =>
        obtain ⟨f, one, -⟩ := selected
        rw [one] at perm ⊢
        exact List.perm_singleton.mp perm
      | null | bool | int | float | str | dict =>
        rw [show unsorted.filter (isRequirement path method) = [] from selected] at perm ⊢
        exact perm.eq_nil
    exact same ▸ selected

/-! ## Samples -/

instance (document : Members) (path method : Str) : Decidable (IsOperation document path method) :=
  decidable_of_iff (path ∈ (mapping (member document "paths")).map (·.1) ∧
    method ∈ (pathItem document path).map (·.1) ∧ isMethod method = true)
    ⟨fun h => ⟨h.1, h.2.1, h.2.2⟩, fun h => ⟨h.listed, h.named, h.verb⟩⟩

/-- The document states requirements, which its only operation inherits. -/
def inheritingDocument : Str :=
  lit "\x7b\"openapi\":\"3.0.0\",\"security\":[\x7b\"k\":[]\x7d]," ++
    lit "\"paths\":\x7b\"/u\":\x7b\"get\":\x7b\x7d\x7d\x7d\x7d"

def inheritingFacts : OpenapiFactsV1 :=
  ⟨openapiFactSchemaVersion, lit "3.0.0", [
    ⟨.operation, lit "GET /u", lit "/paths/~1u/get", []⟩,
    ⟨.security, lit "requirement:global", lit "/security",
      [(lit "requirements", lit "[\x7b\"k\":[]\x7d]"), (lit "inherited", lit "false")]⟩]⟩

theorem inheritingFacts_extracted : extractOpenapiFacts samplePlatform .openapiJson
    ((utf8 inheritingDocument).getD []) = .ok inheritingFacts := by decide +kernel

/-- Whether the operation inherits requirements of the document. -/
def inherits (document : Members) (path method : Str) : Bool :=
  (match member document "security" with
    | some (.list requirements) => !requirements.isEmpty
    | _ => false) &&
  decide (IsOperation document path method) && (ownSecurity document path method).isNone

theorem inherits_requirements (h : inherits document path method = true) :
    ∃ requirements, member document "security" = some (.list requirements) ∧ requirements ≠ [] ∧
      IsOperation document path method ∧ ownSecurity document path method = none := by
  rw [inherits, Bool.and_eq_true, Bool.and_eq_true, decide_eq_true_eq, Option.isNone_iff_eq_none] at h
  obtain ⟨⟨stated, operation⟩, own⟩ := h
  split at stated
  · rename_i requirements found
    refine ⟨requirements, found, ?_, operation, own⟩
    rintro rfl
    cases stated
  · cases stated

/-- The requirements that the operation inherits are not reported for it. -/
theorem security_unreported : ∃ version document,
    parseOpenapiRoot samplePlatform .openapiJson ((utf8 inheritingDocument).getD []) =
        .ok (version, document) ∧
      extractOpenapiFacts samplePlatform .openapiJson ((utf8 inheritingDocument).getD []) =
        .ok inheritingFacts ∧
      ¬ SecurityReported samplePlatform document inheritingFacts.facts := by
  have accepted : (match parseOpenapiRoot samplePlatform .openapiJson
        ((utf8 inheritingDocument).getD []) with
      | .ok x => inherits x.2 (lit "/u") (lit "get")
      | .error _ => false) = true := by decide +kernel
  cases parsed : parseOpenapiRoot samplePlatform .openapiJson ((utf8 inheritingDocument).getD []) with
  | error e =>
    rw [parsed] at accepted
    cases accepted
  | ok x =>
    rw [parsed] at accepted
    obtain ⟨requirements, stated, filled, operation, own⟩ := inherits_requirements accepted
    refine ⟨x.1, x.2, rfl, inheritingFacts_extracted, fun reported => ?_⟩
    have report := reported requirements stated filled _ _ operation
    rw [own] at report
    obtain ⟨f, hf, text, flag, -, -, rfl⟩ := report
    have place : ∀ f ∈ inheritingFacts.facts, f.jsonPointer ≠ securityPointer (lit "/u") (lit "get") := by
      decide +kernel
    exact place _ hf rfl

/-- The document states requirements, and its only operation states its own. -/
def owningDocument : Str :=
  lit "\x7b\"openapi\":\"3.0.0\",\"security\":[\x7b\"k\":[]\x7d]," ++
    lit "\"paths\":\x7b\"/u\":\x7b\"get\":\x7b\"security\":[]\x7d\x7d\x7d\x7d"

def owningFacts : OpenapiFactsV1 :=
  ⟨openapiFactSchemaVersion, lit "3.0.0", [
    ⟨.operation, lit "GET /u", lit "/paths/~1u/get", []⟩,
    ⟨.security, lit "requirement:GET /u", lit "/paths/~1u/get/security",
      [(lit "requirements", lit "[]"), (lit "inherited", lit "false")]⟩,
    ⟨.security, lit "requirement:global", lit "/security",
      [(lit "requirements", lit "[\x7b\"k\":[]\x7d]"), (lit "inherited", lit "false")]⟩]⟩

theorem owningFacts_extracted : extractOpenapiFacts samplePlatform .openapiJson
    ((utf8 owningDocument).getD []) = .ok owningFacts := by decide +kernel

theorem securityReported_iff_sample : ∃ version document,
    parseOpenapiRoot samplePlatform .openapiJson ((utf8 owningDocument).getD []) =
        .ok (version, document) ∧
      (SecurityReported samplePlatform document owningFacts.facts ↔
        ∀ requirements, member document "security" = some (.list requirements) → requirements ≠ [] →
          ∀ path method, IsOperation document path method → ownSecurity document path method ≠ none) := by
  have accepted : (parseOpenapiRoot samplePlatform .openapiJson
      ((utf8 owningDocument).getD [])).toBool = true := by decide +kernel
  cases parsed : parseOpenapiRoot samplePlatform .openapiJson ((utf8 owningDocument).getD []) with
  | error e =>
    rw [parsed] at accepted
    cases accepted
  | ok x => exact ⟨x.1, x.2, rfl, securityReported_iff parsed owningFacts_extracted⟩

end QaCopilot.Openapi
