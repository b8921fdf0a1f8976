import QaCopilot.Execution.JsonPointers
import QaCopilot.Lib.Appends
import QaCopilot.Openapi.Mismatches

/-!
# The pointers of facts

Each walk over a document passes the pointer of the node that it visits, so that the pointer of a
fact names the node that its attributes were taken from.

* `extractSchema_points`: by induction on the nesting of a schema;
* `facts_point`: the pointers of all facts.
-/

namespace QaCopilot.Openapi

open QaCopilot.Python QaCopilot.Results QaCopilot.Appends
open QaCopilot.Execution (PathStep reach render resolve arrayIndex referenceTokens)

/-! ## Pointers of a document -/

/-- The node that a JSON pointer names by RFC 6901. -/
def nodeAt (root : Json) (pointer : Str) : Option Json :=
  match pointer with
  | [] => some root
  | c :: _ => if c = Execution.slash then resolve arrayIndex root (referenceTokens pointer) else none

theorem replaceAll_single (c : CodePoint) (new s : Str) :
    replaceAll [c] new s = s.flatMap fun d => if d = c then new else [d] := by
  have walk : ∀ s : Str, replaceText [c] new 0 s = s.flatMap fun d => if d = c then new else [d] := by
    intro s
    induction s with
    | nil => rfl
    | cons d s ih =>
      rw [replaceText, List.flatMap_cons]
      by_cases same : d = c
      · subst same
        have starts : List.isPrefixOf [d] (d :: s) = true := by
          simp only [List.isPrefixOf_cons_cons, List.isPrefixOf_nil_left, beq_self_eq_true, Bool.and_self]
        rw [if_pos starts, if_pos rfl, List.length_singleton, Nat.sub_self, ih]
      · have other : ¬ List.isPrefixOf [c] (d :: s) = true := by
          simp only [List.isPrefixOf_cons_cons, List.isPrefixOf_nil_left, Bool.and_true, beq_iff_eq]
          exact Ne.symm same
        rw [if_neg other, if_neg same, ih]
        rfl
  rw [replaceAll, if_neg (List.cons_ne_nil c []), walk]

theorem escape_eq (s : Str) : escape s = Execution.escape s := by
  have slashes : lit "/" = [Execution.slash] := rfl
  have tildes : lit "~" = [Execution.tilde] := rfl
  rw [escape, slashes, tildes, replaceAll_single, replaceAll_single]
  induction s with
  | nil => rfl
  | cons c s ih =>
    rw [List.flatMap_cons, List.flatMap_append, ih, Execution.escape]
    split_ifs with isTilde isSlash
    · rfl
    · subst isSlash
      rfl
    · simp [isSlash]

/-- The pointer is that of a path to the node. -/
def At (root : Json) (pointer : Str) (v : Json) : Prop :=
  ∃ path, pointer = render path ∧ reach root path = some v

variable {root : Json} {pointer : Str}

theorem lookup_eq_find? (m : Members) (key : Str) :
    m.lookup key = (m.find? (·.1 = key)).map (·.2) := by
  induction m with
  | nil => rfl
  | cons i m ih =>
    obtain ⟨name, v⟩ := i
    rw [List.lookup_cons, List.find?_cons]
    by_cases own : key = name
    · simp [own]
    · rw [beq_false_of_ne own]
      simp [Ne.symm own, ih]

theorem at_root : At root [] root := ⟨[], rfl, rfl⟩

theorem At.step {v w : Json} (h : At root pointer v) {step : PathStep} (follows : step.follow v = some w) :
    At root (pointer ++ Execution.slash :: Execution.escape step.text) w := by
  obtain ⟨path, rfl, reached⟩ := h
  refine ⟨path ++ [step], ?_, ?_⟩
  · rw [render, render, List.flatMap_append, List.flatMap_singleton]
  · rw [reach] at reached ⊢
    rw [List.foldlM_append, reached]
    simpa using follows

theorem At.key {v w : Json} (h : At root pointer v) {key : Str}
    (found : (mapping (some v)).lookup key = some w) : At root (pointer ++ lit "/" ++ escape key) w := by
  cases v with
  | dict m =>
    have follows : (PathStep.key key).follow (.dict m) = some w := by
      rw [← found, lookup_eq_find?]
      rfl
    rw [escape_eq, List.append_assoc]
    exact h.step follows
  | null | bool | int | float | str | list => cases found

/-- The members that a walk enters by their names. -/
def walkedMembers : List String :=
  ["paths", "components", "securitySchemes", "schemas", "security", "parameters", "responses",
    "content", "schema", "properties", "items"]

/-- None of them needs an escape. -/
theorem escape_walked : ∀ key ∈ walkedMembers, escape (lit key) = lit key := by decide

theorem At.member {v w : Json} (h : At root pointer v) {key : String} (walked : key ∈ walkedMembers)
    (found : member (mapping (some v)) key = some w) : At root (pointer ++ (lit "/" ++ lit key)) w := by
  have place := h.key found
  rwa [escape_walked key walked, List.append_assoc] at place

theorem escape_digits (n : Nat) : Execution.escape (digits n) = digits n := by
  have plain : ∀ s : Str, (∀ c ∈ s, isDigit c = true) → Execution.escape s = s := by
    intro s all
    induction s with
    | nil => rfl
    | cons c s ih =>
      obtain ⟨digit, all⟩ := List.forall_mem_cons.mp all
      have noTilde : c ≠ Execution.tilde := by
        rintro rfl
        exact absurd digit (by decide)
      have noSlash : c ≠ Execution.slash := by
        rintro rfl
        exact absurd digit (by decide)
      rw [Execution.escape, if_neg noTilde, if_neg noSlash, ih all]
  exact plain _ fun c hc => digits_isDigit hc

theorem At.index {xs : List Json} (h : At root pointer (.list xs)) {n : Nat} {v : Json}
    (found : xs[n]? = some v) : At root (pointer ++ lit "/" ++ digits n) v := by
  have follows : (PathStep.index n).follow (.list xs) = some v := found
  rw [← escape_digits n, List.append_assoc]
  exact h.step follows

/-- A pointer of a path that is not empty names the node by RFC 6901. -/
theorem At.nodeAt {v : Json} (h : At root pointer v) : nodeAt root pointer = some v := by
  obtain ⟨path, rfl, reached⟩ := h
  cases path with
  | nil => exact reached
  | cons step path =>
    have some' : step :: path ≠ [] := List.cons_ne_nil step path
    have tokens := Execution.resolve_reach reached
    rw [← Execution.referenceTokens_render some'] at tokens
    rw [Execution.render_eq some'] at tokens ⊢
    rw [Openapi.nodeAt, if_pos rfl]
    exact tokens

/-! ## What facts are taken from -/

variable {p : Platform}

/-- The attributes are those fields of the mapping that are there. -/
def HasFields (p : Platform) (node : Json) (fields : List String) (attributes' : List (Str × Str)) :
    Prop := attributes p (mapping (some node)) fields = .ok attributes'

/-- The attributes of the fact were taken from the content of the node. -/
def TakenFrom (p : Platform) (node : Json) (f : OpenapiFact) : Prop :=
  let content := mapping (some node)
  match f.kind with
  | .operation => HasFields p node ["operationId", "deprecated"] f.attributes
  | .parameter => HasFields p node ["name", "in", "required", "$ref"] f.attributes
  | .schema => HasFields p node ["type", "format", "nullable", "$ref"] f.attributes
  | .response => ∃ own types, HasFields p node ["$ref"] own ∧
      mediaTypes p (mapping (member content "content")) = .ok types ∧ f.attributes = own ++ types
  | .security => (∃ requirements text inherited, node = .list requirements ∧
        canonical p node = .ok text ∧
        f.attributes = [(lit "requirements", text), (lit "inherited", inherited)]) ∨
      HasFields p node ["type", "scheme", "bearerFormat", "openIdConnectUrl", "$ref"] f.attributes
  | .enum => ∃ v text, member content "enum" = some v ∧ canonical p v = .ok text ∧
      f.attributes = [(lit "values", text)]
  | .limit => ∃ limit ∈ limitFields, ∃ v text, content.lookup limit = some v ∧
      canonical p v = .ok text ∧ f.attributes = [(lit "value", text)]

/-- The pointer of the fact names the node that the fact was taken from. -/
def Points (p : Platform) (root : Json) (f : OpenapiFact) : Prop :=
  ∃ node, At root f.jsonPointer node ∧ TakenFrom p node f

/-- A walk adds facts that point at what they were taken from. -/
abbrev AddsPointing (p : Platform) (root : Json)
    (walk : List OpenapiFact → Except OpenapiError (List OpenapiFact)) : Prop :=
  Only (Points p root) walk

theorem append_only {P : OpenapiFact → Prop} {kind : OpenapiFactKind} {identifier : Str}
    {attributes' : List (Str × Str)} (new : P ⟨kind, identifier, pointer, attributes'⟩) :
    Only P fun l => append l kind identifier pointer attributes' := by
  intro before after h
  dsimp only [append] at h
  split_ifs at h
  obtain rfl := Except.ok.inj h
  exact ⟨[⟨kind, identifier, pointer, attributes'⟩], rfl, List.forall_mem_singleton.mpr new⟩

theorem append_points (kind : OpenapiFactKind) (identifier : Str) {node : Json}
    {attributes' : List (Str × Str)} (h : At root pointer node)
    (taken : TakenFrom p node ⟨kind, identifier, pointer, attributes'⟩) :
    AddsPointing p root fun l => append l kind identifier pointer attributes' :=
  append_only ⟨node, h, taken⟩

/-! ## Schemas -/

theorem appendEnum_points {schema : Members} (h : At root pointer (.dict schema)) (identifier : Str) :
    AddsPointing p root fun l => appendEnum p l identifier pointer schema := by
  unfold appendEnum
  cases found : member schema "enum" with
  | none => exact Only.nothing
  | some v => exact Only.after _ fun text made => append_points _ _ h ⟨v, text, found, made, rfl⟩

theorem appendLimit_points {schema : Members} (h : At root pointer (.dict schema)) (identifier : Str)
    {limit : Str} (listed : limit ∈ limitFields) :
    AddsPointing p root fun l => appendLimit p identifier pointer schema l limit := by
  unfold appendLimit
  cases found : schema.lookup limit with
  | none => exact Only.nothing
  | some v =>
    exact Only.after _ fun text made => append_points _ _ h
      ⟨limit, listed, v, text, found, made, rfl⟩

theorem mapping_dict {v : Option Json} (full : (mapping v).isEmpty = false) :
    v = some (.dict (mapping v)) := by
  match v with
  | some (.dict items) => rfl
  | none | some .null | some (.bool _) | some (.int _) | some (.float _) | some (.str _)
  | some (.list _) => cases full

/-- A nested schema, which is visited when it says something. -/
theorem nested_points {v : Option Json} {place : Str}
    {walk : List OpenapiFact → Except OpenapiError (List OpenapiFact)}
    (there : ∀ w, v = some w → At root place w)
    (visit : At root place (.dict (mapping v)) → AddsPointing p root walk) :
    AddsPointing p root fun l => if (mapping v).isEmpty then .ok l else walk l := by
  cases full : (mapping v).isEmpty with
  | true => exact Only.nothing
  | false => exact visit (there _ (mapping_dict full))

theorem extractSchema_points (calls : Nat) {identifier : Str} {schema : Members}
    (h : At root pointer (.dict schema)) :
    AddsPointing p root fun l => extractSchema p calls l identifier pointer schema := by
  induction calls generalizing identifier pointer schema with
  | zero => exact fun _ _ h => nomatch h
  | succ calls ih =>
    have properties : AddsPointing p root fun l =>
        (sortedKeys (mapping (member schema "properties"))).foldlM (fun facts name =>
          let nested := mapping ((mapping (member schema "properties")).lookup name)
          if nested.isEmpty then .ok facts
          else extractSchema p calls facts (identifier ++ lit "." ++ name)
            (pointer ++ lit "/properties/" ++ escape name) nested) l := by
      refine Only.foldlM _ fun name _ => nested_points (fun w found => ?_) ih
      have below : member schema "properties" = some (.dict (mapping (member schema "properties"))) := by
        refine mapping_dict (Bool.eq_false_iff.mpr fun empty => ?_)
        rw [List.isEmpty_iff.mp empty] at found
        cases found
      have place := (h.member (by simp [walkedMembers]) below).key found
      rwa [show pointer ++ (lit "/" ++ lit "properties") ++ lit "/" = pointer ++ lit "/properties/" by
        rw [List.append_assoc]
        rfl] at place
    have items : AddsPointing p root fun l =>
        if (mapping (member schema "items")).isEmpty then .ok l
        else extractSchema p calls l (identifier ++ lit "[]") (pointer ++ lit "/items")
          (mapping (member schema "items")) :=
      nested_points (fun w found => h.member (by simp [walkedMembers]) found) ih
    have own : AddsPointing p root fun l =>
        limitFields.foldlM (appendLimit p identifier pointer schema) l :=
      Only.foldlM _ fun limit listed => appendLimit_points h identifier listed
    exact Only.after (attributes p schema ["type", "format", "nullable", "$ref"]) fun stated made =>
      (append_points .schema identifier h made).then
        ((appendEnum_points h identifier).then (own.then (properties.then items)))

theorem extractSchemaOf_points {v : Option Json} {place : Str} (identifier : Str)
    (there : ∀ w, v = some w → At root place w) :
    AddsPointing p root fun l => extractSchemaOf p l identifier place (mapping v) :=
  nested_points there (extractSchema_points p.recursionLimit)

/-! ## Operations -/

/-- The members of a member that is a mapping. -/
theorem At.below {v : Json} (h : At root pointer v) {key : String} (walked : key ∈ walkedMembers)
    {name : Str} {w : Json} (found : (mapping (Openapi.member (mapping (some v)) key)).lookup name = some w) :
    At root (pointer ++ (lit "/" ++ lit key ++ lit "/") ++ escape name) w := by
  cases parent : Openapi.member (mapping (some v)) key with
  | none =>
    rw [parent] at found
    cases found
  | some u =>
    rw [parent] at found
    have place := (h.member walked parent).key found
    simpa only [List.append_assoc] using place

theorem extractParameters_points {v : Json} (h : At root pointer v) (scope : Str) :
    AddsPointing p root fun l =>
      extractParameters p l scope pointer (member (mapping (some v)) "parameters") := by
  unfold extractParameters
  split
  · rename_i items found
    have list := h.member (by simp [walkedMembers]) found
    refine Only.foldlM _ fun i hi => ?_
    obtain ⟨item, index⟩ := i
    have place : At root (pointer ++ lit "/parameters/" ++ digits index) item := by
      have place := list.index (List.mk_mem_zipIdx_iff_getElem?.mp hi)
      rwa [show pointer ++ (lit "/" ++ lit "parameters") ++ lit "/" = pointer ++ lit "/parameters/" by
        rw [List.append_assoc]
        rfl] at place
    exact Only.after _ fun stated made => (append_points .parameter _ place made).then
      (extractSchemaOf_points _ fun w found => place.member (by simp [walkedMembers]) found)
  · exact Only.nothing

theorem exists_lookup {m : Members} {key : Str} (listed : key ∈ m.map (·.1)) :
    ∃ v, m.lookup key = some v := by
  cases found : m.lookup key with
  | some v => exact ⟨v, rfl⟩
  | none =>
    obtain ⟨i, hi, rfl⟩ := List.mem_map.mp listed
    exact absurd (List.lookup_eq_none_iff.mp found i hi) (by simp)

theorem exists_of_sortedKeys {m : Members} {key : Str} (listed : key ∈ sortedKeys m) :
    ∃ v, m.lookup key = some v := exists_lookup (mem_sortedTexts.mp listed)

theorem extractResponses_points {v : Json} (h : At root pointer v) (operationKey : Str) :
    AddsPointing p root fun l =>
      extractResponses p l operationKey pointer (member (mapping (some v)) "responses") := by
  refine Only.foldlM _ fun status listed => ?_
  obtain ⟨response, found⟩ := exists_of_sortedKeys listed
  have place : At root (pointer ++ lit "/responses/" ++ escape status) response :=
    h.below (by simp [walkedMembers]) found
  have schemas : AddsPointing p root fun l =>
      (sortedKeys (mapping (member (mapping (some response)) "content"))).foldlM (fun facts mediaType =>
        extractSchemaOf p facts (lit "response:" ++ (operationKey ++ lit "::" ++ status) ++ lit ":" ++ mediaType)
          (pointer ++ lit "/responses/" ++ escape status ++ lit "/content/" ++ escape mediaType ++
            lit "/schema")
          (mapping (member (mapping ((mapping (member (mapping (some response)) "content")).lookup
            mediaType)) "schema"))) l := by
    refine Only.foldlM _ fun mediaType listed => ?_
    obtain ⟨media, found⟩ := exists_of_sortedKeys listed
    have inner : At root (pointer ++ lit "/responses/" ++ escape status ++ lit "/content/" ++
        escape mediaType) media := place.below (by simp [walkedMembers]) found
    refine extractSchemaOf_points _ fun w stated => ?_
    rw [found] at stated
    exact inner.member (by simp [walkedMembers]) stated
  unfold extractResponse
  rw [found]
  exact Only.after _ fun own made => Only.after _ fun types typed =>
    (append_points .response _ place ⟨own, types, made, typed, rfl⟩).then schemas

theorem extractSecurityRequirements_points {v : Option Json} {place : Str}
    (there : ∀ w, v = some w → At root place w) (scope : Str) (inherited : Bool) :
    AddsPointing p root fun l =>
      extractSecurityRequirements p l scope place (.own v) inherited := by
  unfold extractSecurityRequirements
  split
  · rename_i requirements own
    obtain rfl := SecurityValue.own.inj own
    exact Only.after _ fun text made => Only.after _ fun flag _ =>
      append_points .security _ (there _ rfl) (.inl ⟨requirements, text, flag, rfl, made, rfl⟩)
  · exact Only.nothing

theorem extractOperation_points {v : Json} (h : At root pointer v) (inheritedSecurity : List Json)
    (path : Str) {method : Str} (listed : method ∈ (mapping (some v)).map (·.1)) :
    AddsPointing p root fun l =>
      extractOperation p inheritedSecurity path pointer (mapping (some v)) l method := by
  obtain ⟨operation, found⟩ := exists_lookup listed
  have place := h.key found
  unfold extractOperation
  rw [found]
  refine Only.after _ fun stated made => (append_points .operation _ place made).then
    ((extractParameters_points place _).then ((extractResponses_points place _).then ?_))
  cases own : member (mapping (some operation)) "security" with
  | none => exact Only.nothing
  | some w =>
    refine extractSecurityRequirements_points (fun w' same => ?_) _ _
    exact Option.some.inj same ▸ place.member (by simp [walkedMembers]) own

theorem extractPath_points {paths : Members} (inheritedSecurity : List Json) {path : Str} {v : Json}
    (found : paths.lookup path = some v) (h : At root (lit "/paths/" ++ escape path) v) :
    AddsPointing p root fun l => extractPath p inheritedSecurity paths l path := by
  unfold extractPath
  rw [found]
  refine (extractParameters_points h _).then (Only.foldlM _ fun method listed => ?_)
  exact extractOperation_points h inheritedSecurity path
    (List.mem_filter.mp (mem_sortedTexts.mp listed)).1

/-! ## Documents -/

theorem extractSecuritySchemes_points {v : Json} (h : At root pointer v)
    (base : pointer = lit "/components") :
    AddsPointing p root fun l =>
      extractSecuritySchemes p l (mapping (member (mapping (some v)) "securitySchemes")) := by
  subst base
  refine Only.foldlM _ fun name listed => ?_
  obtain ⟨scheme, found⟩ := exists_of_sortedKeys listed
  have place : At root (lit "/components/securitySchemes/" ++ escape name) scheme :=
    h.below (by simp [walkedMembers]) found
  rw [found]
  exact Only.after _ fun stated made => append_points .security _ place (.inr made)

theorem extractComponentSchemas_points {v : Json} (h : At root pointer v)
    (base : pointer = lit "/components") :
    AddsPointing p root fun l =>
      extractComponentSchemas p l (mapping (member (mapping (some v)) "schemas")) := by
  subst base
  refine Only.foldlM _ fun name listed => extractSchemaOf_points _ fun w found => ?_
  exact h.below (by simp [walkedMembers]) found

theorem extractRoot_points (document : Members) (inheritedSecurity : List Json) :
    AddsPointing p (.dict document) fun l => (do
      let facts ← extractSecurityRequirements p l (lit "global") (lit "/security")
        (.own (member document "security")) false
      let components := mapping (member document "components")
      let facts ← extractSecuritySchemes p facts (mapping (member components "securitySchemes"))
      let facts ← extractComponentSchemas p facts (mapping (member components "schemas"))
      extractOperations p facts document inheritedSecurity) := by
  have whole : At (.dict document) [] (.dict document) := at_root
  have operations : AddsPointing p (.dict document) fun l =>
      extractOperations p l document inheritedSecurity := by
    refine Only.foldlM _ fun path listed => ?_
    obtain ⟨item, found⟩ := exists_of_sortedKeys listed
    exact extractPath_points inheritedSecurity found (whole.below (by simp [walkedMembers]) found)
  have topLevel : AddsPointing p (.dict document) fun l => extractSecurityRequirements p l (lit "global")
      (lit "/security") (.own (member document "security")) false :=
    extractSecurityRequirements_points (fun w found => whole.member (by simp [walkedMembers]) found) _ _
  refine topLevel.then ?_
  cases found : member document "components" with
  | none => exact Only.nothing.then (Only.nothing.then operations)
  | some components =>
    have place : At (.dict document) (lit "/components") components :=
      whole.member (by simp [walkedMembers]) found
    exact (extractSecuritySchemes_points place rfl).then
      ((extractComponentSchemas_points place rfl).then operations)

/-- The pointer of every extracted fact names the node that its attributes were taken from. -/
theorem facts_point {documentType : DocumentType} {raw : Bytes} {version : Str} {document : Members}
    {facts : OpenapiFactsV1} (parsed : parseOpenapiRoot p documentType raw = .ok (version, document))
    (extracted : extractOpenapiFacts p documentType raw = .ok facts) :
    ∀ f ∈ facts.facts, ∃ node, nodeAt (.dict document) f.jsonPointer = some node ∧ TakenFrom p node f := by
  obtain ⟨summary, -, h⟩ := bind_ok.mp extracted
  rw [parsed, ok_bind] at h
  obtain ⟨unsorted, walked, h⟩ := bind_ok.mp h
  obtain rfl := Except.ok.inj h
  obtain ⟨new, same, all⟩ := extractRoot_points document summary.security [] unsorted walked
  intro f hf
  have listed := (sortByTexts_perm _ _).mem_iff.mp hf
  rw [same] at listed
  obtain ⟨node, place, taken⟩ := all f listed
  exact ⟨node, place.nodeAt, taken⟩

/-- A document whose path and media type are escaped in pointers. -/
def escapedDocument : Str :=
  lit "\x7b\"openapi\":\"3.0.0\",\"paths\":\x7b\"/u\":\x7b\"get\":\x7b\"responses\":\x7b" ++
    lit "\"200\":\x7b\"content\":\x7b\"a/b\":\x7b\"schema\":\x7b\"minimum\":1\x7d\x7d\x7d\x7d\x7d\x7d\x7d\x7d\x7d"

def escapedFacts : OpenapiFactsV1 :=
  ⟨openapiFactSchemaVersion, lit "3.0.0", [
    ⟨.limit, lit "response:GET /u::200:a/b::minimum",
      lit "/paths/~1u/get/responses/200/content/a~1b/schema", [(lit "value", lit "1")]⟩,
    ⟨.operation, lit "GET /u", lit "/paths/~1u/get", []⟩,
    ⟨.response, lit "GET /u::200", lit "/paths/~1u/get/responses/200",
      [(lit "media_types", lit "[\"a/b\"]")]⟩,
    ⟨.schema, lit "response:GET /u::200:a/b",
      lit "/paths/~1u/get/responses/200/content/a~1b/schema", []⟩]⟩

theorem escapedFacts_extracted : extractOpenapiFacts samplePlatform .openapiJson
    ((utf8 escapedDocument).getD []) = .ok escapedFacts := by decide +kernel

theorem facts_point_sample : ∃ version document,
    parseOpenapiRoot samplePlatform .openapiJson ((utf8 escapedDocument).getD []) =
        .ok (version, document) ∧
      ∀ f ∈ escapedFacts.facts, ∃ node,
        nodeAt (.dict document) f.jsonPointer = some node ∧ TakenFrom samplePlatform node f := by
  have accepted : (parseOpenapiRoot samplePlatform .openapiJson
      ((utf8 escapedDocument).getD [])).toBool = true := by decide +kernel
  cases parsed : parseOpenapiRoot samplePlatform .openapiJson ((utf8 escapedDocument).getD []) with
  | error e =>
    rw [parsed] at accepted
    cases accepted
  | ok x => exact ⟨x.1, x.2, rfl, facts_point parsed escapedFacts_extracted⟩

end QaCopilot.Openapi
