import QaCopilot.Lib.Appends
import QaCopilot.Openapi.DocumentNames

/-!
# The keys of the extracted facts

Each walk over a document adds the facts whose keys are written from the names of the document.

* `extractSchema_adds`: a schema adds the keys of its tree;
* `extractRoot_keys`: the keys of all facts.
-/

namespace QaCopilot.Openapi

open QaCopilot.Python QaCopilot.Results QaCopilot.NameTrees QaCopilot.Appends

abbrev Key := OpenapiFactKind × Str

/-- A walk adds facts with these keys. -/
abbrev Extracts (walk : List OpenapiFact → Except OpenapiError (List OpenapiFact)) (out : List Key) :
    Prop := Adds OpenapiFact.key walk out

/-! ## Keys of names -/

/-- The key of one fact, whatever is named. -/
def oneKey (kind : OpenapiFactKind) (identifier : Str) (_ : Members) : List Key := [(kind, identifier)]

def enumKeys (identifier : Str) (schema : Members) : List Key :=
  if (member schema "enum").isSome then [(.enum, identifier ++ lit "::enum")] else []

def limitKeys (identifier : Str) (schema : Members) : List Key :=
  limitFields.flatMap fun limit =>
    if (schema.lookup limit).isSome then [(.limit, identifier ++ lit "::" ++ limit)] else []

/-- The keys of the facts of one schema. -/
def schemaKeys (identifier : Str) (schema : Members) : List Key :=
  (.schema, identifier) :: (enumKeys identifier schema ++ limitKeys identifier schema)

/-- The keys of all that a tree names. -/
def treeKeys (keys : Str → Members → List Key) (identifier : Str) (t : Names) : List Key :=
  t.readings.flatMap fun r => keys (identifier ++ r.1) r.2

theorem treeKeys_node (keys : Str → Members → List Key) (identifier : Str) (thing : Option Members)
    (children : List (Str × Names)) : treeKeys keys identifier (.node thing children) =
      (thing.map (keys identifier)).getD [] ++
        children.flatMap fun c => treeKeys keys (identifier ++ c.1) c.2 := by
  have own : (thing.map fun m => (([] : Str), m)).toList.flatMap (fun r => keys (identifier ++ r.1) r.2) =
      (thing.map (keys identifier)).getD [] := by
    cases thing with
    | none => rfl
    | some m => simp
  simp only [treeKeys, NameTree.readings, readingsBelow_eq, List.flatMap_append, own,
    List.flatMap_assoc, List.flatMap_map, List.append_assoc]

/-- The keys below a node that names nothing itself. -/
theorem treeKeys_flat {τ : Type} (keys : Str → Members → List Key) (identifier : Str) (l : List τ)
    (part : τ → Str) (below : τ → Names) :
    treeKeys keys identifier (.node none (l.map fun a => (part a, below a))) =
      l.flatMap fun a => treeKeys keys (identifier ++ part a) (below a) := by
  rw [treeKeys_node, List.flatMap_map]
  rfl

/-! ## Members that are visited in order -/

theorem lookup_of_mem {m : Members} (distinct : (m.map (·.1)).Nodup) {i : Str × Json} (hi : i ∈ m) :
    m.lookup i.1 = some i.2 := by
  induction m with
  | nil => cases hi
  | cons j m ih =>
    rw [List.map_cons, List.nodup_cons] at distinct
    rw [List.lookup_cons]
    cases hi with
    | head => rw [beq_self_eq_true]
    | tail _ hi =>
      have other : i.1 ≠ j.1 := fun same => distinct.1 (same ▸ List.mem_map_of_mem hi)
      rw [beq_false_of_ne other]
      exact ih distinct.2 hi

theorem lookup_of_notMem {m : Members} {key : Str} (absent : key ∉ m.map (·.1)) :
    m.lookup key = none := by
  refine List.lookup_eq_none_iff.mpr fun i hi => ?_
  rw [bne_iff_ne]
  rintro rfl
  exact absent (List.mem_map_of_mem hi)

/-- A walk over the sorted keys visits the members, whichever keys it keeps. -/
theorem sorted_perm {κ : Type} {m : Members} (distinct : (m.map (·.1)).Nodup) (kept : Str → Bool)
    (out : Str → Option Json → List κ) :
    ((sortedTexts ((m.map (·.1)).filter kept)).flatMap fun name => out name (m.lookup name)).Perm
      ((m.filter fun i => kept i.1).flatMap fun i => out i.1 (some i.2)) := by
  have visited : ((m.map (·.1)).filter kept).flatMap (fun name => out name (m.lookup name)) =
      (m.filter fun i => kept i.1).flatMap fun i => out i.1 (some i.2) := by
    rw [List.filter_map, List.flatMap_map]
    refine List.flatMap_congr fun i hi => ?_
    rw [lookup_of_mem distinct (List.mem_of_mem_filter hi)]
  exact visited ▸ (sortedTexts_perm _).flatMap_right _

theorem sortedKeys_perm {κ : Type} {m : Members} (distinct : (m.map (·.1)).Nodup)
    (out : Str → Option Json → List κ) :
    ((sortedKeys m).flatMap fun name => out name (m.lookup name)).Perm
      (m.flatMap fun i => out i.1 (some i.2)) := by
  have h := sorted_perm distinct (fun _ => true) out
  rwa [List.filter_true, List.filter_true] at h

/-! ## Distinct keys -/

/-- No mapping in the value repeats a key, if there is a value. -/
def DistinctIn (v : Option Json) : Prop := ∀ w, v = some w → w.check .distinctKeys = true

theorem DistinctIn.mapping {v : Option Json} (h : DistinctIn v) :
    (Json.dict (mapping v)).check .distinctKeys = true := by
  match v with
  | some (.dict items) => exact h _ rfl
  | none | some .null | some (.bool _) | some (.int _) | some (.float _) | some (.str _)
  | some (.list _) => rfl

theorem DistinctIn.keys {v : Option Json} (h : DistinctIn v) :
    ((Openapi.mapping v).map (·.1)).Nodup := (distinctKeys_dict.mp h.mapping).1

theorem DistinctIn.lookup {v : Option Json} (h : DistinctIn v) (name : Str) :
    DistinctIn ((Openapi.mapping v).lookup name) := by
  intro w found
  obtain ⟨before, after, whole, -⟩ := List.lookup_eq_some_iff.mp found
  refine (distinctKeys_dict.mp h.mapping).2 (name, w) ?_
  rw [whole]
  exact List.mem_append_right _ List.mem_cons_self

theorem DistinctIn.item {v : Option Json} (h : DistinctIn v) {i : Str × Json}
    (hi : i ∈ Openapi.mapping v) : DistinctIn (some i.2) := by
  rintro w ⟨⟩
  exact (distinctKeys_dict.mp h.mapping).2 i hi

/-! ## Schemas -/

variable {p : Platform}

theorem append_adds (kind : OpenapiFactKind) (identifier pointer : Str) (attributes : List (Str × Str)) :
    Extracts (fun l => append l kind identifier pointer attributes) [(kind, identifier)] := by
  intro before after h
  dsimp only [append] at h
  split_ifs at h
  obtain rfl := Except.ok.inj h
  rw [List.map_append, List.map_singleton]
  rfl

theorem appendEnum_adds (identifier pointer : Str) (schema : Members) :
    Extracts (fun l => appendEnum p l identifier pointer schema) (enumKeys identifier schema) := by
  unfold appendEnum enumKeys
  cases member schema "enum" with
  | none => exact Adds.nothing
  | some v => exact Adds.after _ fun values => append_adds _ _ _ _

theorem appendLimit_adds (identifier pointer : Str) (schema : Members) (limit : Str) :
    Extracts (fun l => appendLimit p identifier pointer schema l limit)
      (if (schema.lookup limit).isSome then [(.limit, identifier ++ lit "::" ++ limit)] else []) := by
  unfold appendLimit
  cases schema.lookup limit with
  | none => exact Adds.nothing
  | some v => exact Adds.after _ fun value => append_adds _ _ _ _

/-- The parts that lead to the properties of a schema. -/
def propertyParts (v : Option Json) : List (Str × Names) :=
  (mapping v).map fun i => (lit "." ++ i.1, valueNames (some i.2))

/-- The part that leads to the items of a schema. -/
def itemsParts (v : Option Json) : List (Str × Names) :=
  (v.map fun w => (lit "[]", valueNames (some w))).toList

theorem propertyNames_eq (properties : Members) :
    propertyNames properties = propertyParts (some (.dict properties)) := by
  induction properties with
  | nil => rfl
  | cons i properties ih => rw [propertyNames, ih]; rfl

theorem propertiesNames_eq (v : Json) : propertiesNames v = propertyParts (some v) := by
  cases v with
  | dict properties => exact propertyNames_eq properties
  | null | bool | int | float | str | list => rfl

/-- The names within a schema are those of its properties and of its items. -/
theorem nestedNames_perm {schema : Members} (distinct : (schema.map (·.1)).Nodup) :
    (nestedNames schema).Perm
      (propertyParts (member schema "properties") ++ itemsParts (member schema "items")) := by
  have differ : lit "items" ≠ lit "properties" := by decide
  induction schema with
  | nil => exact .nil
  | cons i schema ih =>
    obtain ⟨key, v⟩ := i
    rw [List.map_cons, List.nodup_cons] at distinct
    have rest := ih distinct.2
    rw [nestedNames]
    unfold member at rest ⊢
    rw [List.lookup_cons, List.lookup_cons]
    by_cases first : key = lit "properties"
    · subst first
      rw [lookup_of_notMem distinct.1] at rest
      rw [if_pos rfl, beq_self_eq_true, beq_false_of_ne differ, propertiesNames_eq]
      exact rest.append_left _
    · rw [if_neg first, beq_false_of_ne (Ne.symm first)]
      by_cases second : key = lit "items"
      · subst second
        rw [lookup_of_notMem distinct.1, itemsParts, Option.map_none, Option.toList_none,
          List.append_nil] at rest
        rw [if_pos rfl, beq_self_eq_true]
        exact (rest.append_left _).trans List.perm_append_comm
      · rw [if_neg second, beq_false_of_ne (Ne.symm second), List.nil_append]
        exact rest

theorem treeKeys_value (identifier : Str) (v : Option Json) :
    treeKeys schemaKeys identifier (valueNames v) =
      if (mapping v).isEmpty then []
      else treeKeys schemaKeys identifier (schemaNames (.dict (mapping v))) := by
  match v with
  | some (.dict []) | none | some .null | some (.bool _) | some (.int _) | some (.float _)
  | some (.str _) | some (.list _) => rfl
  | some (.dict (i :: items)) => rfl

/-- What a schema adds within so many nested calls. -/
def SchemaAdds (p : Platform) (calls : Nat) : Prop :=
  ∀ (schema : Members) (identifier pointer : Str), (Json.dict schema).check .distinctKeys = true →
    schema ≠ [] → Extracts (fun l => extractSchema p calls l identifier pointer schema)
      (treeKeys schemaKeys identifier (schemaNames (.dict schema)))

/-- A schema within another is walked when it has members. -/
theorem SchemaAdds.nested {calls : Nat} (h : SchemaAdds p calls) {v : Option Json}
    (distinct : DistinctIn v) (identifier pointer : Str) :
    Extracts (fun l => if (mapping v).isEmpty then .ok l
        else extractSchema p calls l identifier pointer (mapping v))
      (treeKeys schemaKeys identifier (valueNames v)) := by
  rw [treeKeys_value]
  refine Adds.branch (fun _ => Adds.nothing) fun filled => h _ _ _ distinct.mapping ?_
  simpa using filled

/-- The keys of a schema: its own, those of its properties and those of its items. -/
theorem treeKeys_schema {schema : Members} (distinct : (Json.dict schema).check .distinctKeys = true)
    (filled : schema ≠ []) (identifier : Str) :
    (schemaKeys identifier schema ++
      ((mapping (member schema "properties")).flatMap (fun i =>
          treeKeys schemaKeys (identifier ++ (lit "." ++ i.1)) (valueNames (some i.2))) ++
        treeKeys schemaKeys (identifier ++ lit "[]") (valueNames (member schema "items")))).Perm
      (treeKeys schemaKeys identifier (schemaNames (.dict schema))) := by
  have own : (if schema.isEmpty then none else some schema) = some schema := by simp [filled]
  have items : (itemsParts (member schema "items")).flatMap (fun c =>
      treeKeys schemaKeys (identifier ++ c.1) c.2) =
        treeKeys schemaKeys (identifier ++ lit "[]") (valueNames (member schema "items")) := by
    cases member schema "items" with
    | none => rfl
    | some v => exact List.append_nil _
  have below := (nestedNames_perm (distinctKeys_dict.mp distinct).1).flatMap_right fun c =>
    treeKeys schemaKeys (identifier ++ c.1) c.2
  rw [List.flatMap_append, items, propertyParts, List.flatMap_map] at below
  rw [schemaNames, own, treeKeys_node]
  exact below.symm.append_left _

/-- A schema adds the keys of its tree. -/
theorem extractSchema_adds (calls : Nat) : SchemaAdds p calls := by
  induction calls with
  | zero => exact fun _ _ _ _ _ _ _ h => nomatch h
  | succ calls ih =>
    intro schema identifier pointer distinct filled
    have member_distinct : ∀ key, DistinctIn (member schema key) := fun key =>
      DistinctIn.lookup (v := some (.dict schema)) (fun _ h => Option.some.inj h ▸ distinct) _
    have properties := member_distinct "properties"
    have own := Adds.foldlM limitFields fun limit _ =>
      appendLimit_adds (p := p) identifier pointer schema limit
    have below := Adds.foldlM (sortedKeys (mapping (member schema "properties"))) fun name _ =>
      ih.nested (properties.lookup name) (identifier ++ lit "." ++ name)
        (pointer ++ lit "/properties/" ++ escape name)
    have visited := sortedKeys_perm properties.keys fun name v =>
      treeKeys schemaKeys (identifier ++ lit "." ++ name) (valueNames v)
    have items := ih.nested (member_distinct "items") (identifier ++ lit "[]") (pointer ++ lit "/items")
    have walk := Adds.after (attributes p schema ["type", "format", "nullable", "$ref"])
      fun stated => (append_adds .schema identifier pointer stated).then
        ((appendEnum_adds (p := p) identifier pointer schema).then
          (own.then ((below.perm visited).then items)))
    refine (walk.perm ?_).congr fun l => by rw [extractSchema]
    refine .trans ?_ (treeKeys_schema distinct filled identifier)
    simp only [schemaKeys, limitKeys, List.append_assoc, List.cons_append]
    exact .rfl

theorem extractSchemaOf_adds {m : Members} (distinct : DistinctIn (member m "schema"))
    (identifier pointer : Str) :
    Extracts (fun l => extractSchemaOf p l identifier pointer (mapping (member m "schema")))
      (treeKeys schemaKeys identifier (schemaOf m)) :=
  (extractSchema_adds _).nested distinct identifier pointer

/-! ## Parameters and responses -/

theorem parameterIdentifier_eq (scope : Str) (index : Nat) (parameter : Members) :
    parameterIdentifier scope index parameter = scope ++ parameterSuffix index parameter := by
  unfold parameterIdentifier parameterSuffix
  generalize member parameter "name" = name
  generalize member parameter "in" = location
  split <;> simp only [List.append_assoc]

theorem treeKeys_nameOf (kind : OpenapiFactKind) (identifier : Str) (m : Members) :
    treeKeys (oneKey kind) identifier (nameOf m) = [(kind, identifier)] := by
  rw [nameOf, treeKeys_node]
  rfl

def parameterOwnKeys (scope : Str × Members) : List Key :=
  treeKeys (oneKey .parameter) scope.1 (parameterNames nameOf scope.2)

def parameterSchemaKeys (scope : Str × Members) : List Key :=
  treeKeys schemaKeys (lit "parameter:" ++ scope.1) (parameterNames schemaOf scope.2)

/-- The keys of the parameters of a scope and of their schemas. -/
def parameterKeys (scope : Str × Members) : List Key :=
  parameterOwnKeys scope ++ parameterSchemaKeys scope

def responseOwnKeys (operation : Str × Members) : List Key :=
  treeKeys (oneKey .response) operation.1 (responseNames nameOf operation.2)

def responseSchemaKeys (operation : Str × Members) : List Key :=
  treeKeys schemaKeys (lit "response:" ++ operation.1) (responseNames contentNames operation.2)

/-- The keys of the responses of an operation and of their schemas. -/
def responseKeys (operation : Str × Members) : List Key :=
  responseOwnKeys operation ++ responseSchemaKeys operation

theorem DistinctIn.member {v : Option Json} (h : DistinctIn v) (key : String) :
    DistinctIn (Openapi.member (Openapi.mapping v) key) := h.lookup _

theorem DistinctIn.indexed {v : Option Json} (h : DistinctIn v) {i : Json × Nat}
    (hi : i ∈ Openapi.indexed v) : DistinctIn (some i.1) := by
  rintro w ⟨⟩
  match v with
  | some (.list items) => exact checkList_eq_true.mp (h _ rfl) _ (List.fst_mem_of_mem_zipIdx hi)
  | none | some .null | some (.bool _) | some (.int _) | some (.float _) | some (.str _)
  | some (.dict _) => cases hi

theorem extractParameter_adds (scope pointer : Str) {i : Json × Nat} (distinct : DistinctIn (some i.1)) :
    Extracts (fun l => extractParameter p scope pointer l i)
      (treeKeys (oneKey .parameter) (scope ++ parameterSuffix i.2 (mapping (some i.1)))
          (nameOf (mapping (some i.1))) ++
        treeKeys schemaKeys (lit "parameter:" ++ (scope ++ parameterSuffix i.2 (mapping (some i.1))))
          (schemaOf (mapping (some i.1)))) := by
  rw [treeKeys_nameOf, ← parameterIdentifier_eq]
  exact Adds.after _ fun stated => (append_adds _ _ _ stated).then
    (extractSchemaOf_adds (distinct.member "schema") _ _)

theorem extractParameters_eq (facts : List OpenapiFact) (scope pointer : Str) (v : Option Json) :
    extractParameters p facts scope pointer v =
      (indexed v).foldlM (extractParameter p scope pointer) facts := by
  match v with
  | some (.list _) | none | some .null | some (.bool _) | some (.int _) | some (.float _)
  | some (.str _) | some (.dict _) => rfl

theorem extractParameters_adds (scope : Str × Members) (pointer : Str)
    (distinct : DistinctIn (member scope.2 "parameters")) :
    Extracts (fun l => extractParameters p l scope.1 pointer (member scope.2 "parameters"))
      (parameterKeys scope) := by
  have walk := Adds.foldlM _ fun i hi =>
    extractParameter_adds (p := p) scope.1 pointer (distinct.indexed hi)
  refine (walk.perm ?_).congr fun l => ?_
  · simp only [parameterKeys, parameterOwnKeys, parameterSchemaKeys, parameterNames, treeKeys_flat,
      ← List.append_assoc]
    exact (List.flatMap_append_perm _ _ _).symm
  · rw [extractParameters_eq]

theorem extractResponse_adds (operationKey pointer : Str) {responses : Members} {status : Str}
    (distinct : DistinctIn (responses.lookup status)) :
    Extracts (fun l => extractResponse p operationKey pointer responses l status)
      (treeKeys (oneKey .response) (operationKey ++ (lit "::" ++ status))
          (nameOf (mapping (responses.lookup status))) ++
        treeKeys schemaKeys (lit "response:" ++ (operationKey ++ (lit "::" ++ status)))
          (contentNames (mapping (responses.lookup status)))) := by
  have content := distinct.member "content"
  have schemas := Adds.foldlM
    (sortedKeys (mapping (member (mapping (responses.lookup status)) "content"))) fun mediaType _ =>
      extractSchemaOf_adds (p := p) ((content.lookup mediaType).member "schema")
        (lit "response:" ++ (operationKey ++ lit "::" ++ status) ++ lit ":" ++ mediaType)
        (pointer ++ lit "/responses/" ++ escape status ++ lit "/content/" ++ escape mediaType ++
          lit "/schema")
  have visited := sortedKeys_perm content.keys fun mediaType v =>
    treeKeys schemaKeys (lit "response:" ++ (operationKey ++ lit "::" ++ status) ++ lit ":" ++ mediaType)
      (schemaOf (mapping v))
  have walk := Adds.after (attributes p (mapping (responses.lookup status)) ["$ref"])
    fun stated => Adds.after
      (mediaTypes p (mapping (member (mapping (responses.lookup status)) "content")))
      fun types => (append_adds .response (operationKey ++ lit "::" ++ status)
        (pointer ++ lit "/responses/" ++ escape status) (stated ++ types)).then (schemas.perm visited)
  rw [treeKeys_nameOf, contentNames, treeKeys_flat]
  simp only [extractResponse, List.append_assoc] at walk ⊢
  exact walk

theorem extractResponses_adds (operation : Str × Members) (pointer : Str)
    (distinct : DistinctIn (member operation.2 "responses")) :
    Extracts (fun l => extractResponses p l operation.1 pointer (member operation.2 "responses"))
      (responseKeys operation) := by
  have walk := Adds.foldlM (sortedKeys (mapping (member operation.2 "responses"))) fun status _ =>
    extractResponse_adds (p := p) operation.1 pointer (distinct.lookup status)
  have visited := sortedKeys_perm distinct.keys fun status v =>
    treeKeys (oneKey .response) (operation.1 ++ (lit "::" ++ status)) (nameOf (mapping v)) ++
      treeKeys schemaKeys (lit "response:" ++ (operation.1 ++ (lit "::" ++ status)))
        (contentNames (mapping v))
  refine (walk.perm visited).perm ?_
  simp only [responseKeys, responseOwnKeys, responseSchemaKeys, responseNames, treeKeys_flat,
    ← List.append_assoc]
  exact (List.flatMap_append_perm _ _ _).symm

/-! ## Operations -/

/-- The key of a security requirement, which is a list. -/
def requirementKeys (scope : Str) : Option Json → List Key
  | some (.list _) => [(.security, lit "requirement:" ++ scope)]
  | _ => []

/-- The security requirement of an operation. -/
def operationRequirementKeys (operation : Str × Members) : List Key :=
  requirementKeys operation.1 (member operation.2 "security")

/-- The keys of an operation and of its responses. -/
def operationKeys (operation : Str × Members) : List Key :=
  (.operation, operation.1) :: (responseKeys operation ++ operationRequirementKeys operation)

theorem extractOwnRequirements_adds (scope pointer : Str) (v : Option Json) (inherited : Bool) :
    Extracts (fun l => extractSecurityRequirements p l scope pointer (.own v) inherited)
      (requirementKeys scope v) := by
  match v with
  | some (.list requirements) =>
    exact Adds.after _ fun _ => Adds.after _ fun _ => append_adds _ _ _ _
  | none | some .null | some (.bool _) | some (.int _) | some (.float _) | some (.str _)
  | some (.dict _) => exact Adds.nothing

/-- The requirements that an operation inherits are a tuple, of which no fact is made. -/
theorem extractRequirements_adds (requirements : List Json) (scope pointer : Str) (v : Option Json)
    (inherited : Bool) :
    Extracts (fun l => extractSecurityRequirements p l scope pointer (match v with
        | some v => .own (some v)
        | none => .inherited requirements) inherited)
      (requirementKeys scope v) := by
  cases v with
  | none => exact Adds.nothing
  | some v => exact extractOwnRequirements_adds _ _ _ _

theorem extractOperation_adds (requirements : List Json) (path pointer : Str) {pathItem : Members}
    {method : Str} (distinct : DistinctIn (pathItem.lookup method)) :
    Extracts (fun l => extractOperation p requirements path pointer pathItem l method)
      (parameterKeys (operationName method path, mapping (pathItem.lookup method)) ++
        operationKeys (operationName method path, mapping (pathItem.lookup method))) := by
  let operation := (operationName method path, mapping (pathItem.lookup method))
  have walk := Adds.after
    (attributes p operation.2 ["operationId", "deprecated"]) fun stated =>
      (append_adds .operation operation.1 (pointer ++ lit "/" ++ escape method) stated).then
        ((extractParameters_adds (p := p) operation (pointer ++ lit "/" ++ escape method)
            (distinct.member "parameters")).then
          ((extractResponses_adds (p := p) operation (pointer ++ lit "/" ++ escape method)
              (distinct.member "responses")).then
            (extractRequirements_adds (p := p) requirements operation.1
              (pointer ++ lit "/" ++ escape method ++ lit "/security") (member operation.2 "security")
              (member operation.2 "security").isNone)))
  have moved : (((.operation, operation.1) : Key) :: (parameterKeys operation ++
      (responseKeys operation ++ operationRequirementKeys operation))).Perm
        (parameterKeys operation ++ operationKeys operation) := List.perm_middle.symm
  exact walk.perm moved

theorem itemOperations_flatMap {κ : Type} {item : Str × Json} (distinct : DistinctIn (some item.2))
    (out : Str × Members → List κ) :
    ((sortedMethods (mapping (some item.2))).flatMap fun method =>
        out (operationName method item.1, mapping ((mapping (some item.2)).lookup method))).Perm
      ((itemOperations item).flatMap out) := by
  rw [itemOperations, List.flatMap_map]
  exact sorted_perm distinct.keys isMethod fun method v => out (operationName method item.1, mapping v)

/-- A path item adds the keys of its scope, and those of each operation. -/
theorem extractPath_adds (requirements : List Json) {paths : Members} {path : Str}
    (distinct : DistinctIn (paths.lookup path)) :
    Extracts (fun l => extractPath p requirements paths l path)
      (parameterKeys (lit "path:" ++ path, mapping (paths.lookup path)) ++
        (sortedMethods (mapping (paths.lookup path))).flatMap fun method =>
          parameterKeys (operationName method path, mapping ((mapping (paths.lookup path)).lookup method)) ++
            operationKeys (operationName method path, mapping ((mapping (paths.lookup path)).lookup method))) :=
  (extractParameters_adds (p := p) (lit "path:" ++ path, mapping (paths.lookup path))
      (lit "/paths/" ++ escape path) (distinct.member "parameters")).then
    (Adds.foldlM _ fun method _ => extractOperation_adds requirements path (lit "/paths/" ++ escape path)
      (distinct.lookup method))

/-! ## Documents -/

/-- What is added for the scopes and for the operations of each path, taken apart. -/
theorem regroup {τ σ κ : Type} (items : List τ) (scope : τ → σ) (operations : τ → List σ)
    (atScope atOperation : σ → List κ) :
    (items.flatMap fun i => atScope (scope i) ++
        (operations i).flatMap fun o => atScope o ++ atOperation o).Perm
      ((items.flatMap fun i => scope i :: operations i).flatMap atScope ++
        (items.flatMap operations).flatMap atOperation) := by
  have each : ∀ i ∈ items, (atScope (scope i) ++
      (operations i).flatMap fun o => atScope o ++ atOperation o).Perm
        ((scope i :: operations i).flatMap atScope ++ (operations i).flatMap atOperation) := by
    intro i _
    rw [List.flatMap_cons, List.append_assoc]
    exact (List.flatMap_append_perm _ _ _).symm.append_left _
  rw [List.flatMap_assoc, List.flatMap_assoc]
  exact (List.Perm.flatMap_left items each).trans (List.flatMap_append_perm _ _ _).symm

theorem extractOperations_adds {root : Members} (distinct : DistinctIn (member root "paths"))
    (requirements : List Json) :
    Extracts (fun l => extractOperations p l root requirements)
      ((scopesOf root).flatMap parameterKeys ++ (operationsOf root).flatMap operationKeys) := by
  have walk := Adds.foldlM (sortedKeys (pathItems root)) fun path _ =>
    extractPath_adds (p := p) requirements (distinct.lookup path)
  have visited := sortedKeys_perm distinct.keys fun path v =>
    parameterKeys (lit "path:" ++ path, mapping v) ++
      (sortedMethods (mapping v)).flatMap fun method =>
        parameterKeys (operationName method path, mapping ((mapping v).lookup method)) ++
          operationKeys (operationName method path, mapping ((mapping v).lookup method))
  have grouped : ((pathItems root).flatMap fun i =>
      parameterKeys (lit "path:" ++ i.1, mapping (some i.2)) ++
        (sortedMethods (mapping (some i.2))).flatMap fun method =>
          parameterKeys (operationName method i.1, mapping ((mapping (some i.2)).lookup method)) ++
            operationKeys (operationName method i.1, mapping ((mapping (some i.2)).lookup method))).Perm
      ((pathItems root).flatMap fun i => parameterKeys (pathScope i) ++
        (itemOperations i).flatMap fun o => parameterKeys o ++ operationKeys o) :=
    List.Perm.flatMap_left _ fun i hi => (itemOperations_flatMap (distinct.item hi) fun o =>
      parameterKeys o ++ operationKeys o).append_left _
  exact ((walk.perm visited).perm grouped).perm (regroup _ pathScope itemOperations _ _)

theorem extractComponentSchemas_adds {schemas : Option Json} (distinct : DistinctIn schemas) :
    Extracts (fun l => extractComponentSchemas p l (mapping schemas))
      ((mapping schemas).flatMap fun i =>
        treeKeys schemaKeys (lit "component:" ++ i.1) (schemaNames i.2)) := by
  have walk := Adds.foldlM (sortedKeys (mapping schemas)) fun name _ =>
    (extractSchema_adds (p := p) p.recursionLimit).nested (distinct.lookup name)
      (lit "component:" ++ name) (lit "/components/schemas/" ++ escape name)
  exact walk.perm (sortedKeys_perm distinct.keys fun name v =>
    treeKeys schemaKeys (lit "component:" ++ name) (valueNames v))

theorem extractSecuritySchemes_adds {schemes : Option Json} (distinct : DistinctIn schemes) :
    Extracts (fun l => extractSecuritySchemes p l (mapping schemes))
      ((mapping schemes).map fun i => (.security, lit "scheme:" ++ i.1)) := by
  have walk := Adds.foldlM (sortedKeys (mapping schemes)) fun name _ =>
    Adds.after (attributes p (mapping ((mapping schemes).lookup name))
        ["type", "scheme", "bearerFormat", "openIdConnectUrl", "$ref"])
      fun stated => append_adds .security (lit "scheme:" ++ name)
        (lit "/components/securitySchemes/" ++ escape name) stated
  refine walk.perm ?_
  rw [List.map_eq_flatMap]
  exact sortedKeys_perm distinct.keys fun name _ => [((.security, lit "scheme:" ++ name) : Key)]

/-- The keys of the security facts. -/
def securityKeys (root : Members) : List Key :=
  requirementKeys (lit "global") (member root "security") ++
    ((mapping (member (componentsOf root) "securitySchemes")).map (fun i =>
        (.security, lit "scheme:" ++ i.1)) ++
      (operationsOf root).flatMap operationRequirementKeys)

/-- The keys of all facts of a document, kind by kind. -/
def documentKeys (root : Members) : List Key :=
  securityKeys root ++ ((operationsOf root).map (fun o => (.operation, o.1)) ++
    (treeKeys (oneKey .parameter) [] (parameterTree root) ++
      (treeKeys (oneKey .response) [] (responseTree root) ++
        treeKeys schemaKeys [] (schemaTree root))))

theorem treeKeys_schemaTree (root : Members) : treeKeys schemaKeys [] (schemaTree root) =
    (mapping (member (componentsOf root) "schemas")).flatMap (fun i =>
        treeKeys schemaKeys (lit "component:" ++ i.1) (schemaNames i.2)) ++
      ((scopesOf root).flatMap parameterSchemaKeys ++ (operationsOf root).flatMap responseSchemaKeys) := by
  rw [schemaTree, treeKeys_node, List.flatMap_append, List.flatMap_append, List.flatMap_map,
    List.flatMap_map, List.flatMap_map, List.append_assoc]
  rfl

theorem treeKeys_parameterTree (root : Members) :
    treeKeys (oneKey .parameter) [] (parameterTree root) = (scopesOf root).flatMap parameterOwnKeys :=
  treeKeys_flat _ _ _ _ _

theorem treeKeys_responseTree (root : Members) :
    treeKeys (oneKey .response) [] (responseTree root) = (operationsOf root).flatMap responseOwnKeys :=
  treeKeys_flat _ _ _ _ _

/-- The keys of all extracted facts. -/
theorem extractRoot_keys {root : Members} {requirements : List Json} {facts : List OpenapiFact}
    (distinct : (Json.dict root).check .distinctKeys = true)
    (h : extractRoot p root requirements = .ok facts) : (facts.map (·.key)).Perm (documentKeys root) := by
  have whole : DistinctIn (some (.dict root)) := fun _ same => Option.some.inj same ▸ distinct
  have components := whole.member "components"
  have walk := (extractOwnRequirements_adds (p := p) (lit "global") (lit "/security")
      (member root "security") false).then
    ((extractSecuritySchemes_adds (p := p) (components.member "securitySchemes")).then
      ((extractComponentSchemas_adds (p := p) (components.member "schemas")).then
        (extractOperations_adds (p := p) (whole.member "paths") requirements)))
  refine (walk [] facts h).trans ?_
  have parameters : ((scopesOf root).flatMap parameterOwnKeys ++
      (scopesOf root).flatMap parameterSchemaKeys).Perm ((scopesOf root).flatMap parameterKeys) :=
    List.flatMap_append_perm _ _ _
  have operations : (((operationsOf root).map fun o => ((.operation, o.1) : Key)) ++
      (operationsOf root).flatMap fun o => responseKeys o ++ operationRequirementKeys o).Perm
        ((operationsOf root).flatMap operationKeys) := by
    rw [List.map_eq_flatMap]
    exact List.flatMap_append_perm _ _ _
  have requirements := List.flatMap_append_perm (operationsOf root) responseKeys operationRequirementKeys
  have responses : ((operationsOf root).flatMap responseOwnKeys ++
      (operationsOf root).flatMap responseSchemaKeys).Perm ((operationsOf root).flatMap responseKeys) :=
    List.flatMap_append_perm _ _ _
  rw [documentKeys, treeKeys_schemaTree, treeKeys_parameterTree, treeKeys_responseTree, securityKeys]
  rw [List.perm_iff_count] at parameters operations requirements responses ⊢
  -- how often a key occurs is a sum over the parts on both sides
  intro k
  have := parameters k
  have := operations k
  have := requirements k
  have := responses k
  simp only [List.count_append, List.map_nil, List.nil_append] at *
  simp only [mapping, componentsOf] at *
  omega

end QaCopilot.Openapi
