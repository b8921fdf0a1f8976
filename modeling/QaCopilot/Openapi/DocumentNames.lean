import QaCopilot.Lib.NameTrees
import QaCopilot.Openapi.Facts

/-!
# The names in a document

The parts that the identifiers of facts are written from, as trees: the scopes with their parameters,
the operations with their responses, and the schemas with their properties and items. `Unambiguous`
says which documents tell all of them apart.
-/

namespace QaCopilot.Openapi

open QaCopilot.Python QaCopilot.NameTrees

/-- The names below a place of a document, and the mappings that they name. -/
abbrev Names := NameTree CodePoint Members

def noNames : Names := .node none []

/-- A mapping with no names below. -/
def nameOf (m : Members) : Names := .node (some m) []

/-! ## Schemas -/

mutual

/-- A schema that says something, its properties and its items. -/
def schemaNames : Json → Names
  | .dict schema => .node (if schema.isEmpty then none else some schema) (nestedNames schema)
  | _ => noNames

/-- The schemas within the members of a schema. -/
def nestedNames : Members → List (Str × Names)
  | [] => []
  | (key, v) :: schema =>
    (if key = lit "properties" then propertiesNames v
      else if key = lit "items" then [(lit "[]", schemaNames v)]
      else []) ++ nestedNames schema

def propertiesNames : Json → List (Str × Names)
  | .dict properties => propertyNames properties
  | _ => []

def propertyNames : Members → List (Str × Names)
  | [] => []
  | (name, v) :: properties => (lit "." ++ name, schemaNames v) :: propertyNames properties

end

/-- The names of a schema, where there is one. -/
def valueNames : Option Json → Names
  | some v => schemaNames v
  | none => noNames

/-- The names under `schema`. -/
def schemaOf (m : Members) : Names := valueNames (member m "schema")

/-! ## Parameters and responses -/

/-- What a parameter is called after its scope. -/
def parameterSuffix (index : Nat) (parameter : Members) : Str :=
  match member parameter "name", member parameter "in" with
  | some (.str name), some (.str location) => lit "::" ++ location ++ lit ":" ++ name
  | _, _ => lit "::parameter[" ++ digits index ++ lit "]"

/-- The parameters of a scope with their indices. -/
def indexed : Option Json → List (Json × Nat)
  | some (.list items) => items.zipIdx
  | _ => []

/-- The parameters of a scope, with the names below each. -/
def parameterNames (below : Members → Names) (scope : Members) : Names :=
  .node none ((indexed (member scope "parameters")).map fun i =>
    (parameterSuffix i.2 (mapping (some i.1)), below (mapping (some i.1))))

/-- The responses of an operation, with the names below each. -/
def responseNames (below : Members → Names) (operation : Members) : Names :=
  .node none ((mapping (member operation "responses")).map fun i =>
    (lit "::" ++ i.1, below (mapping (some i.2))))

/-- The media types of a response with their schemas. -/
def contentNames (response : Members) : Names :=
  .node none ((mapping (member response "content")).map fun i =>
    (lit ":" ++ i.1, schemaOf (mapping (some i.2))))

/-! ## Documents -/

def pathItems (root : Members) : Members := mapping (member root "paths")

/-- The operations of a path item by their names. -/
def itemOperations (item : Str × Json) : List (Str × Members) :=
  ((mapping (some item.2)).filter fun o => isMethod o.1).map fun o =>
    (operationName o.1 item.1, mapping (some o.2))

/-- A path item by the name of its scope. -/
def pathScope (item : Str × Json) : Str × Members := (lit "path:" ++ item.1, mapping (some item.2))

/-- All operations of a document. -/
def operationsOf (root : Members) : List (Str × Members) := (pathItems root).flatMap itemOperations

/-- The path items and operations of a document, which may have parameters. -/
def scopesOf (root : Members) : List (Str × Members) :=
  (pathItems root).flatMap fun item => pathScope item :: itemOperations item

def componentsOf (root : Members) : Members := mapping (member root "components")

def parameterTree (root : Members) : Names :=
  .node none ((scopesOf root).map fun s => (s.1, parameterNames nameOf s.2))

def responseTree (root : Members) : Names :=
  .node none ((operationsOf root).map fun o => (o.1, responseNames nameOf o.2))

def schemaTree (root : Members) : Names :=
  .node none
    ((mapping (member (componentsOf root) "schemas")).map (fun i =>
        (lit "component:" ++ i.1, schemaNames i.2)) ++
      (scopesOf root).map (fun s => (lit "parameter:" ++ s.1, parameterNames schemaOf s.2)) ++
      (operationsOf root).map (fun o => (lit "response:" ++ o.1, responseNames contentNames o.2)))

/-- No path item spells a method in two ways, and siblings can be told apart wherever names are
written one after another. -/
structure Unambiguous (root : Members) : Prop where
  methods : ∀ item ∈ pathItems root,
    (((mapping (some item.2)).filter fun o => isMethod o.1).map fun o => lowerMethod o.1).Nodup
  parameters : (parameterTree root).Clear
  responses : (responseTree root).Clear
  schemas : (schemaTree root).Clear

theorem unambiguous_iff {root : Members} : Unambiguous root ↔
    (∀ item ∈ pathItems root,
      (((mapping (some item.2)).filter fun o => isMethod o.1).map fun o => lowerMethod o.1).Nodup) ∧
    (parameterTree root).Clear ∧ (responseTree root).Clear ∧ (schemaTree root).Clear :=
  ⟨fun ⟨methods, parameters, responses, schemas⟩ => ⟨methods, parameters, responses, schemas⟩,
    fun ⟨methods, parameters, responses, schemas⟩ => ⟨methods, parameters, responses, schemas⟩⟩

instance (root : Members) : Decidable (Unambiguous root) := decidable_of_iff' _ unambiguous_iff

/-! ## Parts with characters -/

theorem named_flat {thing : Option Members} {τ : Type} {l : List τ} {part : τ → Str} {below : τ → Names}
    (parts : ∀ a ∈ l, part a ≠ []) (names : ∀ a ∈ l, (below a).Named) :
    (NameTree.node thing (l.map fun a => (part a, below a))).Named := by
  refine namedBelow_iff.mpr fun c hc => ?_
  obtain ⟨a, ha, rfl⟩ := List.mem_map.mp hc
  exact ⟨parts a ha, names a ha⟩

mutual

theorem schemaNames_named (v : Json) : (schemaNames v).Named := by
  match v with
  | .dict schema => exact nestedNames_named schema
  | .null | .bool _ | .int _ | .float _ | .str _ | .list _ => trivial

theorem nestedNames_named (schema : Members) : NameTree.NamedBelow (nestedNames schema) := by
  match schema with
  | [] => trivial
  | (key, v) :: schema =>
    have own := schemaNames_named v
    have below := propertiesNames_named v
    refine namedBelow_iff.mpr (List.forall_mem_append.mpr ⟨?_, namedBelow_iff.mp (nestedNames_named schema)⟩)
    split_ifs
    · exact namedBelow_iff.mp below
    · exact List.forall_mem_singleton.mpr ⟨nofun, own⟩
    · nofun

theorem propertiesNames_named (v : Json) : NameTree.NamedBelow (propertiesNames v) := by
  match v with
  | .dict properties => exact propertyNames_named properties
  | .null | .bool _ | .int _ | .float _ | .str _ | .list _ => trivial

theorem propertyNames_named (properties : Members) : NameTree.NamedBelow (propertyNames properties) := by
  match properties with
  | [] => trivial
  | (name, v) :: properties =>
    exact ⟨nofun, schemaNames_named v, propertyNames_named properties⟩

end

theorem schemaOf_named (m : Members) : (schemaOf m).Named := by
  unfold schemaOf valueNames
  cases member m "schema" with
  | none => trivial
  | some v => exact schemaNames_named v

theorem parameterNames_named {below : Members → Names} (h : ∀ m, (below m).Named) (scope : Members) :
    (parameterNames below scope).Named := by
  refine named_flat (fun i _ => ?_) fun i _ => h _
  unfold parameterSuffix
  split <;> nofun

theorem responseNames_named {below : Members → Names} (h : ∀ m, (below m).Named)
    (operation : Members) : (responseNames below operation).Named :=
  named_flat (fun _ _ => nofun) fun _ _ => h _

theorem contentNames_named (response : Members) : (contentNames response).Named :=
  named_flat (fun _ _ => nofun) fun _ _ => schemaOf_named _

theorem operationName_ne_nil (method path : Str) : operationName method path ≠ [] := by
  simp [operationName, show lit " " ≠ [] from nofun]

theorem operationsOf_ne_nil {root : Members} {o : Str × Members} (ho : o ∈ operationsOf root) :
    o.1 ≠ [] := by
  obtain ⟨item, -, ho⟩ := List.mem_flatMap.mp ho
  obtain ⟨o', -, rfl⟩ := List.mem_map.mp ho
  exact operationName_ne_nil _ _

theorem scopesOf_ne_nil {root : Members} {s : Str × Members} (hs : s ∈ scopesOf root) : s.1 ≠ [] := by
  obtain ⟨item, -, hs⟩ := List.mem_flatMap.mp hs
  cases hs with
  | head => nofun
  | tail _ hs =>
    obtain ⟨o, -, rfl⟩ := List.mem_map.mp hs
    exact operationName_ne_nil _ _

theorem nameOf_named (m : Members) : (nameOf m).Named := trivial

theorem parameterTree_named (root : Members) : (parameterTree root).Named :=
  named_flat (fun _ => scopesOf_ne_nil) fun _ _ => parameterNames_named nameOf_named _

theorem responseTree_named (root : Members) : (responseTree root).Named :=
  named_flat (fun _ => operationsOf_ne_nil) fun _ _ => responseNames_named nameOf_named _

theorem schemaTree_named (root : Members) : (schemaTree root).Named := by
  refine namedBelow_iff.mpr (List.forall_mem_append.mpr ⟨List.forall_mem_append.mpr ⟨?_, ?_⟩, ?_⟩)
  · refine List.forall_mem_map.mpr fun i _ => ⟨nofun, schemaNames_named _⟩
  · refine List.forall_mem_map.mpr fun s _ => ⟨nofun, parameterNames_named schemaOf_named _⟩
  · refine List.forall_mem_map.mpr fun o _ => ⟨nofun, responseNames_named contentNames_named _⟩

end QaCopilot.Openapi
