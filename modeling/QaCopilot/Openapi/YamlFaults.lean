import QaCopilot.Openapi.Parser

/-!
# The faults of YAML nodes

A node tree is converted in document order, and the conversion ends with the first fault of the tree.

* `fault_yamlNode`: the conversion raises the first fault, if there is one;
* `yamlNode_finite`: a converted tree has finite numbers;
* `yamlNode_keys`: no mapping of a converted tree repeats a key.
-/

namespace QaCopilot.Openapi

open QaCopilot.Python QaCopilot.Results

/-! ## Induction on nodes -/

@[elab_as_elim]
theorem YamlNode.nested {P : YamlNode → Prop}
    (scalar : ∀ tag value anchored, P (.scalar tag value anchored))
    (sequence : ∀ tag anchored items, (∀ node ∈ items, P node) → P (.sequence tag anchored items))
    (mapping : ∀ tag anchored items, (∀ i ∈ items, P i.1 ∧ P i.2) → P (.mapping tag anchored items))
    (node : YamlNode) : P node := by
  match node with
  | .scalar tag value anchored => exact scalar tag value anchored
  | .sequence tag anchored items =>
    exact sequence tag anchored items fun node hn => YamlNode.nested scalar sequence mapping node
  | .mapping tag anchored items =>
    exact mapping tag anchored items fun i hi =>
      ⟨YamlNode.nested scalar sequence mapping i.1, YamlNode.nested scalar sequence mapping i.2⟩
termination_by sizeOf node
decreasing_by
  · have smaller := List.sizeOf_lt_of_mem hn
    rw [YamlNode.sequence.sizeOf_spec]
    omega
  all_goals
    have smaller := List.sizeOf_lt_of_mem hi
    have parts : sizeOf i = 1 + sizeOf i.1 + sizeOf i.2 := Prod.mk.sizeOf_spec i.1 i.2
    rw [YamlNode.mapping.sizeOf_spec]
    omega

/-! ## What is read -/

variable {p : Platform}

/-- The text of a node that may be a key. -/
def keyText : YamlNode → Option Str
  | .scalar tag value _ => if tag = yamlTag "str" then some value else none
  | _ => none

/-- The value as a key. -/
def asKey : Json → Option Str
  | .str key => some key
  | _ => none

theorem yamlScalar_key {tag value : Str} {v : Json} (h : yamlScalarToJson p tag value = .ok v) :
    (if tag = yamlTag "str" then some value else none) = asKey v := by
  unfold yamlScalarToJson at h
  split_ifs at h ⊢
  · exact Except.ok.inj h ▸ rfl
  · obtain ⟨w, -, h⟩ := bind_ok.mp h
    obtain ⟨_, typed, h⟩ := bind_ok.mp h
    obtain rfl := Except.ok.inj h
    rw [rejectWhen_ok, Bool.not_eq_false'] at typed
    cases w with
    | str s => cases typed
    | null | bool | int | float | list | dict => rfl

theorem yamlNode_key {node : YamlNode} {v : Json} (h : yamlNodeToJson p node = .ok v) :
    keyText node = asKey v := by
  cases node with
  | scalar tag value anchored =>
    rw [yamlNodeToJson] at h
    obtain ⟨_, -, h⟩ := bind_ok.mp h
    obtain ⟨_, -, h⟩ := bind_ok.mp h
    exact yamlScalar_key h
  | sequence tag anchored items =>
    rw [yamlNodeToJson] at h
    obtain ⟨_, -, h⟩ := bind_ok.mp h
    obtain ⟨vs, -, h⟩ := bind_ok.mp h
    exact Except.ok.inj h ▸ rfl
  | mapping tag anchored items =>
    rw [yamlNodeToJson] at h
    obtain ⟨_, -, h⟩ := bind_ok.mp h
    obtain ⟨m, -, h⟩ := bind_ok.mp h
    exact Except.ok.inj h ▸ rfl

theorem yamlNodes_ok {nodes : List YamlNode} {vs : List Json} (h : yamlNodesToJson p nodes = .ok vs) :
    List.Forall₂ (fun node v => yamlNodeToJson p node = .ok v) nodes vs := by
  induction nodes generalizing vs with
  | nil =>
    obtain rfl := Except.ok.inj h
    exact .nil
  | cons node nodes ih =>
    rw [yamlNodesToJson] at h
    obtain ⟨v, first, h⟩ := bind_ok.mp h
    obtain ⟨vs', later, h⟩ := bind_ok.mp h
    obtain rfl := Except.ok.inj h
    exact .cons first (ih later)

/-- What was read of the items of a mapping. -/
def ReadItem (p : Platform) (i : YamlNode × YamlNode) (r : Str × Json) : Prop :=
  keyText i.1 = some r.1 ∧ yamlNodeToJson p i.2 = .ok r.2

theorem nodup_members_nil : (([] : Members).map (·.1)).Nodup := List.nodup_nil

theorem yamlItems_ok {items : List (YamlNode × YamlNode)} {before m : Members}
    (distinct : (before.map (·.1)).Nodup) (h : yamlItemsToJson p before items = .ok m) :
    ∃ new, m = before ++ new ∧ List.Forall₂ (ReadItem p) items new ∧ (m.map (·.1)).Nodup := by
  induction items generalizing before with
  | nil =>
    obtain rfl := Except.ok.inj h
    exact ⟨[], (List.append_nil _).symm, .nil, distinct⟩
  | cons i items ih =>
    obtain ⟨keyNode, valueNode⟩ := i
    rw [yamlItemsToJson] at h
    obtain ⟨key, made, h⟩ := bind_ok.mp h
    have text := yamlNode_key made
    cases key with
    | str key =>
      obtain ⟨_, isNew, h⟩ := bind_ok.mp h
      obtain ⟨v, read, h⟩ := bind_ok.mp h
      rw [rejectWhen_ok, Bool.or_eq_false_iff] at isNew
      have fresh : ((before ++ [(key, v)]).map (·.1)).Nodup := by
        rw [List.map_append, List.map_singleton, ← List.concat_eq_append, List.nodup_concat]
        exact ⟨by simpa using isNew.1, distinct⟩
      obtain ⟨new, rfl, each, whole⟩ := ih fresh h
      exact ⟨(key, v) :: new, by simp, .cons ⟨text, read⟩ each, whole⟩
    | null | bool | int | float | list | dict => cases h

/-! ## Numbers and keys -/

/-- Every number is finite. -/
def finiteNumbers : Check where
  float := fun x =>
    match x with
    | .finite _ => true
    | _ => false

theorem yamlScalar_finite {tag value : Str} {v : Json} (h : yamlScalarToJson p tag value = .ok v) :
    v.check finiteNumbers = true := by
  unfold yamlScalarToJson at h
  split_ifs at h
  · exact Except.ok.inj h ▸ rfl
  · obtain ⟨w, -, h⟩ := bind_ok.mp h
    obtain ⟨_, typed, h⟩ := bind_ok.mp h
    obtain rfl := Except.ok.inj h
    rw [rejectWhen_ok, Bool.not_eq_false'] at typed
    cases w with
    | float x =>
      cases x with
      | finite => rfl
      | infinite | nan => cases typed
    | list | dict => cases typed
    | null | bool | int | str => rfl

theorem yamlNode_finite (node : YamlNode) : ∀ v, yamlNodeToJson p node = .ok v →
    v.check finiteNumbers = true := by
  induction node using YamlNode.nested with
  | scalar tag value anchored =>
    intro v h
    rw [yamlNodeToJson] at h
    obtain ⟨_, -, h⟩ := bind_ok.mp h
    obtain ⟨_, -, h⟩ := bind_ok.mp h
    exact yamlScalar_finite h
  | sequence tag anchored items ih =>
    intro v h
    rw [yamlNodeToJson] at h
    obtain ⟨_, -, h⟩ := bind_ok.mp h
    obtain ⟨vs, read, h⟩ := bind_ok.mp h
    obtain rfl := Except.ok.inj h
    refine checkList_eq_true.mpr fun w hw => ?_
    obtain ⟨node, hn, made⟩ := forall₂_mem (yamlNodes_ok read) hw
    exact ih node hn w made
  | mapping tag anchored items ih =>
    intro v h
    rw [yamlNodeToJson] at h
    obtain ⟨_, -, h⟩ := bind_ok.mp h
    obtain ⟨m, read, h⟩ := bind_ok.mp h
    obtain rfl := Except.ok.inj h
    obtain ⟨new, rfl, each, -⟩ := yamlItems_ok nodup_members_nil read
    refine Bool.and_eq_true_iff.mpr ⟨rfl, checkItems_eq_true.mpr fun r hr => ?_⟩
    obtain ⟨i, hi, -, made⟩ := forall₂_mem each hr
    exact (ih i hi).2 r.2 made

/-- No mapping of the tree repeats a key. -/
inductive KeysDistinct : YamlNode → Prop where
  | scalar (tag value : Str) (anchored : Bool) : KeysDistinct (.scalar tag value anchored)
  | sequence {tag : Str} {anchored : Bool} {items : List YamlNode}
      (all : ∀ node ∈ items, KeysDistinct node) : KeysDistinct (.sequence tag anchored items)
  | mapping {tag : Str} {anchored : Bool} {items : List (YamlNode × YamlNode)}
      (keys : (items.map fun i => keyText i.1).Nodup) (inKeys : ∀ i ∈ items, KeysDistinct i.1)
      (inValues : ∀ i ∈ items, KeysDistinct i.2) : KeysDistinct (.mapping tag anchored items)

theorem readItems_keys {items : List (YamlNode × YamlNode)} {m : Members}
    (each : List.Forall₂ (ReadItem p) items m) :
    items.map (fun i => keyText i.1) = m.map fun r => some r.1 := by
  induction each with
  | nil => rfl
  | cons read _ ih => rw [List.map_cons, List.map_cons, read.1, ih]

theorem yamlNode_keys (node : YamlNode) : ∀ v, yamlNodeToJson p node = .ok v → KeysDistinct node := by
  induction node using YamlNode.nested with
  | scalar tag value anchored => exact fun _ _ => .scalar tag value anchored
  | sequence tag anchored items ih =>
    intro v h
    rw [yamlNodeToJson] at h
    obtain ⟨_, -, h⟩ := bind_ok.mp h
    obtain ⟨vs, read, -⟩ := bind_ok.mp h
    refine .sequence fun node hn => ?_
    obtain ⟨w, -, made⟩ := forall₂_mem (yamlNodes_ok read).flip hn
    exact ih node hn w made
  | mapping tag anchored items ih =>
    intro v h
    rw [yamlNodeToJson] at h
    obtain ⟨_, -, h⟩ := bind_ok.mp h
    obtain ⟨m, read, -⟩ := bind_ok.mp h
    obtain ⟨new, rfl, each, distinct⟩ := yamlItems_ok nodup_members_nil read
    have keys : (items.map fun i => keyText i.1).Nodup := by
      have texts := distinct.map (Option.some_injective Str)
      rw [List.map_map] at texts
      exact readItems_keys each ▸ texts
    refine .mapping keys (fun i hi => ?_) fun i hi => ?_
    · obtain ⟨r, -, text, -⟩ := forall₂_mem each.flip hi
      obtain ⟨key, value⟩ := i
      cases key with
      | scalar => exact .scalar _ _ _
      | sequence | mapping => cases text
    · obtain ⟨r, -, -, made⟩ := forall₂_mem each.flip hi
      exact (ih i hi).2 r.2 made

/-! ## Faults in document order -/

/-- The error of a step that fails. -/
def fault {ε α : Type} : Except ε α → Option ε
  | .error e => some e
  | .ok _ => none

theorem fault_bind {ε α β : Type} {x : Except ε α} {f : α → Except ε β} {here later : List ε}
    (first : fault x = here.head?) (next : ∀ a, x = .ok a → fault (f a) = later.head?) :
    fault (x >>= f) = (here ++ later).head? := by
  rw [List.head?_append, ← first]
  cases x with
  | error e => rfl
  | ok a => exact next a rfl

/-- A step that ends with what it made. -/
theorem fault_last {ε α β : Type} {x : Except ε α} {f : α → β} {here : List ε}
    (first : fault x = here.head?) : fault (x >>= fun a => .ok (f a)) = here.head? := by
  have ends : ∀ a, x = .ok a → fault (.ok (f a) : Except ε β) = ([] : List ε).head? := fun _ _ => rfl
  have whole := fault_bind first ends
  rwa [List.append_nil] at whole

theorem fault_toList {ε α : Type} (x : Except ε α) : fault x = (fault x).toList.head? := by
  cases x <;> rfl

/-- The fault of a key after other keys. -/
def keyFault (earlier : List Str) (keyNode : YamlNode) : List OpenapiError :=
  match keyText keyNode with
  | some key => (fault (rejectWhen (earlier.contains key || key = lit "<<")
      "OPENAPI_YAML_KEY_OR_MERGE_INVALID")).toList
  | none => [.parseRejected "OPENAPI_YAML_KEY_OR_MERGE_INVALID"]

mutual

/-- All faults of a node, in the order of the document. -/
def faults (p : Platform) : YamlNode → List OpenapiError
  | .scalar tag value anchored =>
    (fault (rejectWhen (value = lit "<<") "OPENAPI_YAML_KEY_OR_MERGE_INVALID")).toList ++
      ((fault (checkNode tag anchored)).toList ++ (fault (yamlScalarToJson p tag value)).toList)
  | .sequence tag anchored items => (fault (checkNode tag anchored)).toList ++ faultsOfNodes p items
  | .mapping tag anchored items => (fault (checkNode tag anchored)).toList ++ faultsOfItems p [] items

def faultsOfNodes (p : Platform) : List YamlNode → List OpenapiError
  | [] => []
  | node :: nodes => faults p node ++ faultsOfNodes p nodes

/-- The faults of the items of a mapping after these keys. -/
def faultsOfItems (p : Platform) (earlier : List Str) : List (YamlNode × YamlNode) → List OpenapiError
  | [] => []
  | (keyNode, valueNode) :: items =>
    faults p keyNode ++ (keyFault earlier keyNode ++ (faults p valueNode ++
      faultsOfItems p (earlier ++ (keyText keyNode).toList) items))

end

theorem fault_yamlNodes {nodes : List YamlNode}
    (each : ∀ node ∈ nodes, fault (yamlNodeToJson p node) = (faults p node).head?) :
    fault (yamlNodesToJson p nodes) = (faultsOfNodes p nodes).head? := by
  induction nodes with
  | nil => rfl
  | cons node nodes ih =>
    obtain ⟨first, later⟩ := List.forall_mem_cons.mp each
    rw [yamlNodesToJson, faultsOfNodes]
    exact fault_bind first fun v _ => fault_last (ih later)

theorem fault_yamlItems {items : List (YamlNode × YamlNode)} (before : Members)
    (each : ∀ i ∈ items, fault (yamlNodeToJson p i.1) = (faults p i.1).head? ∧
      fault (yamlNodeToJson p i.2) = (faults p i.2).head?) :
    fault (yamlItemsToJson p before items) = (faultsOfItems p (before.map (·.1)) items).head? := by
  induction items generalizing before with
  | nil => rfl
  | cons i items ih =>
    obtain ⟨keyNode, valueNode⟩ := i
    obtain ⟨⟨ofKey, ofValue⟩, later⟩ := List.forall_mem_cons.mp each
    rw [yamlItemsToJson, faultsOfItems]
    refine fault_bind ofKey fun key made => ?_
    have text := yamlNode_key made
    cases key with
    | str key =>
      rw [keyFault, text]
      refine fault_bind (fault_toList _) fun _ _ => fault_bind ofValue fun v _ => ?_
      have rest := ih (before ++ [(key, v)]) later
      rwa [List.map_append] at rest
    | null | bool | int | float | list | dict =>
      rw [keyFault, text]
      rfl

/-- The conversion of a tree raises the first fault of the tree. -/
theorem fault_yamlNode (node : YamlNode) :
    fault (yamlNodeToJson p node) = (faults p node).head? := by
  induction node using YamlNode.nested with
  | scalar tag value anchored =>
    rw [yamlNodeToJson, faults]
    exact fault_bind (fault_toList _) fun _ _ => fault_bind (fault_toList _) fun _ _ => fault_toList _
  | sequence tag anchored items ih =>
    rw [yamlNodeToJson, faults]
    exact fault_bind (fault_toList _) fun _ _ => fault_last (fault_yamlNodes ih)
  | mapping tag anchored items ih =>
    rw [yamlNodeToJson, faults]
    exact fault_bind (fault_toList _) fun _ _ => fault_last (fault_yamlItems [] ih)

end QaCopilot.Openapi
