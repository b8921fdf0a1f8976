import Mathlib.Data.List.Nodup
import Mathlib.Data.List.Perm.Subperm

/-!
# Dictionaries

A `dict` keeps its items in the order in which their keys first came, and a key once.
-/

namespace QaCopilot.Python

structure Dict (κ ν : Type) where
  items : List (κ × ν)
  distinct : (items.map (·.1)).Nodup

namespace Dict

section
variable {κ ν : Type}

def empty : Dict κ ν := ⟨[], List.nodup_nil⟩

def keys (d : Dict κ ν) : List κ := d.items.map (·.1)

/-- `len` -/
def size (d : Dict κ ν) : Nat := d.items.length

@[simp] theorem keys_empty : (empty : Dict κ ν).keys = [] := rfl

theorem nodup_keys (d : Dict κ ν) : d.keys.Nodup := d.distinct

@[simp] theorem length_keys (d : Dict κ ν) : d.keys.length = d.size := List.length_map _

variable [DecidableEq κ]

def get? (d : Dict κ ν) (k : κ) : Option ν := (d.items.find? (·.1 = k)).map (·.2)

/-- The items after `d[k] = v`. -/
def setItems (items : List (κ × ν)) (k : κ) (v : ν) : List (κ × ν) :=
  if items.any (·.1 = k) then items.map fun i => if i.1 = k then (k, v) else i
  else items ++ [(k, v)]

theorem keys_setItems (items : List (κ × ν)) (k : κ) (v : ν) :
    (setItems items k v).map (·.1) =
      if k ∈ items.map (·.1) then items.map (·.1) else items.map (·.1) ++ [k] := by
  have here : items.any (·.1 = k) = true ↔ k ∈ items.map (·.1) := by simp
  rw [setItems]
  split_ifs with present listed listed
  · rw [List.map_map]
    refine List.map_congr_left fun i _ => ?_
    simp only [Function.comp_apply]
    split_ifs with same
    · exact same.symm
    · rfl
  · exact absurd (here.mp present) listed
  · exact absurd (here.mpr listed) present
  · rw [List.map_append, List.map_singleton]

/-- `d[k] = v` -/
def set (d : Dict κ ν) (k : κ) (v : ν) : Dict κ ν where
  items := setItems d.items k v
  distinct := by
    rw [keys_setItems]
    split_ifs with listed
    · exact d.distinct
    · refine List.nodup_append.mpr ⟨d.distinct, List.nodup_singleton k, ?_⟩
      rintro a ha b hb rfl
      exact listed (List.mem_singleton.mp hb ▸ ha)

theorem items_set_new {d : Dict κ ν} {k : κ} (v : ν) (isNew : k ∉ d.keys) :
    (d.set k v).items = d.items ++ [(k, v)] := by
  have absent : ¬ d.items.any (·.1 = k) := by simpa [keys] using isNew
  simp only [set, setItems, if_neg absent]

/-- `d.update(items)`, and the dictionary of a comprehension when `d` is empty. -/
def update (d : Dict κ ν) (items : List (κ × ν)) : Dict κ ν :=
  items.foldl (fun d i => d.set i.1 i.2) d

/-- `del d[k]` of a key that is there. -/
def erase (d : Dict κ ν) (k : κ) : Dict κ ν where
  items := d.items.filter (·.1 ≠ k)
  distinct := d.distinct.sublist (List.filter_sublist.map _)

@[simp] theorem get?_empty (k : κ) : (empty : Dict κ ν).get? k = none := rfl

@[simp] theorem update_nil (d : Dict κ ν) : d.update [] = d := rfl

@[simp] theorem update_cons (d : Dict κ ν) (i : κ × ν) (items : List (κ × ν)) :
    d.update (i :: items) = (d.set i.1 i.2).update items := rfl

theorem get?_eq_none {d : Dict κ ν} {k : κ} : d.get? k = none ↔ k ∉ d.keys := by
  simp only [get?, keys, Option.map_eq_none_iff, List.find?_eq_none, decide_eq_true_eq,
    List.mem_map, not_exists, not_and]

theorem get?_isSome {d : Dict κ ν} {k : κ} : (d.get? k).isSome = true ↔ k ∈ d.keys := by
  rw [← not_iff_not, ← get?_eq_none]
  simp

theorem mem_keys_set {d : Dict κ ν} {k k' : κ} {v : ν} :
    k' ∈ (d.set k v).keys ↔ k' = k ∨ k' ∈ d.keys := by
  simp only [keys, set, keys_setItems]
  split_ifs with listed
  · constructor
    · exact .inr
    · rintro (rfl | h)
      · exact listed
      · exact h
  · rw [List.mem_append, List.mem_singleton, or_comm]

/-- The item of a key that is there takes the new value. -/
theorem find?_replace {items : List (κ × ν)} {k : κ} (v : ν) (present : k ∈ items.map (·.1)) :
    (items.map fun i => if i.1 = k then (k, v) else i).find? (·.1 = k) = some (k, v) := by
  induction items with
  | nil => cases present
  | cons i items ih =>
    rw [List.map_cons, List.find?_cons]
    by_cases own : i.1 = k
    · simp [own]
    · simp only [own, if_false, decide_false]
      exact ih ((List.mem_cons.mp present).resolve_left (Ne.symm own))

theorem get?_set_self (d : Dict κ ν) (k : κ) (v : ν) : (d.set k v).get? k = some v := by
  simp only [get?, set, setItems]
  split_ifs with present
  · rw [find?_replace v (by simpa using present)]
    rfl
  · have absent : d.items.find? (fun i => decide (i.1 = k)) = none := by
      refine List.find?_eq_none.mpr fun i hi own => present ?_
      exact List.any_eq_true.mpr ⟨i, hi, own⟩
    rw [List.find?_append, absent]
    simp

theorem get?_set_other (d : Dict κ ν) {k k' : κ} (v : ν) (other : k' ≠ k) :
    (d.set k v).get? k' = d.get? k' := by
  simp only [get?, set, setItems]
  split_ifs with present
  · clear present
    generalize d.items = items
    induction items with
    | nil => rfl
    | cons i items ih =>
      rw [List.map_cons, List.find?_cons, List.find?_cons]
      by_cases own : i.1 = k
      · simp only [own, if_true, Ne.symm other, decide_false]
        exact ih
      · simp only [own, if_false]
        split
        · rfl
        · exact ih
  · rw [List.find?_append]
    simp [Ne.symm other]

theorem get?_erase (d : Dict κ ν) (k k' : κ) :
    (d.erase k).get? k' = if k' = k then none else d.get? k' := by
  rw [get?, erase, List.find?_filter]
  split_ifs with own
  · rw [Option.map_eq_none_iff, List.find?_eq_none]
    intro i _
    simp [own]
  · rw [get?]
    congr 2
    funext i
    by_cases found : i.1 = k'
    · simp [found, own]
    · simp [found]

theorem mem_keys_update {d : Dict κ ν} {items : List (κ × ν)} {k : κ} :
    k ∈ (d.update items).keys ↔ k ∈ d.keys ∨ k ∈ items.map (·.1) := by
  induction items generalizing d with
  | nil => simp
  | cons i items ih =>
    rw [update_cons, ih, mem_keys_set, List.map_cons, List.mem_cons]
    tauto

theorem get?_update_other {d : Dict κ ν} {items : List (κ × ν)} {k : κ}
    (absent : k ∉ items.map (·.1)) : (d.update items).get? k = d.get? k := by
  induction items generalizing d with
  | nil => rfl
  | cons i items ih =>
    rw [List.map_cons, List.mem_cons, not_or] at absent
    rw [update_cons, ih absent.2, get?_set_other d i.2 absent.1]

/-- What all items say of a key that is among them. -/
theorem get?_update_of {d : Dict κ ν} {items : List (κ × ν)} {k : κ} {v : ν}
    (present : k ∈ items.map (·.1)) (same : ∀ i ∈ items, i.1 = k → i.2 = v) :
    (d.update items).get? k = some v := by
  induction items generalizing d with
  | nil => cases present
  | cons i items ih =>
    rw [update_cons]
    by_cases later : k ∈ items.map (·.1)
    · exact ih later fun j hj => same j (List.mem_cons_of_mem _ hj)
    · rw [get?_update_other later]
      rcases List.mem_cons.mp present with rfl | present
      · rw [get?_set_self, same i List.mem_cons_self rfl]
      · exact absurd present later

theorem get?_eq_some {d : Dict κ ν} {k : κ} {v : ν} : d.get? k = some v ↔ (k, v) ∈ d.items := by
  constructor
  · intro found
    obtain ⟨i, hi, rfl⟩ := Option.map_eq_some_iff.mp found
    have own : i.1 = k := by simpa using List.find?_some hi
    exact own ▸ List.mem_of_find?_eq_some hi
  · intro listed
    obtain ⟨w, hw⟩ := Option.isSome_iff_exists.mp
      (get?_isSome.mpr (List.mem_map_of_mem (f := (·.1)) listed))
    obtain ⟨i, hi, rfl⟩ := Option.map_eq_some_iff.mp hw
    have own : i.1 = k := by simpa using List.find?_some hi
    have same := List.inj_on_of_nodup_map d.distinct (List.mem_of_find?_eq_some hi) listed own
    rw [hw, same]

/-- An update by the items of a dictionary. -/
theorem get?_update_items (d e : Dict κ ν) (k : κ) :
    (d.update e.items).get? k = (e.get? k).or (d.get? k) := by
  cases found : e.get? k with
  | none => rw [get?_update_other (get?_eq_none.mp found), Option.none_or]
  | some v =>
    rw [Option.some_or]
    refine get?_update_of (get?_isSome.mp (by rw [found]; rfl)) ?_
    rintro ⟨k', w⟩ hi rfl
    exact Option.some.inj ((get?_eq_some.mpr hi).symm.trans found)

omit [DecidableEq κ] in
/-- The keys are all of `l` when there are as many. -/
theorem size_eq_length {d : Dict κ ν} {l : List κ} (sub : d.keys ⊆ l) (distinct : l.Nodup) :
    d.size = l.length ↔ l ⊆ d.keys := by
  rw [← length_keys]
  constructor
  · intro same
    have perm := (List.subperm_of_subset d.nodup_keys sub).perm_of_length_le (Nat.le_of_eq same.symm)
    exact perm.symm.subset
  · intro all
    exact ((List.perm_ext_iff_of_nodup d.nodup_keys distinct).mpr
      fun k => ⟨fun h => sub h, fun h => all h⟩).length_eq

/-- A comprehension keeps every item exactly when their keys differ. -/
theorem size_comprehension {items : List (κ × ν)} :
    (empty.update items).size = items.length ↔ (items.map (·.1)).Nodup := by
  have listed : ∀ k, k ∈ (empty.update items).keys ↔ k ∈ items.map (·.1) := by
    intro k
    rw [mem_keys_update]
    exact or_iff_right List.not_mem_nil
  have counted : items.length = (items.map (·.1)).length := (List.length_map _).symm
  rw [counted]
  constructor
  · intro same
    rw [← length_keys] at same
    have sub := List.subperm_of_subset (nodup_keys _) fun k hk => (listed k).mp hk
    exact (sub.perm_of_length_le (Nat.le_of_eq same.symm)).nodup_iff.mp (nodup_keys _)
  · intro distinct
    rw [size_eq_length (fun k hk => (listed k).mp hk) distinct]
    exact fun k hk => (listed k).mpr hk

theorem items_update_new {d : Dict κ ν} {items : List (κ × ν)}
    (distinct : (d.keys ++ items.map (·.1)).Nodup) : (d.update items).items = d.items ++ items := by
  induction items generalizing d with
  | nil => rw [update_nil, List.append_nil]
  | cons i items ih =>
    rw [List.map_cons, List.append_cons] at distinct
    have isNew : i.1 ∉ d.keys := by
      intro present
      have apart := (List.nodup_append.mp distinct.of_append_left).2.2
      exact apart _ present _ (List.mem_singleton_self _) rfl
    have own := items_set_new i.2 isNew
    rw [update_cons, ih (by rwa [keys, own, List.map_append]), own, List.append_assoc]
    rfl

theorem items_comprehension {items : List (κ × ν)} (distinct : (items.map (·.1)).Nodup) :
    (empty.update items).items = items := items_update_new distinct

theorem mem_items_set {d : Dict κ ν} {k : κ} {v : ν} {i : κ × ν} (h : i ∈ (d.set k v).items) :
    i = (k, v) ∨ i ∈ d.items := by
  simp only [set, setItems] at h
  split_ifs at h
  · obtain ⟨j, hj, rfl⟩ := List.mem_map.mp h
    split_ifs
    · exact .inl rfl
    · exact .inr hj
  · exact (List.mem_append.mp h).symm.imp_left List.mem_singleton.mp

theorem mem_items_update {d : Dict κ ν} {items : List (κ × ν)} {i : κ × ν}
    (h : i ∈ (d.update items).items) : i ∈ items ∨ i ∈ d.items := by
  induction items generalizing d with
  | nil => exact .inr h
  | cons j items ih =>
    rcases ih h with later | before
    · exact .inl (List.mem_cons_of_mem j later)
    · rcases mem_items_set before with rfl | before
      · exact .inl List.mem_cons_self
      · exact .inr before

theorem mem_comprehension {items : List (κ × ν)} {i : κ × ν} (h : i ∈ (empty.update items).items) :
    i ∈ items := (mem_items_update h).resolve_right List.not_mem_nil

theorem length_comprehension_le (items : List (κ × ν)) :
    (empty.update items).items.length ≤ items.length := by
  have listed : (empty.update items).keys ⊆ items.map (·.1) := fun k hk =>
    (mem_keys_update.mp hk).resolve_left List.not_mem_nil
  have short := (List.subperm_of_subset (nodup_keys _) listed).length_le
  rwa [length_keys, List.length_map] at short

/-! ## Lists by key -/

section
variable {α β : Type}

/-- `d.setdefault(k, []).append(b)` -/
def append (d : Dict κ (List β)) (k : κ) (b : β) : Dict κ (List β) :=
  d.set k ((d.get? k).getD [] ++ [b])

/-- Every value under its key, in order. -/
def appends (d : Dict κ (List β)) (items : List (κ × β)) : Dict κ (List β) :=
  items.foldl (fun d i => d.append i.1 i.2) d

theorem get?_appends (d : Dict κ (List β)) (items : List (κ × β)) (k : κ) :
    ((d.appends items).get? k).getD [] =
      (d.get? k).getD [] ++ (items.filter (·.1 = k)).map (·.2) := by
  induction items generalizing d with
  | nil => rw [appends, List.foldl_nil, List.filter_nil, List.map_nil, List.append_nil]
  | cons i items ih =>
    rw [appends, List.foldl_cons, ← appends, ih, append]
    by_cases own : i.1 = k
    · subst own
      rw [get?_set_self, List.filter_cons_of_pos (by simp), List.map_cons, Option.getD_some,
        List.append_assoc, List.singleton_append]
    · rw [get?_set_other d _ (Ne.symm own), List.filter_cons_of_neg (by simpa using own)]

theorem mem_keys_appends {d : Dict κ (List β)} {items : List (κ × β)} {k : κ} :
    k ∈ (d.appends items).keys ↔ k ∈ items.map (·.1) ∨ k ∈ d.keys := by
  induction items generalizing d with
  | nil => simp [appends]
  | cons i items ih =>
    rw [appends, List.foldl_cons, ← appends, ih, append, mem_keys_set, List.map_cons, List.mem_cons]
    tauto

/-- The keys that are there keep their places. -/
theorem keys_prefix_appends (d : Dict κ (List β)) (items : List (κ × β)) :
    d.keys <+: (d.appends items).keys := by
  induction items generalizing d with
  | nil => exact List.prefix_rfl
  | cons i items ih =>
    rw [appends, List.foldl_cons, ← appends]
    refine List.IsPrefix.trans ?_ (ih _)
    rw [append, keys, set, keys, keys_setItems]
    split_ifs
    · exact List.prefix_rfl
    · exact List.prefix_append _ _

end

end

end Dict

end QaCopilot.Python
