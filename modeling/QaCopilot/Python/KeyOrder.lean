import Mathlib.Data.List.Perm.Subperm
import QaCopilot.Python.SortedTexts
import QaCopilot.Python.Surrogates

/-!
# JSON values up to the order of keys

Two values are the same when they differ in the order of keys alone. Integers and floats differ, and
a float is told by its sign and digits.

* `sorted_eq_iff`: values are the same exactly when they are sorted to one value.
-/

namespace QaCopilot.Python

mutual

/-- The values differ in the order of keys alone. -/
def Json.same : Json → Json → Bool
  | .null, .null => true
  | .bool a, .bool b => a = b
  | .int m, .int n => m = n
  | .float x, .float y => x = y
  | .str s, .str t => s = t
  | .list xs, .list ys => Json.sameList xs ys
  | .dict items, .dict others => items.length = others.length && Json.sameItems items others
  | _, _ => false

def Json.sameList : List Json → List Json → Bool
  | [], [] => true
  | v :: vs, w :: ws => v.same w && Json.sameList vs ws
  | _, _ => false

/-- Every item has the same one among the others. -/
def Json.sameItems : List (Str × Json) → List (Str × Json) → Bool
  | [], _ => true
  | (k, v) :: items, others =>
    (match others.find? (·.1 = k) with
      | some (_, w) => v.same w
      | none => false) && Json.sameItems items others

end

/-! ## Sorted items -/

theorem sortItems_eq_iff {items others : List (Str × Json)} (distinct : (items.map (·.1)).Nodup) :
    sortItems items = sortItems others ↔ items.Perm others := by
  constructor
  · intro same
    exact (sortItems_perm items).symm.trans (same ▸ sortItems_perm others)
  · intro perm
    have : Std.Total fun a b : Str × Json => Str.le a.1 b.1 = true := ⟨fun a b => Str.le_total a.1 b.1⟩
    have : IsTrans (Str × Json) fun a b => Str.le a.1 b.1 = true := ⟨fun _ _ _ => Str.le_trans⟩
    have both := ((sortItems_perm items).trans perm).trans (sortItems_perm others).symm
    refine both.eq_of_pairwise ?_ (List.pairwise_insertionSort _ items) (List.pairwise_insertionSort _ others)
    intro a b ha hb le ge
    have member := (sortItems_perm items).mem_iff.mp ha
    have member' := (both.symm.trans (sortItems_perm items)).mem_iff.mp hb
    exact List.inj_on_of_nodup_map distinct member member' (Str.le_antisymm le ge)

theorem sortItems_sortItems (items : List (Str × Json)) : sortItems (sortItems items) = sortItems items := by
  have : Std.Total fun a b : Str × Json => Str.le a.1 b.1 = true := ⟨fun a b => Str.le_total a.1 b.1⟩
  have : IsTrans (Str × Json) fun a b => Str.le a.1 b.1 = true := ⟨fun _ _ _ => Str.le_trans⟩
  exact (List.pairwise_insertionSort _ items).insertionSort_eq

theorem find?_key {items : List (Str × Json)} (distinct : (items.map (·.1)).Nodup) {k : Str} {w : Json}
    (listed : (k, w) ∈ items) : items.find? (·.1 = k) = some (k, w) := by
  cases found : items.find? (·.1 = k) with
  | none => exact absurd (List.find?_eq_none.mp found _ listed) (by simp)
  | some i =>
    have key : i.1 = k := by simpa using List.find?_some found
    rw [List.inj_on_of_nodup_map distinct (List.mem_of_find?_eq_some found) listed key]

/-- Items with distinct keys are a permutation of as many others when each of them is there. -/
theorem perm_iff_subset {items others : List (Str × Json)} (distinct : (items.map (·.1)).Nodup) :
    items.Perm others ↔ items.length = others.length ∧ ∀ i ∈ items, i ∈ others := by
  constructor
  · exact fun perm => ⟨perm.length_eq, fun i hi => perm.mem_iff.mp hi⟩
  · rintro ⟨long, all⟩
    exact (List.subperm_of_subset distinct.of_map all).perm_of_length_le (Nat.le_of_eq long.symm)

/-! ## Sameness -/

mutual

theorem sorted_eq_iff (v w : Json) (distinct : v.check .distinctKeys = true)
    (distinct' : w.check .distinctKeys = true) : v.sorted = w.sorted ↔ v.same w = true := by
  match v, w with
  | .list xs, .list ys =>
    rw [Json.same, Json.sorted, Json.sorted, Json.list.injEq]
    exact sortedList_eq_iff xs ys (checkList_eq_true.mp distinct) (checkList_eq_true.mp distinct')
  | .dict items, .dict others =>
    rw [Json.check, Bool.and_eq_true, checkItems_eq_true] at distinct distinct'
    have keys : (items.map (·.1)).Nodup := of_decide_eq_true distinct.1
    have keys' : (others.map (·.1)).Nodup := of_decide_eq_true distinct'.1
    have sortedKeys : ((Json.sortedItems items).map (·.1)).Nodup := by rwa [sortedItems_keys]
    rw [Json.same, Json.sorted, Json.sorted, Json.dict.injEq, sortItems_eq_iff sortedKeys,
      perm_iff_subset sortedKeys, Bool.and_eq_true, decide_eq_true_eq,
      sortedItems_subset items others distinct.2 distinct'.2 keys', sortedItems_eq, sortedItems_eq,
      List.length_map, List.length_map]
  | .null, w => cases w <;> simp [Json.same, Json.sorted]
  | .bool _, w => cases w <;> simp [Json.same, Json.sorted]
  | .int _, w => cases w <;> simp [Json.same, Json.sorted]
  | .float _, w => cases w <;> simp [Json.same, Json.sorted]
  | .str _, w => cases w <;> simp [Json.same, Json.sorted]
  | .list _, .null | .list _, .bool _ | .list _, .int _ | .list _, .float _ | .list _, .str _
  | .list _, .dict _ => simp [Json.same, Json.sorted]
  | .dict _, .null | .dict _, .bool _ | .dict _, .int _ | .dict _, .float _ | .dict _, .str _
  | .dict _, .list _ => simp [Json.same, Json.sorted]

theorem sortedList_eq_iff (xs ys : List Json) (distinct : ∀ v ∈ xs, v.check .distinctKeys = true)
    (distinct' : ∀ v ∈ ys, v.check .distinctKeys = true) :
    Json.sortedList xs = Json.sortedList ys ↔ Json.sameList xs ys = true := by
  match xs, ys with
  | [], [] => exact iff_of_true rfl rfl
  | [], _ :: _ => exact iff_of_false nofun nofun
  | _ :: _, [] => exact iff_of_false nofun nofun
  | v :: vs, w :: ws =>
    rw [List.forall_mem_cons] at distinct distinct'
    rw [Json.sortedList, Json.sortedList, List.cons.injEq, Json.sameList, Bool.and_eq_true,
      sorted_eq_iff v w distinct.1 distinct'.1, sortedList_eq_iff vs ws distinct.2 distinct'.2]

theorem sortedItems_subset (items others : List (Str × Json))
    (distinct : ∀ i ∈ items, i.2.check .distinctKeys = true)
    (distinct' : ∀ i ∈ others, i.2.check .distinctKeys = true) (keys : (others.map (·.1)).Nodup) :
    (∀ i ∈ Json.sortedItems items, i ∈ Json.sortedItems others) ↔
      Json.sameItems items others = true := by
  match items with
  | [] => exact iff_of_true nofun rfl
  | (k, v) :: items =>
    rw [List.forall_mem_cons] at distinct
    rw [Json.sortedItems, List.forall_mem_cons, Json.sameItems, Bool.and_eq_true,
      sortedItems_subset items others distinct.2 distinct' keys, sortedItems_eq others, List.mem_map]
    refine and_congr_left fun _ => ?_
    constructor
    · rintro ⟨⟨k', w⟩, listed, same⟩
      obtain ⟨rfl, value⟩ := Prod.mk.inj same
      rw [find?_key keys listed]
      exact (sorted_eq_iff v w distinct.1 (distinct' _ listed)).mp value.symm
    · intro same
      split at same
      · rename_i k' w found
        have listed := List.mem_of_find?_eq_some found
        have key : k' = k := by simpa using List.find?_some found
        refine ⟨(k', w), listed, ?_⟩
        rw [key, (sorted_eq_iff v w distinct.1 (distinct' _ listed)).mpr same]
      · cases same

end

mutual

/-- Sorting once is enough. -/
theorem sorted_sorted (v : Json) : v.sorted.sorted = v.sorted := by
  match v with
  | .list xs => exact congrArg Json.list (sortedList_sortedList xs)
  | .dict items =>
    rw [Json.sorted, Json.sorted, sortedItems_eq (sortItems _), ← sortItems_map, ← sortedItems_eq,
      sortedItems_sortedItems items, sortItems_sortItems]
  | .null | .bool _ | .int _ | .float _ | .str _ => rfl

theorem sortedList_sortedList (xs : List Json) :
    Json.sortedList (Json.sortedList xs) = Json.sortedList xs := by
  match xs with
  | [] => rfl
  | v :: vs =>
    rw [Json.sortedList, Json.sortedList, sorted_sorted v, sortedList_sortedList vs]

theorem sortedItems_sortedItems (items : List (Str × Json)) :
    Json.sortedItems (Json.sortedItems items) = Json.sortedItems items := by
  match items with
  | [] => rfl
  | (k, v) :: items =>
    rw [Json.sortedItems, Json.sortedItems, sorted_sorted v, sortedItems_sortedItems items]

end

end QaCopilot.Python
