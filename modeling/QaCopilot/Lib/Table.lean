import Mathlib.Data.List.Nodup

/-!
# Tables as lists of rows

`UPDATE ... WHERE` and `ORDER BY ... LIMIT 1` on a list of rows, and unique keys as
`Nodup` of the keys.
-/

namespace QaCopilot.Table

section
variable {ρ κ : Type}

/-- `UPDATE`: `f` on every row that satisfies `p`. -/
def updateWhere (p : ρ → Bool) (f : ρ → ρ) (rows : List ρ) : List ρ :=
  rows.map fun r => if p r then f r else r

theorem mem_updateWhere {p : ρ → Bool} {f : ρ → ρ} {rows : List ρ} {r' : ρ} :
    r' ∈ updateWhere p f rows ↔ ∃ r ∈ rows, (if p r then f r else r) = r' :=
  List.mem_map

theorem mem_updateWhere_of_not {p : ρ → Bool} {f : ρ → ρ} {rows : List ρ} {r : ρ}
    (h : r ∈ rows) (hp : p r = false) : r ∈ updateWhere p f rows :=
  mem_updateWhere.mpr ⟨r, h, by simp [hp]⟩

theorem mem_updateWhere_of {p : ρ → Bool} {f : ρ → ρ} {rows : List ρ} {r : ρ}
    (h : r ∈ rows) (hp : p r = true) : f r ∈ updateWhere p f rows :=
  mem_updateWhere.mpr ⟨r, h, by simp [hp]⟩

/-- An update keeps every column that `f` keeps. -/
theorem map_updateWhere {p : ρ → Bool} {f : ρ → ρ} (key : ρ → κ)
    (same : ∀ r, key (f r) = key r) (rows : List ρ) :
    (updateWhere p f rows).map key = rows.map key := by
  simp only [updateWhere, List.map_map]
  apply List.map_congr_left
  intro r _
  simp only [Function.comp_apply]
  split
  · exact same r
  · rfl

/-- An update of some rows keeps every column that it keeps on these. -/
theorem map_updateWhere_of {p : ρ → Bool} {f : ρ → ρ} (key : ρ → κ) {rows : List ρ}
    (same : ∀ r ∈ rows, p r = true → key (f r) = key r) :
    (updateWhere p f rows).map key = rows.map key := by
  simp only [updateWhere, List.map_map]
  apply List.map_congr_left
  intro r hr
  simp only [Function.comp_apply]
  split
  · exact same r hr ‹_›
  · rfl

/-- The row that comes first in the order `before`. -/
def firstBy (before : ρ → ρ → Bool) : List ρ → Option ρ
  | [] => none
  | r :: rows =>
    match firstBy before rows with
    | none => some r
    | some m => if before m r then some m else some r

theorem firstBy_mem {before : ρ → ρ → Bool} {rows : List ρ} {r : ρ}
    (h : firstBy before rows = some r) : r ∈ rows := by
  induction rows generalizing r with
  | nil => cases h
  | cons head rows ih =>
    simp only [firstBy] at h
    cases hm : firstBy before rows with
    | none =>
      simp only [hm, Option.some.injEq] at h
      simp [h]
    | some m =>
      simp only [hm] at h
      split at h
      · obtain rfl := Option.some.inj h
        exact List.mem_cons_of_mem head (ih hm)
      · simp [Option.some.inj h]

theorem firstBy_eq_none {before : ρ → ρ → Bool} {rows : List ρ} :
    firstBy before rows = none ↔ rows = [] := by
  cases rows with
  | nil => simp [firstBy]
  | cons head rows =>
    simp only [firstBy, reduceCtorEq, iff_false]
    split
    · simp
    · split <;> simp

/-- Where an order goes by a number first, no row has a greater one than the first. -/
theorem firstBy_greatest {before : ρ → ρ → Bool} {f : ρ → Nat}
    (greater : ∀ a b, before a b = true → f b ≤ f a)
    (less : ∀ a b, before a b = false → f a ≤ f b) {rows : List ρ} {m : ρ}
    (h : firstBy before rows = some m) : ∀ r ∈ rows, f r ≤ f m := by
  induction rows generalizing m with
  | nil => simp
  | cons head rows ih =>
    simp only [firstBy] at h
    cases later : firstBy before rows with
    | none =>
      simp only [later, Option.some.injEq] at h
      simp [firstBy_eq_none.mp later, h]
    | some n =>
      simp only [later] at h
      intro r hr
      rcases List.mem_cons.mp hr with rfl | hr
      · split at h
        · obtain rfl := Option.some.inj h
          exact greater _ _ ‹_›
        · exact (Option.some.inj h) ▸ Nat.le_refl _
      · have := ih later r hr
        split at h
        · exact (Option.some.inj h) ▸ this
        · rename_i kept
          obtain rfl := Option.some.inj h
          exact Nat.le_trans this (less _ _ (by simpa using kept))

/-- Appended rows that are not asked for. -/
theorem filter_append_of_not {p : ρ → Bool} {rows new : List ρ} (h : ∀ r ∈ new, p r = false) :
    (rows ++ new).filter p = rows.filter p := by
  have none' : new.filter p = [] := List.filter_eq_nil_iff.mpr (by simpa using h)
  rw [List.filter_append, none', List.append_nil]

/-- Appended rows that are the first of their kind. -/
theorem filter_append_of {p : ρ → Bool} {rows new : List ρ} (before : rows.filter p = [])
    (h : ∀ r ∈ new, p r = true) : (rows ++ new).filter p = new := by
  rw [List.filter_append, before, List.nil_append, List.filter_eq_self.mpr h]

/-- Two rows of a unique key that share it are the same row. -/
theorem eq_of_key {key : ρ → κ} {rows : List ρ} (unique : (rows.map key).Nodup) {r q : ρ}
    (hr : r ∈ rows) (hq : q ∈ rows) (same : key r = key q) : r = q :=
  List.inj_on_of_nodup_map unique hr hq same

/-- A new key keeps the keys distinct. -/
theorem nodup_snoc {key : ρ → κ} {rows : List ρ} {row : ρ} (unique : (rows.map key).Nodup)
    (fresh : ∀ r ∈ rows, key r ≠ key row) : ((rows ++ [row]).map key).Nodup := by
  rw [List.map_append]
  refine List.nodup_append.mpr ⟨unique, List.nodup_singleton _, ?_⟩
  intro k hk k' hk'
  obtain ⟨r, hr, rfl⟩ := List.mem_map.mp hk
  exact List.mem_singleton.mp hk' ▸ fresh r hr

/-- A key selects its row. -/
theorem filter_key [DecidableEq κ] {key : ρ → κ} {rows : List ρ} {row : ρ}
    (unique : (rows.map key).Nodup) (present : row ∈ rows) :
    rows.filter (fun r => key r = key row) = [row] := by
  induction rows with
  | nil => cases present
  | cons r rows ih =>
    obtain ⟨new, unique⟩ := List.nodup_cons.mp unique
    rcases List.mem_cons.mp present with rfl | present
    · have none' : rows.filter (fun r => key r = key row) = [] := by
        refine List.filter_eq_nil_iff.mpr fun r hr same => new ?_
        exact List.mem_map.mpr ⟨r, hr, by simpa using same⟩
      simp [none']
    · have other : key r ≠ key row := fun same => new (List.mem_map.mpr ⟨row, present, same.symm⟩)
      simp [other, ih unique present]

/-- What `find?` finds by a key. -/
theorem find?_key [DecidableEq κ] {key : ρ → κ} {rows : List ρ} (unique : (rows.map key).Nodup)
    {k : κ} {row : ρ} :
    rows.find? (fun r => key r = k) = some row ↔ row ∈ rows ∧ key row = k := by
  constructor
  · intro found
    exact ⟨List.mem_of_find?_eq_some found, by simpa using List.find?_some found⟩
  · rintro ⟨present, rfl⟩
    rw [← List.head?_filter, filter_key unique present, List.head?_cons]

/-- A statement for one key has one row or none. -/
theorem eq_singleton [DecidableEq κ] {k : ρ → κ} {rows : List ρ} (unique : (rows.map k).Nodup)
    {row : ρ} (present : row ∈ rows) (one : ∀ r ∈ rows, k r = k row) : rows = [row] := by
  rw [← filter_key unique present, List.filter_eq_self.mpr]
  exact fun r hr => decide_eq_true (one r hr)

end

end QaCopilot.Table
