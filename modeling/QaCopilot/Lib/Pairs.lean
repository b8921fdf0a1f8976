import Mathlib.Data.List.Nodup
import Mathlib.Order.Basic

/-!
# Pairs of a list

The pairs of two elements of a list, the earlier one first: what a loop over an index with an inner
loop over the later ones visits.

* `mem_pairs`: in a strictly sorted list they are the pairs whose keys grow;
* `nodup_pairs`: none is visited twice.
-/

namespace QaCopilot.Pairs

variable {α κ : Type}

def pairs : List α → List (α × α)
  | [] => []
  | a :: l => l.map (a, ·) ++ pairs l

theorem mem_of_mem_pairs {l : List α} {p : α × α} (h : p ∈ pairs l) : p.1 ∈ l ∧ p.2 ∈ l := by
  induction l with
  | nil => cases h
  | cons a l ih =>
    rcases List.mem_append.mp h with h | h
    · obtain ⟨b, hb, rfl⟩ := List.mem_map.mp h
      exact ⟨List.mem_cons_self, List.mem_cons_of_mem _ hb⟩
    · exact (ih h).imp (List.mem_cons_of_mem _) (List.mem_cons_of_mem _)

theorem mem_pairs [Preorder κ] {key : α → κ} {l : List α} (sorted : l.Pairwise fun a b => key a < key b)
    {a b : α} : (a, b) ∈ pairs l ↔ a ∈ l ∧ b ∈ l ∧ key a < key b := by
  induction l with
  | nil => simp [pairs]
  | cons c l ih =>
    obtain ⟨first, sorted⟩ := List.pairwise_cons.mp sorted
    rw [pairs, List.mem_append, List.mem_map, ih sorted]
    constructor
    · rintro (⟨d, hd, same⟩ | ⟨ha, hb, less⟩)
      · obtain ⟨rfl, rfl⟩ := Prod.mk.inj same
        exact ⟨List.mem_cons_self, List.mem_cons_of_mem _ hd, first _ hd⟩
      · exact ⟨List.mem_cons_of_mem _ ha, List.mem_cons_of_mem _ hb, less⟩
    · rintro ⟨ha, hb, less⟩
      rcases List.mem_cons.mp ha with rfl | later
      · rcases List.mem_cons.mp hb with rfl | later
        · exact absurd less (lt_irrefl _)
        · exact .inl ⟨b, later, rfl⟩
      · rcases List.mem_cons.mp hb with rfl | later'
        · exact absurd (less.trans (first a later)) (lt_irrefl _)
        · exact .inr ⟨later, later', less⟩

theorem nodup_pairs {l : List α} (distinct : l.Nodup) : (pairs l).Nodup := by
  induction l with
  | nil => exact List.nodup_nil
  | cons a l ih =>
    obtain ⟨new, distinct⟩ := List.nodup_cons.mp distinct
    refine List.Nodup.append (distinct.map fun b c same => (Prod.mk.inj same).2) (ih distinct) ?_
    intro p hp listed
    obtain ⟨b, -, rfl⟩ := List.mem_map.mp hp
    exact new (mem_of_mem_pairs listed).1

end QaCopilot.Pairs
