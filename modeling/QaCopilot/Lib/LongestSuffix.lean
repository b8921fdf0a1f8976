import Mathlib.Data.List.Infix

/-!
# The longest suffix with a property

* `IsLongest.unique`: a list has at most one;
* `IsLongest.append_iff`: what lies before the longest suffix of a list never comes into a longest
  suffix again, however the list goes on.
-/

namespace QaCopilot.LongestSuffix

variable {α : Type}

/-- `s` has the property, and holds every suffix of `l` that has it. -/
structure IsLongest (P : List α → Prop) (s l : List α) : Prop where
  suffix : s <:+ l
  holds : P s
  longest : ∀ t, t <:+ l → P t → t <:+ s

section
variable {P : List α → Prop} {s t k l : List α} {a : α}

theorem IsLongest.unique (hs : IsLongest P s l) (ht : IsLongest P t l) : s = t := by
  have le := (ht.longest s hs.suffix hs.holds).length_le
  have ge := (hs.longest t ht.suffix ht.holds).length_le
  exact (ht.longest s hs.suffix hs.holds).eq_of_length (by omega)

theorem IsLongest.self (h : P l) : IsLongest P l l :=
  ⟨List.suffix_refl l, h, fun _ within _ => within⟩

/-- The longest suffix is that of every list between the two. -/
theorem IsLongest.within (h : IsLongest P s l) (holds : s <:+ k) (between : k <:+ l) :
    IsLongest P s k :=
  ⟨holds, h.holds, fun t within ht => h.longest t (within.trans between) ht⟩

theorem IsLongest.suffix_append (shrinks : ∀ u b, P (u ++ [b]) → P u) (h : IsLongest P s l)
    (within : t <:+ l ++ [a]) (ht : P t) : t <:+ s ++ [a] := by
  rcases List.eq_nil_or_concat t with rfl | ⟨u, b, rfl⟩
  · exact List.nil_suffix
  · rw [List.concat_eq_append] at within ht ⊢
    obtain ⟨z, eq⟩ := within
    rw [← List.append_assoc] at eq
    obtain ⟨eq, last⟩ := List.append_inj' eq rfl
    obtain ⟨y, suffix⟩ := h.longest u ⟨z, eq⟩ (shrinks u b ht)
    exact ⟨y, by rw [← List.append_assoc, suffix, last]⟩

theorem IsLongest.append_iff (shrinks : ∀ u b, P (u ++ [b]) → P u) (h : IsLongest P s l)
    (holds : s <:+ k) (between : k <:+ l) :
    IsLongest P t (k ++ [a]) ↔ IsLongest P t (l ++ [a]) := by
  have wider : k ++ [a] <:+ l ++ [a] := by
    obtain ⟨z, eq⟩ := between
    exact ⟨z, by rw [← List.append_assoc, eq]⟩
  have narrow : ∀ u, u <:+ l ++ [a] → P u → u <:+ k ++ [a] := by
    intro u within hu
    obtain ⟨y, eq⟩ := holds
    exact (h.suffix_append shrinks within hu).trans ⟨y, by rw [← List.append_assoc, eq]⟩
  constructor
  · intro next
    exact ⟨next.suffix.trans wider, next.holds,
      fun u within hu => next.longest u (narrow u within hu) hu⟩
  · intro next
    exact next.within (narrow t next.suffix next.holds) wider

end

end QaCopilot.LongestSuffix
