import Mathlib.Data.List.Sort

/-!
# Sorting by a key

A stable sort, as `sorted(..., key=...)`.

* `sorted_unique`: keys that differ leave one order of the elements of a list;
* `sortBy_before`: of two elements the one with the smaller key comes first;
* `keys_sortBy`: the keys in order do not depend on the order of the list;
* `sortBy_tie`, `sortBy_rank`: the elements that have one key stand next to each other, in the order
  of the list, after those that have smaller ones;
* `sortBy_reach`: each of them stands at any of their places, for some order of the list;
* `atRank_sortBy`: nothing else stands there.
-/

namespace QaCopilot.SortBy

section
variable {α κ : Type} [LinearOrder κ]

def sortBy (key : α → κ) (l : List α) : List α := l.insertionSort fun a b => key a ≤ key b

theorem sortBy_perm_self (key : α → κ) (l : List α) : (sortBy key l).Perm l :=
  List.perm_insertionSort _ l

@[simp] theorem mem_sortBy {key : α → κ} {l : List α} {a : α} : a ∈ sortBy key l ↔ a ∈ l :=
  (sortBy_perm_self key l).mem_iff

theorem sortBy_pairwise (key : α → κ) (l : List α) :
    (sortBy key l).Pairwise fun a b => key a ≤ key b := by
  have : Std.Total fun a b : α => key a ≤ key b := ⟨fun a b => le_total (key a) (key b)⟩
  have : IsTrans α fun a b => key a ≤ key b := ⟨fun _ _ _ => le_trans⟩
  exact List.pairwise_insertionSort _ l

/-- The elements of a list have one order by keys that differ. -/
theorem sorted_unique (key : α → κ) {l l' : List α} (same : l.Perm l')
    (distinct : ∀ a ∈ l, ∀ b ∈ l, key a = key b → a = b)
    (sorted : l.Pairwise fun a b => key a ≤ key b)
    (sorted' : l'.Pairwise fun a b => key a ≤ key b) : l = l' := by
  refine same.eq_of_pairwise ?_ sorted sorted'
  intro a b ha hb le ge
  exact distinct a ha b (same.mem_iff.mpr hb) (le_antisymm le ge)

theorem sortBy_before (key : α → κ) {l : List α} {a b : α} {i j : Nat}
    (ha : (sortBy key l)[i]? = some a) (hb : (sortBy key l)[j]? = some b)
    (less : key a < key b) : i < j := by
  by_contra later
  rcases Nat.lt_or_eq_of_le (Nat.le_of_not_lt later) with before | same
  · have le := List.pairwise_iff_getElem.mp (sortBy_pairwise key l) j i
      (List.getElem?_eq_some_iff.mp hb).1 (List.getElem?_eq_some_iff.mp ha).1 before
    rw [(List.getElem?_eq_some_iff.mp ha).2, (List.getElem?_eq_some_iff.mp hb).2] at le
    exact absurd less (not_lt.mpr le)
  · rw [← same, hb] at ha
    exact absurd (Option.some.inj ha ▸ less) (lt_irrefl _)

/-! ## Order statistics -/

theorem keys_sortBy (key : α → κ) {l l' : List α} (same : l.Perm l') :
    (sortBy key l).map key = (sortBy key l').map key := by
  have perm := (sortBy_perm_self key l).trans (same.trans (sortBy_perm_self key l').symm)
  refine (perm.map key).eq_of_pairwise (fun a b _ _ => le_antisymm) ?_ ?_
  · exact List.pairwise_map.mpr (sortBy_pairwise key l)
  · exact List.pairwise_map.mpr (sortBy_pairwise key l')

/-- Elements that have one key keep their order. -/
theorem sortBy_stable (key : α → κ) (l : List α) (k : κ) :
    (sortBy key l).filter (key · = k) = l.filter (key · = k) := by
  have tied : (l.filter (key · = k)).Pairwise fun a b => key a ≤ key b := by
    rw [List.pairwise_iff_forall_sublist]
    intro a b sub
    have ha := (List.mem_filter.mp (sub.subset List.mem_cons_self)).2
    have hb := (List.mem_filter.mp (sub.subset (List.mem_cons_of_mem _ List.mem_cons_self))).2
    simp only [decide_eq_true_eq] at ha hb
    rw [ha, hb]
  have sub := (List.sublist_insertionSort tied List.filter_sublist).filter (key · = k)
  rw [List.filter_filter] at sub
  simp only [Bool.and_self] at sub
  exact (sub.eq_of_length ((sortBy_perm_self key l).filter _).length_eq.symm).symm

/-- A list in order is cut in three by a key. -/
theorem sorted_split (key : α → κ) {l : List α} (sorted : l.Pairwise fun a b => key a ≤ key b)
    (k : κ) :
    l = l.filter (key · < k) ++ (l.filter (key · = k) ++ l.filter (k < key ·)) := by
  induction l with
  | nil => rfl
  | cons a l ih =>
    obtain ⟨least, rest⟩ := List.pairwise_cons.mp sorted
    have none_below {k' : κ} (h : k' ≤ key a) : l.filter (key · < k') = [] :=
      List.filter_eq_nil_iff.mpr fun b hb => by simpa using h.trans (least b hb)
    have split := ih rest
    rcases lt_trichotomy (key a) k with below | rfl | above
    · rw [List.filter_cons_of_pos (by simpa using below), List.filter_cons_of_neg
        (by simpa using below.ne), List.filter_cons_of_neg (by simpa using below.le),
        List.cons_append, ← split]
    · rw [none_below le_rfl, List.nil_append] at split
      rw [List.filter_cons_of_neg (by simp), List.filter_cons_of_pos (by simp),
        List.filter_cons_of_neg (by simp), none_below le_rfl, List.nil_append, List.cons_append,
        ← split]
    · have tied : l.filter (key · = k) = [] :=
        List.filter_eq_nil_iff.mpr fun b hb => by simpa using (above.trans_le (least b hb)).ne'
      rw [none_below above.le, tied, List.nil_append, List.nil_append] at split
      rw [List.filter_cons_of_neg (by simpa using above.le), List.filter_cons_of_neg
        (by simpa using above.ne'), List.filter_cons_of_pos (by simpa using above),
        none_below above.le, tied, List.nil_append, List.nil_append, ← split]

theorem length_filter_sortBy (key : α → κ) (l : List α) (p : α → Bool) :
    ((sortBy key l).filter p).length = l.countP p := by
  rw [← List.countP_eq_length_filter, (sortBy_perm_self key l).countP_eq]

/-- The `j`-th of the elements that have the key `k`. -/
theorem sortBy_tie (key : α → κ) (l : List α) (k : κ) {j : Nat}
    (tied : j < l.countP (key · = k)) :
    (sortBy key l)[l.countP (key · < k) + j]? = (l.filter (key · = k))[j]? := by
  rw [List.countP_eq_length_filter] at tied
  rw [sorted_split key (sortBy_pairwise key l) k, ← length_filter_sortBy key l,
    List.getElem?_append_right (Nat.le_add_right _ _), Nat.add_sub_cancel_left, sortBy_stable,
    List.getElem?_append_left tied]

/-- Where an element stands. -/
theorem sortBy_rank (key : α → κ) {l : List α} {i : Nat} {a : α} (ha : (sortBy key l)[i]? = some a) :
    l.countP (key · < key a) ≤ i ∧ i < l.countP (key · < key a) + l.countP (key · = key a) := by
  rw [sorted_split key (sortBy_pairwise key l) (key a)] at ha
  rw [← length_filter_sortBy key l, ← length_filter_sortBy key l]
  constructor
  · by_contra early
    rw [List.getElem?_append_left (by omega)] at ha
    exact absurd (List.mem_filter.mp (List.mem_of_getElem? ha)).2 (by simp)
  · by_contra late
    rw [← List.append_assoc, List.getElem?_append_right (by simpa using late)] at ha
    exact absurd (List.mem_filter.mp (List.mem_of_getElem? ha)).2 (by simp)

/-- An element stands at any place that its key leaves open, once the list is in another order. -/
theorem sortBy_reach (key : α → κ) {l : List α} {a : α} (ha : a ∈ l) {i : Nat}
    (above : l.countP (key · < key a) ≤ i)
    (below : i < l.countP (key · < key a) + l.countP (key · = key a)) :
    ∃ l', l'.Perm l ∧ (sortBy key l')[i]? = some a := by
  obtain ⟨before, after, rfl⟩ := List.mem_iff_append.mp ha
  -- The other elements of the key come first, with `a` at its place among them.
  let tied := (before ++ after).filter (key · = key a)
  let others := (before ++ after).filter fun b => !decide (key b = key a)
  let j := i - (before ++ a :: after).countP (key · < key a)
  have rest : (tied ++ others).Perm (before ++ after) := List.filter_append_perm _ _
  have length : (before ++ a :: after).countP (key · = key a) = tied.length + 1 := by
    rw [List.perm_middle.countP_eq, List.countP_cons_of_pos (by simp), List.countP_eq_length_filter]
  have place : j ≤ tied.length := by omega
  have inserted : (tied.insertIdx j a).Perm (a :: tied) := List.perm_insertIdx a tied place
  have same : (tied.insertIdx j a ++ others).Perm (before ++ a :: after) :=
    (inserted.append_right others).trans ((rest.cons a).trans List.perm_middle.symm)
  have ties : (tied.insertIdx j a ++ others).filter (key · = key a) = tied.insertIdx j a := by
    rw [List.filter_append, List.filter_eq_self.mpr, List.filter_eq_nil_iff.mpr, List.append_nil]
    · intro b hb
      simpa using (List.mem_filter.mp hb).2
    · intro b hb
      rcases List.mem_cons.mp (inserted.mem_iff.mp hb) with rfl | hb
      · simp
      · exact (List.mem_filter.mp hb).2
  refine ⟨_, same, ?_⟩
  have found := sortBy_tie key (tied.insertIdx j a ++ others) (key a) (j := j)
    (by rw [same.countP_eq]; omega)
  rw [same.countP_eq, ties, List.getElem?_insertIdx_self, if_pos place] at found
  rw [← found]
  congr 1
  omega

/-- An element may stand at a place once the list is sorted. -/
def AtRank (key : α → κ) (l : List α) (i : Nat) (a : α) : Prop :=
  a ∈ l ∧ l.countP (key · < key a) ≤ i ∧ i < l.countP (key · < key a) + l.countP (key · = key a)

theorem atRank_perm (key : α → κ) {l l' : List α} (same : l.Perm l') {i : Nat} {a : α} :
    AtRank key l i a ↔ AtRank key l' i a := by
  rw [AtRank, AtRank, same.mem_iff, same.countP_eq, same.countP_eq]

theorem atRank_sortBy (key : α → κ) {l : List α} {i : Nat} {a : α}
    (ha : (sortBy key l)[i]? = some a) : AtRank key l i a :=
  ⟨mem_sortBy.mp (List.mem_of_getElem? ha), sortBy_rank key ha⟩

theorem sortBy_map {β : Type} (key : β → κ) (f : α → β) (l : List α) :
    (sortBy (fun a => key (f a)) l).map f = sortBy key (l.map f) :=
  List.map_insertionSort _ _ f l fun _ _ _ _ => Iff.rfl

end

end QaCopilot.SortBy
