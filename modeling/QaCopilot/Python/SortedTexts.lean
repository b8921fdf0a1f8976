import QaCopilot.Python.Objects

/-!
# Sorted texts

* `sortedTexts_eq`: two lists sort to one exactly when they hold the same texts as often;
* `sortByTexts_eq`, `sortByTexts_stable`: a sort by tuples of texts.
-/

namespace QaCopilot.Python

theorem Str.le_antisymm : ∀ {s t : Str}, Str.le s t = true → Str.le t s = true → s = t
  | [], [], _, _ => rfl
  | [], _ :: _, _, h => by cases h
  | _ :: _, [], h, _ => by cases h
  | a :: s, b :: t, h, h' => by
    simp only [Str.le, Bool.or_eq_true, Bool.and_eq_true, decide_eq_true_eq, beq_iff_eq] at h h'
    have eq : a.val = b.val := by omega
    rw [Fin.ext eq, Str.le_antisymm (h.resolve_left (by omega)).2 (h'.resolve_left (by omega)).2]

theorem Str.le_total : ∀ s t : Str, Str.le s t = true ∨ Str.le t s = true
  | [], _ => .inl rfl
  | _ :: _, [] => .inr rfl
  | a :: s, b :: t => by
    simp only [Str.le, Bool.or_eq_true, Bool.and_eq_true, decide_eq_true_eq, beq_iff_eq]
    rcases Nat.lt_trichotomy a.val b.val with lt | eq | gt
    · exact .inl (.inl lt)
    · rcases Str.le_total s t with h | h
      · exact .inl (.inr ⟨eq, h⟩)
      · exact .inr (.inr ⟨eq.symm, h⟩)
    · exact .inr (.inl gt)

theorem Str.le_trans : ∀ {s t u : Str}, Str.le s t = true → Str.le t u = true → Str.le s u = true
  | [], _, _, _, _ => rfl
  | _ :: _, [], _, h, _ => by cases h
  | _ :: _, _ :: _, [], _, h => by cases h
  | a :: s, b :: t, c :: u, h, h' => by
    simp only [Str.le, Bool.or_eq_true, Bool.and_eq_true, decide_eq_true_eq, beq_iff_eq] at h h' ⊢
    rcases h with lt | ⟨eq, rest⟩
    · left
      omega
    · rcases h' with lt | ⟨eq', rest'⟩
      · left
        omega
      · exact .inr ⟨eq.trans eq', Str.le_trans rest rest'⟩

theorem sortedTexts_pairwise (texts : List Str) :
    (sortedTexts texts).Pairwise fun a b => Str.le a b = true := by
  have : Std.Total fun a b : Str => Str.le a b = true := ⟨Str.le_total⟩
  have : IsTrans Str fun a b => Str.le a b = true := ⟨fun _ _ _ => Str.le_trans⟩
  exact List.pairwise_insertionSort _ texts

theorem sortedTexts_perm (texts : List Str) : (sortedTexts texts).Perm texts :=
  List.perm_insertionSort _ texts

theorem mem_sortedTexts {texts : List Str} {s : Str} : s ∈ sortedTexts texts ↔ s ∈ texts :=
  (sortedTexts_perm texts).mem_iff

theorem sortedTexts_eq {texts others : List Str} :
    sortedTexts texts = sortedTexts others ↔ texts.Perm others := by
  constructor
  · intro same
    exact (sortedTexts_perm texts).symm.trans (same ▸ sortedTexts_perm others)
  · intro perm
    have both := ((sortedTexts_perm texts).trans perm).trans (sortedTexts_perm others).symm
    exact both.eq_of_pairwise (fun _ _ _ _ => Str.le_antisymm) (sortedTexts_pairwise _)
      (sortedTexts_pairwise _)

/-! ## Tuples of texts -/

/-- The order of tuples of texts. -/
def textsLe : List Str → List Str → Bool
  | [], _ => true
  | _ :: _, [] => false
  | a :: s, b :: t => if a = b then textsLe s t else Str.le a b

theorem textsLe_total : ∀ s t : List Str, textsLe s t = true ∨ textsLe t s = true
  | [], _ => .inl rfl
  | _ :: _, [] => .inr rfl
  | a :: s, b :: t => by
    unfold textsLe
    by_cases same : a = b
    · rw [if_pos same, if_pos same.symm]
      exact textsLe_total s t
    · rw [if_neg same, if_neg (Ne.symm same)]
      exact Str.le_total a b

theorem textsLe_trans : ∀ {s t u : List Str}, textsLe s t = true → textsLe t u = true →
    textsLe s u = true
  | [], _, _, _, _ => rfl
  | _ :: _, [], _, h, _ => by cases h
  | _ :: _, _ :: _, [], _, h => by cases h
  | a :: s, b :: t, c :: u, h, h' => by
    unfold textsLe at h h' ⊢
    by_cases first : a = b
    · subst first
      rw [if_pos rfl] at h
      by_cases second : a = c
      · rw [if_pos second] at h' ⊢
        exact textsLe_trans h h'
      · rwa [if_neg second] at h' ⊢
    · rw [if_neg first] at h
      by_cases second : b = c
      · subst second
        rwa [if_neg first]
      · rw [if_neg second] at h'
        by_cases third : a = c
        · subst third
          exact absurd (Str.le_antisymm h h') first
        · rw [if_neg third]
          exact Str.le_trans h h'

theorem textsLe_antisymm : ∀ {s t : List Str}, textsLe s t = true → textsLe t s = true → s = t
  | [], [], _, _ => rfl
  | [], _ :: _, _, h => by cases h
  | _ :: _, [], h, _ => by cases h
  | a :: s, b :: t, h, h' => by
    unfold textsLe at h h'
    by_cases same : a = b
    · rw [if_pos same] at h
      rw [if_pos same.symm] at h'
      rw [same, textsLe_antisymm h h']
    · rw [if_neg same] at h
      rw [if_neg (Ne.symm same)] at h'
      exact absurd (Str.le_antisymm h h') same

section
variable {α : Type} {key : α → List Str}

/-- `sorted(l, key=...)` with a tuple of texts for a key. -/
def sortByTexts (key : α → List Str) (l : List α) : List α :=
  l.insertionSort fun a b => textsLe (key a) (key b)

theorem sortByTexts_perm (key : α → List Str) (l : List α) : (sortByTexts key l).Perm l :=
  List.perm_insertionSort _ l

theorem sortByTexts_pairwise (key : α → List Str) (l : List α) :
    (sortByTexts key l).Pairwise fun a b => textsLe (key a) (key b) = true := by
  have : Std.Total fun a b : α => textsLe (key a) (key b) = true :=
    ⟨fun a b => textsLe_total (key a) (key b)⟩
  have : IsTrans α fun a b => textsLe (key a) (key b) = true := ⟨fun _ _ _ => textsLe_trans⟩
  exact List.pairwise_insertionSort _ l

/-- Keys that differ leave one order of the elements of a list. -/
theorem sortByTexts_eq {l l' : List α} (same : l.Perm l')
    (distinct : ∀ a ∈ l, ∀ b ∈ l, key a = key b → a = b) : sortByTexts key l = sortByTexts key l' := by
  have perm := (sortByTexts_perm key l).trans (same.trans (sortByTexts_perm key l').symm)
  refine perm.eq_of_pairwise ?_ (sortByTexts_pairwise key l) (sortByTexts_pairwise key l')
  intro a b ha hb le ge
  exact distinct a ((sortByTexts_perm key l).mem_iff.mp ha) b
    (same.mem_iff.mpr ((sortByTexts_perm key l').mem_iff.mp hb)) (textsLe_antisymm le ge)

/-- Elements that have one key keep their order. -/
theorem sortByTexts_stable (l : List α) (k : List Str) :
    (sortByTexts key l).filter (key · = k) = l.filter (key · = k) := by
  have tied : (l.filter (key · = k)).Pairwise fun a b => textsLe (key a) (key b) = true := by
    rw [List.pairwise_iff_forall_sublist]
    intro a b sub
    have ha := (List.mem_filter.mp (sub.subset List.mem_cons_self)).2
    have hb := (List.mem_filter.mp (sub.subset (List.mem_cons_of_mem _ List.mem_cons_self))).2
    simp only [decide_eq_true_eq] at ha hb
    rw [ha, hb]
    exact (textsLe_total k k).elim id id
  have sub := (List.sublist_insertionSort tied List.filter_sublist).filter (key · = k)
  rw [List.filter_filter] at sub
  simp only [Bool.and_self] at sub
  exact (sub.eq_of_length ((sortByTexts_perm key l).filter _).length_eq.symm).symm

end

end QaCopilot.Python
