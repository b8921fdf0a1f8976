import QaCopilot.Lib.Pairs
import QaCopilot.Lib.SortBy
import QaCopilot.Requirements.AnalysisRuns

/-!
# Contradictions

The analysis sorts the citations, so that their order does not matter, and looks at every pair of them
once.

* `analyze_perm`: citations in another order give the same findings;
* `contradictions_exact`: the contradictions are the pairs of opposed citations, each found once.
-/

namespace QaCopilot.Requirements

open QaCopilot.Python QaCopilot.Findings Pairs SortBy

variable {t : Tables} {sha1 : Bytes → BitVec 160} {cs : List Citation}

/-! ## Order -/

/-- The citations have identifiers of their own. -/
def Distinct (cs : List Citation) : Prop := (cs.map (·.id)).Nodup

theorem Distinct.eq_of_id (distinct : Distinct cs) {a b : Citation} (ha : a ∈ cs) (hb : b ∈ cs)
    (same : a.id = b.id) : a = b := List.inj_on_of_nodup_map distinct ha hb same

theorem orderedCitations_eq (cs : List Citation) :
    orderedCitations cs = sortBy (fun c : Citation => c.id.toNat) cs := rfl

theorem mem_orderedCitations {c : Citation} : c ∈ orderedCitations cs ↔ c ∈ cs := by
  rw [orderedCitations_eq, mem_sortBy]

theorem orderedCitations_perm (distinct : Distinct cs) {cs' : List Citation} (same : cs'.Perm cs) :
    orderedCitations cs' = orderedCitations cs := by
  simp only [orderedCitations_eq]
  refine sorted_unique (fun c : Citation => c.id.toNat) ?_ ?_ (sortBy_pairwise _ _)
    (sortBy_pairwise _ _)
  · exact (sortBy_perm_self _ _).trans (same.trans (sortBy_perm_self _ _).symm)
  · intro a ha b hb equal
    exact distinct.eq_of_id (same.mem_iff.mp (mem_sortBy.mp ha)) (same.mem_iff.mp (mem_sortBy.mp hb))
      (BitVec.eq_of_toNat_eq equal)

/-- Citations in another order give the same findings. -/
theorem analyze_perm (distinct : Distinct cs) {cs' : List Citation} (same : cs'.Perm cs) :
    analyzeCitations t sha1 cs' = analyzeCitations t sha1 cs := by
  rw [analyzeCitations, analyzeCitations, orderedCitations_perm distinct same]

theorem orderedCitations_nodup (distinct : Distinct cs) : (orderedCitations cs).Nodup :=
  (sortBy_perm_self (fun c : Citation => c.id.toNat) cs).nodup_iff.mpr (List.Nodup.of_map _ distinct)

theorem orderedCitations_sorted (distinct : Distinct cs) :
    (orderedCitations cs).Pairwise fun a b => a.id.toNat < b.id.toNat := by
  have ids : ((orderedCitations cs).map (·.id)).Nodup :=
    ((sortBy_perm_self (fun c : Citation => c.id.toNat) cs).map Citation.id).nodup_iff.mpr distinct
  have sorted := sortBy_pairwise (fun c : Citation => c.id.toNat) cs
  refine (sorted.and (List.pairwise_map.mp ids)).imp fun both => ?_
  exact Nat.lt_of_le_of_ne both.1 fun equal => both.2 (BitVec.eq_of_toNat_eq equal)

/-! ## Pairs -/

/-- The statements of two citations have the same subject and predicate and opposite polarity. -/
def Opposed (t : Tables) (a b : Citation) : Prop :=
  ∃ subject negative predicate, mustStatement t a = some (subject, negative, predicate) ∧
    mustStatement t b = some (subject, !negative, predicate)

theorem contradicts_iff {a b : Citation} : contradicts t a b = true ↔ Opposed t a b := by
  constructor
  · intro h
    unfold contradicts at h
    split at h
    · rename_i subject negative predicate subject' negative' predicate' left right
      simp only [Bool.and_eq_true, decide_eq_true_eq, bne_iff_ne] at h
      obtain ⟨⟨rfl, rfl⟩, ne⟩ := h
      have opposite : negative' = !negative := by
        revert ne
        cases negative <;> cases negative' <;> decide
      exact ⟨subject, negative, predicate, left, opposite ▸ right⟩
    · cases h
  · rintro ⟨subject, negative, predicate, left, right⟩
    simp [contradicts, left, right]

instance (t : Tables) (a b : Citation) : Decidable (Opposed t a b) :=
  decidable_of_iff (contradicts t a b = true) contradicts_iff

theorem Opposed.symm {a b : Citation} (h : Opposed t a b) : Opposed t b a := by
  obtain ⟨subject, negative, predicate, left, right⟩ := h
  exact ⟨subject, !negative, predicate, right, by rwa [Bool.not_not]⟩

theorem contradictions_eq (t : Tables) (sha1 : Bytes → BitVec 160) (cs : List Citation) :
    contradictions t sha1 cs =
      ((pairs cs).filter fun p => contradicts t p.1 p.2).map fun p => contradiction sha1 p.1 p.2 := by
  induction cs with
  | nil => rfl
  | cons a cs ih =>
    rw [contradictions, ih, pairs, List.filter_append, List.map_append, List.filter_map,
      List.map_map]
    rfl

/-- The pairs that the analysis finds opposed. -/
def opposedPairs (t : Tables) (cs : List Citation) : List (Citation × Citation) :=
  (pairs (orderedCitations cs)).filter fun p => contradicts t p.1 p.2

theorem opposedPairs_nodup (distinct : Distinct cs) : (opposedPairs t cs).Nodup :=
  (nodup_pairs (orderedCitations_nodup distinct)).filter _

theorem mem_opposedPairs (distinct : Distinct cs) {a b : Citation} :
    (a, b) ∈ opposedPairs t cs ↔ a ∈ cs ∧ b ∈ cs ∧ a.id.toNat < b.id.toNat ∧ Opposed t a b := by
  rw [opposedPairs, List.mem_filter, mem_pairs (orderedCitations_sorted distinct),
    mem_orderedCitations, mem_orderedCitations, contradicts_iff]
  tauto

/-! ## Findings -/

theorem passageFindings_category {c : Citation} {f : RequirementFindingV1}
    (h : f ∈ passageFindings t sha1 c) : f.category ≠ .contradiction := by
  simp only [passageFindings, List.mem_append, List.mem_map, List.mem_ite_nil_right,
    List.mem_singleton] at h
  rcases h with (((⟨-, rfl⟩ | ⟨term, -, rfl⟩) | ⟨-, rfl⟩) | ⟨-, rfl⟩) | ⟨term, -, rfl⟩ <;>
    exact FindingCategory.noConfusion

/-- The contradictions of an analysis. -/
def foundContradictions (t : Tables) (sha1 : Bytes → BitVec 160) (cs : List Citation) :
    List RequirementFindingV1 :=
  (analyzeCitations t sha1 cs).filter (·.category = .contradiction)

theorem foundContradictions_eq (t : Tables) (sha1 : Bytes → BitVec 160) (cs : List Citation) :
    foundContradictions t sha1 cs =
      (opposedPairs t cs).map fun p => contradiction sha1 p.1 p.2 := by
  have none : ((orderedCitations cs).flatMap (passageFindings t sha1)).filter
      (·.category = .contradiction) = [] := by
    rw [List.filter_eq_nil_iff]
    intro f hf
    obtain ⟨c, -, hf⟩ := List.mem_flatMap.mp hf
    simpa using passageFindings_category hf
  have all : (contradictions t sha1 (orderedCitations cs)).filter (·.category = .contradiction) =
      contradictions t sha1 (orderedCitations cs) := by
    rw [List.filter_eq_self, contradictions_eq]
    intro f hf
    obtain ⟨p, -, rfl⟩ := List.mem_map.mp hf
    rfl
  rw [foundContradictions, analyzeCitations, List.filter_append, none, all, contradictions_eq]
  rfl

/-- The finding cites these two, in one order or the other. -/
def CitesBoth (a b : Citation) (f : RequirementFindingV1) : Bool :=
  f.evidence.map (·.citationId) = [a.id, b.id] || f.evidence.map (·.citationId) = [b.id, a.id]

theorem citesBoth_contradiction {a b : Citation} {p : Citation × Citation} :
    CitesBoth a b (contradiction sha1 p.1 p.2) = true ↔
      (p.1.id = a.id ∧ p.2.id = b.id) ∨ p.1.id = b.id ∧ p.2.id = a.id := by
  simp [CitesBoth, contradiction, supportedFinding]

/-- A pair of opposed citations is found once, and no other pair. -/
theorem count_citesBoth (distinct : Distinct cs) {a b : Citation} (ha : a ∈ cs) (hb : b ∈ cs)
    (less : a.id.toNat < b.id.toNat) :
    (foundContradictions t sha1 cs).countP (CitesBoth a b) = if Opposed t a b then 1 else 0 := by
  have same : ∀ p ∈ opposedPairs t cs,
      CitesBoth a b (contradiction sha1 p.1 p.2) = true ↔ p = (a, b) := by
    rintro ⟨c, d⟩ hp
    obtain ⟨hc, hd, order, -⟩ := (mem_opposedPairs distinct).mp hp
    rw [citesBoth_contradiction]
    constructor
    · rintro (⟨left, right⟩ | ⟨left, right⟩)
      · rw [distinct.eq_of_id hc ha left, distinct.eq_of_id hd hb right]
      · simp only at left right
        rw [left, right] at order
        exact absurd order (Nat.lt_asymm less)
    · intro equal
      obtain ⟨rfl, rfl⟩ := Prod.mk.inj equal
      exact .inl ⟨rfl, rfl⟩
  have counted : (foundContradictions t sha1 cs).countP (CitesBoth a b) =
      (opposedPairs t cs).count (a, b) := by
    rw [foundContradictions_eq, List.countP_map, List.count]
    refine List.countP_congr fun p hp => ?_
    rw [Function.comp_apply, same p hp, beq_iff_eq]
  rw [counted]
  by_cases opposed : Opposed t a b
  · rw [if_pos opposed, List.count_eq_one_of_mem (opposedPairs_nodup distinct)]
    exact (mem_opposedPairs distinct).mpr ⟨ha, hb, less, opposed⟩
  · rw [if_neg opposed, List.count_eq_zero]
    exact fun listed => opposed ((mem_opposedPairs distinct).mp listed).2.2.2

theorem citesBoth_symm (a b : Citation) : CitesBoth a b = CitesBoth b a := by
  funext f
  exact Bool.or_comm _ _

/-- The findings do not depend on the order of the citations, and the contradictions are the pairs of
opposed citations, each found once. -/
theorem contradictions_exact (t : Tables) (sha1 : Bytes → BitVec 160) {cs : List Citation}
    (distinct : Distinct cs) :
    (∀ cs', cs'.Perm cs → analyzeCitations t sha1 cs' = analyzeCitations t sha1 cs) ∧
      (∀ f ∈ foundContradictions t sha1 cs,
        ∃ a ∈ cs, ∃ b ∈ cs, a ≠ b ∧ Opposed t a b ∧ CitesBoth a b f = true) ∧
      ∀ a ∈ cs, ∀ b ∈ cs, a ≠ b →
        (foundContradictions t sha1 cs).countP (CitesBoth a b) = if Opposed t a b then 1 else 0 := by
  refine ⟨fun cs' same => analyze_perm distinct same, fun f hf => ?_, fun a ha b hb ne => ?_⟩
  · rw [foundContradictions_eq] at hf
    obtain ⟨⟨a, b⟩, hp, rfl⟩ := List.mem_map.mp hf
    obtain ⟨ha, hb, order, opposed⟩ := (mem_opposedPairs distinct).mp hp
    refine ⟨a, ha, b, hb, ?_, opposed, citesBoth_contradiction.mpr (.inl ⟨rfl, rfl⟩)⟩
    rintro rfl
    exact absurd order (lt_irrefl _)
  · rcases lt_trichotomy a.id.toNat b.id.toNat with less | equal | greater
    · exact count_citesBoth distinct ha hb less
    · exact absurd (distinct.eq_of_id ha hb (BitVec.eq_of_toNat_eq equal)) ne
    · rw [citesBoth_symm, count_citesBoth distinct hb ha greater]
      exact if_congr ⟨Opposed.symm, Opposed.symm⟩ rfl rfl

/-- Two requirements on the same action, one of which forbids it. -/
def samplePair : List Citation :=
  [⟨12#128, 1#128, ⟨lit "Users must not export reports.", by decide +kernel⟩⟩,
    ⟨11#128, 1#128, ⟨lit "Users must export reports.", by decide +kernel⟩⟩]

theorem contradictions_exact_sample :
    (∀ cs', cs'.Perm samplePair → analyzeCitations sampleTables (fun _ => 0) cs' =
        analyzeCitations sampleTables (fun _ => 0) samplePair) ∧
      (∀ f ∈ foundContradictions sampleTables (fun _ => 0) samplePair, ∃ a ∈ samplePair,
        ∃ b ∈ samplePair, a ≠ b ∧ Opposed sampleTables a b ∧ CitesBoth a b f = true) ∧
      ∀ a ∈ samplePair, ∀ b ∈ samplePair, a ≠ b →
        (foundContradictions sampleTables (fun _ => 0) samplePair).countP (CitesBoth a b) =
          if Opposed sampleTables a b then 1 else 0 :=
  contradictions_exact sampleTables (fun _ => 0) (by decide : (samplePair.map (·.id)).Nodup)

end QaCopilot.Requirements
