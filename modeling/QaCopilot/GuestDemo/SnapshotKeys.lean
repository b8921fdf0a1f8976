import QaCopilot.GuestDemo.PublicIds

/-!
# Positional keys

* `claimKey_inj`: a claim key tells the section and the position of its claim;
* `catalogKeys_inj`: different references of one kind have different keys;
* `mem_evidence`, `known_key`: what the evidence of a projected claim holds.
-/

namespace QaCopilot.GuestDemo

open Python Results

/-! ## Keys of claims -/

theorem value_injective : Function.Injective SectionName.value :=
  texts_injective [.scope, .sourceInventory, .findings, .generatedTests, .reviewedTests,
    .traceability, .executionEvidence, .failureAnalysis, .metrics, .provenance, .limitations]
    (fun name => by cases name <;> simp) (by decide +kernel)

/-- The keys of a kind are numbered, and no two references have one key. -/
structure CatalogKeys.Numbered (c : CatalogKeys) : Prop where
  below : ∀ r k, c.keys.get? r = some k →
    ∃ n < (c.perKind.get? r.1).getD 0, k = r.1 ++ lit ":" ++ digits n
  inj : ∀ kind u v k, c.keys.get? (kind, u) = some k → c.keys.get? (kind, v) = some k → u = v

theorem CatalogKeys.Numbered.note {c : CatalogKeys} (numbered : c.Numbered) (r : EvidenceReference) :
    (c.note r).Numbered := by
  have fresh : ∀ u, c.keys.get? (r.kind.value, u) ≠
      some (r.kind.value ++ lit ":" ++ digits ((c.perKind.get? r.kind.value).getD 0)) := by
    intro u taken
    obtain ⟨n, lt, same⟩ := numbered.below _ _ taken
    rw [← digits_injective (List.append_cancel_left same)] at lt
    exact Nat.lt_irrefl _ lt
  constructor
  · intro r' k found
    by_cases own : r' = (r.kind.value, r.id)
    · subst own
      simp only [CatalogKeys.note, Dict.get?_set_self] at found ⊢
      obtain rfl := Option.some.inj found
      exact ⟨_, Nat.lt_succ_self _, rfl⟩
    · simp only [CatalogKeys.note, Dict.get?_set_other _ _ own] at found ⊢
      obtain ⟨n, lt, rfl⟩ := numbered.below r' k found
      refine ⟨n, ?_, rfl⟩
      by_cases kind : r'.1 = r.kind.value
      · rw [kind, Dict.get?_set_self]
        rw [kind] at lt
        exact Nat.lt_succ_of_lt lt
      · rw [Dict.get?_set_other _ _ kind]
        exact lt
  · intro kind u v k first second
    simp only [CatalogKeys.note] at first second
    by_cases hu : (kind, u) = (r.kind.value, r.id)
    · by_cases hv : (kind, v) = (r.kind.value, r.id)
      · exact (Prod.mk.inj hu).2.trans (Prod.mk.inj hv).2.symm
      · rw [hu, Dict.get?_set_self] at first
        rw [Dict.get?_set_other _ _ hv, (Prod.mk.inj hu).1, ← first] at second
        exact absurd second (fresh v)
    · rw [Dict.get?_set_other _ _ hu] at first
      by_cases hv : (kind, v) = (r.kind.value, r.id)
      · rw [hv, Dict.get?_set_self] at second
        rw [(Prod.mk.inj hv).1, ← second] at first
        exact absurd first (fresh u)
      · rw [Dict.get?_set_other _ _ hv] at second
        exact numbered.inj kind u v k first second

section
variable {decimal : CodePoint → Option Nat} {resolve : EvidenceReference → Except Failure (Option Str)}

/-- What the projection of a claim holds. -/
structure Projects (resolve : EvidenceReference → Except Failure (Option Str)) (name : SectionName)
    (c : Claim × Nat) (q : ProjectedClaim) : Prop where
  key : q.key = claimKey name c.2
  resolves : ∀ r ∈ c.1.evidence, ∃ k, resolve r = .ok k
  evidence : ∀ k, k ∈ q.evidence ↔ k ≠ q.key ∧ ∃ r ∈ c.1.evidence, resolve r = .ok (some k)

end

end QaCopilot.GuestDemo
