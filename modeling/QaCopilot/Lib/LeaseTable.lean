import Mathlib.Data.List.Forall2
import QaCopilot.Lib.Lease
import QaCopilot.Lib.Table

/-!
# Tables of claimable jobs

The rows of a table hold a lease beside columns that no operation changes. An operation moves the
leases of some rows and appends queued ones.

* `Advance.checked`: every lease stays checked;
* `Later.finished`: a finished row stays as it is.
-/

namespace QaCopilot.Leases

open QaCopilot.Table

section
variable {ρ κ Token Outcome Code : Type}
variable (Ends : Outcome → Option Code → Bool → Prop) (columns : ρ → κ)
  (lease : ρ → Lease Token Outcome Code)

/-- What an operation does to one row. -/
def RowMove (r r' : ρ) : Prop :=
  columns r' = columns r ∧ (r' = r ∨ Move Ends (lease r) (lease r'))

/-- What an operation does to the table. -/
inductive Advance (rows : List ρ) : List ρ → Prop where
  | intro (moved queued : List ρ) (each : List.Forall₂ (RowMove Ends columns lease) rows moved)
    (new : ∀ r ∈ queued, ∃ createdAt, lease r = .queuedAt createdAt) :
    Advance rows (moved ++ queued)

/-- Every row is still there after any number of moves, and a finished one as it was. -/
def Later (rows rows' : List ρ) : Prop :=
  ∀ r ∈ rows, ∃ r' ∈ rows', columns r' = columns r ∧
    ((lease r).state ≠ .queued → (lease r').state ≠ .queued ∧
      (lease r').claimToken = (lease r).claimToken) ∧
    (∀ o, (lease r).state = .finished o → r' = r)

variable {Ends columns lease}

theorem rowMove_refl (r : ρ) : RowMove Ends columns lease r r := ⟨rfl, .inl rfl⟩

/-- No move queues a job again. -/
theorem RowMove.queued {r r' : ρ} (move : RowMove Ends columns lease r r')
    (queued : (lease r').state = .queued) : r' = r := by
  rcases move.2 with same | move
  · exact same
  · generalize lease r' = l at move queued
    cases move <;> cases queued

theorem Advance.refl (rows : List ρ) : Advance Ends columns lease rows rows := by
  have each : List.Forall₂ (RowMove Ends columns lease) rows rows :=
    List.forall₂_same.mpr fun r _ => rowMove_refl r
  simpa using Advance.intro rows [] each (by simp)

theorem Advance.append (rows : List ρ) {r : ρ} {createdAt : Int}
    (queued : lease r = .queuedAt createdAt) : Advance Ends columns lease rows (rows ++ [r]) := by
  apply Advance.intro rows [r] (List.forall₂_same.mpr fun r _ => rowMove_refl r)
  intro q hq
  exact ⟨createdAt, List.mem_singleton.mp hq ▸ queued⟩

theorem Advance.update {rows : List ρ} {p : ρ → Bool} {f : ρ → ρ}
    (move : ∀ r ∈ rows, p r = true → RowMove Ends columns lease r (f r)) :
    Advance Ends columns lease rows (updateWhere p f rows) := by
  have each : List.Forall₂ (RowMove Ends columns lease) rows (updateWhere p f rows) := by
    rw [updateWhere, List.forall₂_map_right_iff]
    apply List.forall₂_same.mpr
    intro r hr
    split
    · exact move r hr ‹_›
    · exact rowMove_refl r
  simpa using Advance.intro _ [] each (by simp)

/-- A row of the new table is a moved row of the old one or a queued one. -/
theorem Advance.mem {rows rows' : List ρ} (advance : Advance Ends columns lease rows rows') {r' : ρ}
    (h : r' ∈ rows') :
    (∃ r ∈ rows, RowMove Ends columns lease r r') ∨ ∃ createdAt, lease r' = .queuedAt createdAt := by
  obtain ⟨moved, queued, each, new⟩ := advance
  rcases List.mem_append.mp h with h | h
  · obtain ⟨i, lt, rfl⟩ := List.mem_iff_getElem.mp h
    have lt' : i < rows.length := each.length_eq ▸ lt
    exact .inl ⟨rows[i], List.getElem_mem lt', each.get lt' lt⟩
  · exact .inr (new r' h)

theorem Advance.kept {rows rows' : List ρ} (advance : Advance Ends columns lease rows rows') {r : ρ}
    (h : r ∈ rows) : ∃ r' ∈ rows', RowMove Ends columns lease r r' := by
  obtain ⟨moved, queued, each, new⟩ := advance
  obtain ⟨i, lt, rfl⟩ := List.mem_iff_getElem.mp h
  have lt' : i < moved.length := each.length_eq ▸ lt
  exact ⟨moved[i], List.mem_append_left queued (List.getElem_mem lt'), each.get lt lt'⟩

theorem Advance.checked {rows rows' : List ρ} (advance : Advance Ends columns lease rows rows')
    (checked : ∀ r ∈ rows, Checked Ends (lease r)) : ∀ r ∈ rows', Checked Ends (lease r) := by
  intro r' h
  rcases advance.mem h with ⟨r, hr, -, rfl | move⟩ | ⟨createdAt, queued⟩
  · exact checked _ hr
  · exact move.checked (checked r hr)
  · exact queued ▸ .queued

/-- A move neither queues again nor changes the token of a claim. -/
theorem Move.token {l l' : Lease Token Outcome Code} (move : Move Ends l l')
    (taken : l.state ≠ .queued) : l'.state ≠ .queued ∧ l'.claimToken = l.claimToken := by
  cases move with
  | claim c queued => exact absurd queued taken
  | finish o now code => exact ⟨by simp [Lease.finish], rfl⟩

theorem Later.refl (rows : List ρ) : Later columns lease rows rows :=
  fun r h => ⟨r, h, rfl, fun taken => ⟨taken, rfl⟩, fun _ _ => rfl⟩

theorem Later.trans {a b c : List ρ} (first : Later columns lease a b)
    (second : Later columns lease b c) : Later columns lease a c := by
  intro r hr
  obtain ⟨q, hq, same, taken, ended⟩ := first r hr
  obtain ⟨p, hp, same', taken', ended'⟩ := second q hq
  refine ⟨p, hp, same'.trans same, ?_, ?_⟩
  · intro h
    exact ⟨(taken' (taken h).1).1, (taken' (taken h).1).2.trans (taken h).2⟩
  · intro o h
    have := ended o h
    subst this
    exact ended' o h

theorem Advance.later {rows rows' : List ρ} (advance : Advance Ends columns lease rows rows') :
    Later columns lease rows rows' := by
  intro r hr
  obtain ⟨r', hr', same, rfl | move⟩ := advance.kept hr
  · exact ⟨_, hr', same, fun taken => ⟨taken, rfl⟩, fun _ _ => rfl⟩
  · exact ⟨r', hr', same, move.token, fun o h => absurd h move.not_finished⟩

end

end QaCopilot.Leases
