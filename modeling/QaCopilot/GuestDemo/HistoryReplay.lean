import QaCopilot.GuestDemo.History
import QaCopilot.Lib.Results

/-!
# What a history that replays says

* `replayed`: the pointer, what is published and what is withdrawn at the end of a replay;
* `withdrawn_mono`: a longer history withdraws no less.
-/

namespace QaCopilot.GuestDemo

open Python Results

/-- The step of the replay, for each action. -/
theorem replayEntry_ok {r r' : Replay} {e : HistoryEntry} (step : replayEntry r e = .ok r') :
    e.contentHash ∉ r.withdrawn ∧ r.current ≠ some e.contentHash ∧ r'.current = some e.contentHash ∧
      ((e.action = .publish ∧ e.previousHash = r.current ∧
          r'.published = r.published ++ [e.contentHash] ∧ r'.withdrawn = r.withdrawn) ∨
        (e.action = .rollback ∧ e.contentHash ∈ r.published ∧ r'.published = r.published ∧
          ∃ current, r.current = some current ∧ e.withdrawnHash = some current ∧
            r'.withdrawn = r.withdrawn ++ [current])) := by
  unfold replayEntry at step
  split at step
  · cases step
  · rename_i live
    split at step
    · rename_i act
      split at step
      · cases step
      · rename_i consistent
        obtain ⟨previous, new⟩ := not_or.mp consistent
        obtain rfl := Except.ok.inj step
        exact ⟨live, new, rfl, .inl ⟨act, not_not.mp previous, rfl, rfl⟩⟩
    · rename_i act
      split at step
      · cases step
      · rename_i current there
        split at step
        · cases step
        · rename_i consistent
          obtain ⟨named, consistent⟩ := not_or.mp consistent
          obtain ⟨known, other⟩ := not_or.mp consistent
          obtain rfl := Except.ok.inj step
          have moves : r.current ≠ some e.contentHash := by
            rw [there]
            exact fun same => other (Option.some.inj same).symm
          exact ⟨live, moves, rfl, .inr ⟨act, not_not.mp known, rfl, current, there, not_not.mp named,
            rfl⟩⟩

/-- The variables of the replay at the end of these entries. -/
structure Replayed (entries : List HistoryEntry) (r : Replay) : Prop where
  current : r.current = entries.getLast?.map (·.contentHash)
  withdrawn : r.withdrawn = withdrawnHashes entries
  published : ∀ h, h ∈ r.published ↔ h ∈ entries.map (·.contentHash)
  publish : ∀ h ∈ r.published, ∃ e ∈ entries, e.action = .publish ∧ e.contentHash = h
  live : ∀ h, r.current = some h → h ∈ r.published ∧ h ∉ r.withdrawn
  known : ∀ h ∈ r.withdrawn, h ∈ r.published
  previous : ∀ e ∈ entries, e.action = .publish → ∀ h, e.previousHash = some h → h ∈ r.published

theorem replayed_nil : Replayed [] .start where
  current := rfl
  withdrawn := rfl
  published := fun _ => Iff.rfl
  publish := fun _ h => nomatch h
  live := fun _ h => nomatch h
  known := fun _ h => nomatch h
  previous := fun _ h => nomatch h

theorem withdrawnHashes_append (entries others : List HistoryEntry) :
    withdrawnHashes (entries ++ others) = withdrawnHashes entries ++ withdrawnHashes others :=
  List.filterMap_append

theorem replayed_step {entries : List HistoryEntry} {e : HistoryEntry} {r r' : Replay}
    (held : Replayed entries r) (step : replayEntry r e = .ok r') : Replayed (entries ++ [e]) r' := by
  obtain ⟨live, moves, now, act⟩ := replayEntry_ok step
  have current : r'.current = (entries ++ [e]).getLast?.map (·.contentHash) := by
    rw [now, List.getLast?_concat]
    rfl
  rcases act with ⟨publish, named, listed, same⟩ | ⟨rollback, known, same, old, there, named, withdrawn⟩
  · have grows : ∀ h, h ∈ r'.published ↔ h ∈ r.published ∨ h = e.contentHash := by
      intro h
      rw [listed, List.mem_append, List.mem_singleton]
    refine ⟨current, ?_, ?_, ?_, ?_, ?_, ?_⟩
    · rw [same, withdrawnHashes_append, held.withdrawn]
      simp [withdrawnHashes, publish]
    · intro h
      rw [grows, held.published, List.map_append, List.mem_append]
      simp
    · intro h hh
      rcases (grows h).mp hh with hh | rfl
      · obtain ⟨first, hf, made⟩ := held.publish h hh
        exact ⟨first, List.mem_append_left _ hf, made⟩
      · exact ⟨e, by simp, publish, rfl⟩
    · intro h hh
      obtain rfl := Option.some.inj (now.symm.trans hh)
      exact ⟨(grows _).mpr (.inr rfl), same ▸ live⟩
    · intro h hh
      exact (grows h).mpr (.inl (held.known h (same ▸ hh)))
    · intro x hx published h hh
      rcases List.mem_append.mp hx with hx | hx
      · exact (grows h).mpr (.inl (held.previous x hx published h hh))
      · obtain rfl := List.mem_singleton.mp hx
        exact (grows h).mpr (.inl (held.live h (named ▸ hh)).1)
  · refine ⟨current, ?_, ?_, ?_, ?_, ?_, ?_⟩
    · rw [withdrawn, withdrawnHashes_append, held.withdrawn]
      simp [withdrawnHashes, rollback, named]
    · intro h
      rw [same, held.published, List.map_append, List.mem_append]
      constructor
      · exact .inl
      · rintro (listed | listed)
        · exact listed
        · obtain rfl : h = e.contentHash := by simpa using listed
          exact (held.published _).mp known
    · intro h hh
      obtain ⟨first, hf, made⟩ := held.publish h (same ▸ hh)
      exact ⟨first, List.mem_append_left _ hf, made⟩
    · intro h hh
      obtain rfl := Option.some.inj (now.symm.trans hh)
      refine ⟨same ▸ known, ?_⟩
      rw [withdrawn, List.mem_append, List.mem_singleton]
      rintro (gone | rfl)
      · exact live gone
      · exact moves there
    · intro h hh
      rw [same]
      rw [withdrawn, List.mem_append, List.mem_singleton] at hh
      rcases hh with hh | rfl
      · exact held.known h hh
      · exact (held.live h there).1
    · intro x hx published h hh
      rcases List.mem_append.mp hx with hx | hx
      · exact same ▸ held.previous x hx published h hh
      · obtain rfl := List.mem_singleton.mp hx
        cases rollback.symm.trans published

/-- The pointer, what is published and what is withdrawn at the end of a replay. -/
theorem replayed {entries : List HistoryEntry} {r : Replay} (run : replayHistory entries = .ok r) :
    Replayed entries r :=
  foldlM_run (P := Replayed) replayed_nil (fun _ _ _ _ => replayed_step) run

/-- A longer history withdraws no less. -/
theorem withdrawn_mono {entries : List HistoryEntry} (more : List HistoryEntry) {h : Str}
    (gone : h ∈ withdrawnHashes entries) : h ∈ withdrawnHashes (entries ++ more) := by
  rw [withdrawnHashes_append]
  exact List.mem_append_left _ gone

end QaCopilot.GuestDemo
