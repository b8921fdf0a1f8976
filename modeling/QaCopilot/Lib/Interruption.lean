import QaCopilot.Lib.Results

/-!
# Interrupted writes

A list of writes, done in order, that may stop before any of them. A write is the smallest step
that is done or not done, so a file that is half written is a list of writes that stopped.

* `interrupted_append`: two lists of writes stop in the first or in the second;
* `interrupted_invariant`: what every write keeps holds wherever they stop;
* `interrupted_appends`: a file that grows stops at a prefix of its data.
-/

namespace QaCopilot.Interruption

open Results

section
variable {σ ω ε : Type} {step : σ → ω → Except ε σ}

/-- The state that is left when the writes stop. -/
def Interrupted (step : σ → ω → Except ε σ) (s : σ) (ws : List ω) (t : σ) : Prop :=
  ∃ k, (ws.take k).foldlM step s = .ok t

theorem interrupted_nil {s t : σ} : Interrupted step s [] t ↔ t = s := by
  constructor
  · rintro ⟨k, run⟩
    rw [List.take_nil] at run
    exact (Except.ok.inj run).symm
  · rintro rfl
    exact ⟨0, rfl⟩

theorem interrupted_cons {s t : σ} {w : ω} {ws : List ω} :
    Interrupted step s (w :: ws) t ↔ t = s ∨ ∃ u, step s w = .ok u ∧ Interrupted step u ws t := by
  constructor
  · rintro ⟨k, run⟩
    cases k with
    | zero => exact .inl (Except.ok.inj run).symm
    | succ k =>
      rw [List.take_succ_cons, List.foldlM_cons] at run
      obtain ⟨u, first, run⟩ := bind_ok.mp run
      exact .inr ⟨u, first, k, run⟩
  · rintro (rfl | ⟨u, first, k, run⟩)
    · exact ⟨0, rfl⟩
    · refine ⟨k + 1, ?_⟩
      rw [List.take_succ_cons, List.foldlM_cons]
      exact bind_ok.mpr ⟨u, first, run⟩

theorem interrupted_of_run {s t : σ} {ws : List ω} (run : ws.foldlM step s = .ok t) :
    Interrupted step s ws t :=
  ⟨ws.length, by rw [List.take_length]; exact run⟩

theorem interrupted_append {s t : σ} {vs ws : List ω} :
    Interrupted step s (vs ++ ws) t ↔
      Interrupted step s vs t ∨ ∃ u, vs.foldlM step s = .ok u ∧ Interrupted step u ws t := by
  induction vs generalizing s with
  | nil =>
    rw [List.nil_append, interrupted_nil]
    constructor
    · exact fun stopped => .inr ⟨s, rfl, stopped⟩
    · rintro (rfl | ⟨u, none', stopped⟩)
      · exact ⟨0, rfl⟩
      · obtain rfl := Except.ok.inj none'
        exact stopped
  | cons v vs ih =>
    rw [List.cons_append, interrupted_cons, interrupted_cons]
    constructor
    · rintro (rfl | ⟨u, first, stopped⟩)
      · exact .inl (.inl rfl)
      · rcases ih.mp stopped with stopped | ⟨u', run, stopped⟩
        · exact .inl (.inr ⟨u, first, stopped⟩)
        · exact .inr ⟨u', bind_ok.mpr ⟨u, first, run⟩, stopped⟩
    · rintro ((rfl | ⟨u, first, stopped⟩) | ⟨u', run, stopped⟩)
      · exact .inl rfl
      · exact .inr ⟨u, first, ih.mpr (.inl stopped)⟩
      · rw [List.foldlM_cons] at run
        obtain ⟨u, first, run⟩ := bind_ok.mp run
        exact .inr ⟨u, first, ih.mpr (.inr ⟨u', run, stopped⟩)⟩

theorem interrupted_invariant {I : σ → Prop} {s t : σ} {ws : List ω}
    (kept : ∀ w ∈ ws, ∀ u v, I u → step u w = .ok v → I v) (start : I s)
    (stopped : Interrupted step s ws t) : I t := by
  induction ws generalizing s with
  | nil => exact interrupted_nil.mp stopped ▸ start
  | cons w ws ih =>
    rcases interrupted_cons.mp stopped with rfl | ⟨u, first, stopped⟩
    · exact start
    · exact ih (fun w hw => kept w (List.mem_cons_of_mem _ hw))
        (kept w List.mem_cons_self s u start first) stopped

/-- `interrupted_invariant` for writes that are all done. -/
theorem run_invariant {I : σ → Prop} {s t : σ} {ws : List ω}
    (kept : ∀ w ∈ ws, ∀ u v, I u → step u w = .ok v → I v) (start : I s)
    (run : ws.foldlM step s = .ok t) : I t :=
  interrupted_invariant kept start (interrupted_of_run run)

/-! ## A file that grows -/

variable {α : Type} {write : α → ω} {H : List α → σ → Prop}

theorem interrupted_appends
    (grows : ∀ c a u v, H c u → step u (write a) = .ok v → H (c ++ [a]) v)
    {c l : List α} {s t : σ} (start : H c s)
    (stopped : Interrupted step s (l.map write) t) :
    ∃ part, part <+: l ∧ H (c ++ part) t := by
  induction l generalizing c s with
  | nil =>
    obtain rfl := interrupted_nil.mp stopped
    exact ⟨[], List.nil_prefix, by rwa [List.append_nil]⟩
  | cons a l ih =>
    rcases interrupted_cons.mp stopped with rfl | ⟨u, first, stopped⟩
    · exact ⟨[], List.nil_prefix, by rwa [List.append_nil]⟩
    · obtain ⟨part, sub, held⟩ := ih (grows c a s u start first) stopped
      refine ⟨a :: part, List.prefix_cons_inj a |>.mpr sub, ?_⟩
      rwa [List.append_assoc, List.singleton_append] at held

theorem run_appends (grows : ∀ c a u v, H c u → step u (write a) = .ok v → H (c ++ [a]) v)
    {c l : List α} {s t : σ} (start : H c s) (run : (l.map write).foldlM step s = .ok t) :
    H (c ++ l) t := by
  induction l generalizing c s with
  | nil =>
    obtain rfl := Except.ok.inj run
    rwa [List.append_nil]
  | cons a l ih =>
    rw [List.map_cons, List.foldlM_cons] at run
    obtain ⟨u, first, run⟩ := bind_ok.mp run
    have held := ih (grows c a s u start first) run
    rwa [List.append_assoc, List.singleton_append] at held

theorem appends_isOk (grows : ∀ c a u v, H c u → step u (write a) = .ok v → H (c ++ [a]) v)
    (goes : ∀ c a u, H c u → ∃ v, step u (write a) = .ok v) {c l : List α} {s : σ}
    (start : H c s) : ∃ t, (l.map write).foldlM step s = .ok t := by
  induction l generalizing c s with
  | nil => exact ⟨s, rfl⟩
  | cons a l ih =>
    obtain ⟨u, first⟩ := goes c a s start
    obtain ⟨t, run⟩ := ih (grows c a s u start first)
    exact ⟨t, bind_ok.mpr ⟨u, first, run⟩⟩

end

end QaCopilot.Interruption
