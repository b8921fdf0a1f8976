import Mathlib.Data.List.Perm.Basic
import QaCopilot.Lib.Results

/-!
# Walks that append

A walk extends a list of things and may fail; what it adds is known by the keys of the things, in
some order.

* `Adds.foldlM`: a loop adds what its steps add;
* `Only.foldlM`: what a loop adds has what the things of its steps have;
* `Selects.foldlM`: the things of one kind that a loop adds, when one of its steps adds them.
-/

namespace QaCopilot.Appends

open QaCopilot.Results

section
variable {ε α κ τ : Type} {key : α → κ}

/-- When the walk succeeds, the result holds what was there and things with these keys. -/
def Adds (key : α → κ) (walk : List α → Except ε (List α)) (out : List κ) : Prop :=
  ∀ before after, walk before = .ok after → (after.map key).Perm (before.map key ++ out)

variable {walk next : List α → Except ε (List α)} {out out' : List κ}

theorem Adds.nothing : Adds (ε := ε) key (fun l => .ok l) [] := by
  intro before after h
  obtain rfl := Except.ok.inj h
  rw [List.append_nil]

theorem Adds.then (first : Adds key walk out) (later : Adds key next out') :
    Adds key (fun l => walk l >>= next) (out ++ out') := by
  intro before after h
  obtain ⟨middle, walked, h⟩ := bind_ok.mp h
  have whole := (later middle after h).trans ((first before middle walked).append_right out')
  rwa [List.append_assoc] at whole

/-- A step that reads something first. -/
theorem Adds.after (read : Except ε τ) {walk : τ → List α → Except ε (List α)}
    (each : ∀ a, Adds key (walk a) out) : Adds key (fun l => read >>= fun a => walk a l) out := by
  intro before after h
  obtain ⟨a, -, h⟩ := bind_ok.mp h
  exact each a before after h

theorem Adds.perm (h : Adds key walk out) (same : out.Perm out') : Adds key walk out' :=
  fun before after walked => (h before after walked).trans (same.append_left _)

theorem Adds.congr (h : Adds key walk out) (same : ∀ l, next l = walk l) : Adds key next out :=
  fun before after walked => h before after (same before ▸ walked)

theorem Adds.branch {c : Prop} [Decidable c] (yes : c → Adds key walk out)
    (no : ¬ c → Adds key next out') :
    Adds key (fun l => if c then walk l else next l) (if c then out else out') := by
  by_cases hc : c
  · simpa only [if_pos hc] using yes hc
  · simpa only [if_neg hc] using no hc

/-- A loop adds what its steps add. -/
theorem Adds.foldlM (as : List τ) {step : List α → τ → Except ε (List α)} {out : τ → List κ}
    (each : ∀ a ∈ as, Adds key (fun l => step l a) (out a)) :
    Adds key (fun l => as.foldlM step l) (as.flatMap out) := by
  induction as with
  | nil => exact Adds.nothing
  | cons a as ih =>
    have first := each a List.mem_cons_self
    have later := ih fun b hb => each b (List.mem_cons_of_mem a hb)
    simpa only [List.foldlM_cons, List.flatMap_cons] using first.then later

/-! ## What all things have -/

/-- The walk appends, and only things of which `P` holds. -/
def Only (P : α → Prop) (walk : List α → Except ε (List α)) : Prop :=
  ∀ before after, walk before = .ok after → ∃ new, after = before ++ new ∧ ∀ a ∈ new, P a

variable {P Q : α → Prop}

theorem Only.nothing : Only (ε := ε) P fun l => .ok l := by
  intro before after h
  obtain rfl := Except.ok.inj h
  exact ⟨[], (List.append_nil _).symm, nofun⟩

theorem Only.then (first : Only P walk) (later : Only P next) : Only P fun l => walk l >>= next := by
  intro before after h
  obtain ⟨middle, walked, h⟩ := bind_ok.mp h
  obtain ⟨new, rfl, all⟩ := first before middle walked
  obtain ⟨new', rfl, all'⟩ := later _ after h
  exact ⟨new ++ new', List.append_assoc _ _ _, List.forall_mem_append.mpr ⟨all, all'⟩⟩

theorem Only.after (read : Except ε τ) {walk : τ → List α → Except ε (List α)}
    (each : ∀ a, read = .ok a → Only P (walk a)) : Only P fun l => read >>= fun a => walk a l := by
  intro before after h
  obtain ⟨a, made, h⟩ := bind_ok.mp h
  exact each a made before after h

theorem Only.mono (h : Only P walk) (weaker : ∀ a, P a → Q a) : Only Q walk := by
  intro before after walked
  obtain ⟨new, same, all⟩ := h before after walked
  exact ⟨new, same, fun a ha => weaker a (all a ha)⟩

theorem Only.foldlM (as : List τ) {step : List α → τ → Except ε (List α)}
    (each : ∀ a ∈ as, Only P fun l => step l a) : Only P fun l => as.foldlM step l := by
  induction as with
  | nil => exact Only.nothing
  | cons a as ih =>
    have first := each a List.mem_cons_self
    have later := ih fun b hb => each b (List.mem_cons_of_mem a hb)
    simpa only [List.foldlM_cons] using first.then later

/-! ## The things of one kind -/

/-- Of the things that `sel` selects, the walk appends a list of which `R` holds. -/
def Selects (sel : α → Bool) (walk : List α → Except ε (List α)) (R : List α → Prop) : Prop :=
  ∀ before after, walk before = .ok after → ∃ new, after.filter sel = before.filter sel ++ new ∧ R new

/-- The walk appends nothing that `sel` selects. -/
abbrev Skips (sel : α → Bool) (walk : List α → Except ε (List α)) : Prop := Selects sel walk (· = [])

variable {sel : α → Bool} {R : List α → Prop}

theorem Only.skips (h : Only P walk) (never : ∀ a, P a → sel a = false) : Skips sel walk := by
  intro before after walked
  obtain ⟨new, rfl, all⟩ := h before after walked
  have none' : new.filter sel = [] := by
    refine List.filter_eq_nil_iff.mpr fun a ha => ?_
    rw [never a (all a ha)]
    exact Bool.false_ne_true
  exact ⟨[], by rw [List.filter_append, none'], rfl⟩

theorem Selects.then (first : Skips sel walk) (later : Selects sel next R) :
    Selects sel (fun l => walk l >>= next) R := by
  intro before after h
  obtain ⟨middle, walked, h⟩ := bind_ok.mp h
  obtain ⟨_, same, rfl⟩ := first before middle walked
  obtain ⟨new, whole, holds⟩ := later middle after h
  rw [same, List.append_nil] at whole
  exact ⟨new, whole, holds⟩

theorem Selects.thenSkips (first : Selects sel walk R) (later : Skips sel next) :
    Selects sel (fun l => walk l >>= next) R := by
  intro before after h
  obtain ⟨middle, walked, h⟩ := bind_ok.mp h
  obtain ⟨new, same, holds⟩ := first before middle walked
  obtain ⟨_, whole, rfl⟩ := later middle after h
  rw [List.append_nil] at whole
  exact ⟨new, whole.trans same, holds⟩

theorem Selects.after (read : Except ε τ) {walk : τ → List α → Except ε (List α)}
    (each : ∀ a, read = .ok a → Selects sel (walk a) R) :
    Selects sel (fun l => read >>= fun a => walk a l) R := by
  intro before after h
  obtain ⟨a, made, h⟩ := bind_ok.mp h
  exact each a made before after h

theorem Skips.foldlM (as : List τ) {step : List α → τ → Except ε (List α)}
    (each : ∀ a ∈ as, Skips sel fun l => step l a) : Skips sel fun l => as.foldlM step l := by
  induction as with
  | nil => exact Only.nothing.skips (P := fun _ => False) nofun
  | cons a as ih =>
    have first := each a List.mem_cons_self
    have later := ih fun b hb => each b (List.mem_cons_of_mem a hb)
    simpa only [List.foldlM_cons] using first.then later

/-- A loop in which one step alone appends such things. -/
theorem Selects.foldlM {as : List τ} (once : as.Nodup) {a : τ} (listed : a ∈ as)
    {step : List α → τ → Except ε (List α)} (one : Selects sel (fun l => step l a) R)
    (others : ∀ b ∈ as, b ≠ a → Skips sel fun l => step l b) :
    Selects sel (fun l => as.foldlM step l) R := by
  obtain ⟨left, right, rfl⟩ := List.append_of_mem listed
  have apart : (a :: (left ++ right)).Nodup := List.perm_middle.nodup_iff.mp once
  have before : Skips sel fun l => left.foldlM step l := Skips.foldlM left fun b hb =>
    others b (List.mem_append_left _ hb) fun same =>
      (List.nodup_cons.mp apart).1 (List.mem_append_left _ (same ▸ hb))
  have behind : Skips sel fun l => right.foldlM step l := Skips.foldlM right fun b hb =>
    others b (List.mem_append_right _ (List.mem_cons_of_mem a hb)) fun same =>
      (List.nodup_cons.mp apart).1 (List.mem_append_right _ (same ▸ hb))
  simpa only [List.foldlM_append, List.foldlM_cons] using before.then (one.thenSkips behind)

end

end QaCopilot.Appends
