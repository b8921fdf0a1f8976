import Mathlib.Data.List.Forall2

/-!
# Computations that may fail

What the success of a compound computation says of its parts.
-/

namespace QaCopilot.Results

section
variable {ε α β : Type}

theorem bind_ok {x : Except ε α} {f : α → Except ε β} {b : β} :
    (x >>= f) = .ok b ↔ ∃ a, x = .ok a ∧ f a = .ok b := by
  cases x with
  | error e => simp [bind, Except.bind]
  | ok a => simp [bind, Except.bind]

theorem bind_error {x : Except ε α} {f : α → Except ε β} {e : ε} :
    (x >>= f) = .error e ↔ x = .error e ∨ ∃ a, x = .ok a ∧ f a = .error e := by
  cases x with
  | error e' => simp [bind, Except.bind]
  | ok a => simp [bind, Except.bind]

@[simp] theorem ok_bind (a : α) (f : α → Except ε β) : (Except.ok a >>= f) = f a := rfl

theorem exists_ok {x : Except ε α} (h : x.isOk = true) : ∃ a, x = .ok a := by
  cases x with
  | ok a => exact ⟨a, rfl⟩
  | error e => cases h

theorem mapError_ok {ε' : Type} {f : ε → ε'} {x : Except ε α} {a : α} :
    x.mapError f = .ok a ↔ x = .ok a := by
  cases x <;> simp [Except.mapError]

theorem mapM_ok {f : α → Except ε β} {as : List α} {bs : List β} :
    as.mapM f = .ok bs ↔ List.Forall₂ (fun a b => f a = .ok b) as bs := by
  induction as generalizing bs with
  | nil => simp [pure, Except.pure, eq_comm]
  | cons a as ih =>
    rw [List.mapM_cons, bind_ok]
    constructor
    · rintro ⟨b, first, rest⟩
      obtain ⟨bs', later, last⟩ := bind_ok.mp rest
      obtain rfl := Except.ok.inj last
      exact .cons first (ih.mp later)
    · intro all
      cases all with
      | cons first later => exact ⟨_, first, bind_ok.mpr ⟨_, ih.mpr later, rfl⟩⟩

/-- A check that returns each of its arguments. -/
theorem mapM_self {f : α → Except ε α} {as : List α} (h : ∀ a ∈ as, f a = .ok a) :
    as.mapM f = .ok as :=
  mapM_ok.mpr (List.forall₂_same.mpr h)

theorem mapM_congr {μ : Type → Type} [Monad μ] [LawfulMonad μ] {f g : α → μ β} {l : List α}
    (same : ∀ a ∈ l, f a = g a) : l.mapM f = l.mapM g := by
  induction l with
  | nil => rfl
  | cons a as ih =>
    rw [List.mapM_cons, List.mapM_cons, same a List.mem_cons_self,
      ih fun b hb => same b (List.mem_cons_of_mem _ hb)]

/-- A loop succeeds when every step does, in whatever order. -/
theorem mapM_isOk {f : α → Except ε β} {as : List α} :
    (∃ bs, as.mapM f = .ok bs) ↔ ∀ a ∈ as, ∃ b, f a = .ok b := by
  induction as with
  | nil => simp [pure, Except.pure]
  | cons a as ih =>
    rw [List.forall_mem_cons, ← ih, List.mapM_cons]
    constructor
    · rintro ⟨bs, made⟩
      obtain ⟨b, first, made⟩ := bind_ok.mp made
      obtain ⟨bs', rest, -⟩ := bind_ok.mp made
      exact ⟨⟨b, first⟩, bs', rest⟩
    · rintro ⟨⟨b, first⟩, bs, rest⟩
      exact ⟨b :: bs, bind_ok.mpr ⟨b, first, bind_ok.mpr ⟨bs, rest, rfl⟩⟩⟩

/-- The results of a loop that succeeds are those of a function. -/
theorem mapM_ok_map [Inhabited β] {f : α → Except ε β} {as : List α} {bs : List β}
    (made : as.mapM f = .ok bs) : ∃ g : α → β, (∀ a ∈ as, f a = .ok (g a)) ∧ bs = as.map g := by
  refine ⟨fun a => (f a).toOption.getD default, ?_, ?_⟩
  · intro a ha
    obtain ⟨b, hb⟩ := mapM_isOk.mp ⟨bs, made⟩ a ha
    simp only [hb]
    rfl
  · have all := mapM_ok.mp made
    clear made
    induction all with
    | nil => rfl
    | cons first _ ih =>
      rw [List.map_cons, ← ih]
      simp only [first]
      rfl

/-- Loops over one list whose steps have related results have related results. -/
theorem mapM_relates {γ : Type} {R : β → γ → Prop} {f : α → Except ε β} {g : α → Except ε γ}
    {as : List α} {bs : List β}
    (step : ∀ a ∈ as, ∀ b, f a = .ok b → ∃ c, g a = .ok c ∧ R b c) (made : as.mapM f = .ok bs) :
    ∃ cs, as.mapM g = .ok cs ∧ List.Forall₂ R bs cs := by
  have all := mapM_ok.mp made
  clear made
  induction all with
  | nil => exact ⟨[], rfl, .nil⟩
  | cons first _ ih =>
    obtain ⟨c, own, related⟩ := step _ List.mem_cons_self _ first
    obtain ⟨cs, later, relates⟩ := ih fun a ha => step a (List.mem_cons_of_mem _ ha)
    exact ⟨c :: cs, mapM_ok.mpr (.cons own (mapM_ok.mp later)), .cons related relates⟩

theorem mapM_of_map {f : α → Except ε β} {g : α → β} {as : List α} (h : ∀ a ∈ as, f a = .ok (g a)) :
    as.mapM f = .ok (as.map g) := by
  rw [mapM_ok, List.forall₂_map_right_iff]
  exact List.forall₂_same.mpr h

/-- A loop over numbered items that reads each of them as what it was made of. -/
theorem mapM_zipIdx {f : α × Nat → Except ε β} {g : β → α} {bs : List β}
    (h : ∀ b ∈ bs, ∀ n, f (g b, n) = .ok b) (n : Nat) : ((bs.map g).zipIdx n).mapM f = .ok bs := by
  induction bs generalizing n with
  | nil => rfl
  | cons b bs ih =>
    obtain ⟨first, rest⟩ := List.forall_mem_cons.mp h
    rw [List.map_cons, List.zipIdx_cons, List.mapM_cons, first n, ih rest]
    rfl

/-- Lookups that all succeed. -/
theorem mapM_some {f : α → Option β} {as : List α} {bs : List β} (h : as.map f = bs.map some) :
    as.mapM f = some bs := by
  induction as generalizing bs with
  | nil =>
    obtain rfl := List.map_eq_nil_iff.mp h.symm
    rfl
  | cons a as ih =>
    cases bs with
    | nil => cases h
    | cons b bs =>
      obtain ⟨first, rest⟩ := List.cons.inj h
      rw [List.mapM_cons, first, ih rest]
      rfl

theorem exists_of_mapM_some {f : α → Option β} {as : List α} {bs : List β} (h : as.mapM f = some bs)
    {a : α} (ha : a ∈ as) : ∃ b ∈ bs, f a = some b := by
  induction as generalizing bs with
  | nil => cases ha
  | cons a' as ih =>
    rw [List.mapM_cons] at h
    obtain ⟨b, first, h⟩ := Option.bind_eq_some_iff.mp h
    obtain ⟨rest, rest', h⟩ := Option.bind_eq_some_iff.mp h
    obtain rfl := Option.some.inj h
    rcases List.mem_cons.mp ha with rfl | ha
    · exact ⟨b, List.mem_cons_self, first⟩
    · obtain ⟨b', listed, value⟩ := ih rest' ha
      exact ⟨b', List.mem_cons_of_mem _ listed, value⟩

theorem length_of_mapM_some {f : α → Option β} {as : List α} {bs : List β} (h : as.mapM f = some bs) :
    bs.length = as.length := by
  induction as generalizing bs with
  | nil =>
    obtain rfl := Option.some.inj h
    rfl
  | cons a as ih =>
    rw [List.mapM_cons] at h
    obtain ⟨b, -, h⟩ := Option.bind_eq_some_iff.mp h
    obtain ⟨rest, rest', h⟩ := Option.bind_eq_some_iff.mp h
    obtain rfl := Option.some.inj h
    rw [List.length_cons, List.length_cons, ih rest']

theorem mem_of_mapM_some {f : α → Option β} {as : List α} {bs : List β} (h : as.mapM f = some bs)
    {b : β} (hb : b ∈ bs) : ∃ a ∈ as, f a = some b := by
  induction as generalizing bs with
  | nil =>
    obtain rfl := Option.some.inj h
    cases hb
  | cons a as ih =>
    rw [List.mapM_cons] at h
    obtain ⟨b', first, h⟩ := Option.bind_eq_some_iff.mp h
    obtain ⟨bs', rest, h⟩ := Option.bind_eq_some_iff.mp h
    obtain rfl := Option.some.inj h
    rcases List.mem_cons.mp hb with rfl | hb
    · exact ⟨a, List.mem_cons_self, first⟩
    · obtain ⟨a', ha', found⟩ := ih rest hb
      exact ⟨a', List.mem_cons_of_mem _ ha', found⟩

/-- What each turn of a loop keeps of the items before it holds at its end. -/
theorem foldlM_run {σ : Type} {f : σ → α → Except ε σ} {P : List α → σ → Prop} {s t : σ}
    {as : List α} (start : P [] s)
    (step : ∀ before a u v, P before u → f u a = .ok v → P (before ++ [a]) v)
    (run : as.foldlM f s = .ok t) : P as t := by
  have from' : ∀ (rest before : List α) (u : σ), P before u → rest.foldlM f u = .ok t →
      P (before ++ rest) t := by
    intro rest
    induction rest with
    | nil =>
      intro before u kept run
      obtain rfl := Except.ok.inj run
      rwa [List.append_nil]
    | cons a rest ih =>
      intro before u kept run
      rw [List.foldlM_cons] at run
      obtain ⟨v, first, run⟩ := bind_ok.mp run
      have later := ih (before ++ [a]) v (step before a u v kept first) run
      rwa [List.append_assoc] at later
  exact from' as [] s start run

/-- Steps that succeed with another step function as well end where they ended. -/
theorem foldlM_mono {σ : Type} {f g : σ → α → Option σ}
    (more : ∀ s a t, f s a = some t → g s a = some t) {as : List α} {s t : σ}
    (run : as.foldlM f s = some t) : as.foldlM g s = some t := by
  induction as generalizing s with
  | nil => exact run
  | cons a as ih =>
    rw [List.foldlM_cons] at run ⊢
    obtain ⟨u, first, run⟩ := Option.bind_eq_some_iff.mp run
    exact Option.bind_eq_some_iff.mpr ⟨u, more s a u first, ih run⟩

/-- Every member of the right list is related to one of the left. -/
theorem forall₂_mem {R : α → β → Prop} {as : List α} {bs : List β} (h : List.Forall₂ R as bs) {b : β}
    (hb : b ∈ bs) : ∃ a ∈ as, R a b := by
  induction h with
  | nil => cases hb
  | cons first _ ih =>
    rcases List.mem_cons.mp hb with rfl | hb
    · exact ⟨_, List.mem_cons_self, first⟩
    · obtain ⟨a, ha, related⟩ := ih hb
      exact ⟨a, List.mem_cons_of_mem _ ha, related⟩

/-- A loop that fails does so at one of its items, after turns that succeed. -/
theorem foldlM_error {σ : Type} {f : σ → α → Except ε σ} {s : σ} {e : ε} {as : List α}
    (run : as.foldlM f s = .error e) :
    ∃ before a after u, as = before ++ a :: after ∧ before.foldlM f s = .ok u ∧ f u a = .error e := by
  induction as generalizing s with
  | nil => cases run
  | cons a as ih =>
    rw [List.foldlM_cons] at run
    rcases bind_error.mp run with here | ⟨t, first, run⟩
    · exact ⟨[], a, as, s, rfl, rfl, here⟩
    · obtain ⟨before, b, after, u, rfl, early, failed⟩ := ih run
      exact ⟨a :: before, b, after, u, rfl, by rw [List.foldlM_cons, first, ok_bind, early], failed⟩

/-- What holds of the result, and what of the error. -/
def Yields (P : β → Prop) (E : ε → Prop) : Except ε β → Prop
  | .ok b => P b
  | .error e => E e

theorem Yields.bind {P : α → Prop} {Q : β → Prop} {E : ε → Prop} {x : Except ε α}
    {f : α → Except ε β} (first : Yields P E x) (later : ∀ a, P a → Yields Q E (f a)) :
    Yields Q E (x >>= f) := by
  cases x with
  | error e => exact first
  | ok a => exact later a first

theorem Yields.foldlM {σ : Type} {P : σ → Prop} {E : ε → Prop} {f : σ → α → Except ε σ} {as : List α}
    (step : ∀ a ∈ as, ∀ s, P s → Yields P E (f s a)) {s : σ} (start : P s) :
    Yields P E (as.foldlM f s) := by
  induction as generalizing s with
  | nil => exact start
  | cons a as ih =>
    rw [List.foldlM_cons]
    obtain ⟨here, later⟩ := List.forall_mem_cons.mp step
    exact (here s start).bind fun t kept => ih later kept

end

end QaCopilot.Results
