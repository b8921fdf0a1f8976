import QaCopilot.Lib.Runs

/-!
# Programs over shared state

A program performs operations one after another and may stop in between; an operation is one
atomic step on the shared state, with an outcome that the environment helps to choose. Programs
run alone, or in a pool whose threads interleave by operations.

* `Held.turn`: what one operation of one thread keeps, given what the other threads rely on, a
  turn of the pool keeps;
* `Guarded.turn`: a program that is proved against the interference of others keeps its guarantee in
  a pool of such programs;
* `Always.eval`: and so it does alone.
-/

namespace QaCopilot.Program

/-- Operations `o : Op` answer by an `Res o`. -/
inductive Prog (Op : Type) (Res : Op → Type) (α : Type) where
  | ret (a : α)
  | op (o : Op) (k : Res o → Prog Op Res α)

section
variable {Op : Type} {Res : Op → Type} {α β : Type}

def Prog.bind : Prog Op Res α → (α → Prog Op Res β) → Prog Op Res β
  | .ret a, f => f a
  | .op o k, f => .op o fun r => (k r).bind f

instance : Monad (Prog Op Res) where
  pure := .ret
  bind := Prog.bind

def perform (o : Op) : Prog Op Res (Res o) := .op o .ret

@[simp] theorem pure_eq (a : α) : (pure a : Prog Op Res α) = .ret a := rfl

@[simp] theorem ret_bind (a : α) (f : α → Prog Op Res β) : (Prog.ret a >>= f) = f a := rfl

@[simp] theorem op_bind (o : Op) (k : Res o → Prog Op Res α) (f : α → Prog Op Res β) :
    (Prog.op o k >>= f) = .op o fun r => k r >>= f := rfl

theorem bind_bind {γ : Type} (p : Prog Op Res α) (f : α → Prog Op Res β) (g : β → Prog Op Res γ) :
    (p >>= f >>= g) = p >>= fun a => f a >>= g := by
  induction p with
  | ret a => rfl
  | op o k ih => exact congrArg (Prog.op o) (funext ih)

@[simp] theorem perform_bind (o : Op) (f : Res o → Prog Op Res β) :
    (perform o >>= f) = .op o f := rfl

/-- The operation a program is about to perform. -/
def Prog.next : Prog Op Res α → Option Op
  | .ret _ => none
  | .op o _ => some o

@[simp] theorem next_ret (a : α) : (Prog.ret a : Prog Op Res α).next = none := rfl

@[simp] theorem next_op (o : Op) (k : Res o → Prog Op Res α) : (Prog.op o k).next = some o := rfl

end

/-! ## Alone -/

section
variable {Op : Type} {Res : Op → Type} {α σ Env : Type}
variable (exec : (o : Op) → Env → σ → Res o × σ)

/-- A run of the program alone; the `n`th operation meets the environment `env n`. -/
def eval (env : Nat → Env) : Nat → Prog Op Res α → σ → α × σ
  | _, .ret a, s => (a, s)
  | n, .op o k, s => eval env (n + 1) (k (exec o (env n) s).1) (exec o (env n) s).2

/-- The states, operations and answers of a run, in order. -/
def events (env : Nat → Env) : Nat → Prog Op Res α → σ → List (σ × (o : Op) × Res o)
  | _, .ret _, _ => []
  | n, .op o k, s =>
    (s, ⟨o, (exec o (env n) s).1⟩)
      :: events env (n + 1) (k (exec o (env n) s).1) (exec o (env n) s).2

@[simp] theorem eval_ret (env : Nat → Env) (n : Nat) (a : α) (s : σ) :
    eval exec env n (.ret a : Prog Op Res α) s = (a, s) := rfl

@[simp] theorem eval_op (env : Nat → Env) (n : Nat) (o : Op) (k : Res o → Prog Op Res α) (s : σ) :
    eval exec env n (.op o k) s =
      eval exec env (n + 1) (k (exec o (env n) s).1) (exec o (env n) s).2 := rfl

/-- A run that meets `f` of its environment. -/
theorem eval_map {Env' : Type} (f : Env' → Env) (env : Nat → Env') (n : Nat) (p : Prog Op Res α)
    (s : σ) : eval exec (fun n => f (env n)) n p s = eval (fun o e => exec o (f e)) env n p s := by
  induction p generalizing n s with
  | ret a => rfl
  | op o k ih => exact ih _ (n + 1) _

theorem events_map {Env' : Type} (f : Env' → Env) (env : Nat → Env') (n : Nat) (p : Prog Op Res α)
    (s : σ) :
    events exec (fun n => f (env n)) n p s = events (fun o e => exec o (f e)) env n p s := by
  induction p generalizing n s with
  | ret a => rfl
  | op o k ih => exact congrArg _ (ih _ (n + 1) _)

end

/-! ## Against interference -/

section
variable {Op : Type} {Res : Op → Type} {α β σ Env : Type}
variable (exec : (o : Op) → Env → σ → Res o × σ)
variable (G : σ → Prop) (R : σ → σ → Prop) (Safe : σ → Op → Prop)

/-- In every state that satisfies `G` and that the others may reach by `R`, the operation that the
program comes to perform is `Safe`, and `Post` holds where it ends. -/
def Always (Post : α → σ → Prop) : Prog Op Res α → σ → Prop
  | .ret a, s => ∀ t, G t → R s t → Post a t
  | .op o k, s => ∀ t, G t → R s t →
    Safe t o ∧ ∀ e, Always Post (k (exec o e t).1) (exec o e t).2

/-- What the operations guarantee to each other. -/
structure Guarantees : Prop where
  refl : ∀ s, R s s
  trans : ∀ {a b c}, R a b → R b c → R a c
  keeps : ∀ s o e, G s → Safe s o → G (exec o e s).2
  step : ∀ s o e, G s → Safe s o → R s (exec o e s).2

variable {exec G R Safe} {Post : α → σ → Prop}

theorem Always.stable (g : Guarantees exec G R Safe) {p : Prog Op Res α} {s t : σ}
    (h : Always exec G R Safe Post p s) (later : R s t) : Always exec G R Safe Post p t := by
  cases p with
  | ret a => exact fun u hu r => h u hu (g.trans later r)
  | op o k => exact fun u hu r => h u hu (g.trans later r)

theorem Always.bind (g : Guarantees exec G R Safe) {Mid : β → σ → Prop} {p : Prog Op Res β}
    {f : β → Prog Op Res α} {s : σ} (first : Always exec G R Safe Mid p s)
    (rest : ∀ a t, G t → Mid a t → Always exec G R Safe Post (f a) t) :
    Always exec G R Safe Post (p >>= f) s := by
  induction p generalizing s with
  | ret a =>
    cases eq : f a with
    | ret b =>
      rw [ret_bind, eq]
      intro t ht r
      have := rest a t ht (first t ht r)
      rw [eq] at this
      exact this t ht (g.refl t)
    | op o k =>
      rw [ret_bind, eq]
      intro t ht r
      have := rest a t ht (first t ht r)
      rw [eq] at this
      exact this t ht (g.refl t)
  | op o k ih =>
    intro t ht r
    obtain ⟨safe, next⟩ := first t ht r
    exact ⟨safe, fun e => ih _ (next e)⟩

theorem Always.mono {Post' : α → σ → Prop} {p : Prog Op Res α} {s : σ}
    (h : Always exec G R Safe Post p s) (weaker : ∀ a t, G t → Post a t → Post' a t) :
    Always exec G R Safe Post' p s := by
  induction p generalizing s with
  | ret a => exact fun t ht r => weaker a t ht (h t ht r)
  | op o k ih =>
    intro t ht r
    obtain ⟨safe, next⟩ := h t ht r
    exact ⟨safe, fun e => ih _ (next e)⟩

/-- What holds against more interference holds against less. -/
theorem Always.narrow {R' : σ → σ → Prop} (less : ∀ s t, R' s t → R s t) {p : Prog Op Res α}
    {s : σ} (h : Always exec G R Safe Post p s) : Always exec G R' Safe Post p s := by
  induction p generalizing s with
  | ret a => exact fun t ht r => h t ht (less s t r)
  | op o k ih =>
    intro t ht r
    obtain ⟨safe, next⟩ := h t ht (less s t r)
    exact ⟨safe, fun e => ih _ (next e)⟩

/-- Where a program ends, everything since its start is within `R`. -/
theorem Always.since (g : Guarantees exec G R Safe) {p : Prog Op Res α} {s : σ}
    (h : Always exec G R Safe Post p s) :
    Always exec G R Safe (fun a t => R s t ∧ Post a t) p s := by
  induction p generalizing s with
  | ret a => exact fun t ht r => ⟨r, h t ht r⟩
  | op o k ih =>
    intro t ht r
    obtain ⟨safe, next⟩ := h t ht r
    refine ⟨safe, fun e => (ih _ (next e)).mono ?_⟩
    rintro a u _ ⟨later, post⟩
    exact ⟨g.trans (g.trans r (g.step t o e ht safe)) later, post⟩

/-- A run alone keeps `G`, guarantees `R` and ends in `Post`. -/
theorem Always.eval (g : Guarantees exec G R Safe) {p : Prog Op Res α} {s : σ} (start : G s)
    (h : Always exec G R Safe Post p s) (env : Nat → Env) (n : Nat) :
    G (Program.eval exec env n p s).2 ∧ R s (Program.eval exec env n p s).2 ∧
      Post (Program.eval exec env n p s).1 (Program.eval exec env n p s).2 := by
  induction p generalizing s n with
  | ret a => exact ⟨start, g.refl s, h s start (g.refl s)⟩
  | op o k ih =>
    obtain ⟨safe, next⟩ := h s start (g.refl s)
    obtain ⟨keeps, later, post⟩ := ih _ (g.keeps s o (env n) start safe) (next (env n)) (n + 1)
    exact ⟨keeps, g.trans (g.step s o (env n) start safe) later, post⟩

/-- Every operation of a run alone is performed in a good state and is safe there. -/
theorem Always.events (g : Guarantees exec G R Safe) {p : Prog Op Res α} {s : σ} (start : G s)
    (h : Always exec G R Safe Post p s) (env : Nat → Env) (n : Nat) :
    ∀ x ∈ Program.events exec env n p s, G x.1 ∧ Safe x.1 x.2.1 := by
  induction p generalizing s n with
  | ret a => simp [Program.events]
  | op o k ih =>
    obtain ⟨safe, next⟩ := h s start (g.refl s)
    intro x hx
    rcases List.mem_cons.mp hx with rfl | hx
    · exact ⟨start, safe⟩
    · exact ih _ (g.keeps s o (env n) start safe) (next (env n)) (n + 1) x hx

end

/-! ## In a pool -/

structure Pool (σ P : Type) where
  shared : σ
  threads : List P

/-- A new thread, or one operation of a thread. -/
inductive Turn (Request Env : Type) where
  | spawn (r : Request)
  | step (i : Nat) (e : Env)

section
variable {Op : Type} {Res : Op → Type} {α σ Env Request : Type}
variable (exec : (o : Op) → Env → σ → Res o × σ) (start : Request → Prog Op Res α)

/-- A turn of a thread that is not there or has ended does nothing. -/
def Pool.turn (pool : Pool σ (Prog Op Res α)) : Turn Request Env → Pool σ (Prog Op Res α)
  | .spawn r => { pool with threads := pool.threads ++ [start r] }
  | .step i e =>
    match pool.threads[i]? with
    | some (.op o k) =>
      ⟨(exec o e pool.shared).2, pool.threads.set i (k (exec o e pool.shared).1)⟩
    | _ => pool

theorem turn_op {pool : Pool σ (Prog Op Res α)} {i : Nat} {o : Op} {k : Res o → Prog Op Res α}
    (running : pool.threads[i]? = some (.op o k)) (e : Env) :
    pool.turn exec start (.step i e) =
      ⟨(exec o e pool.shared).2, pool.threads.set i (k (exec o e pool.shared).1)⟩ := by
  simp only [Pool.turn, running]

theorem turn_ret {pool : Pool σ (Prog Op Res α)} {i : Nat} {a : α}
    (running : pool.threads[i]? = some (.ret a)) (e : Env) :
    pool.turn exec start (.step i e) = pool := by
  simp only [Pool.turn, running]

theorem turn_none {pool : Pool σ (Prog Op Res α)} {i : Nat}
    (absent : pool.threads[i]? = none) (e : Env) :
    pool.turn exec start (.step i e) = pool := by
  simp only [Pool.turn, absent]

/-- The thread whose turn it is may perform its operation beside every other thread. -/
def admitted (A : Prog Op Res α → Prog Op Res α → Bool) (pool : Pool σ (Prog Op Res α)) :
    Turn Request Env → Bool
  | .spawn _ => true
  | .step i _ =>
    match pool.threads[i]? with
    | some p => (pool.threads.eraseIdx i).all (A p)
    | none => true

/-- `G` of the shared state, and `L` of each thread in it. -/
structure Held (G : σ → Prop) (L : σ → Prog Op Res α → Prop) (pool : Pool σ (Prog Op Res α)) :
    Prop where
  shared : G pool.shared
  each : ∀ (i : Nat) p, pool.threads[i]? = some p → L pool.shared p

variable {exec start} {G : σ → Prop} {L : σ → Prog Op Res α → Prop}
  {A : Prog Op Res α → Prog Op Res α → Bool}

theorem getElem?_snoc {P : Type} {l : List P} {p q : P} {i : Nat}
    (h : (l ++ [p])[i]? = some q) : l[i]? = some q ∨ i = l.length ∧ q = p := by
  rcases Nat.lt_trichotomy i l.length with lt | rfl | gt
  · exact .inl (by rwa [List.getElem?_append_left lt] at h)
  · exact .inr ⟨rfl, by simpa using h.symm⟩
  · rw [List.getElem?_append_right (Nat.le_of_lt gt)] at h
    obtain ⟨d, hd⟩ : ∃ d, i - l.length = d + 1 := ⟨i - l.length - 1, by omega⟩
    simp [hd] at h

theorem getElem?_set {P : Type} {l : List P} {p q : P} {i j : Nat}
    (h : (l.set i p)[j]? = some q) : j = i ∧ q = p ∨ j ≠ i ∧ l[j]? = some q := by
  by_cases same : i = j
  · subst same
    have inside : i < l.length := by
      have := (List.getElem?_eq_some_iff.mp h).1
      simpa using this
    rw [List.getElem?_set_self inside] at h
    exact .inl ⟨rfl, (Option.some.inj h).symm⟩
  · rw [List.getElem?_set_ne same] at h
    exact .inr ⟨fun eq => same eq.symm, h⟩

/-- What one operation of one thread keeps for itself and, where it is admitted, for the others,
a turn of the pool keeps. -/
theorem Held.turn
    (spawned : ∀ s r, G s → L s (start r))
    (progress : ∀ s o k e, G s → L s (.op o k) →
      G (exec o e s).2 ∧ L (exec o e s).2 (k (exec o e s).1))
    (frame : ∀ s o k e q, G s → L s (.op o k) → L s q → A (.op o k) q = true →
      L (exec o e s).2 q)
    {pool : Pool σ (Prog Op Res α)} (held : Held G L pool) {t : Turn Request Env}
    (may : admitted A pool t = true) : Held G L (pool.turn exec start t) := by
  cases t with
  | spawn r =>
    refine ⟨held.shared, ?_⟩
    intro i p hp
    rcases getElem?_snoc hp with hp | ⟨-, rfl⟩
    · exact held.each i p hp
    · exact spawned _ r held.shared
  | step i e =>
    cases running : pool.threads[i]? with
    | none => exact (turn_none exec start running e).symm ▸ held
    | some p =>
      cases p with
      | ret a => exact (turn_ret exec start running e).symm ▸ held
      | op o k =>
        rw [turn_op exec start running e]
        simp only [admitted, running] at may
        have now := held.each i _ running
        obtain ⟨shared, own⟩ := progress pool.shared o k e held.shared now
        refine ⟨shared, ?_⟩
        intro j q hq
        rcases getElem?_set hq with ⟨-, rfl⟩ | ⟨ne, hq⟩
        · exact own
        · exact frame pool.shared o k e q held.shared now (held.each j q hq)
            (List.all_eq_true.mp may q (List.mem_eraseIdx_iff_getElem?.mpr ⟨j, ne, hq⟩))

/-- `L` of each thread, and `D` of any two of them. -/
structure Apart (L : σ → Prog Op Res α → Prop) (D : Prog Op Res α → Prog Op Res α → Prop)
    (pool : Pool σ (Prog Op Res α)) : Prop where
  each : ∀ (i : Nat) p, pool.threads[i]? = some p → L pool.shared p
  apart : ∀ (i j : Nat) p q, i ≠ j → pool.threads[i]? = some p → pool.threads[j]? = some q → D p q

/-- What one operation has to keep of the other threads and of their distance to its own. -/
theorem Apart.step {D : Prog Op Res α → Prog Op Res α → Prop} {pool : Pool σ (Prog Op Res α)}
    (apart : Apart L D pool) {i : Nat} {o : Op} {k : Res o → Prog Op Res α}
    (running : pool.threads[i]? = some (.op o k)) (e : Env)
    (own : L (exec o e pool.shared).2 (k (exec o e pool.shared).1))
    (others : ∀ (j : Nat) q, j ≠ i → pool.threads[j]? = some q → L (exec o e pool.shared).2 q ∧
      D (k (exec o e pool.shared).1) q ∧ D q (k (exec o e pool.shared).1)) :
    Apart L D (pool.turn exec start (.step i e)) := by
  rw [turn_op exec start running e]
  constructor
  · intro j q hq
    rcases getElem?_set hq with ⟨-, rfl⟩ | ⟨ne, hq⟩
    · exact own
    · exact (others j q ne hq).1
  · intro j l p q ne hp hq
    rcases getElem?_set hp with ⟨rfl, rfl⟩ | ⟨other, first⟩
    · rcases getElem?_set hq with ⟨rfl, -⟩ | ⟨other', second⟩
      · exact absurd rfl ne
      · exact (others l q other' second).2.1
    · rcases getElem?_set hq with ⟨rfl, rfl⟩ | ⟨-, second⟩
      · exact (others j p other first).2.2
      · exact apart.apart j l p q ne first second

theorem Apart.spawn {D : Prog Op Res α → Prog Op Res α → Prop} {pool : Pool σ (Prog Op Res α)}
    (apart : Apart L D pool) {r : Request} (own : L pool.shared (start r))
    (others : ∀ q, D (start r) q ∧ D q (start r)) :
    Apart L D (pool.turn exec start (.spawn r : Turn Request Env)) := by
  constructor
  · intro i p hp
    rcases getElem?_snoc hp with hp | ⟨-, rfl⟩
    · exact apart.each i p hp
    · exact own
  · intro i j p q ne hp hq
    rcases getElem?_snoc hp with hp | ⟨rfl, rfl⟩
    · rcases getElem?_snoc hq with hq | ⟨-, rfl⟩
      · exact apart.apart i j p q ne hp hq
      · exact (others p).2
    · exact (others q).1

/-- `Held` for programs that are proved against the interference of each other. -/
abbrev Guarded (exec : (o : Op) → Env → σ → Res o × σ) (G : σ → Prop) (R : σ → σ → Prop)
    (Safe : σ → Op → Prop) (Post : α → σ → Prop) (pool : Pool σ (Prog Op Res α)) : Prop :=
  Held G (fun s p => Always exec G R Safe Post p s) pool

theorem Guarded.turn {R : σ → σ → Prop} {Safe : σ → Op → Prop} {Post : α → σ → Prop}
    (g : Guarantees exec G R Safe)
    (spawned : ∀ s r, G s → Always exec G R Safe Post (start r) s)
    {pool : Pool σ (Prog Op Res α)} (guarded : Guarded exec G R Safe Post pool)
    (t : Turn Request Env) : Guarded exec G R Safe Post (pool.turn exec start t) := by
  apply Held.turn (A := fun _ _ => true) spawned
  · intro s o k e hs running
    obtain ⟨safe, next⟩ := running s hs (g.refl s)
    exact ⟨g.keeps s o e hs safe, next e⟩
  · intro s o k e q hs running other _
    obtain ⟨safe, -⟩ := running s hs (g.refl s)
    exact other.stable g (g.step s o e hs safe)
  · exact guarded
  · cases t with
    | spawn r => rfl
    | step i e =>
      simp only [admitted]
      split <;> simp

/-- A turn of the pool guarantees `R`. -/
theorem Guarded.later {R : σ → σ → Prop} {Safe : σ → Op → Prop} {Post : α → σ → Prop}
    (g : Guarantees exec G R Safe) {pool : Pool σ (Prog Op Res α)}
    (guarded : Guarded exec G R Safe Post pool) (t : Turn Request Env) :
    R pool.shared (pool.turn exec start t).shared := by
  cases t with
  | spawn r => exact g.refl _
  | step i e =>
    cases running : pool.threads[i]? with
    | none => exact (turn_none exec start running e).symm ▸ g.refl _
    | some p =>
      cases p with
      | ret a => exact (turn_ret exec start running e).symm ▸ g.refl _
      | op o k =>
        rw [turn_op exec start running e]
        obtain ⟨safe, -⟩ := guarded.each i _ running pool.shared guarded.shared (g.refl _)
        exact g.step _ _ _ guarded.shared safe

end

end QaCopilot.Program
