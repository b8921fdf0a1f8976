import Mathlib.Data.List.Chain
import Mathlib.Data.Set.Insert
import Mathlib.Logic.Relation

/-!
# Marking what is reached

A walk over a graph marks each node before it goes on to the children of the node. Whatever the order
of the walk:

* `Expands.trans`: walks that follow one another mark as one walk;
* `Expands.closed`: marks that began closed under children are closed at the end;
* `Closed.reached`: closed marks that hold the roots hold all that is reached.
-/

namespace QaCopilot.Marking

variable {V : Type} {child : V → V → Prop} {M N P R : Set V}

/-- What is reached from the roots. -/
def Reached (child : V → V → Prop) (roots : Set V) : Set V :=
  {v | ∃ r ∈ roots, Relation.ReflTransGen child r v}

def Closed (child : V → V → Prop) (R : Set V) : Prop := ∀ v ∈ R, ∀ w, child v w → w ∈ R

theorem Reached.root {roots : Set V} {r : V} (h : r ∈ roots) : r ∈ Reached child roots := ⟨r, h, .refl⟩

theorem reached_closed (roots : Set V) : Closed child (Reached child roots) := by
  rintro v ⟨r, root, path⟩ w next
  exact ⟨r, root, path.tail next⟩

/-- A closed set that holds the roots holds what is reached from them. -/
theorem Closed.reached {roots : Set V} (closed : Closed child R) (holds : roots ⊆ R) :
    Reached child roots ⊆ R := by
  rintro v ⟨r, root, path⟩
  induction path with
  | refl => exact holds root
  | tail _ next ih => exact closed _ ih _ next

theorem Reached.mono {roots others : Set V} (more : ∀ r ∈ roots, r ∈ Reached child others) :
    Reached child roots ⊆ Reached child others :=
  (reached_closed others).reached more

/-- The marks grow, and the children of each new mark are marked. -/
structure Expands (child : V → V → Prop) (M N : Set V) : Prop where
  grows : M ⊆ N
  follows : ∀ v ∈ N, v ∉ M → ∀ w, child v w → w ∈ N

theorem Expands.refl (M : Set V) : Expands child M M :=
  ⟨subset_rfl, fun _ h new => absurd h new⟩

theorem Expands.trans (first : Expands child M N) (later : Expands child N P) : Expands child M P where
  grows := first.grows.trans later.grows
  follows v hv new w next := by
    by_cases early : v ∈ N
    · exact later.grows (first.follows v early new w next)
    · exact later.follows v hv early w next

/-- A node that is marked first, its children after it. -/
theorem Expands.mark {v : V} (later : Expands child (insert v M) N)
    (children : ∀ w, child v w → w ∈ N) : Expands child M N where
  grows := (Set.subset_insert v M).trans later.grows
  follows u hu new w next := by
    by_cases own : u = v
    · exact children w (own ▸ next)
    · exact later.follows u hu (fun marked => marked.elim own new) w next

theorem Expands.closed (h : Expands child M N) (start : Closed child M) : Closed child N := by
  intro v hv w next
  by_cases early : v ∈ M
  · exact h.grows (start v early w next)
  · exact h.follows v hv early w next

/-- A walk along nodes that are not marked, none of them twice. -/
structure FreshPath (child : V → V → Prop) (M : Set V) (path : List V) : Prop where
  chain : path.IsChain child
  once : path.Nodup
  fresh : ∀ v ∈ path, v ∉ M

theorem FreshPath.nil (M : Set V) : FreshPath child M [] := ⟨.nil, List.nodup_nil, nofun⟩

theorem FreshPath.cons {v : V} {path : List V} (new : v ∉ M) (grown : insert v M ⊆ N)
    (rest : FreshPath child N path) (next : ∀ w ∈ path.head?, child v w) :
    FreshPath child M (v :: path) where
  chain := List.isChain_cons.mpr ⟨next, rest.chain⟩
  once := List.nodup_cons.mpr ⟨fun again => rest.fresh v again (grown (Set.mem_insert v M)), rest.once⟩
  fresh := List.forall_mem_cons.mpr ⟨new, fun u hu marked =>
    rest.fresh u hu (grown (Set.mem_insert_of_mem v marked))⟩

end QaCopilot.Marking
