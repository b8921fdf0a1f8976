import Mathlib.Data.List.Nodup

/-!
# Trees of names

Names that are read by writing the parts on the way to a node one after another. Two nodes may read
alike although the ways to them differ.

* `readings_nodup_iff`: all nodes read differently exactly when no two siblings are tangled.
-/

namespace QaCopilot.NameTrees

/-- A node of a tree: the thing that it names, if any, and its children with the parts that lead to
them. -/
inductive NameTree (α β : Type) where
  | node (thing : Option β) (children : List (List α × NameTree α β))

section
variable {α β : Type}

mutual

/-- The things of a tree with their readings. -/
def NameTree.readings : NameTree α β → List (List α × β)
  | .node thing children =>
    (thing.map fun b => ([], b)).toList ++ NameTree.readingsBelow children

def NameTree.readingsBelow : List (List α × NameTree α β) → List (List α × β)
  | [] => []
  | (part, t) :: children =>
    t.readings.map (fun r => (part ++ r.1, r.2)) ++ NameTree.readingsBelow children

end

/-- The part of the one child begins the part of the other, and what is left of that, with something
below the other, is read below the one. -/
def Reaches (c d : List α × NameTree α β) : Prop :=
  c.1 <+: d.1 ∧ ∃ r ∈ c.2.readings, ∃ s ∈ d.2.readings, r.1 = d.1.drop c.1.length ++ s.1

/-- One of two children reaches into the other. -/
def Tangled (c d : List α × NameTree α β) : Prop := Reaches c d ∨ Reaches d c

instance [DecidableEq α] (c d : List α × NameTree α β) : Decidable (Reaches c d) :=
  inferInstanceAs (Decidable (_ ∧ ∃ r ∈ c.2.readings, ∃ s ∈ d.2.readings,
    r.1 = d.1.drop c.1.length ++ s.1))

instance [DecidableEq α] (c d : List α × NameTree α β) : Decidable (Tangled c d) :=
  inferInstanceAs (Decidable (_ ∨ _))

mutual

/-- No two siblings are tangled. -/
def NameTree.Clear : NameTree α β → Prop
  | .node _ children => children.Pairwise (fun c d => ¬ Tangled c d) ∧ NameTree.ClearBelow children

def NameTree.ClearBelow : List (List α × NameTree α β) → Prop
  | [] => True
  | (_, t) :: children => t.Clear ∧ NameTree.ClearBelow children

end

mutual

/-- Whether a tree is clear can be decided. -/
def NameTree.decideClear [DecidableEq α] : (t : NameTree α β) → Decidable t.Clear
  | .node _ children =>
    have := NameTree.decideClearBelow children
    inferInstanceAs (Decidable (_ ∧ _))

def NameTree.decideClearBelow [DecidableEq α] :
    (children : List (List α × NameTree α β)) → Decidable (NameTree.ClearBelow children)
  | [] => isTrue trivial
  | (_, t) :: children =>
    have := NameTree.decideClear t
    have := NameTree.decideClearBelow children
    inferInstanceAs (Decidable (_ ∧ _))

end

instance [DecidableEq α] (t : NameTree α β) : Decidable t.Clear := t.decideClear

mutual

/-- Every part has characters. -/
def NameTree.Named : NameTree α β → Prop
  | .node _ children => NameTree.NamedBelow children

def NameTree.NamedBelow : List (List α × NameTree α β) → Prop
  | [] => True
  | (part, t) :: children => part ≠ [] ∧ t.Named ∧ NameTree.NamedBelow children

end

theorem readingsBelow_eq (children : List (List α × NameTree α β)) :
    NameTree.readingsBelow children =
      children.flatMap fun c => c.2.readings.map fun r => (c.1 ++ r.1, r.2) := by
  induction children with
  | nil => rfl
  | cons c children ih => rw [NameTree.readingsBelow, ih, List.flatMap_cons]

theorem namedBelow_iff {children : List (List α × NameTree α β)} :
    NameTree.NamedBelow children ↔ ∀ c ∈ children, c.1 ≠ [] ∧ c.2.Named := by
  induction children with
  | nil => simp [NameTree.NamedBelow]
  | cons c children ih => rw [NameTree.NamedBelow, ih, List.forall_mem_cons, and_assoc]

/-- The readings below the children of a node. -/
def partReadings (c : List α × NameTree α β) : List (List α) :=
  c.2.readings.map fun r => c.1 ++ r.1

theorem mem_partReadings {c : List α × NameTree α β} {text : List α} :
    text ∈ partReadings c ↔ ∃ r ∈ c.2.readings, c.1 ++ r.1 = text := List.mem_map

theorem reaches_iff {c d : List α × NameTree α β} : Reaches c d ↔
    c.1 <+: d.1 ∧ ∃ r ∈ c.2.readings, ∃ s ∈ d.2.readings, c.1 ++ r.1 = d.1 ++ s.1 := by
  refine and_congr_right fun ⟨rest, whole⟩ => ?_
  simp only [← whole, List.drop_left, List.append_assoc, List.append_cancel_left_eq]

/-- Two children are tangled when something below the one reads like something below the other. -/
theorem tangled_iff {c d : List α × NameTree α β} : Tangled c d ↔
    ∃ r ∈ c.2.readings, ∃ s ∈ d.2.readings, c.1 ++ r.1 = d.1 ++ s.1 := by
  rw [Tangled, reaches_iff, reaches_iff]
  constructor
  · rintro (⟨-, alike⟩ | ⟨-, s, hs, r, hr, same⟩)
    · exact alike
    · exact ⟨r, hr, s, hs, same.symm⟩
  · rintro ⟨r, hr, s, hs, same⟩
    have begins : c.1 <+: d.1 ∨ d.1 <+: c.1 :=
      List.prefix_or_prefix_of_prefix (List.prefix_append c.1 r.1) (same ▸ List.prefix_append d.1 s.1)
    exact begins.imp (⟨·, r, hr, s, hs, same⟩) (⟨·, s, hs, r, hr, same.symm⟩)

theorem disjoint_iff {c d : List α × NameTree α β} :
    List.Disjoint (partReadings c) (partReadings d) ↔ ¬ Tangled c d := by
  rw [tangled_iff]
  constructor
  · rintro apart ⟨r, hr, s, hs, same⟩
    exact apart (mem_partReadings.mpr ⟨r, hr, same⟩) (mem_partReadings.mpr ⟨s, hs, rfl⟩)
  · intro clear text hc hd
    obtain ⟨r, hr, rfl⟩ := mem_partReadings.mp hc
    obtain ⟨s, hs, same⟩ := mem_partReadings.mp hd
    exact clear ⟨r, hr, s, hs, same.symm⟩

theorem map_readings (thing : Option β) (children : List (List α × NameTree α β)) :
    (NameTree.node thing children).readings.map (·.1) =
      (thing.map fun _ => []).toList ++ children.flatMap partReadings := by
  rw [NameTree.readings, List.map_append, readingsBelow_eq, List.map_flatMap]
  simp only [List.map_map]
  cases thing <;> rfl

theorem nodup_partReadings {c : List α × NameTree α β} :
    (partReadings c).Nodup ↔ (c.2.readings.map (·.1)).Nodup := by
  have parts : partReadings c = (c.2.readings.map (·.1)).map (c.1 ++ ·) := by
    rw [List.map_map]
    rfl
  rw [parts, List.nodup_map_iff (List.append_right_injective c.1)]

mutual

/-- All nodes read differently exactly when no two siblings are tangled. -/
theorem readings_nodup_iff (t : NameTree α β) (named : t.Named) :
    (t.readings.map (·.1)).Nodup ↔ t.Clear := by
  match t with
  | .node thing children =>
    have below := readingsBelow_nodup_iff children named
    have later : ∀ text ∈ children.flatMap partReadings, text ≠ [] := by
      rintro text ht rfl
      obtain ⟨c, hc, ht⟩ := List.mem_flatMap.mp ht
      obtain ⟨r, -, empty⟩ := mem_partReadings.mp ht
      exact (namedBelow_iff.mp named c hc).1 (List.append_eq_nil_iff.mp empty).1
    have own : (thing.map fun _ => ([] : List α)).toList.Nodup := by cases thing <;> simp
    have apart : ∀ a ∈ (thing.map fun _ => ([] : List α)).toList,
        ∀ b ∈ children.flatMap partReadings, a ≠ b := by
      rintro a ha b hb rfl
      cases thing with
      | none => cases ha
      | some b => exact later a hb (List.mem_singleton.mp ha)
    have siblings : children.Pairwise (Function.onFun List.Disjoint partReadings) ↔
        children.Pairwise fun c d => ¬ Tangled c d := List.Pairwise.iff fun {c d} => disjoint_iff
    rw [map_readings, List.nodup_append, List.nodup_flatMap, siblings, NameTree.Clear, ← below]
    simp only [nodup_partReadings]
    constructor
    · rintro ⟨-, ⟨each, clear⟩, -⟩
      exact ⟨clear, each⟩
    · rintro ⟨clear, each⟩
      exact ⟨own, ⟨each, clear⟩, apart⟩

theorem readingsBelow_nodup_iff (children : List (List α × NameTree α β))
    (named : NameTree.NamedBelow children) :
    (∀ c ∈ children, (c.2.readings.map (·.1)).Nodup) ↔ NameTree.ClearBelow children := by
  match children with
  | [] => simp [NameTree.ClearBelow]
  | (part, t) :: children =>
    rw [List.forall_mem_cons, NameTree.ClearBelow, readings_nodup_iff t named.2.1,
      readingsBelow_nodup_iff children named.2.2]

end

end

end QaCopilot.NameTrees
