import QaCopilot.Python.Surrogates

/-!
# JSON text of one line

* `printable_dict`: the text of a dict of words has no control character, so it is one line.
-/

namespace QaCopilot.Python

/-- A text without control characters. -/
def Printable (s : Str) : Prop := ∀ c ∈ s, 0x20 ≤ c.val

theorem printable_of_all {s : Str} (all : s.all (0x20 ≤ ·.val) = true) : Printable s :=
  fun c hc => of_decide_eq_true (List.all_eq_true.mp all c hc)

theorem printable_append {s t : Str} (hs : Printable s) (ht : Printable t) : Printable (s ++ t) := by
  intro c hc
  rcases List.mem_append.mp hc with hc | hc
  · exact hs c hc
  · exact ht c hc

theorem printable_hexDigit : ∀ {n : Nat}, n < 16 → 0x20 ≤ (hexDigit n).val := by decide

theorem printable_escapeUnit (n : Nat) : Printable (escapeUnit n) := by
  refine printable_append (printable_of_all (by decide)) ?_
  intro c hc
  simp only [List.mem_cons, List.not_mem_nil, or_false] at hc
  rcases hc with rfl | rfl | rfl | rfl
  all_goals exact printable_hexDigit (Nat.mod_lt _ (by decide))

theorem printable_escapeChar (ensureAscii : Bool) (c : CodePoint) :
    Printable (escapeChar ensureAscii c) := by
  rw [escapeChar]
  cases short : shortEscapes.lookup c.val with
  | some letter =>
    have all : ∀ p ∈ shortEscapes,
        [CodePoint.ofChar '\\', CodePoint.ofChar p.2].all (0x20 ≤ ·.val) = true := by decide
    obtain ⟨before, after, eq, -⟩ := List.lookup_eq_some_iff.mp short
    exact printable_of_all (all (c.val, letter) (by simp [eq]))
  | none =>
    simp only
    split
    · rename_i plain
      intro d hd
      obtain rfl := List.mem_singleton.mp hd
      exact plain.1
    · split
      · exact printable_escapeUnit _
      · exact printable_append (printable_escapeUnit _) (printable_escapeUnit _)

theorem printable_dumpsStr (o : DumpsOptions) (s : Str) : Printable (dumpsStr o s) := by
  have quote : Printable (lit "\"") := printable_of_all (by decide)
  refine printable_append (printable_append quote ?_) quote
  intro c hc
  obtain ⟨d, -, hc⟩ := List.mem_flatMap.mp hc
  exact printable_escapeChar o.ensureAscii d c hc

theorem printable_intercalate {sep : Str} {texts : List Str} (hs : Printable sep)
    (all : ∀ t ∈ texts, Printable t) : Printable (sep.intercalate texts) := by
  induction texts with
  | nil =>
    intro c hc
    cases hc
  | cons t ts ih =>
    obtain ⟨first, rest⟩ := List.forall_mem_cons.mp all
    cases ts with
    | nil => simpa [List.intercalate] using first
    | cons u us =>
      rw [intercalate_cons]
      exact printable_append first (printable_append hs (ih rest))

/-- A text, a bool or null. -/
def Wordy : Json → Prop
  | .str _ | .bool _ | .null => True
  | _ => False

theorem printable_wordy {o : DumpsOptions} {depth : Nat} {v : Json} {text : Str} (wordy : Wordy v)
    (made : dumps o depth v = .ok text) : Printable text := by
  cases v with
  | str s =>
    rw [dumps] at made
    obtain rfl := Except.ok.inj made
    exact printable_dumpsStr o s
  | bool b =>
    rw [dumps] at made
    obtain rfl := Except.ok.inj made
    cases b
    · exact printable_of_all (by decide)
    · exact printable_of_all (by decide)
  | null =>
    rw [dumps] at made
    obtain rfl := Except.ok.inj made
    exact printable_of_all (by decide)
  | int | float | list | dict => cases wordy

/-- The text of a flat dict. -/
theorem printable_dict {o : DumpsOptions} {depth : Nat} {items : List (Str × Json)} {text : Str}
    (separators : Printable o.itemSeparator ∧ Printable o.keySeparator)
    (wordy : ∀ i ∈ items, Wordy i.2) (made : dumps o depth (.dict items) = .ok text) :
    Printable text := by
  obtain ⟨inner, texts, -, inside, rfl⟩ := dumps_dict made
  have each : ∀ t ∈ texts, Printable t := by
    clear made
    induction items generalizing texts with
    | nil =>
      rw [dumpsItems] at inside
      obtain rfl := Except.ok.inj inside
      intro t ht
      cases ht
    | cons i items ih =>
      obtain ⟨text, rest, first, later, rfl⟩ := dumpsItems_cons inside
      obtain ⟨own, others⟩ := List.forall_mem_cons.mp wordy
      refine List.forall_mem_cons.mpr ⟨?_, ih others rest later⟩
      exact printable_append (printable_append (printable_dumpsStr o _) separators.2)
        (printable_wordy own first)
  exact printable_append
    (printable_append (printable_of_all (by decide)) (printable_intercalate separators.1 each))
    (printable_of_all (by decide))

end QaCopilot.Python
