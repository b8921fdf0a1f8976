import QaCopilot.Indexing.Chunking
import QaCopilot.Lib.LongestSuffix

/-!
# The size of chunks

`_split_text` starts a chunk with the overlap of the one before it and then appends a word, whose
length it has checked on its own only.

* `overlapWords_longest`: the overlap is the longest run of last words that fits;
* `splitText_bounded_iff`: the chunks keep to the maximum exactly when every word does together
  with the overlap of the words before it.
-/

namespace QaCopilot.Indexing

open QaCopilot.Python LongestSuffix

/-! ## Overlaps -/

/-- The words, joined, are short enough for an overlap. -/
def Fits (overlapCharacters : Nat) (words : List Str) : Prop :=
  (joinWords words).length ≤ overlapCharacters

theorem Fits.shrinks {n : Nat} (words : List Str) (word : Str) (h : Fits n (words ++ [word])) :
    Fits n words := by
  unfold Fits at *
  rw [length_joinWords_concat] at h
  omega

theorem overlapFrom_longest {n length : Nat} (overlap words : List Str)
    (measured : length = (joinWords overlap.reverse).length) (fits : Fits n overlap.reverse) :
    IsLongest (Fits n) (overlapFrom n overlap length words).reverse
      (overlap ++ words).reverse := by
  induction words generalizing overlap length with
  | nil => simpa [overlapFrom] using IsLongest.self fits
  | cons word words ih =>
    have wider : (overlap ++ word :: words).reverse
        = words.reverse ++ (word :: overlap.reverse) := by simp
    have joined : (joinWords (word :: overlap.reverse)).length =
        length + (word.length + if overlap = [] then 0 else 1) := by
      have single : joinWords [word] = word := List.intercalate_singleton
      rw [← List.singleton_append, length_joinWords_append, measured, single]
      simp only [List.cons_ne_nil, false_or, List.reverse_eq_nil_iff]
      omega
    have split : (overlap ++ [word]).reverse = word :: overlap.reverse := by simp
    unfold overlapFrom
    by_cases full : n < length + (word.length + if overlap = [] then 0 else 1)
    · rw [if_pos full]
      refine ⟨List.reverse_suffix.mpr (List.prefix_append _ _), fits, ?_⟩
      intro t within ht
      by_contra longer
      -- a longer suffix holds the word that did not fit
      have more : word :: overlap.reverse <:+ t := by
        rcases List.suffix_or_suffix_of_suffix within (wider ▸ List.suffix_append _ _) with h | h
        · rcases List.suffix_cons_iff.mp h with rfl | h
          · exact List.suffix_refl _
          · exact absurd h longer
        · exact h
      have := length_joinWords_suffix more
      unfold Fits at ht
      omega
    · rw [if_neg full]
      have room : Fits n (overlap ++ [word]).reverse := by
        rw [Fits, split, joined]
        exact Nat.le_of_not_lt full
      have := ih (overlap ++ [word]) (split ▸ joined.symm) room
      rwa [List.append_assoc, List.singleton_append] at this

theorem fits_zero {words : List Str} (all : ∀ w ∈ words, IsWord w) (h : Fits 0 words) :
    words = [] := by
  cases words with
  | nil => rfl
  | cons word words =>
    have some' := List.length_pos_of_ne_nil (all word List.mem_cons_self).1
    rw [Fits, ← List.singleton_append, length_joinWords_append,
      show joinWords [word] = word from List.intercalate_singleton] at h
    omega

/-- The overlap of words is the longest run of the last of them that fits. -/
theorem overlapWords_longest {n : Nat} {words : List Str} (all : ∀ w ∈ words, IsWord w) :
    IsLongest (Fits n) (overlapWords words n) words := by
  unfold overlapWords
  split
  · rename_i zero
    subst zero
    refine ⟨List.nil_suffix, Nat.le_refl _, ?_⟩
    intro t within fits
    rw [fits_zero (fun w hw => all w (within.subset hw)) fits]
  · have := overlapFrom_longest (n := n) [] words.reverse rfl
      (Nat.zero_le n)
    simpa [joinWords] using this

theorem overlapWords_suffix {n : Nat} {words : List Str} (all : ∀ w ∈ words, IsWord w) :
    overlapWords words n <:+ words :=
  (overlapWords_longest all).suffix

theorem overlapWords_fits {n : Nat} {words : List Str} (all : ∀ w ∈ words, IsWord w) :
    (joinWords (overlapWords words n)).length ≤ n :=
  (overlapWords_longest all).holds

/-- The words before those of an overlap do not come into a later overlap. -/
theorem overlapWords_append {n : Nat} {words recent : List Str} {word : Str}
    (all : ∀ w ∈ words ++ [word], IsWord w) (within : recent <:+ words)
    (holds : overlapWords words n <:+ recent) :
    overlapWords (recent ++ [word]) n = overlapWords (words ++ [word]) n := by
  have before : ∀ w ∈ words, IsWord w := fun w hw => all w (List.mem_append_left _ hw)
  have recent_all : ∀ w ∈ recent ++ [word], IsWord w := by
    intro w hw
    rcases List.mem_append.mp hw with hw | hw
    · exact before w (within.subset hw)
    · exact all w (List.mem_append_right _ hw)
  have same := (overlapWords_longest (n := n) before).append_iff Fits.shrinks (a := word)
    (t := overlapWords (recent ++ [word]) n) holds within
  exact (same.mp (overlapWords_longest recent_all)).unique (overlapWords_longest all)

/-! ## The loop -/

/-- The word, when it goes on with the current chunk, makes it too long. -/
def Overflows (c : ChunkingConfiguration) (p : Pieces) (word : Str) : Prop :=
  p.current ≠ [] ∧ c.maxCharacters < p.currentLength + word.length + 1

def Pieces.of (chunks current : List Str) : Pieces := ⟨chunks, current, (joinWords current).length⟩

/-- A word goes on with the current chunk, or closes it and begins the next one. -/
inductive Steps (c : ChunkingConfiguration) (p : Pieces) (word : Str) : Pieces → Prop where
  | closes (full : Overflows c p word) : Steps c p word
      (.of (p.chunks ++ [joinWords p.current])
        (overlapWords p.current c.overlapCharacters ++ [word]))
  | continues (room : ¬ Overflows c p word) : Steps c p word (.of p.chunks (p.current ++ [word]))

theorem close_eq (c : ChunkingConfiguration) (p : Pieces) (word : Str) :
    (Overflows c p word ∧ p.close c word = .of (p.chunks ++ [joinWords p.current])
      (overlapWords p.current c.overlapCharacters)) ∨
    (¬ Overflows c p word ∧ p.close c word = p) := by
  unfold Pieces.close Overflows
  by_cases isOpen : p.current = []
  · simp [isOpen]
  · simp only [isOpen, ne_eq, not_false_eq_true, true_and, if_false]
    by_cases full : c.maxCharacters < p.currentLength + (word.length + 1)
    · exact .inl ⟨full, if_pos full⟩
    · exact .inr ⟨full, if_neg full⟩

theorem splitStep_some {c : ChunkingConfiguration} {chunks current : List Str} {word : Str} :
    (∃ q, splitStep c (.of chunks current) word = some q) ↔ word.length ≤ c.maxCharacters := by
  unfold splitStep
  by_cases fit : word.length ≤ c.maxCharacters
  · simp [fit, Nat.not_lt.mpr fit]
  · simp [fit, Nat.not_le.mp fit]

theorem splitStep_steps {c : ChunkingConfiguration} {chunks current : List Str} {word : Str}
    {q : Pieces} (h : splitStep c (.of chunks current) word = some q) :
    Steps c (.of chunks current) word q := by
  have appended : ∀ words : List Str,
      (joinWords words).length + word.length + (if 1 < (words ++ [word]).length then 1 else 0) =
        (joinWords (words ++ [word])).length := by
    intro words
    rw [length_joinWords_concat]
    cases words <;> simp
  have fit := splitStep_some.mp ⟨q, h⟩
  rw [splitStep, if_neg (Nat.not_lt.mpr fit)] at h
  obtain rfl := Option.some.inj h
  rcases close_eq c (.of chunks current) word with ⟨full, eq⟩ | ⟨room, eq⟩
  · rw [eq]
    exact congrArg (Pieces.mk _ _) (appended _) ▸ .closes full
  · rw [eq]
    exact congrArg (Pieces.mk _ _) (appended _) ▸ .continues room

/-- The pieces once these words are read. -/
inductive Splits (c : ChunkingConfiguration) : List Str → Pieces → Prop where
  | start : Splits c [] (.of [] [])
  | read {before p word q} (earlier : Splits c before p) (step : Steps c p word q) :
    Splits c (before ++ [word]) q

section
variable {c : ChunkingConfiguration} {words : List Str} {p : Pieces}

theorem Splits.measured (h : Splits c words p) : p = .of p.chunks p.current := by
  cases h with
  | start => rfl
  | read _ step => cases step <;> rfl

theorem Splits.foldlM {more : List Str} {q : Pieces} (h : Splits c words p)
    (folded : more.foldlM (splitStep c) p = some q) : Splits c (words ++ more) q := by
  induction more generalizing words p with
  | nil =>
    obtain rfl := Option.some.inj folded
    simpa using h
  | cons word more ih =>
    rw [List.foldlM_cons, Option.bind_eq_bind, Option.bind_eq_some_iff] at folded
    obtain ⟨next, stepped, folded⟩ := folded
    rw [h.measured] at stepped
    have step := splitStep_steps stepped
    rw [← h.measured] at step
    have := ih (.read h step) folded
    rwa [List.append_assoc, List.singleton_append] at this

theorem Splits.foldlM_some {more : List Str} (h : Splits c words p)
    (fit : ∀ word ∈ more, word.length ≤ c.maxCharacters) :
    ∃ q, more.foldlM (splitStep c) p = some q := by
  induction more generalizing words p with
  | nil => exact ⟨p, rfl⟩
  | cons word more ih =>
    obtain ⟨fits, later⟩ := List.forall_mem_cons.mp fit
    obtain ⟨next, stepped⟩ := splitStep_some.mpr fits
    have step := splitStep_steps stepped
    rw [← h.measured] at step
    obtain ⟨q, folded⟩ := ih (.read h step) later
    refine ⟨q, ?_⟩
    rw [List.foldlM_cons, h.measured, stepped]
    exact folded

/-- The current chunk holds the last words, and those of their overlap among them. -/
theorem Splits.current (h : Splits c words p) (all : ∀ w ∈ words, IsWord w) :
    p.current <:+ words ∧
      overlapWords p.current c.overlapCharacters = overlapWords words c.overlapCharacters := by
  induction h with
  | start => exact ⟨List.suffix_refl _, rfl⟩
  | @read before p word q _ step ih =>
    have earlier : ∀ w ∈ before, IsWord w := fun w hw => all w (List.mem_append_left _ hw)
    obtain ⟨suffix, overlap⟩ := ih earlier
    have onward : ∀ {recent : List Str}, recent <:+ before → recent ++ [word] <:+ before ++ [word] := by
      rintro recent ⟨z, rfl⟩
      exact ⟨z, (List.append_assoc _ _ _).symm⟩
    cases step with
    | closes =>
      have within := overlapWords_suffix (n := c.overlapCharacters) earlier
      rw [overlap]
      exact ⟨onward within, overlapWords_append all within (List.suffix_refl _)⟩
    | continues =>
      have holds : overlapWords before c.overlapCharacters <:+ p.current := by
        rw [← overlap]
        exact overlapWords_suffix fun w hw => earlier w (suffix.subset hw)
      exact ⟨onward suffix, overlapWords_append all suffix holds⟩

theorem Splits.isOpen (h : Splits c words p) (some' : words ≠ []) : p.current ≠ [] := by
  cases h with
  | start => exact absurd rfl some'
  | read _ step => cases step <;> simp [Pieces.of]

/-! ## Whole texts -/

/-- The chunks of a text are those of its words, or the text is one short chunk. -/
theorem splitText_splits {text : Str} {chunks : List Str} (h : splitText c text = some chunks) :
    (Fits c.maxCharacters (split text) ∧ chunks = [joinWords (split text)]) ∨
    ∃ p, Splits c (split text) p ∧ split text ≠ [] ∧
      chunks = p.chunks ++ [joinWords p.current] := by
  unfold splitText at h
  by_cases short : (joinWords (split text)).length ≤ c.maxCharacters
  · rw [if_pos short] at h
    exact .inl ⟨short, (Option.some.inj h).symm⟩
  · rw [if_neg short, Option.bind_eq_bind, Option.bind_eq_some_iff] at h
    have some' : split text ≠ [] := by
      intro none'
      simp [none', joinWords] at short
    rw [splitOn_joinWords some' (isWord_split text)] at h
    obtain ⟨p, folded, eq⟩ := h
    have splits : Splits c ([] ++ split text) p := Splits.start.foldlM folded
    rw [List.nil_append] at splits
    rw [if_neg (splits.isOpen some')] at eq
    exact .inr ⟨p, splits, some', (Option.some.inj eq).symm⟩

theorem splitText_isSome {text : Str} (fit : ∀ word ∈ split text, word.length ≤ c.maxCharacters) :
    ∃ chunks, splitText c text = some chunks := by
  unfold splitText
  by_cases short : (joinWords (split text)).length ≤ c.maxCharacters
  · exact ⟨_, if_pos short⟩
  · have some' : split text ≠ [] := by
      intro none'
      simp [none', joinWords] at short
    rw [if_neg short, splitOn_joinWords some' (isWord_split text)]
    obtain ⟨p, folded⟩ := Splits.start.foldlM_some fit
    exact ⟨_, Option.bind_eq_some_iff.mpr ⟨p, folded, rfl⟩⟩

/-! ## The bound -/

/-- Every word keeps to the maximum together with the overlap of the words before it. -/
def OverlapsFit (c : ChunkingConfiguration) (words : List Str) : Prop :=
  ∀ before word after, words = before ++ word :: after →
    Fits c.maxCharacters (overlapWords before c.overlapCharacters ++ [word])

theorem Splits.bounded (h : Splits c words p) (all : ∀ w ∈ words, IsWord w)
    (fits : OverlapsFit c words) :
    (∀ chunk ∈ p.chunks, chunk.length ≤ c.maxCharacters) ∧ Fits c.maxCharacters p.current := by
  induction h with
  | start => exact ⟨fun _ h => (nomatch h), Nat.zero_le _⟩
  | @read before p word q earlier step ih =>
    have first : ∀ w ∈ before, IsWord w := fun w hw => all w (List.mem_append_left _ hw)
    obtain ⟨closed, current⟩ := ih first fun b w a eq => fits b w (a ++ [word]) (by simp [eq])
    have next := fits before word [] rfl
    cases step with
    | closes =>
      rw [← (earlier.current first).2] at next
      refine ⟨?_, next⟩
      intro chunk hc
      rcases List.mem_append.mp hc with hc | hc
      · exact closed chunk hc
      · exact List.mem_singleton.mp hc ▸ current
    | continues room =>
      refine ⟨closed, ?_⟩
      have single := length_joinWords_concat (overlapWords before c.overlapCharacters) word
      have measured := congrArg Pieces.currentLength earlier.measured
      simp only [Pieces.of] at measured
      unfold Overflows at room
      unfold Fits at next ⊢
      simp only [Pieces.of]
      rw [length_joinWords_concat]
      by_cases isOpen : p.current = []
      · simp only [isOpen, if_true, joinWords, List.intercalate_nil, List.length_nil]
        omega
      · rw [if_neg isOpen]
        simp only [isOpen, ne_eq, not_false_eq_true, true_and] at room
        omega

/-- Some chunk is as long as the word with the overlap of the words before it. -/
theorem Splits.reaches (h : Splits c words p) (all : ∀ w ∈ words, IsWord w)
    {before after : List Str} {word : Str} (split : words = before ++ word :: after) :
    ∃ chunk ∈ p.chunks ++ [joinWords p.current],
      (joinWords (overlapWords before c.overlapCharacters ++ [word])).length ≤ chunk.length := by
  induction h generalizing after with
  | start => simp at split
  | @read earlier p last q splits step ih =>
    have first : ∀ w ∈ earlier, IsWord w := fun w hw => all w (List.mem_append_left _ hw)
    obtain ⟨suffix, overlap⟩ := splits.current first
    rcases List.eq_nil_or_concat after with rfl | ⟨rest, w, rfl⟩
    · -- the word is the last one read, and the current chunk ends with it
      obtain ⟨rfl, eq⟩ := List.append_inj' split rfl
      obtain rfl := List.head_eq_of_cons_eq eq
      refine ⟨joinWords q.current, by simp, length_joinWords_suffix ?_⟩
      have holds : overlapWords earlier c.overlapCharacters <:+ p.current := by
        rw [← overlap]
        exact overlapWords_suffix fun w hw => first w (suffix.subset hw)
      cases step with
      | closes =>
        rw [← overlap]
        exact List.suffix_refl _
      | continues =>
        obtain ⟨z, eq⟩ := holds
        exact ⟨z, by rw [← List.append_assoc, eq]; rfl⟩
    · rw [List.concat_eq_append, ← List.cons_append, ← List.append_assoc] at split
      obtain ⟨eq, -⟩ := List.append_inj' split rfl
      obtain ⟨chunk, hc, le⟩ := ih first eq
      rcases List.mem_append.mp hc with hc | hc
      · cases step with
        | closes => exact ⟨chunk, by simp [Pieces.of, hc], le⟩
        | continues => exact ⟨chunk, by simp [Pieces.of, hc], le⟩
      · obtain rfl := List.mem_singleton.mp hc
        cases step with
        | closes => exact ⟨_, by simp [Pieces.of], le⟩
        | continues =>
          refine ⟨joinWords (p.current ++ [last]), by simp [Pieces.of], le.trans ?_⟩
          rw [length_joinWords_concat]
          omega

end

/-- **Overlaps make chunks too long.** When no token of a text exceeds the maximum, its chunks keep
to the maximum exactly when every token does together with the overlap of the tokens before it. -/
theorem splitText_bounded_iff (c : ChunkingConfiguration) (text : Str)
    (fit : ∀ word ∈ split text, word.length ≤ c.maxCharacters) :
    ∃ chunks, splitText c text = some chunks ∧
      ((∀ chunk ∈ chunks, chunk.length ≤ c.maxCharacters) ↔ OverlapsFit c (split text)) := by
  have all := isWord_split text
  obtain ⟨chunks, made⟩ := splitText_isSome fit
  refine ⟨chunks, made, ?_⟩
  rcases splitText_splits made with ⟨short, rfl⟩ | ⟨p, splits, -, rfl⟩
  · have within : OverlapsFit c (split text) := by
      intro before word after eq
      have earlier : ∀ w ∈ before, IsWord w := fun w hw => all w (eq ▸ List.mem_append_left _ hw)
      obtain ⟨z, holds⟩ := overlapWords_suffix (n := c.overlapCharacters) earlier
      have inside : overlapWords before c.overlapCharacters ++ [word] <:+: split text :=
        ⟨z, after, by rw [← List.append_assoc, holds, eq]; simp⟩
      exact (length_joinWords_within inside).trans short
    exact iff_of_true (fun chunk hc => List.mem_singleton.mp hc ▸ short) within
  · constructor
    · intro bounded before word after eq
      obtain ⟨chunk, hc, le⟩ := splits.reaches all eq
      exact le.trans (bounded chunk hc)
    · intro fits chunk hc
      obtain ⟨closed, current⟩ := splits.bounded all fits
      rcases List.mem_append.mp hc with hc | hc
      · exact closed chunk hc
      · exact List.mem_singleton.mp hc ▸ current

/-- At most ten characters a chunk, of which nine may overlap. -/
def tightConfiguration : ChunkingConfiguration :=
  ⟨lit "v1", 10, 9, by decide, by decide, by decide⟩

theorem splitText_bounded_sample :
    ∃ chunks, splitText tightConfiguration (lit "aaaa bbbb cccccccc") = some chunks ∧
      ((∀ chunk ∈ chunks, chunk.length ≤ tightConfiguration.maxCharacters) ↔
        OverlapsFit tightConfiguration (split (lit "aaaa bbbb cccccccc"))) :=
  splitText_bounded_iff tightConfiguration (lit "aaaa bbbb cccccccc") (by decide +kernel)

/-- The second chunk is its overlap and the next word, of eighteen characters. -/
theorem overlap_exceeds_maximum : ¬ ∀ (c : ChunkingConfiguration) (text : Str) (chunks : List Str),
    (∀ word ∈ split text, word.length ≤ c.maxCharacters) → splitText c text = some chunks →
      ∀ chunk ∈ chunks, chunk.length ≤ c.maxCharacters := by
  intro bounded
  have made : splitText tightConfiguration (lit "aaaa bbbb cccccccc") =
      some [lit "aaaa bbbb", lit "aaaa bbbb cccccccc"] := by decide +kernel
  have long := bounded tightConfiguration _ _ (by decide +kernel) made _
    (List.mem_cons_of_mem _ List.mem_cons_self)
  exact absurd long (by decide +kernel)

end QaCopilot.Indexing
