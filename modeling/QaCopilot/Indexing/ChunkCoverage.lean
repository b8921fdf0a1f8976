import Mathlib.Data.List.Chain
import QaCopilot.Indexing.ChunkBounds

/-!
# What chunks hold

Chunking loses no word and repeats none, but for the overlaps it makes on purpose.

* `Splits.tiling`: the loop of `_split_text` tiles the words that it has read;
* `chunks_cover`: the chunks of any sections hold their words, each chunk at least one of its own,
  and are numbered through.
-/

namespace QaCopilot.Indexing

open QaCopilot.Python LongestSuffix

/-! ## Tilings -/

/-- A chunk as the words that it takes over from the one before it and those that it adds. -/
structure Cut where
  overlap : List Str
  added : List Str

def Cut.words (k : Cut) : List Str := k.overlap ++ k.added

def Cut.text (k : Cut) : Str := joinWords k.words

/-- What the next chunk takes over. -/
def Cut.Overlaps (overlapCharacters : Nat) (k next : Cut) : Prop :=
  next.overlap <:+ k.words ∧ (joinWords next.overlap).length ≤ overlapCharacters

/-- Chunks of these words, in order. -/
structure Tiling (overlapCharacters : Nat) (words : List Str) (cuts : List Cut) : Prop where
  first : ∀ k ∈ cuts.head?, k.overlap = []
  overlaps : cuts.IsChain (Cut.Overlaps overlapCharacters)
  covers : cuts.flatMap Cut.added = words
  contiguous : ∀ k ∈ cuts, k.words <:+: words

section
variable {n : Nat} {words : List Str} {cuts : List Cut} {last : Cut} {word : Str}

/-- The last chunk goes on. -/
theorem Tiling.continue (h : Tiling n words (cuts ++ [last])) (current : last.words <:+ words) :
    Tiling n (words ++ [word]) (cuts ++ [⟨last.overlap, last.added ++ [word]⟩]) := by
  obtain ⟨z, current⟩ := current
  constructor
  · intro k hk
    cases cuts with
    | nil =>
      obtain rfl := Option.some.inj hk
      exact h.first last rfl
    | cons k' rest => exact h.first k hk
  · have := h.overlaps
    rw [List.isChain_append] at this ⊢
    refine ⟨this.1, List.isChain_singleton _, ?_⟩
    intro k hk next hn
    obtain rfl := Option.some.inj hn
    exact this.2.2 k hk last rfl
  · rw [← h.covers]
    simp
  · intro k hk
    rcases List.mem_append.mp hk with hk | hk
    · exact (h.contiguous k (List.mem_append_left _ hk)).trans (List.prefix_append _ _).isInfix
    · obtain rfl := List.mem_singleton.mp hk
      refine List.IsSuffix.isInfix ⟨z, ?_⟩
      rw [← current]
      simp [Cut.words]

/-- The next chunk begins. -/
theorem Tiling.next {shared : List Str} (h : Tiling n words (cuts ++ [last]))
    (current : last.words <:+ words) (within : shared <:+ last.words)
    (fits : (joinWords shared).length ≤ n) :
    Tiling n (words ++ [word]) (cuts ++ [last] ++ [⟨shared, [word]⟩]) := by
  obtain ⟨z, reaches⟩ := within.trans current
  constructor
  · intro k hk
    apply h.first k
    cases cuts <;> exact hk
  · rw [List.isChain_append]
    refine ⟨h.overlaps, List.isChain_singleton _, ?_⟩
    intro k hk next hn
    obtain rfl := Option.some.inj hn
    rw [List.getLast?_concat] at hk
    obtain rfl := Option.some.inj hk
    exact ⟨within, fits⟩
  · rw [← h.covers]
    simp
  · intro k hk
    rcases List.mem_append.mp hk with hk | hk
    · exact (h.contiguous k hk).trans (List.prefix_append _ _).isInfix
    · obtain rfl := List.mem_singleton.mp hk
      refine List.IsSuffix.isInfix ⟨z, ?_⟩
      rw [← reaches]
      simp [Cut.words]

end

/-! ## Texts -/

section
variable {c : ChunkingConfiguration} {words : List Str} {p : Pieces}

theorem Splits.of_nil (h : Splits c words p) (none' : words = []) : p = .of [] [] := by
  cases h with
  | start => rfl
  | read => simp at none'

theorem Splits.tiling (h : Splits c words p) (all : ∀ w ∈ words, IsWord w) (some' : words ≠ []) :
    ∃ cuts last, Tiling c.overlapCharacters words (cuts ++ [last]) ∧ p.current = last.words ∧
      p.chunks = cuts.map Cut.text ∧ ∀ k ∈ cuts ++ [last], k.added ≠ [] := by
  induction h with
  | start => exact absurd rfl some'
  | @read before p word q earlier step ih =>
    have first : ∀ w ∈ before, IsWord w := fun w hw => all w (List.mem_append_left _ hw)
    by_cases none' : before = []
    · obtain rfl := earlier.of_nil none'
      subst none'
      cases step with
      | closes full => exact absurd rfl full.1
      | continues =>
        refine ⟨[], ⟨[], [word]⟩, ⟨?_, List.isChain_singleton _, rfl, ?_⟩, rfl, rfl, ?_⟩
        · intro k hk
          obtain rfl := Option.some.inj hk
          rfl
        · intro k hk
          obtain rfl := List.mem_singleton.mp hk
          exact List.infix_refl _
        · simp
    · obtain ⟨cuts, last, tiling, current, closed, added⟩ := ih first none'
      have recent := (earlier.current first).1
      rw [current] at recent
      have within : overlapWords last.words c.overlapCharacters <:+ last.words :=
        overlapWords_suffix fun w hw => first w (recent.subset hw)
      cases step with
      | closes =>
        refine ⟨cuts ++ [last], _, tiling.next recent within (overlapWords_fits fun w hw =>
          first w (recent.subset hw)), ?_, ?_, ?_⟩
        · rw [current]
          rfl
        · rw [current, closed]
          simp [Pieces.of, Cut.text]
        · intro k hk
          rcases List.mem_append.mp hk with hk | hk
          · exact added k hk
          · obtain rfl := List.mem_singleton.mp hk
            exact List.cons_ne_nil _ _
      | continues =>
        refine ⟨cuts, _, tiling.continue recent, ?_, closed, ?_⟩
        · simp [Pieces.of, current, Cut.words]
        · intro k hk
          rcases List.mem_append.mp hk with hk | hk
          · exact added k (List.mem_append_left _ hk)
          · obtain rfl := List.mem_singleton.mp hk
            simp

theorem splitText_tiling {text : Str} {chunks : List Str} (h : splitText c text = some chunks) :
    ∃ cuts, Tiling c.overlapCharacters (split text) cuts ∧ chunks = cuts.map Cut.text ∧
      (split text ≠ [] → ∀ k ∈ cuts, k.added ≠ []) := by
  rcases splitText_splits h with ⟨-, rfl⟩ | ⟨p, splits, some', rfl⟩
  · refine ⟨[⟨[], split text⟩], ⟨?_, List.isChain_singleton _, by simp, ?_⟩, rfl, ?_⟩
    · intro k hk
      obtain rfl := Option.some.inj hk
      rfl
    · intro k hk
      obtain rfl := List.mem_singleton.mp hk
      exact List.infix_refl _
    · intro some' k hk
      obtain rfl := List.mem_singleton.mp hk
      exact some'
  · obtain ⟨cuts, last, tiling, current, closed, added⟩ := splits.tiling (isWord_split text) some'
    refine ⟨cuts ++ [last], tiling, ?_, fun _ => added⟩
    rw [closed, current, List.map_append]
    rfl

end

/-! ## Sections -/

theorem NormalizedSection.words_of_valid {s : NormalizedSection} (h : s.valid = true) :
    split s.normalizedText ≠ [] := by
  have visible : strip s.normalizedText ≠ [] := by simpa [valid] using h
  rw [ne_eq, strip_eq_nil] at visible
  apply split_ne_nil
  simpa using visible

section
variable {sha256 : Bytes → Str} {c : ChunkingConfiguration} {ordinal : Nat}

theorem draftTexts_texts {s : NormalizedSection} {texts : List Str} {drafts : List ChunkDraft}
    (h : draftTexts sha256 c s ordinal texts = some drafts) :
    drafts.map (fun d => (d.sectionId, d.normalizedText)) = texts.map (fun t => (s.id, t)) ∧
      drafts.map (·.ordinal) = List.range' ordinal texts.length := by
  induction texts generalizing ordinal drafts with
  | nil =>
    obtain rfl := Option.some.inj h
    exact ⟨rfl, rfl⟩
  | cons text texts ih =>
    rw [draftTexts, Option.bind_eq_bind, Option.bind_eq_some_iff] at h
    obtain ⟨bytes, -, h⟩ := h
    rw [Option.bind_eq_bind, Option.bind_eq_some_iff] at h
    obtain ⟨rest, later, eq⟩ := h
    obtain rfl := Option.some.inj eq
    obtain ⟨texts_eq, ordinals⟩ := ih later
    refine ⟨?_, ?_⟩
    · rw [List.map_cons, texts_eq, List.map_cons]
    · rw [List.map_cons, ordinals, List.length_cons, List.range'_succ]

/-- The chunks of a section hold its words, each at least one of its own. -/
def Covers (c : ChunkingConfiguration) (s : NormalizedSection) (cuts : List Cut) : Prop :=
  Tiling c.overlapCharacters (split s.normalizedText) cuts ∧
    (s.valid = true → ∀ k ∈ cuts, k.added ≠ [])

theorem chunkSections_cover {sections : List NormalizedSection} {drafts : List ChunkDraft}
    (h : chunkSections sha256 c ordinal sections = some drafts) :
    ∃ cuts : List (List Cut), List.Forall₂ (Covers c) sections cuts ∧
      drafts.map (fun d => (d.sectionId, d.normalizedText)) =
        (sections.zip cuts).flatMap (fun s => s.2.map fun k => (s.1.id, k.text)) ∧
      drafts.map (·.ordinal) = List.range' ordinal drafts.length := by
  induction sections generalizing ordinal drafts with
  | nil =>
    obtain rfl := Option.some.inj h
    exact ⟨[], .nil, rfl, rfl⟩
  | cons s sections ih =>
    rw [chunkSections, Option.bind_eq_bind, Option.bind_eq_some_iff] at h
    obtain ⟨texts, split, h⟩ := h
    rw [Option.bind_eq_bind, Option.bind_eq_some_iff] at h
    obtain ⟨first, drafted, h⟩ := h
    rw [Option.bind_eq_some_iff] at h
    obtain ⟨rest, later, eq⟩ := h
    obtain rfl := Option.some.inj eq
    obtain ⟨cuts, tiling, rfl, added⟩ := splitText_tiling split
    obtain ⟨all, covers, texts_eq, ordinals⟩ := ih later
    obtain ⟨first_eq, first_ordinals⟩ := draftTexts_texts drafted
    have counted := draftTexts_length drafted
    refine ⟨cuts :: all, .cons ⟨tiling, fun valid => added (NormalizedSection.words_of_valid valid)⟩ covers, ?_, ?_⟩
    · rw [List.map_append, first_eq, texts_eq, List.zip_cons_cons, List.flatMap_cons, List.map_map]
      rfl
    · rw [List.map_append, first_ordinals, ordinals, List.length_append, ← counted,
        List.range'_append_1]

end

/-- **Chunking loses and repeats nothing.** Whenever it returns, the chunks of each section are
runs of its words: each takes over a few of the last words of the chunk before it, and what they
add makes up the words of the section. -/
theorem chunks_cover (sha256 : Bytes → Str) (c : ChunkingConfiguration)
    (sections : List NormalizedSection) (drafts : List ChunkDraft)
    (h : chunkSections sha256 c 0 sections = some drafts) :
    ∃ cuts : List (List Cut), List.Forall₂ (Covers c) sections cuts ∧
      drafts.map (fun d => (d.sectionId, d.normalizedText)) =
        (sections.zip cuts).flatMap (fun s => s.2.map fun k => (s.1.id, k.text)) ∧
      drafts.map (·.ordinal) = List.range drafts.length := by
  rw [List.range_eq_range']
  exact chunkSections_cover h

def sampleSections : List NormalizedSection :=
  [⟨1, 1, 0, lit "one two three four"⟩, ⟨2, 2, 1, lit " five "⟩]

theorem chunks_cover_sample :
    ∃ drafts, chunkSections (fun _ => []) tightConfiguration 0 sampleSections = some drafts ∧
      ∃ cuts : List (List Cut), List.Forall₂ (Covers tightConfiguration) sampleSections cuts ∧
        drafts.map (fun d => (d.sectionId, d.normalizedText)) =
          (sampleSections.zip cuts).flatMap (fun s => s.2.map fun k => (s.1.id, k.text)) ∧
        drafts.map (·.ordinal) = List.range drafts.length := by
  have made : (chunkSections (fun _ => []) tightConfiguration 0 sampleSections).isSome = true := by
    decide +kernel
  obtain ⟨drafts, made⟩ := Option.isSome_iff_exists.mp made
  exact ⟨drafts, made, chunks_cover (fun _ => []) tightConfiguration sampleSections drafts made⟩

end QaCopilot.Indexing
