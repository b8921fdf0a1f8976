import QaCopilot.Ingestion.Tables
import QaCopilot.Python.Words

/-!
# Chunking

`_chunk_sections`, `_split_text` and `_overlap_words` of `indexing.py`.

* `chunkSections_nonempty`: sections with a text give chunks;
* `chunkSections_version`: all of them of one version.
-/

namespace QaCopilot.Indexing

open QaCopilot.Python

/-- `ChunkingConfiguration` after `validate`. -/
structure ChunkingConfiguration where
  version : Str
  maxCharacters : Nat
  overlapCharacters : Nat
  named : strip version ≠ []
  positive : 1 ≤ maxCharacters
  smaller : overlapCharacters < maxCharacters
deriving DecidableEq

structure EmbeddingConfiguration where
  model : Str
  version : Str
deriving DecidableEq

/-- `validate` -/
def EmbeddingConfiguration.valid (c : EmbeddingConfiguration) : Bool :=
  strip c.model ≠ [] && strip c.version ≠ []

structure NormalizedSection where
  id : Uuid
  sourceLocationId : Uuid
  ordinal : Nat
  normalizedText : Str
deriving DecidableEq

/-- `validate`; the ordinal is not negative by its type. -/
def NormalizedSection.valid (s : NormalizedSection) : Bool := strip s.normalizedText ≠ []

structure ChunkDraft where
  sectionId : Uuid
  sourceLocationId : Uuid
  ordinal : Nat
  normalizedText : Str
  contentSha256 : Str
  chunkingVersion : Str
deriving DecidableEq

/-! ## Texts -/

/-- The loop of `_overlap_words` over the words from the last one on. -/
def overlapFrom (overlapCharacters : Nat) : List Str → Nat → List Str → List Str
  | overlap, _, [] => overlap
  | overlap, length, word :: words =>
    let addition := word.length + if overlap = [] then 0 else 1
    if overlapCharacters < length + addition then overlap
    else overlapFrom overlapCharacters (overlap ++ [word]) (length + addition) words

/-- `_overlap_words` -/
def overlapWords (words : List Str) (overlapCharacters : Nat) : List Str :=
  if overlapCharacters = 0 then [] else (overlapFrom overlapCharacters [] 0 words.reverse).reverse

/-- The chunks so far, and the words of the next one with their length. -/
structure Pieces where
  chunks : List Str
  current : List Str
  currentLength : Nat

/-- A full chunk is closed, and the next one begins with its overlap. -/
def Pieces.close (c : ChunkingConfiguration) (p : Pieces) (word : Str) : Pieces :=
  let addition := word.length + if p.current = [] then 0 else 1
  if p.current ≠ [] ∧ c.maxCharacters < p.currentLength + addition then
    let overlap := overlapWords p.current c.overlapCharacters
    ⟨p.chunks ++ [joinWords p.current], overlap, (joinWords overlap).length⟩
  else p

/-- One turn of the loop of `_split_text`; none where it raises `ValueError`. -/
def splitStep (c : ChunkingConfiguration) (p : Pieces) (word : Str) : Option Pieces :=
  if c.maxCharacters < word.length then none
  else
    let p := p.close c word
    let current := p.current ++ [word]
    some ⟨p.chunks, current, p.currentLength + word.length + if 1 < current.length then 1 else 0⟩

/-- `_split_text`; none where it raises `ValueError`. -/
def splitText (c : ChunkingConfiguration) (text : Str) : Option (List Str) :=
  let normalized := joinWords (split text)
  if normalized.length ≤ c.maxCharacters then some [normalized]
  else do
    let p ← (normalized.splitOn (CodePoint.ofChar ' ')).foldlM (splitStep c) ⟨[], [], 0⟩
    return if p.current = [] then p.chunks else p.chunks ++ [joinWords p.current]

/-! ## Sections -/

/-- The drafts of the texts of one section; a lone surrogate has no UTF-8. -/
def draftTexts (sha256 : Bytes → Str) (c : ChunkingConfiguration) (s : NormalizedSection) :
    Nat → List Str → Option (List ChunkDraft)
  | _, [] => some []
  | ordinal, text :: texts => do
    let bytes ← utf8 text
    return ⟨s.id, s.sourceLocationId, ordinal, text, sha256 bytes, c.version⟩ ::
      (← draftTexts sha256 c s (ordinal + 1) texts)

/-- `_chunk_sections`, whose ordinals run through all sections; none where it raises
`ValueError`. -/
def chunkSections (sha256 : Bytes → Str) (c : ChunkingConfiguration) :
    Nat → List NormalizedSection → Option (List ChunkDraft)
  | _, [] => some []
  | ordinal, s :: sections => do
    let drafts ← draftTexts sha256 c s ordinal (← splitText c s.normalizedText)
    return drafts ++ (← chunkSections sha256 c (ordinal + drafts.length) sections)

example : overlapWords [lit "aaaa", lit "bbbb", lit "cc"] 7 = [lit "bbbb", lit "cc"] := by
  decide +kernel

/-! ## What chunking gives -/

theorem splitStep_open {c : ChunkingConfiguration} {p q : Pieces} {word : Str}
    (h : splitStep c p word = some q) : q.current ≠ [] := by
  simp only [splitStep] at h
  split at h
  · cases h
  · obtain rfl := Option.some.inj h
    simp

theorem foldlM_open {c : ChunkingConfiguration} {words : List Str} {p q : Pieces}
    (h : words.foldlM (splitStep c) p = some q) (some' : words ≠ [] ∨ p.current ≠ []) :
    q.current ≠ [] := by
  induction words generalizing p with
  | nil => exact Option.some.inj h ▸ some'.resolve_left (by simp)
  | cons word words ih =>
    rw [List.foldlM_cons, Option.bind_eq_bind, Option.bind_eq_some_iff] at h
    obtain ⟨next, stepped, rest⟩ := h
    exact ih rest (.inr (splitStep_open stepped))

theorem splitText_nonempty {c : ChunkingConfiguration} {text : Str} {texts : List Str}
    (h : splitText c text = some texts) : texts ≠ [] := by
  simp only [splitText] at h
  split at h
  · obtain rfl := Option.some.inj h
    simp
  · rw [Option.bind_eq_bind, Option.bind_eq_some_iff] at h
    obtain ⟨p, folded, eq⟩ := h
    obtain rfl := Option.some.inj eq
    have open' := foldlM_open folded (.inl (List.splitOn_ne_nil _ _))
    simp [open']

theorem draftTexts_length {sha256 : Bytes → Str} {c : ChunkingConfiguration} {s : NormalizedSection}
    {ordinal : Nat} {texts : List Str} {drafts : List ChunkDraft}
    (h : draftTexts sha256 c s ordinal texts = some drafts) : drafts.length = texts.length := by
  induction texts generalizing ordinal drafts with
  | nil => exact (Option.some.inj h).symm ▸ rfl
  | cons text texts ih =>
    rw [draftTexts, Option.bind_eq_bind, Option.bind_eq_some_iff] at h
    obtain ⟨bytes, -, h⟩ := h
    rw [Option.bind_eq_bind, Option.bind_eq_some_iff] at h
    obtain ⟨rest, later, eq⟩ := h
    obtain rfl := Option.some.inj eq
    rw [List.length_cons, List.length_cons, ih later]

theorem draftTexts_version {sha256 : Bytes → Str} {c : ChunkingConfiguration} {s : NormalizedSection}
    {ordinal : Nat} {texts : List Str} {drafts : List ChunkDraft}
    (h : draftTexts sha256 c s ordinal texts = some drafts) :
    ∀ d ∈ drafts, d.chunkingVersion = c.version := by
  induction texts generalizing ordinal drafts with
  | nil =>
    obtain rfl := Option.some.inj h
    simp
  | cons text texts ih =>
    rw [draftTexts, Option.bind_eq_bind, Option.bind_eq_some_iff] at h
    obtain ⟨bytes, -, h⟩ := h
    rw [Option.bind_eq_bind, Option.bind_eq_some_iff] at h
    obtain ⟨rest, later, eq⟩ := h
    obtain rfl := Option.some.inj eq
    intro d hd
    rcases List.mem_cons.mp hd with rfl | hd
    · rfl
    · exact ih later d hd

theorem chunkSections_version {sha256 : Bytes → Str} {c : ChunkingConfiguration} {ordinal : Nat}
    {sections : List NormalizedSection} {drafts : List ChunkDraft}
    (h : chunkSections sha256 c ordinal sections = some drafts) :
    ∀ d ∈ drafts, d.chunkingVersion = c.version := by
  induction sections generalizing ordinal drafts with
  | nil =>
    obtain rfl := Option.some.inj h
    simp
  | cons s sections ih =>
    rw [chunkSections, Option.bind_eq_bind, Option.bind_eq_some_iff] at h
    obtain ⟨texts, -, h⟩ := h
    rw [Option.bind_eq_bind, Option.bind_eq_some_iff] at h
    obtain ⟨first, drafted, h⟩ := h
    rw [Option.bind_eq_some_iff] at h
    obtain ⟨rest, later, eq⟩ := h
    obtain rfl := Option.some.inj eq
    intro d hd
    rcases List.mem_append.mp hd with hd | hd
    · exact draftTexts_version drafted d hd
    · exact ih later d hd

theorem chunkSections_nonempty {sha256 : Bytes → Str} {c : ChunkingConfiguration} {ordinal : Nat}
    {sections : List NormalizedSection} {drafts : List ChunkDraft}
    (h : chunkSections sha256 c ordinal sections = some drafts) (some' : sections ≠ []) :
    drafts ≠ [] := by
  obtain ⟨s, sections, rfl⟩ := List.exists_cons_of_ne_nil some'
  rw [chunkSections, Option.bind_eq_bind, Option.bind_eq_some_iff] at h
  obtain ⟨texts, split, h⟩ := h
  rw [Option.bind_eq_bind, Option.bind_eq_some_iff] at h
  obtain ⟨first, drafted, h⟩ := h
  rw [Option.bind_eq_some_iff] at h
  obtain ⟨rest, -, eq⟩ := h
  obtain rfl := Option.some.inj eq
  have texts_some := splitText_nonempty split
  have := draftTexts_length drafted
  intro none'
  have first_nil := (List.append_eq_nil_iff.mp none').1
  rw [first_nil] at this
  exact texts_some (List.length_eq_zero_iff.mp this.symm)

end QaCopilot.Indexing
