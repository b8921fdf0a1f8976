import QaCopilot.Python.Text

/-!
# Words of a text

`str.split`, `str.join`, `str.splitlines` and the searches of `str`.
-/

namespace QaCopilot.Python

/-- `term in text` -/
def occursIn (term : Str) : Str → Bool
  | [] => term = []
  | c :: s => term.isPrefixOf (c :: s) || occursIn term s

/-- `str.replace(old, new)`; the number counts what is left of an occurrence. -/
def replaceText (old new : Str) : Nat → Str → Str
  | _, [] => []
  | skip + 1, _ :: s => replaceText old new skip s
  | 0, c :: s =>
    if old.isPrefixOf (c :: s) then new ++ replaceText old new (old.length - 1) s
    else c :: replaceText old new 0 s

/-- `s.replace(old, new)`, where an empty text occurs around every character. -/
def replaceAll (old new s : Str) : Str :=
  if old = [] then new ++ s.flatMap fun c => c :: new else replaceText old new 0 s

/-- `str.split()` -/
def split : Str → List Str
  | [] => []
  | c :: s =>
    if isSpace c then split s
    else
      match s with
      | [] => [[c]]
      | d :: _ =>
        if isSpace d then [c] :: split s
        else
          match split s with
          | word :: words => (c :: word) :: words
          | [] => [[c]]

/-- `" ".join(words)` -/
def joinWords (words : List Str) : Str := (lit " ").intercalate words

/-- `str.rstrip(chars)` -/
def rstripChars (chars : Str) (s : Str) : Str := (s.reverse.dropWhile chars.contains).reverse

/-- The characters at which `str.splitlines` ends a line. -/
def isLineBreak (c : CodePoint) : Bool :=
  (0x0A ≤ c.val && c.val ≤ 0x0D) || (0x1C ≤ c.val && c.val ≤ 0x1E) || c.val == 0x85 ||
    c.val == 0x2028 || c.val == 0x2029

/-- The lines from here on, the first of which continues a line that is open already; a carriage
return and the line feed after it end one line. -/
def linesFrom (line : Str) (open' : Bool) : Str → List Str
  | [] => if open' then [line] else []
  | c :: s =>
    if isLineBreak c then
      match s with
      | d :: s' =>
        if c.val = 0x0D ∧ d.val = 0x0A then line :: linesFrom [] false s'
        else line :: linesFrom [] false (d :: s')
      | [] => [line]
    else linesFrom (line ++ [c]) true s

/-- `str.splitlines()` -/
def splitlines (s : Str) : List Str := linesFrom [] false s

example : splitlines (lit "a\r\nb\n\nc") = [lit "a", lit "b", [], lit "c"] := by decide +kernel

example : split (lit " a  bc ") = [lit "a", lit "bc"] := by decide +kernel

/-! ## Words -/

/-- A word has characters, and none of them is a blank. -/
def IsWord (s : Str) : Prop := s ≠ [] ∧ ∀ c ∈ s, isSpace c = false

theorem isWord_split (s : Str) : ∀ w ∈ split s, IsWord w := by
  induction s with
  | nil => simp [split]
  | cons c s ih =>
    intro w hw
    rw [split.eq_def] at hw
    dsimp only at hw
    split_ifs at hw with space
    · exact ih w hw
    · have single : IsWord [c] := by simpa [IsWord] using space
      cases s with
      | nil => exact List.mem_singleton.mp hw ▸ single
      | cons d s =>
        dsimp only at hw
        split_ifs at hw with next
        · rcases List.mem_cons.mp hw with rfl | hw
          · exact single
          · exact ih w hw
        · split at hw
          · rename_i word words eq
            rcases List.mem_cons.mp hw with rfl | hw
            · have := ih word (eq ▸ List.mem_cons_self)
              refine ⟨List.cons_ne_nil _ _, ?_⟩
              intro e he
              rcases List.mem_cons.mp he with rfl | he
              · simpa using space
              · exact this.2 e he
            · exact ih w (eq ▸ List.mem_cons_of_mem word hw)
          · exact List.mem_singleton.mp hw ▸ single

theorem split_ne_nil {s : Str} (visible : ∃ c ∈ s, isSpace c = false) : split s ≠ [] := by
  induction s with
  | nil => simp at visible
  | cons c s ih =>
    rw [split.eq_def]
    dsimp only
    split_ifs with space
    · apply ih
      obtain ⟨d, hd, visible⟩ := visible
      rcases List.mem_cons.mp hd with rfl | hd
      · simp [space] at visible
      · exact ⟨d, hd, visible⟩
    · cases s with
      | nil => simp
      | cons d s =>
        dsimp only
        split_ifs
        · simp
        · split <;> simp

theorem strip_eq_nil {s : Str} : strip s = [] ↔ ∀ c ∈ s, isSpace c = true := by
  constructor
  · intro empty
    have front : (lstrip s).reverse.dropWhile isSpace = [] := by
      simpa [strip, rstrip] using empty
    have rest : ∀ c ∈ lstrip s, isSpace c = true := by
      intro c hc
      exact List.dropWhile_eq_nil_iff.mp front c (List.mem_reverse.mpr hc)
    have none' : lstrip s = [] := by
      cases eq : lstrip s with
      | nil => rfl
      | cons c t =>
        have visible := dropWhile_first eq
        simp [rest c (eq ▸ List.mem_cons_self)] at visible
    exact List.dropWhile_eq_nil_iff.mp none'
  · intro all
    have front : lstrip s = [] := List.dropWhile_eq_nil_iff.mpr all
    rw [strip, front]
    rfl

theorem subset_joinWords {words : List Str} {w : Str} (h : w ∈ words) : w ⊆ joinWords words := by
  induction words with
  | nil => cases h
  | cons v words ih =>
    intro c hc
    rcases List.mem_cons.mp h with rfl | h
    · cases words <;> simp [joinWords, List.intercalate, hc]
    · have := ih h hc
      cases words with
      | nil => cases h
      | cons u words =>
        simp only [joinWords, List.intercalate_cons_cons, List.mem_append]
        exact .inr this

theorem length_joinWords_append (us vs : List Str) : (joinWords (us ++ vs)).length =
    (joinWords us).length + (joinWords vs).length + if us = [] ∨ vs = [] then 0 else 1 := by
  induction us with
  | nil => simp [joinWords]
  | cons u us ih =>
    by_cases last : us = []
    · cases vs <;> simp [last, joinWords, List.intercalate_cons_cons, lit_eq]
      omega
    · obtain ⟨v, rest, rfl⟩ := List.exists_cons_of_ne_nil last
      have joined : ∀ words : List Str, (joinWords (u :: v :: words)).length =
          u.length + 1 + (joinWords (v :: words)).length := by
        intro words
        simp [joinWords, List.intercalate_cons_cons, lit_eq]
        omega
      rw [List.cons_append, List.cons_append, joined, joined, ← List.cons_append, ih]
      simp only [reduceCtorEq, false_or]
      omega

theorem length_joinWords_concat (words : List Str) (word : Str) :
    (joinWords (words ++ [word])).length =
      (joinWords words).length + word.length + if words = [] then 0 else 1 := by
  have single : joinWords [word] = word := List.intercalate_singleton
  rw [length_joinWords_append, single]
  simp

theorem length_joinWords_suffix {us vs : List Str} (h : us <:+ vs) :
    (joinWords us).length ≤ (joinWords vs).length := by
  obtain ⟨before, rfl⟩ := h
  rw [length_joinWords_append]
  omega

theorem length_joinWords_within {us vs : List Str} (h : us <:+: vs) :
    (joinWords us).length ≤ (joinWords vs).length := by
  obtain ⟨before, after, rfl⟩ := h
  rw [length_joinWords_append, length_joinWords_append]
  omega

/-- Words make a text that is not blank. -/
theorem strip_joinWords {words : List Str} (some' : words ≠ []) (all : ∀ w ∈ words, IsWord w) :
    strip (joinWords words) ≠ [] := by
  obtain ⟨w, rest, rfl⟩ := List.exists_cons_of_ne_nil some'
  obtain ⟨some', visible⟩ := all w List.mem_cons_self
  obtain ⟨c, w', rfl⟩ := List.exists_cons_of_ne_nil some'
  intro blank
  have space := strip_eq_nil.mp blank c (subset_joinWords List.mem_cons_self List.mem_cons_self)
  simp [visible c List.mem_cons_self] at space

/-- Words that are joined come apart again, at `str.split(" ")`. -/
theorem splitOn_joinWords {words : List Str} (some' : words ≠ []) (all : ∀ w ∈ words, IsWord w) :
    (joinWords words).splitOn (CodePoint.ofChar ' ') = words := by
  have blank : isSpace (CodePoint.ofChar ' ') = true := by decide
  have single : lit " " = [CodePoint.ofChar ' '] := by decide
  rw [joinWords, single]
  apply List.splitOn_intercalate
  · intro w hw h
    simp [(all w hw).2 _ h] at blank
  · exact some'

theorem split_blank {c : CodePoint} (blank : isSpace c = true) (s : Str) :
    split (c :: s) = split s := by
  rw [split.eq_def]
  simp [blank]

theorem split_append_blanks (s : Str) {blanks : Str} (all : ∀ c ∈ blanks, isSpace c = true) :
    split (s ++ blanks) = split s := by
  induction s with
  | nil =>
    induction blanks with
    | nil => rfl
    | cons c blanks ih =>
      rw [List.nil_append, split_blank (all c List.mem_cons_self)]
      exact ih fun d hd => all d (List.mem_cons_of_mem _ hd)
  | cons c s ih =>
    cases space : isSpace c with
    | true => rw [List.cons_append, split_blank space, split_blank space, ih]
    | false =>
      cases s with
      | nil =>
        have none' : split blanks = [] := ih
        cases blanks with
        | nil => rfl
        | cons d blanks =>
          have blank := all d List.mem_cons_self
          rw [split_blank blank] at none'
          simp [split, space, blank, none']
      | cons d s =>
        rw [List.cons_append, List.cons_append, split, split]
        simp only [space, Bool.false_eq_true, if_false]
        rw [← List.cons_append, ih]

theorem split_strip (s : Str) : split (strip s) = split s := by
  have front : split (lstrip s) = split s := by
    induction s with
    | nil => rfl
    | cons c s ih =>
      cases space : isSpace c with
      | true => rw [lstrip, List.dropWhile_cons_of_pos space, split_blank space]; exact ih
      | false => rw [lstrip, List.dropWhile_cons_of_neg (by simp [space])]
  have back : split (rstrip (lstrip s)) = split (lstrip s) := by
    have parts := List.takeWhile_append_dropWhile (p := isSpace) (l := (lstrip s).reverse)
    have whole : lstrip s =
        rstrip (lstrip s) ++ ((lstrip s).reverse.takeWhile isSpace).reverse := by
      rw [rstrip, ← List.reverse_append, parts, List.reverse_reverse]
    conv_rhs => rw [whole]
    refine (split_append_blanks _ fun c hc => ?_).symm
    exact List.mem_takeWhile_imp (List.mem_reverse.mp hc)
  rw [strip, back, front]

theorem split_word {w : Str} (word : IsWord w) {s : Str} (ends : ∀ c ∈ s.head?, isSpace c = true) :
    split (w ++ s) = w :: split s := by
  obtain ⟨some', visible⟩ := word
  induction w with
  | nil => exact absurd rfl some'
  | cons c w ih =>
    have seen : isSpace c = false := visible c List.mem_cons_self
    cases w with
    | nil =>
      cases s with
      | nil => simp [split, seen]
      | cons d s => simp [split, seen, ends d (by simp)]
    | cons d w =>
      have next := ih (List.cons_ne_nil _ _) fun e he => visible e (List.mem_cons_of_mem _ he)
      rw [List.cons_append] at next
      rw [List.cons_append, List.cons_append, split]
      simp [seen, visible d, next]

/-- Words that are joined come apart again. -/
theorem split_joinWords {words : List Str} (all : ∀ w ∈ words, IsWord w) :
    split (joinWords words) = words := by
  induction words with
  | nil => rfl
  | cons w words ih =>
    have word := all w List.mem_cons_self
    have rest := ih fun v hv => all v (List.mem_cons_of_mem _ hv)
    cases words with
    | nil =>
      have single : joinWords [w] = w ++ [] := by simp [joinWords, List.intercalate_singleton]
      rw [single, split_word word (by simp)]
      rfl
    | cons v words =>
      have joined : joinWords (w :: v :: words) =
          w ++ CodePoint.ofChar ' ' :: joinWords (v :: words) := by
        rw [joinWords, List.intercalate_cons_cons, List.append_assoc]
        rfl
      rw [joined, split_word word (by simp; decide), split_blank (by decide), rest]

end QaCopilot.Python
