import QaCopilot.Ingestion.ParserJobs
import QaCopilot.Ingestion.Quotas

/-!
# The lines of a parsed file

What `parse_markdown_or_text` makes of every line of a file.

* `parsed_lines`: where each unit comes from, which lines give one and what the tables ask of it.
-/

namespace QaCopilot.Ingestion

open QaCopilot.Python

variable {upper : Str → Str} {sha256 : Bytes → Str} {documentType : DocumentType} {line : Str}

/-! ## Texts -/

theorem normalize_eq (value : Str) : normalize value = joinWords (split value) := by
  rw [normalize, split_strip]

theorem normalize_normalize (value : Str) : normalize (normalize value) = normalize value := by
  rw [normalize_eq, normalize_eq, split_joinWords (isWord_split value)]

theorem strip_of_normalize {value : Str} (some' : normalize value ≠ []) : strip value ≠ [] := by
  intro blank
  rw [normalize, blank] at some'
  exact some' rfl

theorem normalize_of_strip {value : Str} (some' : strip value ≠ []) : normalize value ≠ [] := by
  have visible : ∃ c ∈ strip value, isSpace c = false := by
    obtain ⟨c, t, eq⟩ := List.exists_cons_of_ne_nil some'
    exact ⟨c, eq ▸ List.mem_cons_self, (strip_ends value).1 c t eq⟩
  intro blank
  rw [normalize] at blank
  exact strip_joinWords (split_ne_nil visible) (isWord_split _) (by rw [blank]; rfl)

theorem separatedText_within {s text : Str} (h : separatedText s = some text) : text <:+: s := by
  unfold separatedText at h
  split at h
  · rename_i sep c rest eq
    have tail : (c :: rest) <:+: s := by
      refine List.IsInfix.trans ?_ (List.dropWhile_suffix isSpace).isInfix
      rw [eq]
      exact (List.suffix_cons sep _).isInfix
    split_ifs at h
    split at h
    · obtain rfl := Option.some.inj h
      refine List.IsInfix.trans ?_ tail
      exact List.IsSuffix.isInfix ⟨_, List.dropLast_append_getLast (List.cons_ne_nil c rest)⟩
    · rename_i d text' eq'
      obtain rfl := Option.some.inj h
      refine ((rstrip_isPrefix _).isInfix.trans ?_).trans tail
      rw [← eq']
      exact (List.dropWhile_suffix isSpace).isInfix
  · cases h

theorem longestId_within {s id text : Str} (h : longestId s = some (id, text)) : text <:+: s := by
  induction s generalizing id with
  | nil => cases h
  | cons c s ih =>
    rw [longestId] at h
    split at h
    · rename_i id' text' eq
      obtain ⟨-, rfl⟩ := Prod.mk.inj (Option.some.inj h)
      split_ifs at eq
      exact (ih eq).trans (List.suffix_cons c s).isInfix
    · obtain ⟨text', eq, same⟩ := Option.map_eq_some_iff.mp h
      obtain ⟨-, rfl⟩ := Prod.mk.inj same
      exact separatedText_within eq

theorem labelledId_within {label s id text : Str} (h : labelledId label s = some (id, text)) :
    text <:+: s := by
  unfold labelledId at h
  split at h
  · rename_i c rest eq
    split_ifs at h
    obtain ⟨⟨id', text'⟩, found, same⟩ := Option.map_eq_some_iff.mp h
    obtain ⟨-, rfl⟩ := Prod.mk.inj same
    refine (longestId_within found).trans ?_
    rw [dropLabel] at eq
    split_ifs at eq
    have dropped := List.drop_suffix label.length s
    rw [Option.some.inj eq] at dropped
    exact ((List.suffix_cons c rest).trans dropped).isInfix
  · cases h

theorem requirementGroups_within {id text : Str} (h : requirementGroups line = some (id, text)) :
    text <:+: line := by
  have front := List.dropWhile_suffix isSpace (l := line)
  have labelled {label s : Str} (part : s <:+ line) (found : labelledId label s = some (id, text)) :
      text <:+: line := (labelledId_within found).trans part.isInfix
  unfold requirementGroups at h
  extract_lets s start at h
  have part : start <:+ line := by
    simp only [start, s]
    split
    · rename_i bullet c rest eq
      rw [eq] at front
      split_ifs
      · exact (List.dropWhile_suffix isSpace).trans
          (((List.suffix_cons c rest).trans (List.suffix_cons bullet _)).trans front)
      · rw [eq]
        exact front
    · exact front
  split at h
  · rename_i groups eq
    exact labelled part (eq.trans h)
  · exact labelled part h

/-! ## Lines -/

/-- The heading that the lines after these stand below. -/
def headingAfter (lines : List Str) : Option Str :=
  (lines.filterMap headingTitle).getLast?.map normalize

theorem headingAfter_concat (lines : List Str) (line : Str) : headingAfter (lines ++ [line]) =
    match headingTitle line with
    | some title => some (normalize title)
    | none => headingAfter lines := by
  rw [headingAfter, List.filterMap_append]
  cases eq : headingTitle line with
  | some title => simp [List.filterMap, eq]
  | none => simp [List.filterMap, eq, headingAfter]

/-- The part of a line that a unit quotes. -/
def unitText (line : Str) : Str :=
  match requirementGroups line with
  | some (_, text) => text
  | none => line

theorem unitText_within (line : Str) : unitText line <:+: line := by
  unfold unitText
  split
  · rename_i id text eq
    exact requirementGroups_within eq
  · exact (List.suffix_refl line).isInfix

/-- The lines that give a unit: they are no heading, and have a text to quote; in Markdown only the
lines of requirements do. -/
def GivesUnit (documentType : DocumentType) (line : Str) : Prop :=
  headingTitle line = none ∧ ((requirementGroups line).isSome ∨ documentType = .text) ∧
    strip (unitText line) ≠ []

instance (documentType : DocumentType) (line : Str) : Decidable (GivesUnit documentType line) :=
  inferInstanceAs (Decidable (_ ∧ _))

theorem lineRequirement_eq (upper : Str → Str) (documentType : DocumentType) (line : Str) :
    (lineRequirement upper documentType line).bind (fun r => if r.2 = [] then none else some r) =
      if ((requirementGroups line).isSome ∨ documentType = .text) ∧ strip (unitText line) ≠ [] then
        some ((requirementGroups line).map (upper ·.1), normalize (unitText line))
      else none := by
  have blank : ∀ value : Str, normalize value = [] ↔ strip value = [] := fun value =>
    ⟨fun h => not_not.mp (mt normalize_of_strip (not_not.mpr h)),
      fun h => not_not.mp (mt strip_of_normalize (not_not.mpr h))⟩
  unfold lineRequirement unitText
  cases requirementGroups line with
  | some groups => simp [blank]
  | none =>
    by_cases text : documentType = .text <;> by_cases empty : strip line = [] <;>
      simp [blank, text, empty]

theorem givesUnit_iff : GivesUnit documentType line ↔
    headingTitle line = none ∧ ∃ id c text, lineRequirement upper documentType line =
      some (id, c :: text) := by
  have eq := lineRequirement_eq upper documentType line
  rw [GivesUnit]
  refine and_congr_right fun _ => ⟨fun gives => ?_, ?_⟩
  · rw [if_pos gives] at eq
    obtain ⟨⟨id, text⟩, found, kept⟩ := Option.bind_eq_some_iff.mp eq
    cases text with
    | nil => simp at kept
    | cons c text => exact ⟨id, c, text, found⟩
  · rintro ⟨id, c, text, found⟩
    rw [found] at eq
    by_contra blank
    rw [if_neg blank] at eq
    simp at eq

/-- The unit of line `i`. -/
structure UnitOf (upper : Str → Str) (sha256 : Bytes → Str) (lines : List Str)
    (r : ParsedRequirement) (i : Nat) (line : Str) : Prop where
  position : lines[i]? = some line
  lineStart : r.lineStart = i + 1
  lineEnd : r.lineEnd = i + 1
  requirementId : r.requirementId = (requirementGroups line).map (upper ·.1)
  heading : r.heading = headingAfter (lines.take i)
  some' : r.normalizedText ≠ []
  text : r.normalizedText = normalize (unitText line)
  quoted : unitText line <:+: line
  normalized : normalize r.normalizedText = r.normalizedText
  digest : r.contentSha256 = sha256 ((utf8 r.normalizedText).getD [])

theorem UnitOf.append {lines : List Str} {r : ParsedRequirement} {i : Nat}
    (h : UnitOf upper sha256 lines r i line) (more : List Str) :
    UnitOf upper sha256 (lines ++ more) r i line := by
  have bound : i < lines.length := (List.getElem?_eq_some_iff.mp h.position).1
  refine { h with position := ?_, heading := ?_ }
  · rw [List.getElem?_append_left bound, h.position]
  · rw [List.take_append_of_le_length (Nat.le_of_lt bound), h.heading]

theorem getElem?_concat {lines : List Str} {new : Str} {i : Nat}
    (h : (lines ++ [new])[i]? = some line) :
    lines[i]? = some line ∨ i = lines.length ∧ line = new := by
  rcases Nat.lt_trichotomy i lines.length with before | rfl | after
  · rw [List.getElem?_append_left before] at h
    exact .inl h
  · rw [List.getElem?_concat_length] at h
    exact .inr ⟨rfl, (Option.some.inj h).symm⟩
  · rw [List.getElem?_eq_none (by rw [List.length_append, List.length_singleton]; exact after)] at h
    cases h

/-- What the parser has made of the lines behind it. -/
structure ParsedUpTo (upper : Str → Str) (sha256 : Bytes → Str) (documentType : DocumentType)
    (lines : List Str) (heading : Option Str) (parsed : List ParsedRequirement) : Prop where
  heading : heading = headingAfter lines
  ordinals : parsed.map (·.ordinal) = List.range parsed.length
  increasing : parsed.Pairwise fun a b => a.lineStart < b.lineStart
  units : ∀ r ∈ parsed, ∃ i line, UnitOf upper sha256 lines r i line
  counted : ∀ i line, lines[i]? = some line → parsed.countP (·.lineStart = i + 1) =
    if GivesUnit documentType line then 1 else 0

section
variable {lines : List Str} {heading : Option Str} {parsed : List ParsedRequirement}

theorem ParsedUpTo.nil : ParsedUpTo upper sha256 documentType [] none [] where
  heading := rfl
  ordinals := rfl
  increasing := .nil
  units := nofun
  counted := nofun

theorem ParsedUpTo.lineStart_le (h : ParsedUpTo upper sha256 documentType lines heading parsed)
    {r : ParsedRequirement} (hr : r ∈ parsed) : r.lineStart ≤ lines.length := by
  obtain ⟨i, line, unit⟩ := h.units r hr
  have bound : i < lines.length := (List.getElem?_eq_some_iff.mp unit.position).1
  rw [unit.lineStart]
  exact bound

theorem ParsedUpTo.fresh (h : ParsedUpTo upper sha256 documentType lines heading parsed) :
    parsed.countP (·.lineStart = lines.length + 1) = 0 := by
  refine List.countP_eq_zero.mpr fun r hr => ?_
  have := h.lineStart_le hr
  simp only [decide_eq_true_eq]
  omega

/-- A line that gives no unit. -/
theorem ParsedUpTo.skip (h : ParsedUpTo upper sha256 documentType lines heading parsed)
    (none' : ¬ GivesUnit documentType line) :
    ParsedUpTo upper sha256 documentType (lines ++ [line]) (headingAfter (lines ++ [line]))
      parsed where
  heading := rfl
  ordinals := h.ordinals
  increasing := h.increasing
  units := by
    intro r hr
    obtain ⟨i, line', unit⟩ := h.units r hr
    exact ⟨i, line', unit.append _⟩
  counted := by
    intro i line' at'
    rcases getElem?_concat at' with h' | ⟨rfl, rfl⟩
    · exact h.counted i line' h'
    · rw [h.fresh, if_neg none']

/-- A line that gives a unit. -/
theorem ParsedUpTo.unit (h : ParsedUpTo upper sha256 documentType lines heading parsed)
    (gives : GivesUnit documentType line) :
    ParsedUpTo upper sha256 documentType (lines ++ [line]) heading
      (parsed ++ [⟨parsed.length, (requirementGroups line).map (upper ·.1), heading,
        lines.length + 1, lines.length + 1, normalize (unitText line),
        sha256 ((utf8 (normalize (unitText line))).getD [])⟩]) where
  heading := by rw [headingAfter_concat, gives.1, h.heading]
  ordinals := by
    rw [List.map_append, h.ordinals, List.length_append, List.length_singleton, List.range_succ]
    rfl
  increasing := by
    refine List.pairwise_append.mpr ⟨h.increasing, List.pairwise_singleton _ _, ?_⟩
    intro a ha b hb
    obtain rfl := List.mem_singleton.mp hb
    exact Nat.lt_succ_of_le (h.lineStart_le ha)
  units := by
    intro r hr
    rcases List.mem_append.mp hr with hr | hr
    · obtain ⟨i, line', unit⟩ := h.units r hr
      exact ⟨i, line', unit.append _⟩
    · obtain rfl := List.mem_singleton.mp hr
      exact ⟨lines.length, line, {
        position := List.getElem?_concat_length
        lineStart := rfl
        lineEnd := rfl
        requirementId := rfl
        heading := by simp [h.heading]
        some' := normalize_of_strip gives.2.2
        text := rfl
        quoted := unitText_within line
        normalized := normalize_normalize _
        digest := rfl }⟩
  counted := by
    intro i line' at'
    rw [List.countP_append]
    rcases getElem?_concat at' with h' | ⟨rfl, rfl⟩
    · have bound : i < lines.length := (List.getElem?_eq_some_iff.mp h').1
      have other : lines.length ≠ i := by omega
      rw [h.counted i line' h']
      simp [other]
    · rw [h.fresh, if_pos gives]
      simp

theorem parseLines_upTo {rest : List Str} {requirements : List ParsedRequirement}
    (before : ParsedUpTo upper sha256 documentType lines heading parsed)
    (h : parseLines upper sha256 documentType (lines.length + 1) heading parsed rest =
      .ok requirements) :
    ∃ last, ParsedUpTo upper sha256 documentType (lines ++ rest) last requirements := by
  induction rest generalizing lines heading parsed with
  | nil =>
    obtain rfl := Except.ok.inj h
    exact ⟨heading, by rwa [List.append_nil]⟩
  | cons line rest ih =>
    have next : (lines ++ [line]).length + 1 = lines.length + 1 + 1 := by simp
    rw [parseLines] at h
    rw [List.append_cons]
    split at h
    · cases h
    · split at h
      · rename_i title eq
        refine ih ?_ (by rw [next]; exact h)
        have silent : ¬ GivesUnit documentType line := by
          intro gives
          cases eq.symm.trans gives.1
        have skipped := before.skip silent
        rwa [headingAfter_concat, eq] at skipped
      · rename_i none'
        split at h
        · rename_i id c text found
          have gives := givesUnit_iff.mpr ⟨none', id, c, text, found⟩
          have eq := lineRequirement_eq upper documentType line
          rw [found, if_pos gives.2] at eq
          obtain ⟨rfl, same⟩ := Prod.mk.inj (Option.some.inj eq)
          refine ih ?_ (by rw [next]; exact h)
          rw [same]
          exact before.unit gives
        · rename_i other
          refine ih ?_ (by rw [next]; exact h)
          have silent : ¬ GivesUnit documentType line := by
            intro gives
            obtain ⟨-, id, c, text, found⟩ := givesUnit_iff.mp gives
            exact other id c text found
          have skipped := before.skip silent
          rwa [headingAfter_concat, none', ← before.heading] at skipped

end

/-! ## What the tables ask -/

/-- `trim` of SQL, which takes spaces only. -/
def sqlTrim (s : Str) : Str :=
  ((s.dropWhile fun c => c.val == 0x20).reverse.dropWhile fun c => c.val == 0x20).reverse

/-- The checks of `source_locations` on a range of lines. -/
structure LocationChecks (l : SourceLocationRecord) : Prop where
  locationKind : 0 < (sqlTrim (lit l.locationKind)).length
  lineStart : ∀ n ∈ l.lineStart, 0 < n
  lineEnd : ∀ n ∈ l.lineEnd, 0 < n
  lines : ∀ m ∈ l.lineStart, ∀ n ∈ l.lineEnd, m ≤ n

/-- The checks of `document_sections`. -/
structure SectionChecks (s : DocumentSectionRecord) : Prop where
  normalizedText : 0 < (sqlTrim s.normalizedText).length
  contentSha256 : s.contentSha256.length = 64

theorem sqlTrim_ne_nil {s : Str} (some' : strip s ≠ []) : sqlTrim s ≠ [] := by
  intro trimmed
  apply some'
  rw [strip_eq_nil]
  have back : ∀ c ∈ s.dropWhile fun c => c.val == 0x20, c.val = 0x20 := by
    intro c hc
    have all := List.dropWhile_eq_nil_iff.mp (List.reverse_eq_nil_iff.mp trimmed)
    simpa using all c (List.mem_reverse.mpr hc)
  intro c hc
  rw [← List.takeWhile_append_dropWhile (p := fun c : CodePoint => c.val == 0x20) (l := s)] at hc
  have space : c.val = 0x20 := by
    rcases List.mem_append.mp hc with hc | hc
    · simpa using List.mem_takeWhile_imp hc
    · exact back c hc
  simp [isSpace, space]

theorem UnitOf.locationChecks {lines : List Str} {r : ParsedRequirement} {i : Nat}
    (h : UnitOf upper sha256 lines r i line) (versionId id : Uuid) :
    LocationChecks (newLocation versionId id r) where
  locationKind := by
    change 0 < (sqlTrim (lit "line_range")).length
    decide +kernel
  lineStart := by simp [newLocation, h.lineStart]
  lineEnd := by simp [newLocation, h.lineEnd]
  lines := by simp [newLocation, h.lineStart, h.lineEnd]

theorem UnitOf.sectionChecks {lines : List Str} {r : ParsedRequirement} {i : Nat}
    (h : UnitOf upper sha256 lines r i line) (digests : ∀ data, (sha256 data).length = 64)
    (versionId id locationId : Uuid) : SectionChecks (newSection versionId id locationId r) where
  normalizedText := by
    refine List.length_pos_iff.mpr (sqlTrim_ne_nil (strip_of_normalize ?_))
    change normalize r.normalizedText ≠ []
    rw [h.normalized]
    exact h.some'
  contentSha256 := by
    change r.contentSha256.length = 64
    rw [h.digest, digests]

/-- The promotion refuses an identifier that its column cannot hold. -/
theorem promote_long_id (rt : ParserRuntime) (s : Session) (finished : Int) (c : ClaimedParserJob)
    {document : ClaimedDocument} {requirements : List ParsedRequirement} (t : Tables)
    (long : requirements.any fun r => r.requirementId.any (255 < ·.length)) :
    ∃ code, promote rt s finished c document requirements t = (.error (.parseRejected code), t) := by
  have refused : ∃ code, checkRequirements rt document requirements =
      .error (.parseRejected code) := by
    unfold checkRequirements
    rw [long]
    cases !(decide (0 < document.raw.length) && decide (document.raw.length ≤ maxPromotedTextBytes)) with
    | true => exact ⟨_, rfl⟩
    | false =>
      cases parseMarkdownOrText rt.upper rt.sha256 document.documentType document.raw with
      | error code => exact ⟨code, rfl⟩
      | ok expected =>
        refine ⟨"PARSER_EVIDENCE_INVALID", ?_⟩
        by_cases other : requirements = [] ∨ ¬ requirements = expected <;>
          simp [rejectIf, other, bind, Except.bind, Except.mapError]
  obtain ⟨code, refused⟩ := refused
  exact ⟨code, by rw [promote, refused]; rfl⟩

/-! ## The whole file -/

/-- Every line of an accepted file gives the units that it should, in order, and each of them may be
stored, apart from an identifier that is too long, which the promotion refuses. -/
theorem parsed_lines (rt : ParserRuntime) (digests : ∀ data, (rt.sha256 data).length = 64)
    {documentType : DocumentType} {raw : Bytes} {requirements : List ParsedRequirement}
    (h : parseMarkdownOrText rt.upper rt.sha256 documentType raw = .ok requirements) :
    ∃ text, decodeUtf8 raw = some text ∧
      requirements.map (·.ordinal) = List.range requirements.length ∧
      requirements.Pairwise (fun a b => a.lineStart < b.lineStart) ∧
      (∀ r ∈ requirements, ∃ i line, UnitOf rt.upper rt.sha256 (splitlines text) r i line) ∧
      (∀ i line, (splitlines text)[i]? = some line →
        requirements.countP (·.lineStart = i + 1) = if GivesUnit documentType line then 1 else 0) ∧
      (∀ r ∈ requirements, ∀ versionId id locationId, LocationChecks (newLocation versionId id r) ∧
        SectionChecks (newSection versionId id locationId r)) ∧
      ((∀ r ∈ requirements, ∀ id ∈ r.requirementId, id.length ≤ 255) ∨
        ∀ s finished c t, ∃ code, promote rt s finished c ⟨documentType, raw⟩ requirements t =
          (.error (.parseRejected code), t)) := by
  unfold parseMarkdownOrText at h
  split at h
  · cases h
  · split at h
    · cases h
    · rename_i text decoded
      split_ifs at h
      have start : ParsedUpTo rt.upper rt.sha256 documentType [] none [] := .nil
      obtain ⟨last, parsed⟩ := parseLines_upTo start h
      rw [List.nil_append] at parsed
      refine ⟨text, decoded, parsed.ordinals, parsed.increasing, parsed.units, parsed.counted, ?_, ?_⟩
      · intro r hr versionId id locationId
        obtain ⟨i, line, unit⟩ := parsed.units r hr
        exact ⟨unit.locationChecks versionId id, unit.sectionChecks digests versionId id locationId⟩
      · by_cases long : requirements.any fun r => r.requirementId.any (255 < ·.length)
        · exact .inr fun s finished c t => promote_long_id rt s finished c t long
        · refine .inl fun r hr id hid => ?_
          by_contra exceeds
          refine long (List.any_eq_true.mpr ⟨r, hr, ?_⟩)
          rw [hid, Option.any_some, decide_eq_true_eq]
          exact Nat.lt_of_not_le exceeds

/-- A requirement without a text. -/
def blankRequirement : Str := lit "REQ-1: "

/-- A requirement whose identifier has 256 characters. -/
def longRequirement : Str := lit "REQ-" ++ List.replicate 252 (CodePoint.ofChar '1') ++ lit ": x"

/-- The SHA-256 of its text. -/
def longDigest : Str :=
  lit "2d711642b726b04401627ca9fbac32f5c8530fb1903cc4db02258717921a4881"

theorem blank_and_long_requirement :
    (strip blankRequirement ≠ [] ∧ headingTitle blankRequirement = none ∧
      parseMarkdownOrText id (fun _ => longDigest) .text ((utf8 blankRequirement).getD []) =
        .ok []) ∧
    ∃ r key, parseMarkdownOrText id (fun _ => longDigest) .markdown
        ((utf8 longRequirement).getD []) = .ok [r] ∧
      r.requirementId = some key ∧ 255 < key.length := by
  refine ⟨by decide +kernel, ⟨0, some (longRequirement.take 256), none, 1, 1, lit "x", longDigest⟩,
    longRequirement.take 256, ?_, rfl, ?_⟩
  · decide +kernel
  · decide +kernel

/-- The SHA-256 of the letter a. -/
def letterDigest : Str :=
  lit "ca978112ca1bbdcafac231b39a23dc4da786eff8147c4f72b9807785afee48bb"

def letterRuntime : ParserRuntime :=
  { sampleRuntime with upper := id, sha256 := fun _ => letterDigest }

theorem letterRuntime_digests (data : Bytes) : (letterRuntime.sha256 data).length = 64 := by
  simp only [letterRuntime]
  decide +kernel

/-- The unit of a text that holds this letter. -/
def letterUnit : ParsedRequirement :=
  ⟨0, none, none, 1, 1, lit "a", letterDigest⟩

theorem parsed_lines_sample :
    ∃ text, decodeUtf8 [0x61] = some text ∧
      [letterUnit].map (·.ordinal) = List.range [letterUnit].length ∧
      [letterUnit].Pairwise (fun a b => a.lineStart < b.lineStart) ∧
      (∀ r ∈ [letterUnit], ∃ i line,
        UnitOf letterRuntime.upper letterRuntime.sha256 (splitlines text) r i line) ∧
      (∀ i line, (splitlines text)[i]? = some line →
        [letterUnit].countP (·.lineStart = i + 1) = if GivesUnit .text line then 1 else 0) ∧
      (∀ r ∈ [letterUnit], ∀ versionId id locationId, LocationChecks (newLocation versionId id r) ∧
        SectionChecks (newSection versionId id locationId r)) ∧
      ((∀ r ∈ [letterUnit], ∀ id ∈ r.requirementId, id.length ≤ 255) ∨
        ∀ s finished c t, ∃ code, promote letterRuntime s finished c ⟨.text, [0x61]⟩ [letterUnit] t =
          (.error (.parseRejected code), t)) :=
  parsed_lines letterRuntime letterRuntime_digests (by decide +kernel)

end QaCopilot.Ingestion
