import Mathlib.Logic.Equiv.Basic
import QaCopilot.GuestDemo.InterruptedPublish
import QaCopilot.GuestDemo.Snapshot

/-!
# Snapshots of renamed builds

* `draftSnapshot_rename`: the projection does not depend on the identifiers of a build;
* `renderSnapshot_rename`: neither does what is rendered or refused, unless exactly one of the builds
  has a text to hide that stands in the snapshot.
-/

namespace QaCopilot.GuestDemo

open Python Results

/-- New UUIDs for those of a build: different ones stay different, and the texts of those of the
citations keep their order. -/
structure Renaming (ρ : Uuid → Uuid) (b : DemoBuild) : Prop where
  injective : ∀ u ∈ b.uuids, ∀ v ∈ b.uuids, ρ u = ρ v → u = v
  ordered : ∀ c ∈ b.citations, ∀ d ∈ b.citations,
    Str.le (uuidText (ρ c.id)) (uuidText (ρ d.id)) = Str.le (uuidText c.id) (uuidText d.id)

/-! ## Tables of keys -/

section
variable {ρ : Uuid → Uuid} {us : List Uuid}

/-- Two tables that hold the same key for an identifier and for its new one. -/
def Alike (ρ : Uuid → Uuid) (us : List Uuid) (d d' : Dict (Str × Uuid) Str) : Prop :=
  ∀ kind, ∀ u ∈ us, d'.get? (kind, ρ u) = d.get? (kind, u)

theorem alike_set (injective : ∀ u ∈ us, ∀ v ∈ us, ρ u = ρ v → u = v) {d d' : Dict (Str × Uuid) Str}
    (alike : Alike ρ us d d') {u : Uuid} (known : u ∈ us) (kind key : Str) :
    Alike ρ us (d.set (kind, u) key) (d'.set (kind, ρ u) key) := by
  intro kind' v hv
  by_cases same : (kind', v) = (kind, u)
  · obtain ⟨rfl, rfl⟩ := Prod.mk.inj same
    rw [Dict.get?_set_self, Dict.get?_set_self]
  · have other : (kind', ρ v) ≠ (kind, ρ u) := by
      intro both
      obtain ⟨rfl, own⟩ := Prod.mk.inj both
      exact same (by rw [injective v hv u known own])
    rw [Dict.get?_set_other _ _ same, Dict.get?_set_other _ _ other]
    exact alike kind' v hv

theorem catalogKeys_rename (injective : ∀ u ∈ us, ∀ v ∈ us, ρ u = ρ v → u = v)
    {catalog : List EvidenceReference} (known : ∀ r ∈ catalog, r.id ∈ us) :
    Alike ρ us (catalogKeys catalog) (catalogKeys (catalog.map (·.rename ρ))) := by
  suffices ∀ c c' : CatalogKeys, Alike ρ us c.keys c'.keys → c'.perKind = c.perKind →
      Alike ρ us (catalog.foldl CatalogKeys.note c).keys
        ((catalog.map (·.rename ρ)).foldl CatalogKeys.note c').keys from
    this _ _ (fun _ _ _ => rfl) rfl
  induction catalog with
  | nil => exact fun c c' alike _ => alike
  | cons r catalog ih =>
    intro c c' alike counts
    have noted := alike_set injective alike (known r List.mem_cons_self) r.kind.value
    refine ih (fun r hr => known r (List.mem_cons_of_mem _ hr)) (c.note r) (c'.note (r.rename ρ)) ?_ ?_
    · simp only [CatalogKeys.note, counts]
      exact noted _
    · simp only [CatalogKeys.note, counts]
      rfl

theorem namingEvidence_rename (name : SectionName) (c : Claim) :
    namingEvidence name (c.rename ρ) = (namingEvidence name c).map (·.rename ρ) := by
  simp only [namingEvidence, Claim.rename, List.filter_map]
  rfl

theorem noteClaim_rename (injective : ∀ u ∈ us, ∀ v ∈ us, ρ u = ρ v → u = v)
    {d d' : Dict (Str × Uuid) Str} (alike : Alike ρ us d d') (name : SectionName) (c : Claim × Nat)
    (known : ∀ r ∈ c.1.evidence, r.id ∈ us) :
    Alike ρ us (noteClaim name d c) (noteClaim name d' (c.1.rename ρ, c.2)) := by
  have named : ∀ r ∈ namingEvidence name c.1, r.id ∈ us :=
    fun r hr => known r (List.mem_filter.mp hr).1
  simp only [noteClaim, namingEvidence_rename]
  generalize namingEvidence name c.1 = evidence at named
  induction evidence generalizing d d' with
  | nil => exact alike
  | cons r evidence ih =>
    exact ih (alike_set injective alike (named r List.mem_cons_self) r.kind.value _)
      fun r hr => named r (List.mem_cons_of_mem _ hr)

/-- The claims of a section with their positions. -/
theorem zipIdx_rename (s : ReportSection) :
    (s.rename ρ).claims.zipIdx = s.claims.zipIdx.map fun c => (c.1.rename ρ, c.2) :=
  List.zipIdx_map

theorem noteSection_rename (injective : ∀ u ∈ us, ∀ v ∈ us, ρ u = ρ v → u = v)
    {d d' : Dict (Str × Uuid) Str} (alike : Alike ρ us d d') {s : ReportSection}
    (known : ∀ c ∈ s.claims, ∀ r ∈ c.evidence, r.id ∈ us) :
    Alike ρ us (noteSection d s) (noteSection d' (s.rename ρ)) := by
  have listed : ∀ c ∈ s.claims.zipIdx, ∀ r ∈ c.1.evidence, r.id ∈ us :=
    fun c hc => known c.1 (List.fst_mem_of_mem_zipIdx hc)
  rw [noteSection, noteSection, zipIdx_rename]
  generalize s.claims.zipIdx = claims at listed
  induction claims generalizing d d' with
  | nil => exact alike
  | cons c claims ih =>
    exact ih (noteClaim_rename injective alike s.name c (listed c List.mem_cons_self))
      fun c hc => listed c (List.mem_cons_of_mem _ hc)

theorem claimKeyTable_rename (injective : ∀ u ∈ us, ∀ v ∈ us, ρ u = ρ v → u = v)
    {sections : List ReportSection}
    (known : ∀ s ∈ sections, ∀ c ∈ s.claims, ∀ r ∈ c.evidence, r.id ∈ us) :
    Alike ρ us (claimKeyTable sections) (claimKeyTable (sections.map (·.rename ρ))) := by
  suffices ∀ d d' : Dict (Str × Uuid) Str, Alike ρ us d d' →
      Alike ρ us (sections.foldl noteSection d) ((sections.map (·.rename ρ)).foldl noteSection d') from
    this _ _ fun _ _ _ => rfl
  induction sections with
  | nil => exact fun d d' alike => alike
  | cons s sections ih =>
    intro d d' alike
    exact ih (fun s hs => known s (List.mem_cons_of_mem _ hs)) _ _
      (noteSection_rename injective alike (known s List.mem_cons_self))

/-! ## The projection -/

variable {catalog catalog' claims claims' : Dict (Str × Uuid) Str}

theorem catalogKey_rename (alike : Alike ρ us catalog catalog') {u : Uuid} (known : u ∈ us) :
    catalogKey catalog' (ρ u) = catalogKey catalog u := by
  rw [catalogKey, catalogKey, alike _ u known]

theorem excerpts_rename {p : Platform} {citations : List Citation}
    (ordered : ∀ c ∈ citations, ∀ d ∈ citations,
      Str.le (uuidText (ρ c.id)) (uuidText (ρ d.id)) = Str.le (uuidText c.id) (uuidText d.id))
    (alike : Alike ρ us catalog catalog') (known : ∀ c ∈ citations, c.id ∈ us) :
    excerpts p catalog' (citations.map (·.rename ρ)) = excerpts p catalog citations := by
  have sorted : ((citations.map (·.rename ρ)).insertionSort fun a b => citationLe a b) =
      (citations.insertionSort fun a b => citationLe a b).map (·.rename ρ) := by
    refine (List.map_insertionSort _ _ _ _ fun c hc d hd => ?_).symm
    simp only [citationLe, Citation.rename, ordered c hc d hd]
    rfl
  have each : ∀ c ∈ citations.insertionSort fun a b => citationLe a b,
      excerpt p catalog' (c.rename ρ) = excerpt p catalog c := by
    intro c hc
    have listed := (List.perm_insertionSort _ citations).mem_iff.mp hc
    simp only [excerpt, Citation.rename, catalogKey_rename alike (known c listed)]
    rfl
  rw [excerpts, excerpts, sorted, List.length_map, List.mapM_map, ← mapM_congr each]
  rfl

theorem resolve_rename (injective : ∀ u ∈ us, ∀ v ∈ us, ρ u = ρ v → u = v) {citations : List Uuid}
    (cited : ∀ u ∈ citations, u ∈ us) (alike : Alike ρ us catalog catalog')
    (alike' : Alike ρ us claims claims') {r : EvidenceReference} (known : r.id ∈ us) :
    resolve (citations.map ρ) catalog' claims' (r.rename ρ) = resolve citations catalog claims r := by
  have member : ρ r.id ∈ citations.map ρ ↔ r.id ∈ citations := by
    constructor
    · intro h
      obtain ⟨u, hu, same⟩ := List.mem_map.mp h
      exact injective u (cited u hu) r.id known same ▸ hu
    · exact List.mem_map_of_mem
  obtain ⟨kind, id⟩ := r
  cases kind with
  | citation => simp only [resolve, EvidenceReference.rename, member, catalogKey_rename alike known]
  | finding => exact congrArg Except.ok (alike' _ id known)
  | testCase => exact congrArg Except.ok (alike' _ id known)
  | traceability | executionResult | failureAnalysis | retrievalTrace | modelConfiguration => rfl

theorem projectSection_rename (decimal : CodePoint → Option Nat)
    {f g : EvidenceReference → Except Failure (Option Str)} {s : ReportSection}
    (same : ∀ c ∈ s.claims, ∀ r ∈ c.evidence, f (r.rename ρ) = g r) :
    projectSection decimal f (s.rename ρ) = projectSection decimal g s := by
  have each : ∀ c ∈ s.claims.zipIdx, projectClaim decimal f s.name (c.1.rename ρ, c.2) =
      projectClaim decimal g s.name c := by
    intro c hc
    have resolved := mapM_congr fun r hr => same c.1 (List.fst_mem_of_mem_zipIdx hc) r hr
    simp only [projectClaim, Claim.rename, List.mapM_map]
    rw [← resolved]
    rfl
  have claims := mapM_congr each
  simp only [projectSection, zipIdx_rename, List.mapM_map]
  rw [← claims]
  rfl

end

section
variable {ρ : Uuid → Uuid} {b : DemoBuild}

/-- The projection of a build does not depend on its identifiers. -/
theorem draftSnapshot_rename (p : Platform) (decimal : CodePoint → Option Nat)
    (renamed : Renaming ρ b) (ids : List Str) :
    draftSnapshot p decimal (b.rename ρ ids) = draftSnapshot p decimal b := by
  have catalogued : ∀ r ∈ b.snapshot.report.evidenceCatalog, r.id ∈ b.uuids := fun r hr =>
    List.mem_append_left _ (List.mem_append_left _ (List.mem_map_of_mem hr))
  have cited : ∀ c ∈ b.citations, c.id ∈ b.uuids := fun c hc =>
    List.mem_append_left _ (List.mem_append_right _ (List.mem_map_of_mem hc))
  have claimed : ∀ s ∈ b.snapshot.report.sections, ∀ c ∈ s.claims, ∀ r ∈ c.evidence,
      r.id ∈ b.uuids := fun s hs c hc r hr =>
    List.mem_append_right _
      (List.mem_flatMap.mpr ⟨s, hs, List.mem_flatMap.mpr ⟨c, hc, List.mem_map_of_mem hr⟩⟩)
  have catalog := catalogKeys_rename renamed.injective catalogued
  have claims := claimKeyTable_rename renamed.injective claimed
  have ids' : (b.citations.map (·.rename ρ)).map (·.id) = (b.citations.map (·.id)).map ρ := by
    rw [List.map_map, List.map_map]
    rfl
  have sections := mapM_congr (l := b.snapshot.report.sections) fun s hs =>
    projectSection_rename decimal fun c hc r hr =>
      resolve_rename renamed.injective
        (fun u hu => by
          obtain ⟨c, hc, rfl⟩ := List.mem_map.mp hu
          exact cited c hc)
        catalog claims (claimed s hs c hc r hr)
  simp only [draftSnapshot, DemoBuild.rename, QualityReport.rename, ids', List.mapM_map,
    excerpts_rename renamed.ordered catalog cited]
  rw [← sections]
  rfl

theorem projectSnapshot_rename (p : Platform) (decimal : CodePoint → Option Nat)
    (renamed : Renaming ρ b) (ids : List Str) :
    projectSnapshot p decimal (b.rename ρ ids) = projectSnapshot p decimal b := by
  rw [projectSnapshot, projectSnapshot, draftSnapshot_rename p decimal renamed ids]

end

/-! ## Rendering -/

theorem scanOutput_leak (p : Platform) {data : Bytes} {text : Str} (read : decodeAscii data = some text)
    {ids : List Str} (leak : Leaks ids text) :
    scanOutput p data ids = reject "An internal identifier reached the snapshot" := by
  simp only [scanOutput, read, rejectWhen, leak, if_true]
  rfl

/-- The scan finds the same in a text when the same leaks into it. -/
theorem scanOutput_congr (p : Platform) {data : Bytes} {ids ids' : List Str}
    (same : ∀ text, decodeAscii data = some text → (Leaks ids text ↔ Leaks ids' text)) :
    scanOutput p data ids = scanOutput p data ids' := by
  unfold scanOutput
  split
  · rfl
  · rename_i text read
    simp only [same text read]

/-! ## A passage that names an identifier -/

def orderId : Uuid := 0xf2e32d13e8fe4b5390e975443b896a35#128

def otherId : Uuid := 0xf2e32d13e8fe4b5390e975443b896a36#128

def demoSections : List SectionName :=
  [.scope, .sourceInventory, .findings, .generatedTests, .reviewedTests, .traceability,
    .executionEvidence, .failureAnalysis, .metrics, .provenance, .limitations]

/-- The identifier of the citation stands in its passage. -/
def quotingBuild : DemoBuild where
  fixture := ⟨lit "demo", 1, lit "synthetic"⟩
  snapshot := {
    report := ⟨[⟨.citation, orderId⟩], demoSections.map fun name => ⟨name, .notAvailable, none, []⟩⟩
    summary := ⟨0, 0, 0, [], 0, 0, 0, 0, 0, 0⟩ }
  citations := [⟨orderId, ⟨lit "markdown_lines", some 1, some 1, none, none⟩, uuidText orderId⟩]
  analyzerVersion := lit "v1"
  testGeneratorVersion := lit "v1"
  internalIdentifiers := [uuidText orderId]

/-- The digests of the three texts of the build that are hashed, by their lengths. -/
def quotingDigest (data : Bytes) : BitVec 256 :=
  if data.length = 2432 then 0x51ad8410f607f0c0c89a919e863e7c5111234fef36bf5d929f0001094772492b
  else if data.length = 75 then 0x995dbe7b79d7b9f3ae8d00d971a44313023e9d660a8e9a59df0718c2a5441b4a
  else 0x3d87cbcba845acbd8ce1f7f5f11824ba80dfbd14e90e18165b0739318939d20f

/-- No pattern matches in the texts of the build. -/
def quotingPlatform : Platform where
  sha256 := quotingDigest
  depth := 10
  patterns := ⟨[], noPattern, noPattern, noPattern, noPattern⟩
  setOrder := id

/-- The text of another UUID for the text of a UUID. -/
def renameText (decimal : CodePoint → Option Nat) (ρ : Uuid → Uuid) (text : Str) : Str :=
  match parseUuid decimal text with
  | some u => if uuidText u = text then uuidText (ρ u) else text
  | none => text

def noDigits : CodePoint → Option Nat := fun _ => none

theorem renameText_uuidText (decimal : CodePoint → Option Nat) (ρ : Uuid → Uuid) (u : Uuid) :
    renameText decimal ρ (uuidText u) = uuidText (ρ u) := by
  rw [renameText, parseUuid_uuidText]
  exact if_pos rfl

theorem quoting_renaming : Renaming (Equiv.swap orderId otherId) quotingBuild where
  injective _ _ _ _ same := (Equiv.swap orderId otherId).injective same
  ordered c hc d hd := by
    obtain rfl := List.mem_singleton.mp hc
    obtain rfl := List.mem_singleton.mp hd
    decide +kernel

/-- The build whose passage quotes its identifier is refused; with another identifier it is not. -/
theorem quoting_outcomes :
    (renderSnapshot quotingPlatform noDigits quotingBuild []).isOk = false ∧
      (renderSnapshot quotingPlatform noDigits
        (quotingBuild.rename (Equiv.swap orderId otherId) [uuidText otherId]) []).isOk = true := by
  constructor
  · decide +kernel
  · decide +kernel

/-! ## Two builds -/

/-- Two builds that differ in their identifiers are rendered to the same bytes, or both are refused,
unless of exactly one of them a text to hide stands in the snapshot. That one is refused. -/
theorem renderSnapshot_rename (p : Platform) (decimal : CodePoint → Option Nat)
    (viewer : List (Str × Bytes)) {ρ : Uuid → Uuid} {b : DemoBuild} (renamed : Renaming ρ b)
    (ids : List Str) :
    renderSnapshot p decimal (b.rename ρ ids) viewer = renderSnapshot p decimal b viewer ∨
      ∃ snapshot data text, projectSnapshot p decimal b = .ok snapshot ∧
        projectSnapshot p decimal (b.rename ρ ids) = .ok snapshot ∧
        canonicalJsonBytes p.depth (.dict snapshot) = .ok data ∧ decodeAscii data = some text ∧
        ((Leaks b.internalIdentifiers text ∧ ¬ Leaks ids text ∧
            renderSnapshot p decimal b viewer =
              reject "An internal identifier reached the snapshot") ∨
          (¬ Leaks b.internalIdentifiers text ∧ Leaks ids text ∧
            renderSnapshot p decimal (b.rename ρ ids) viewer =
              reject "An internal identifier reached the snapshot")) := by
  have projected := projectSnapshot_rename p decimal renamed ids
  by_cases differ : ∃ snapshot data text, projectSnapshot p decimal b = .ok snapshot ∧
      validateSnapshotSchema snapshot = .ok () ∧
      canonicalJsonBytes p.depth (.dict snapshot) = .ok data ∧ decodeAscii data = some text ∧
      ¬ (Leaks b.internalIdentifiers text ↔ Leaks ids text)
  · right
    obtain ⟨snapshot, data, text, made, valid, printed, read, differ⟩ := differ
    refine ⟨snapshot, data, text, made, projected.trans made, printed, read, ?_⟩
    by_cases leak : Leaks b.internalIdentifiers text
    · left
      refine ⟨leak, fun other => differ (iff_of_true leak other), ?_⟩
      simp only [renderSnapshot, made, valid, printed, rejecting, ok_bind, scanOutput_leak p read leak]
      rfl
    · right
      have other : Leaks ids text := by
        by_contra none'
        exact differ (iff_of_false leak none')
      refine ⟨leak, other, ?_⟩
      simp only [renderSnapshot, projected, made, valid, printed, rejecting, ok_bind,
        internalIdentifiers_rename, scanOutput_leak p read other]
      rfl
  · left
    simp only [renderSnapshot, projected]
    cases made : projectSnapshot p decimal b with
    | error f => rfl
    | ok snapshot =>
      simp only [ok_bind]
      cases valid : validateSnapshotSchema snapshot with
      | error message => rfl
      | ok checked =>
        cases printed : canonicalJsonBytes p.depth (.dict snapshot) with
        | error f => rfl
        | ok data =>
          have same : scanOutput p data ids = scanOutput p data b.internalIdentifiers := by
            refine scanOutput_congr p fun text read => ?_
            by_contra other
            exact differ ⟨snapshot, data, text, made, valid, printed, read, fun h => other h.symm⟩
          simp only [rejecting, ok_bind, internalIdentifiers_rename, same]

theorem renderSnapshot_rename_quoting :
    renderSnapshot quotingPlatform noDigits
        (quotingBuild.rename (Equiv.swap orderId otherId) [uuidText otherId]) [] =
      renderSnapshot quotingPlatform noDigits quotingBuild [] ∨
    ∃ snapshot data text, projectSnapshot quotingPlatform noDigits quotingBuild = .ok snapshot ∧
      projectSnapshot quotingPlatform noDigits
        (quotingBuild.rename (Equiv.swap orderId otherId) [uuidText otherId]) = .ok snapshot ∧
      canonicalJsonBytes quotingPlatform.depth (.dict snapshot) = .ok data ∧
      decodeAscii data = some text ∧
      ((Leaks quotingBuild.internalIdentifiers text ∧ ¬ Leaks [uuidText otherId] text ∧
          renderSnapshot quotingPlatform noDigits quotingBuild [] =
            reject "An internal identifier reached the snapshot") ∨
        (¬ Leaks quotingBuild.internalIdentifiers text ∧ Leaks [uuidText otherId] text ∧
          renderSnapshot quotingPlatform noDigits
            (quotingBuild.rename (Equiv.swap orderId otherId) [uuidText otherId]) [] =
            reject "An internal identifier reached the snapshot")) :=
  renderSnapshot_rename quotingPlatform noDigits [] quoting_renaming [uuidText otherId]

/-- The same bytes, or both refused. -/
def SameOrRefused (r r' : Except Failure SnapshotOutput) : Prop :=
  (∃ o o', r = .ok o ∧ r' = .ok o' ∧ o.snapshotBytes = o'.snapshotBytes) ∨
    ((∃ f, r = .error f) ∧ ∃ f, r' = .error f)

/-- With all of its texts to hide renamed too, one build is refused and the other is not. -/
theorem renderSnapshot_rename_leak : ¬ ∀ (p : Platform) (decimal : CodePoint → Option Nat)
    (viewer : List (Str × Bytes)) (ρ : Uuid → Uuid) (b : DemoBuild), Function.Injective ρ →
      Renaming ρ b → SameOrRefused (renderSnapshot p decimal b viewer)
        (renderSnapshot p decimal
          (b.rename ρ (b.internalIdentifiers.map (renameText decimal ρ))) viewer) := by
  intro all
  have outcomes := all quotingPlatform noDigits [] (Equiv.swap orderId otherId) quotingBuild
    (Equiv.swap orderId otherId).injective quoting_renaming
  have hidden : quotingBuild.internalIdentifiers.map (renameText noDigits (Equiv.swap orderId otherId)) =
      [uuidText otherId] := by
    rw [quotingBuild, List.map_singleton, renameText_uuidText, Equiv.swap_apply_left]
  rw [hidden] at outcomes
  obtain ⟨refused, rendered⟩ := quoting_outcomes
  rcases outcomes with ⟨o, -, made, -⟩ | ⟨-, f, failed⟩
  · rw [made] at refused
    cases refused
  · rw [failed] at rendered
    cases rendered

end QaCopilot.GuestDemo
