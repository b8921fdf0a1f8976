import QaCopilot.GuestDemo.DemoBuild
import QaCopilot.GuestDemo.Publication

/-!
# The snapshot of a build

`guest_demo_snapshot.py`: the projection of a build with positional keys, the public identifiers
that replace them, and the checks of the rendered snapshot.
-/

namespace QaCopilot.GuestDemo

open Python

def maxExcerptCharacters : Nat := 500

def maxExcerpts : Nat := 100

/-- `ALLOWED_LOCATION_KINDS` -/
def allowedLocationKinds : List Str := [lit "markdown_lines"]

def traceabilityLabel : Str :=
  lit "Derived from the evidence links of the findings and generated-test claims."

def traceabilitySectionNote : Str :=
  lit "The report's own traceability section is not available in v1."

/-- `PROVENANCE_TEXT` -/
def provenanceText : List (Str × Str) :=
  [(lit "findings", lit "Rule-based analyzer; no model."),
    (lit "citations", lit "Selected by the publishing script: one per parsed requirement unit, " ++
      lit "in document order."),
    (lit "test_proposals", lit "Deterministic generator from author-written seeds."),
    (lit "execution", lit "Restricted executor against an in-process synthetic mock target."),
    (lit "failure_analysis", lit "Deterministic."),
    (lit "publication", lit "The content hash is the SHA-256 of this file and names its directory; " ++
      lit "the publication date is recorded in the publish manifest.")]

def reject {α : Type} (message : String) : Except Failure α := .error (.rejected message)

def rejectWhen (c : Prop) [Decidable c] (message : String) : Except Failure Unit :=
  if c then reject message else .ok ()

def rejecting {α : Type} : Snapshotted α → Except Failure α
  | .ok a => .ok a
  | .error message => reject message

/-! ## Drafts -/

/-- A snapshot whose identifiers are still positional keys. -/
inductive Draft where
  | key (k : Str)
  | value (v : Json)
  | list (xs : List Draft)
  | dict (items : List (Str × Draft))

def Draft.text (s : Str) : Draft := .value (.str s)

def optionalNumber : Option Int → Json
  | none => .null
  | some n => .int n

section
variable {μ : Type → Type} [Monad μ] (replace : Str → μ Str)

mutual

/-- `_map_keys` -/
def Draft.mapKeys : Draft → μ Json
  | .key k => do return .str (← replace k)
  | .value v => return v
  | .list xs => do return .list (← Draft.mapKeysList xs)
  | .dict items => do return .dict (← Draft.mapKeysItems items)

def Draft.mapKeysList : List Draft → μ (List Json)
  | [] => return []
  | d :: ds => do
    let v ← d.mapKeys
    return v :: (← Draft.mapKeysList ds)

def Draft.mapKeysItems : List (Str × Draft) → μ (List (Str × Json))
  | [] => return []
  | (k, d) :: items => do
    let v ← d.mapKeys
    return (k, v) :: (← Draft.mapKeysItems items)

end

end

/-! ## Keys -/

/-- The loop over the evidence catalogue. -/
structure CatalogKeys where
  keys : Dict (Str × Uuid) Str
  perKind : Dict Str Nat

def CatalogKeys.note (c : CatalogKeys) (r : EvidenceReference) : CatalogKeys :=
  let n := (c.perKind.get? r.kind.value).getD 0
  ⟨c.keys.set (r.kind.value, r.id) (r.kind.value ++ lit ":" ++ digits n),
    c.perKind.set r.kind.value (n + 1)⟩

/-- `catalog_keys` -/
def catalogKeys (catalog : List EvidenceReference) : Dict (Str × Uuid) Str :=
  (catalog.foldl CatalogKeys.note ⟨.empty, .empty⟩).keys

def claimKey (name : SectionName) (index : Nat) : Str :=
  lit "claim:" ++ name.value ++ lit ":" ++ digits index

/-- The kind of evidence that names the claims of a section. -/
def namingKind : SectionName → Option EvidenceKind
  | .findings => some .finding
  | .generatedTests => some .testCase
  | _ => none

/-- The evidence of a claim that names it, in one section. -/
def namingEvidence (name : SectionName) (c : Claim) : List EvidenceReference :=
  c.evidence.filter fun r => some r.kind = namingKind name

def noteClaim (name : SectionName) (keys : Dict (Str × Uuid) Str) (c : Claim × Nat) :
    Dict (Str × Uuid) Str :=
  (namingEvidence name c.1).foldl
    (fun keys r => keys.set (r.kind.value, r.id) (claimKey name c.2)) keys

def noteSection (keys : Dict (Str × Uuid) Str) (s : ReportSection) : Dict (Str × Uuid) Str :=
  s.claims.zipIdx.foldl (noteClaim s.name) keys

/-- `claim_keys` -/
def claimKeyTable (sections : List ReportSection) : Dict (Str × Uuid) Str :=
  sections.foldl noteSection .empty

/-! ## Excerpts -/

/-- `_CONTROL_CHARACTERS` -/
def isControl (c : CodePoint) : Bool := c.val < 0x20 || c.val = 0x7F

def redactExcerpt (p : Platform) (text : Str) : Except Failure Str := do
  rejectWhen (text.any isControl = true) "Excerpt contains control characters"
  rejectWhen (maxExcerptCharacters < text.length)
    "Excerpt exceeds the length cap; it is not truncated"
  rejectWhen (p.patterns.secrets.any (·.search text) = true) "Excerpt contains secret-like text"
  return p.patterns.placeholders.foldl (fun text i => i.2.sub i.1 text) text

/-- `<=` of the keys by which citations are sorted: the line, then the text of the identifier. -/
def citationLe (a b : Citation) : Bool :=
  let line (c : Citation) := c.sourceLocation.lineStart.getD 0
  line a < line b || (line a == line b && Str.le (uuidText a.id) (uuidText b.id))

/-- `catalog_keys[key]` -/
def catalogKey (catalog : Dict (Str × Uuid) Str) (id : Uuid) : Except Failure Str :=
  match catalog.get? (EvidenceKind.citation.value, id) with
  | some key => .ok key
  | none => .error .key

def excerpt (p : Platform) (catalog : Dict (Str × Uuid) Str) (c : Citation) : Except Failure Draft := do
  let location := c.sourceLocation
  rejectWhen (location.locationKind ∉ allowedLocationKinds) "Unsupported excerpt location kind"
  let key ← catalogKey catalog c.id
  let text ← redactExcerpt p c.passage
  return .dict [(lit "public_id", .key key), (lit "location_kind", .text location.locationKind),
    (lit "line_start", .value (optionalNumber location.lineStart)),
    (lit "line_end", .value (optionalNumber location.lineEnd)),
    (lit "page_start", .value (optionalNumber location.pageStart)),
    (lit "page_end", .value (optionalNumber location.pageEnd)), (lit "text", .text text)]

/-- `_excerpts` -/
def excerpts (p : Platform) (catalog : Dict (Str × Uuid) Str) (citations : List Citation) :
    Except Failure (List Draft) := do
  rejectWhen (maxExcerpts < citations.length) "Too many excerpts for one publication"
  (citations.insertionSort fun a b => citationLe a b).mapM (excerpt p catalog)

/-! ## Claims -/

/-- `_require_text` -/
def requireTemplate (decimal : CodePoint → Option Nat) : Option Str → Except Failure Unit
  | none => .ok ()
  | some text =>
    if text ∈ fixedTexts || isTemplate decimal text then .ok ()
    else reject "Report text is not a known generator template"

/-- `resolve` -/
def resolve (citations : List Uuid) (catalog claims : Dict (Str × Uuid) Str) (r : EvidenceReference) :
    Except Failure (Option Str) :=
  match r.kind with
  | .citation => do
    rejectWhen (r.id ∉ citations) "A claim cites an unknown citation"
    return some (← catalogKey catalog r.id)
  | .finding | .testCase => .ok (claims.get? (r.kind.value, r.id))
  | _ => .ok none

structure ProjectedClaim where
  key : Str
  kind : ClaimKind
  statement : Str
  unsupported : Bool
  unsupportedReason : Option Str
  evidence : List Str

structure ProjectedSection where
  name : SectionName
  state : SectionState
  stateReason : Option Str
  claims : List ProjectedClaim

section
variable (decimal : CodePoint → Option Nat) (resolve : EvidenceReference → Except Failure (Option Str))

def projectClaim (name : SectionName) (c : Claim × Nat) : Except Failure ProjectedClaim := do
  requireTemplate decimal (some c.1.statement)
  requireTemplate decimal c.1.unsupportedReason
  let key := claimKey name c.2
  let resolved ← c.1.evidence.mapM resolve
  return ⟨key, c.1.kind, c.1.statement, c.1.unsupported, c.1.unsupportedReason,
    (resolved.filterMap id).filter (· ≠ key)⟩

def projectSection (s : ReportSection) : Except Failure ProjectedSection := do
  requireTemplate decimal s.stateReason
  return ⟨s.name, s.state, s.stateReason, ← s.claims.zipIdx.mapM (projectClaim decimal resolve s.name)⟩

end

def ProjectedClaim.draft (c : ProjectedClaim) : Draft :=
  .dict [(lit "public_id", .key c.key), (lit "kind", .text c.kind.value),
    (lit "statement", .text c.statement), (lit "unsupported", .value (.bool c.unsupported)),
    (lit "unsupported_reason", .value (optionalText c.unsupportedReason)),
    (lit "evidence", .list (c.evidence.map .key))]

def ProjectedSection.draft (s : ProjectedSection) : Draft :=
  .dict [(lit "name", .text s.name.value), (lit "state", .text s.state.value),
    (lit "state_reason", .value (optionalText s.stateReason)),
    (lit "claims", .list (s.claims.map ProjectedClaim.draft))]

/-- The claims of the sections of a name. -/
def claimsOf (name : SectionName) (sections : List ProjectedSection) : List ProjectedClaim :=
  (sections.filter (·.name = name)).flatMap (·.claims)

/-- `traceability_state` -/
def traceabilityState (sections : List ProjectedSection) : Option SectionState :=
  (sections.filter (·.name = .traceability)).getLast?.map (·.state)

/-- The row of a finding: the tests that link to it, and its excerpts. -/
def traceabilityRow (tests : List ProjectedClaim) (finding : ProjectedClaim) : Draft :=
  let links (test : ProjectedClaim) := test.evidence.filter (lit "claim:findings:").isPrefixOf
  .dict [(lit "finding", .key finding.key),
    (lit "test_proposals", .list ((tests.filter (finding.key ∈ links ·)).map (.key ·.key))),
    (lit "citation_excerpts", .list ((finding.evidence.filter (lit "citation:").isPrefixOf).map .key))]

/-! ## The summary -/

def projectCount (summary : Mapping) (key : Str) : Except Failure (Str × Draft) :=
  match summary.get key with
  | .int n =>
    if n < 0 then reject "Summary counts must be non-negative integers"
    else .ok (key, .value (.int n))
  | _ => reject "Summary counts must be non-negative integers"

/-- The member of an enumeration with a value. -/
def member {α : Type} (all : List α) (value : α → Str) (text : Str) : Except Failure Str :=
  if text ∈ all.map value then .ok text else .error .value

def projectFindingCount (v : Json) : Except Failure Draft := do
  let entry ← rejecting (requireMapping v)
  match entry.get (lit "count") with
  | .int n =>
    rejectWhen (n < 0) "Finding counts must be non-negative integers"
    match entry.get (lit "severity"), entry.get (lit "category") with
    | .str severity, .str category =>
      return .dict [
        (lit "severity", .text (← member Findings.FindingSeverity.all Findings.FindingSeverity.value severity)),
        (lit "category", .text (← member Findings.FindingCategory.all Findings.FindingCategory.value category)),
        (lit "count", .value (.int n))]
    | _, _ => reject "Finding counts must name a severity and category"
  | _ => reject "Finding counts must be non-negative integers"

/-- `_summary` -/
def projectSummary (summary : Mapping) : Except Failure Draft := do
  let counts ← (summaryKeys.filter (· ≠ lit "finding_counts")).mapM (projectCount summary)
  let findings ← (← rejecting (requireList (summary.get (lit "finding_counts")))).mapM projectFindingCount
  return .dict (counts ++ [(lit "finding_counts", .list findings)])

/-! ## The projection -/

def DemoFixture.draft (f : DemoFixture) : Draft :=
  .dict [(lit "fixture_id", .text f.fixtureId), (lit "fixture_version", .value (.int f.fixtureVersion)),
    (lit "classification", .text f.classification)]

def provenanceDraft (analyzerVersion testGeneratorVersion : Str) : Draft :=
  let text (key : Str) : Str × Draft := (key, .text ((provenanceText.lookup key).getD []))
  .dict [(lit "not_a_model_result", .value (.bool true)), (lit "statement", .text notAModelResult),
    text (lit "findings"), (lit "analyzer_version", .text analyzerVersion), text (lit "citations"),
    text (lit "test_proposals"), (lit "test_generator_version", .text testGeneratorVersion),
    text (lit "execution"), text (lit "failure_analysis"), text (lit "publication")]

/-- `project_snapshot` before the public identifiers. -/
def draftSnapshot (p : Platform) (decimal : CodePoint → Option Nat) (b : DemoBuild) :
    Except Failure Draft := do
  let report := b.snapshot.report
  let catalog := catalogKeys report.evidenceCatalog
  let excerpts ← excerpts p catalog b.citations
  let resolved := resolve (b.citations.map (·.id)) catalog (claimKeyTable report.sections)
  let sections ← report.sections.mapM (projectSection decimal resolved)
  rejectWhen (traceabilityState sections ≠ some .notAvailable)
    "v1 expects the report's own traceability section to be not available"
  let summary ← projectSummary b.snapshot.summary.asPayload
  let rows := (claimsOf .findings sections).map (traceabilityRow (claimsOf .generatedTests sections))
  return .dict [(lit "schema_version", .text snapshotSchemaVersion), (lit "content_class", .text contentClass),
    (lit "sanitization_policy_version", .text sanitizationPolicyVersion), (lit "source", b.fixture.draft),
    (lit "provenance", provenanceDraft b.analyzerVersion b.testGeneratorVersion),
    (lit "summary", summary), (lit "sections", .list (sections.map ProjectedSection.draft)),
    (lit "traceability", .dict [(lit "label", .text traceabilityLabel),
      (lit "report_section_state", .text SectionState.notAvailable.value),
      (lit "report_section_note", .text traceabilitySectionNote), (lit "rows", .list rows)]),
    (lit "excerpts", .list excerpts)]

/-! ## Public identifiers -/

/-- `public`, with the identifiers that are issued. -/
def publicId (p : Platform) (bodyHash : Str) (key : Str) :
    StateT (Dict Str Str) (Except Failure) Str := do
  match (← get).get? key with
  | some id => return id
  | none =>
    let data ← asciiBytes (bodyHash ++ lit ":" ++ key)
    let id := lit "pub-" ++ (p.digest data).take 16
    modify (·.set key id)
    return id

/-- `_with_public_ids` -/
def withPublicIds (p : Platform) (snapshot : Draft) : Except Failure Mapping := do
  let body ← canonicalJsonBytes p.depth (snapshot.mapKeys (μ := Id) fun _ => [])
  let (result, issued) ← (snapshot.mapKeys (publicId p (p.digest body))).run .empty
  match result with
  | .dict items => do
    rejectWhen (¬ (issued.items.map (·.2)).Nodup) "Public identifier collision"
    return items
  | _ => reject "Public identifier collision"

def projectSnapshot (p : Platform) (decimal : CodePoint → Option Nat) (b : DemoBuild) :
    Except Failure Mapping := do
  withPublicIds p (← draftSnapshot p decimal b)

/-! ## Rendering -/

/-- An internal identifier stands in a text. -/
def Leaks (internalIdentifiers : List Str) (text : Str) : Prop :=
  ∃ i ∈ internalIdentifiers, i ≠ [] ∧ occursIn i text = true

instance (internalIdentifiers : List Str) (text : Str) : Decidable (Leaks internalIdentifiers text) :=
  inferInstanceAs (Decidable (∃ i ∈ internalIdentifiers, i ≠ [] ∧ occursIn i text = true))

/-- `_scan_output` -/
def scanOutput (p : Platform) (data : Bytes) (internalIdentifiers : List Str) : Except Failure Unit :=
  match decodeAscii data with
  | none => .error .value
  | some text => do
    rejectWhen (Leaks internalIdentifiers text) "An internal identifier reached the snapshot"
    rejectWhen (p.patterns.secrets.any (·.search text) = true) "The snapshot contains secret-like text"
    rejectWhen (p.patterns.placeholders.any (·.2.search text) = true)
      "The snapshot contains an unredacted identifier"

def buildManifest (p : Platform) (contentHash : Str) (files viewer : List (Str × Bytes)) : Mapping :=
  [(lit "schema_version", .str buildManifestSchemaVersion), (lit "content_class", .str contentClass),
    (lit "content_hash", .str contentHash), (lit "snapshot_schema_version", .str snapshotSchemaVersion),
    (lit "sanitization_policy_version", .str sanitizationPolicyVersion),
    (lit "viewer_version", if viewer = [] then .null else .str viewerVersion),
    (lit "files", .list (files.map fun f => .dict [(lit "path", .str f.1),
      (lit "sha256", .str (p.digest f.2)), (lit "bytes", .int f.2.length)]))]

def renderSnapshot (p : Platform) (decimal : CodePoint → Option Nat) (b : DemoBuild)
    (viewer : List (Str × Bytes)) : Except Failure SnapshotOutput := do
  let snapshot ← projectSnapshot p decimal b
  rejecting (validateSnapshotSchema snapshot)
  let snapshotBytes ← canonicalJsonBytes p.depth (.dict snapshot)
  scanOutput p snapshotBytes b.internalIdentifiers
  let contentHash := p.digest snapshotBytes
  rejectWhen (viewer ≠ [] ∧ viewer.map (·.1) ≠ viewerFileNames)
    "The viewer release must be exactly its three files"
  let manifest := buildManifest p contentHash ((snapshotFile, snapshotBytes) :: viewer) viewer
  return ⟨snapshotBytes, ← canonicalJsonBytes p.depth (.dict manifest), contentHash, viewer⟩

end QaCopilot.GuestDemo
