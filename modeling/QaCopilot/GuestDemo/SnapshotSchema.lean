import QaCopilot.Python.JsonLoads

/-!
# The published snapshot: bytes, keys and patterns

What the build and the publisher of the guest demo share: canonical JSON bytes, the allowlist of
the keys of a snapshot, and the patterns of the sanitizer.
-/

namespace QaCopilot.GuestDemo

open Python

/-- The exceptions: `SnapshotRejected`, `PublishRefused`, and what the code raises beside them. -/
inductive Failure where
  | rejected (message : String)
  | refused (message : Str)
  | value
  | recursion
  | key
  | index
  | stop
  | fileExists
  | fileNotFound
deriving DecidableEq

/-- A compiled pattern: whether it matches somewhere, and a text with every match replaced. -/
structure Pattern where
  search : Str → Bool
  sub : Str → Str → Str

/-- `_SECRET_PATTERNS` and the patterns of `_PLACEHOLDER_PATTERNS`, by their placeholder. -/
structure Patterns where
  secrets : List Pattern
  url : Pattern
  email : Pattern
  host : Pattern
  phone : Pattern

/-- `_PLACEHOLDER_PATTERNS` -/
def Patterns.placeholders (p : Patterns) : List (Str × Pattern) :=
  [(lit "[redacted-url]", p.url), (lit "[redacted-email]", p.email), (lit "[redacted-host]", p.host),
    (lit "[redacted-phone]", p.phone)]

/-- What the interpreter brings: SHA-256, how deep `json` nests, the patterns, and the order in
which it walks a set of texts. -/
structure Platform where
  sha256 : Bytes → BitVec 256
  depth : Nat
  patterns : Patterns
  setOrder : List Str → List Str

/-- `sha256(data).hexdigest()` -/
def Platform.digest (p : Platform) (data : Bytes) : Str := hexdigest (p.sha256 data)

/-! ## Bytes -/

/-- `str.encode("ascii")`; none where Python raises `UnicodeEncodeError`. -/
def encodeAscii (s : Str) : Option Bytes :=
  if s.all (·.val < 0x80) then some (s.map fun c => .ofNat c.val) else none

/-- `bytes.decode("ascii")`; none where Python raises `UnicodeDecodeError`. -/
def decodeAscii (data : Bytes) : Option Str :=
  if data.all (· < 0x80) then
    some (data.map fun b => ⟨b.toNat, Nat.lt_trans b.toNat_lt (by decide)⟩)
  else none

/-- What `encode("ascii")` gives for a text of the source. -/
def asciiBytes (s : Str) : Except Failure Bytes :=
  match encodeAscii s with
  | some data => .ok data
  | none => .error .value

/-- `canonical_json_bytes` -/
def canonicalJsonBytes (depth : Nat) (v : Json) : Except Failure Bytes :=
  match canonicalDumps depth v with
  | .ok text => asciiBytes text
  | .error .value => .error .value
  | .error .recursion => .error .recursion

theorem decodeAscii_encodeAscii {s : Str} {data : Bytes} (h : encodeAscii s = some data) :
    decodeAscii data = some s := by
  rw [encodeAscii] at h
  split at h
  · rename_i ascii
    obtain rfl := Option.some.inj h
    have small : ∀ c ∈ s, c.val < 0x80 := fun c hc => of_decide_eq_true (List.all_eq_true.mp ascii c hc)
    have each : ∀ c ∈ s, (UInt8.ofNat c.val).toNat = c.val := by
      intro c hc
      have := small c hc
      rw [UInt8.toNat_ofNat', Nat.mod_eq_of_lt (by omega)]
    have all : (s.map fun c => UInt8.ofNat c.val).all (· < 0x80) = true := by
      rw [List.all_map, List.all_eq_true]
      intro c hc
      have lt : (UInt8.ofNat c.val).toNat < (0x80 : UInt8).toNat := by
        rw [each c hc]
        exact small c hc
      exact decide_eq_true (UInt8.lt_iff_toNat_lt.mpr lt)
    rw [decodeAscii, if_pos all, List.map_map]
    refine congrArg some ((List.map_congr_left fun c hc => ?_).trans (List.map_id s))
    exact Fin.ext (each c hc)
  · cases h

theorem canonicalJsonBytes_ok {depth : Nat} {v : Json} {data : Bytes} :
    canonicalJsonBytes depth v = .ok data ↔
      ∃ text, canonicalDumps depth v = .ok text ∧ encodeAscii text = some data := by
  rw [canonicalJsonBytes]
  split
  · rename_i text made
    rw [asciiBytes]
    split
    · rename_i bytes encoded
      constructor
      · intro h
        obtain rfl := Except.ok.inj h
        exact ⟨text, made, encoded⟩
      · rintro ⟨text', made', encoded'⟩
        obtain rfl := Except.ok.inj (made.symm.trans made')
        exact congrArg Except.ok (Option.some.inj (encoded.symm.trans encoded'))
    · rename_i bad
      constructor
      · intro h
        cases h
      · rintro ⟨text', made', encoded'⟩
        obtain rfl := Except.ok.inj (made.symm.trans made')
        cases bad.symm.trans encoded'
  · rename_i failed
    simp [failed]
  · rename_i failed
    simp [failed]

/-! ## Constants -/

def snapshotSchemaVersion : Str := lit "guest-demo-snapshot/v1"

def buildManifestSchemaVersion : Str := lit "guest-demo-build-manifest/v2"

def viewerVersion : Str := lit "guest-demo-viewer/v1"

def sanitizationPolicyVersion : Str := lit "guest-demo-sanitization/v1"

def contentClass : Str := lit "demo-content-not-evaluation-evidence"

def snapshotFile : Str := lit "snapshot.json"

def viewerFileNames : List Str := [lit "index.html", lit "viewer.js", lit "viewer.css"]

def buildManifestFile : Str := lit "manifest.json"

def notAModelResult : Str := lit "This is not a model result."

def snapshotKeys : List Str :=
  [lit "schema_version", lit "content_class", lit "sanitization_policy_version", lit "source",
    lit "provenance", lit "summary", lit "sections", lit "traceability", lit "excerpts"]

def sourceKeys : List Str := [lit "fixture_id", lit "fixture_version", lit "classification"]

def provenanceKeys : List Str :=
  [lit "not_a_model_result", lit "statement", lit "findings", lit "analyzer_version",
    lit "citations", lit "test_proposals", lit "test_generator_version", lit "execution",
    lit "failure_analysis", lit "publication"]

def summaryKeys : List Str :=
  [lit "source_document_version_count", lit "requirement_analysis_run_count", lit "finding_count",
    lit "finding_counts", lit "generated_test_case_count", lit "execution_count",
    lit "succeeded_execution_count", lit "failed_execution_count", lit "cancelled_execution_count",
    lit "failure_analysis_count"]

def findingCountKeys : List Str := [lit "severity", lit "category", lit "count"]

def sectionKeys : List Str := [lit "name", lit "state", lit "state_reason", lit "claims"]

def claimKeys : List Str :=
  [lit "public_id", lit "kind", lit "statement", lit "unsupported", lit "unsupported_reason",
    lit "evidence"]

def traceabilityKeys : List Str :=
  [lit "label", lit "report_section_state", lit "report_section_note", lit "rows"]

def traceabilityRowKeys : List Str := [lit "finding", lit "test_proposals", lit "citation_excerpts"]

def excerptKeys : List Str :=
  [lit "public_id", lit "location_kind", lit "line_start", lit "line_end", lit "page_start",
    lit "page_end", lit "text"]

/-! ## `validate_snapshot_schema` -/

/-- The text of a `SnapshotRejected`. -/
abbrev Snapshotted := Except String

abbrev Mapping := List (Str × Json)

/-- `value[key]` of a key that is there, and `value.get(key)`. -/
def Mapping.get (value : Mapping) (key : Str) : Json :=
  ((value.find? (·.1 = key)).map (·.2)).getD .null

/-- `set(value) == allowed` -/
def hasKeys (value : Mapping) (allowed : List Str) : Bool :=
  value.all (·.1 ∈ allowed) && allowed.all (· ∈ value.map (·.1))

/-- `_keys` -/
def requireKeys (value : Mapping) (allowed : List Str) (label : String) : Snapshotted Unit :=
  if hasKeys value allowed then .ok ()
  else .error ("The " ++ label ++ " keys differ from the allowlist")

/-- `_mapping` -/
def requireMapping : Json → Snapshotted Mapping
  | .dict items => .ok items
  | _ => .error "Expected an object"

/-- `_list` -/
def requireList : Json → Snapshotted (List Json)
  | .list xs => .ok xs
  | _ => .error "Expected a list"

/-- Every item of a list is a mapping with the allowed keys. -/
def requireItems (value : Json) (allowed : List Str) (label : String) : Snapshotted Unit := do
  for item in ← requireList value do
    requireKeys (← requireMapping item) allowed label

def isText (v : Json) (text : Str) : Bool :=
  match v with
  | .str s => s = text
  | _ => false

def isTrue : Json → Bool
  | .bool b => b
  | _ => false

def validateSnapshotSchema (snapshot : Mapping) : Snapshotted Unit := do
  requireKeys snapshot snapshotKeys "snapshot"
  unless isText (snapshot.get (lit "schema_version")) snapshotSchemaVersion do
    .error "Unexpected snapshot schema version"
  unless isText (snapshot.get (lit "content_class")) contentClass do
    .error "The demo-not-evaluation marker is missing"
  requireKeys (← requireMapping (snapshot.get (lit "source"))) sourceKeys "source"
  let provenance ← requireMapping (snapshot.get (lit "provenance"))
  requireKeys provenance provenanceKeys "provenance"
  unless isTrue (provenance.get (lit "not_a_model_result")) &&
      isText (provenance.get (lit "statement")) notAModelResult do
    .error "The not-a-model-result statement is missing"
  let summary ← requireMapping (snapshot.get (lit "summary"))
  requireKeys summary summaryKeys "summary"
  requireItems (summary.get (lit "finding_counts")) findingCountKeys "finding count"
  for section' in ← requireList (snapshot.get (lit "sections")) do
    let sectionMap ← requireMapping section'
    requireKeys sectionMap sectionKeys "section"
    requireItems (sectionMap.get (lit "claims")) claimKeys "claim"
  let traceability ← requireMapping (snapshot.get (lit "traceability"))
  requireKeys traceability traceabilityKeys "traceability"
  requireItems (traceability.get (lit "rows")) traceabilityRowKeys "traceability row"
  requireItems (snapshot.get (lit "excerpts")) excerptKeys "excerpt"

end QaCopilot.GuestDemo
