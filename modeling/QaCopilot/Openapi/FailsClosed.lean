import QaCopilot.Openapi.DocumentLimits
import QaCopilot.Openapi.Mismatches
import QaCopilot.Openapi.YamlFaults

/-!
# The parser fails closed

The parser should reject a document or return one that keeps its rules. It lets a JSON number pass
that is too large for a float, and the `ValueError` and `RecursionError` of `json.loads` escape.

* `failsClosed_iff`: it fails closed exactly on the documents that meet none of these.
-/

namespace QaCopilot.Openapi

open QaCopilot.Python QaCopilot.Results

variable {p : Platform} {documentType : DocumentType} {raw : Bytes}

/-- No object of the source repeats a key: a JSON text is read with all its pairs, and the nodes of
a YAML text are those that are composed. -/
def SourceKeysDistinct (p : Platform) (documentType : DocumentType) (raw : Bytes) : Prop :=
  ∃ text, decodeUtf8 raw = some text ∧
    match documentType with
    | .openapiJson => ∃ v, loadsPairs p.recursionLimit text = .ok v ∧ v.check .distinctKeys = true
    | .openapiYaml => ∃ node, p.yaml.compose text = .ok (some node) ∧ KeysDistinct node
    | .other => False

/-- The rules that a document keeps. -/
structure Sound (p : Platform) (documentType : DocumentType) (raw : Bytes) (document : Members) :
    Prop where
  finite : (Json.dict document).check finiteNumbers = true
  distinct : SourceKeysDistinct p documentType raw
  limits : WithinLimits (.dict document)
  references : ∀ pair ∈ pairs (.dict document), LocalPair pair

/-- The parser raises `OpenApiParseRejected` alone, and returns sound documents alone. -/
def FailsClosed (p : Platform) (documentType : DocumentType) (raw : Bytes) : Prop :=
  Rejects (parseOpenapiRoot p documentType raw) ∧
    ∀ version document, parseOpenapiRoot p documentType raw = .ok (version, document) →
      Sound p documentType raw document

/-- The tokens of the text are all allowed. -/
def PlainTokens (p : Platform) (text : Str) : Prop :=
  (∀ token ∈ (p.yaml.scan text).1, token = .other) ∧ (p.yaml.scan text).2 = false

/-- `json.loads` raises no `ValueError` and no `RecursionError`, and numbers that are not finite are
in no document that keeps the other rules. -/
def LoadsClosed (p : Platform) (text : Str) : Prop :=
  (∀ e, loadsStrict p.recursionLimit text = .error e → e = .decode) ∧
    ∀ version document, loadsStrict p.recursionLimit text = .ok (.dict document) →
      Admissible version document → (Json.dict document).check finiteNumbers = true

/-- The first fault of the nodes is a rejection, and no such error of `json.loads`. -/
def NodesClosed (p : Platform) (text : Str) : Prop :=
  PlainTokens p text → ∀ node, p.yaml.compose text = .ok (some node) →
    ∀ e, (faults p node).head? = some e → ∃ code, e = .parseRejected code

/-- The text of a document does not reach what the parser misses. -/
def TextClosed (p : Platform) (documentType : DocumentType) (text : Str) : Prop :=
  match documentType with
  | .openapiJson => LoadsClosed p text
  | .openapiYaml => NodesClosed p text
  | .other => True

/-! ## JSON -/

theorem loadJson_rejects {text : Str} : Rejects (loadJson p text) ↔
    ∀ e, loadsStrict p.recursionLimit text = .error e → e = .decode := by
  unfold loadJson
  cases loadsStrict p.recursionLimit text with
  | ok v => exact iff_of_true nofun nofun
  | error e =>
    constructor
    · rintro h _ ⟨⟩
      obtain ⟨code, same⟩ := h _ rfl
      cases e with
      | decode => rfl
      | value | recursion => cases same
    · intro h
      rw [h e rfl]
      exact rejects_error _

theorem loadJson_ok {text : Str} {v : Json} :
    loadJson p text = .ok v ↔ loadsStrict p.recursionLimit text = .ok v := mapError_ok

/-! ## YAML -/

theorem checkTokens_rejects (tokens : List YamlToken) : Rejects (tokens.forM checkToken) := by
  induction tokens with
  | nil => exact rejects_ok ()
  | cons token tokens ih =>
    have first : Rejects (checkToken token) := by
      match token with
      | .other => exact rejects_ok ()
      | .directive | .documentStart | .documentEnd | .anchor | .alias | .tag => exact rejects_error _
    exact first.bind fun _ => ih

theorem checkTokens_ok {tokens : List YamlToken} {u : Unit} :
    tokens.forM checkToken = .ok u ↔ ∀ token ∈ tokens, token = .other := by
  induction tokens with
  | nil => exact iff_of_true rfl nofun
  | cons token tokens ih =>
    have first : ∀ u, checkToken token = .ok u ↔ token = .other := by
      intro u
      match token with
      | .other => exact iff_of_true rfl rfl
      | .directive | .documentStart | .documentEnd | .anchor | .alias | .tag => exact iff_of_false nofun nofun
    rw [List.forall_mem_cons, ← ih]
    constructor
    · intro h
      obtain ⟨_, here, later⟩ := bind_ok.mp h
      exact ⟨(first _).mp here, later⟩
    · rintro ⟨here, later⟩
      exact bind_ok.mpr ⟨(), (first ()).mpr here, later⟩

/-- A YAML text is rejected before its nodes are converted, or its nodes are converted. -/
theorem loadYaml_cases (p : Platform) (text : Str) :
    (∃ code, loadYaml p text = .error (.parseRejected code)) ∧
        (PlainTokens p text → ∀ node, p.yaml.compose text ≠ .ok (some node)) ∨
      PlainTokens p text ∧ ∃ node, p.yaml.compose text = .ok (some node) ∧
        loadYaml p text = yamlNodeToJson p node := by
  unfold loadYaml PlainTokens
  obtain ⟨tokens, fails⟩ := p.yaml.scan text
  dsimp only
  cases checked : tokens.forM checkToken with
  | error e =>
    obtain ⟨code, rfl⟩ := checkTokens_rejects _ e checked
    refine .inl ⟨⟨code, rfl⟩, fun plain => ?_⟩
    rw [checkTokens_ok (u := ()).mpr plain.1] at checked
    cases checked
  | ok =>
    have allowed := checkTokens_ok.mp checked
    cases fails with
    | true =>
      refine .inl ⟨⟨_, rfl⟩, fun plain => ?_⟩
      cases plain.2
    | false =>
      cases composed : p.yaml.compose text with
      | error =>
        refine .inl ⟨⟨_, rfl⟩, fun _ _ read => ?_⟩
        cases read
      | ok node? =>
        cases node? with
        | none =>
          refine .inl ⟨⟨_, rfl⟩, fun _ _ read => ?_⟩
          cases read
        | some node => exact .inr ⟨⟨allowed, rfl⟩, node, rfl, rfl⟩

theorem loadYaml_rejects {text : Str} : Rejects (loadYaml p text) ↔ NodesClosed p text := by
  rcases loadYaml_cases p text with ⟨⟨code, rejected⟩, never⟩ | ⟨plain, node, composed, loaded⟩
  · rw [rejected]
    exact iff_of_true (rejects_error code) fun plain node composed => absurd composed (never plain node)
  · rw [loaded]
    have first := fault_yamlNode (p := p) node
    constructor
    · intro h _ other same e found
      obtain rfl := Option.some.inj (Except.ok.inj (composed.symm.trans same))
      rw [← first] at found
      refine h e ?_
      cases made : yamlNodeToJson p node with
      | error e' =>
        rw [made] at found
        rw [Option.some.inj found]
      | ok v =>
        rw [made] at found
        cases found
    · intro h e made
      refine h plain node composed e ?_
      rw [← first, made]
      rfl

theorem loadYaml_ok {text : Str} {v : Json} (h : loadYaml p text = .ok v) :
    v.check finiteNumbers = true ∧ ∃ node, p.yaml.compose text = .ok (some node) ∧ KeysDistinct node := by
  rcases loadYaml_cases p text with ⟨⟨code, rejected⟩, -⟩ | ⟨-, node, composed, loaded⟩
  · rw [rejected] at h
    cases h
  · rw [loaded] at h
    exact ⟨yamlNode_finite node v h, node, composed, yamlNode_keys node v h⟩

/-! ## The root -/

theorem sound_iff {version : Str} {document : Members} (admissible : Admissible version document)
    (distinct : SourceKeysDistinct p documentType raw) :
    Sound p documentType raw document ↔ (Json.dict document).check finiteNumbers = true :=
  ⟨Sound.finite, fun finite => ⟨finite, distinct, admissible.limits, admissible.references.within⟩⟩

/-- The parser fails closed on a text. -/
theorem failsClosed_text {text : Str} (decoded : decodeUtf8 raw = some text) :
    FailsClosed p documentType raw ↔ TextClosed p documentType text := by
  cases documentType with
  | other =>
    have rejected : parseOpenapiRoot p .other raw =
        .error (.parseRejected "OPENAPI_DOCUMENT_TYPE_UNSUPPORTED") := rfl
    rw [FailsClosed, rejected]
    exact iff_of_true ⟨rejects_error _, nofun⟩ trivial
  | openapiYaml =>
    have steps : parseOpenapiRoot p .openapiYaml raw = loadYaml p text >>= checkRoot := by
      rw [parseOpenapiRoot_eq, decoded]
      rfl
    rw [FailsClosed, steps, TextClosed, ← loadYaml_rejects]
    constructor
    · intro h e failed
      refine h.1 e ?_
      rw [failed]
      rfl
    · refine fun h => ⟨h.bind checkRoot_rejects, fun version document made => ?_⟩
      obtain ⟨v, loaded, checked⟩ := bind_ok.mp made
      obtain ⟨rfl, admissible⟩ := checkRoot_ok.mp checked
      obtain ⟨finite, distinct⟩ := loadYaml_ok loaded
      exact (sound_iff admissible ⟨text, decoded, distinct⟩).mpr finite
  | openapiJson =>
    have steps : parseOpenapiRoot p .openapiJson raw = loadJson p text >>= checkRoot := by
      rw [parseOpenapiRoot_eq, decoded]
      rfl
    have distinct : ∀ {v}, loadsStrict p.recursionLimit text = .ok v →
        SourceKeysDistinct p .openapiJson raw := fun {v} read =>
      ⟨text, decoded, v, loadsStrict_pairs read, distinctKeys_loadsStrict read⟩
    rw [FailsClosed, steps, TextClosed, LoadsClosed, ← loadJson_rejects]
    refine and_congr ⟨fun h e failed => ?_, fun h => h.bind checkRoot_rejects⟩ ⟨fun h => ?_, fun h => ?_⟩
    · refine h e ?_
      rw [failed]
      rfl
    · intro version document read admissible
      refine (h version document (bind_ok.mpr ⟨_, loadJson_ok.mpr read, ?_⟩)).finite
      exact checkRoot_ok.mpr ⟨rfl, admissible⟩
    · intro version document made
      obtain ⟨v, loaded, checked⟩ := bind_ok.mp made
      obtain ⟨rfl, admissible⟩ := checkRoot_ok.mp checked
      have read := loadJson_ok.mp loaded
      exact (sound_iff admissible (distinct read)).mpr (h version document read admissible)

/-- The parser fails closed exactly on the bytes whose text reaches nothing that it misses. -/
theorem failsClosed_iff (p : Platform) (documentType : DocumentType) (raw : Bytes) :
    FailsClosed p documentType raw ↔
      ∀ text, decodeUtf8 raw = some text → TextClosed p documentType text := by
  cases decoded : decodeUtf8 raw with
  | none =>
    have rejected : ∃ code, parseOpenapiRoot p documentType raw = .error (.parseRejected code) := by
      rw [parseOpenapiRoot_eq, decoded]
      cases documentType with
      | other | openapiJson | openapiYaml => exact ⟨_, rfl⟩
    obtain ⟨code, rejected⟩ := rejected
    refine iff_of_true ⟨?_, ?_⟩ nofun
    · rw [rejected]
      exact rejects_error code
    · rw [rejected]
      nofun
  | some text =>
    rw [failsClosed_text decoded]
    constructor
    · rintro h _ ⟨⟩
      exact h
    · intro h
      exact h text rfl

/-! ## Samples -/

/-- A number that is too large for a float. -/
def infiniteDocument : Str := lit "\x7b\"openapi\":\"3.0.0\",\"x\":1e999\x7d"

/-- 1001 lists in each other. -/
def nestedDocument : Str := List.replicate 1001 (CodePoint.ofChar '[')

/-- An infinite number is accepted, and the `RecursionError` for deep nesting escapes. -/
theorem parser_fails_open :
    ¬ FailsClosed samplePlatform .openapiJson ((utf8 infiniteDocument).getD []) ∧
      ¬ FailsClosed samplePlatform .openapiJson ((utf8 nestedDocument).getD []) := by
  constructor
  · intro closed
    have accepted : (match parseOpenapiRoot samplePlatform .openapiJson
          ((utf8 infiniteDocument).getD []) with
        | .ok x => (Json.dict x.2).check finiteNumbers
        | .error _ => true) = false := by decide +kernel
    cases parsed : parseOpenapiRoot samplePlatform .openapiJson ((utf8 infiniteDocument).getD []) with
    | error e =>
      rw [parsed] at accepted
      cases accepted
    | ok x =>
      rw [parsed] at accepted
      cases (closed.2 x.1 x.2 parsed).finite.symm.trans accepted
  · intro closed
    have raised : fault (parseOpenapiRoot samplePlatform .openapiJson
        ((utf8 nestedDocument).getD [])) = some .recursion := by decide +kernel
    cases parsed : parseOpenapiRoot samplePlatform .openapiJson ((utf8 nestedDocument).getD []) with
    | ok x =>
      rw [parsed] at raised
      cases raised
    | error e =>
      rw [parsed] at raised
      obtain rfl := Option.some.inj raised
      obtain ⟨code, same⟩ := closed.1 _ parsed
      cases same

end QaCopilot.Openapi
