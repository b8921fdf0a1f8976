import QaCopilot.Ingestion.Tables
import QaCopilot.Lib.Results
import QaCopilot.Lib.Runs
import QaCopilot.Python.Dict

/-!
# Citations

`citations.py`: a citation links a retrieval trace of a project to a chunk that the trace selected.
One is created alone, or all of a request in one transaction. What was retrieved and indexed is only
added to.

* `batch_creation`: a batch answers what its citations created one by one would, or creates none.
-/

namespace QaCopilot.Retrieval

open QaCopilot.Python QaCopilot.Table QaCopilot.Ingestion QaCopilot.Runs QaCopilot.Results

/-! ## Evidence -/

structure LocationRecord extends SourceLocationRecord where
  pageStart : Option Nat
  pageEnd : Option Nat
  jsonPointer : Option Str
deriving DecidableEq

structure RetrievalTraceRecord where
  id : Uuid
  projectId : Uuid
deriving DecidableEq

structure RetrievalTraceCandidateRecord where
  id : Uuid
  retrievalTraceId : Uuid
  documentChunkId : Uuid
  finalRank : Option Nat
deriving DecidableEq

/-- What was indexed and retrieved, with the keys of its tables. -/
structure Evidence where
  documents : List DocumentRecord
  versions : List DocumentVersionRecord
  locations : List LocationRecord
  chunks : List DocumentChunkRecord
  traces : List RetrievalTraceRecord
  candidates : List RetrievalTraceCandidateRecord
  documentIds : (documents.map (·.id)).Nodup
  versionIds : (versions.map (·.id)).Nodup
  locationIds : (locations.map (·.id)).Nodup
  chunkIds : (chunks.map (·.id)).Nodup
  traceIds : (traces.map (·.id)).Nodup
  candidateKeys : (candidates.map fun c => (c.retrievalTraceId, c.documentChunkId)).Nodup
  chunkLocations : ∀ k ∈ chunks, ∃ l ∈ locations, l.id = k.sourceLocationId

/-- The rows of `e` are rows of `e'`. -/
def Evidence.within (e e' : Evidence) : Bool :=
  e.documents.all (e'.documents.contains ·) && e.versions.all (e'.versions.contains ·) &&
    e.locations.all (e'.locations.contains ·) && e.chunks.all (e'.chunks.contains ·) &&
    e.traces.all (e'.traces.contains ·) && e.candidates.all (e'.candidates.contains ·)

structure CitationRecord where
  id : Uuid
  projectId : Uuid
  retrievalTraceId : Uuid
  documentChunkId : Uuid
  documentVersionId : Uuid
  sourceLocationId : Uuid
  createdAt : Int
deriving DecidableEq

structure SourceLocation where
  id : Uuid
  locationKind : String
  heading : Option Str
  lineStart : Option Nat
  lineEnd : Option Nat
  pageStart : Option Nat
  pageEnd : Option Nat
  jsonPointer : Option Str
deriving DecidableEq

structure Citation where
  id : Uuid
  projectId : Uuid
  retrievalTraceId : Uuid
  documentChunkId : Uuid
  documentVersionId : Uuid
  sourceLocation : SourceLocation
  documentType : DocumentType
  displayName : Str
  passage : Str
  createdAt : Int
deriving DecidableEq

/-! ## Statements -/

/-- The joins of `_selected_candidate_statement` from one candidate, for traces of `projectId`. -/
def Evidence.selection (e : Evidence) (projectId : Uuid) (c : RetrievalTraceCandidateRecord) :
    Option DocumentChunkRecord := do
  let chunk ← e.chunks.find? (·.id = c.documentChunkId)
  let trace ← e.traces.find? (·.id = c.retrievalTraceId)
  let version ← e.versions.find? (·.id = chunk.documentVersionId)
  let document ← e.documents.find? (·.id = version.documentId)
  if c.finalRank.isSome ∧ document.projectId = trace.projectId ∧ trace.projectId = projectId then
    some chunk
  else none

/-- `_selected_candidate_statement`, for the chunks that `where_` asks for. -/
def Evidence.selectedCandidates (e : Evidence) (projectId traceId : Uuid) (where_ : Uuid → Bool) :
    List DocumentChunkRecord :=
  (e.candidates.filter fun c => c.retrievalTraceId = traceId && where_ c.documentChunkId).filterMap
    (e.selection projectId)

/-- The joins of `_citation_statement` from one citation, and `_citation_from_row`. -/
def Evidence.citation (e : Evidence) (r : CitationRecord) : Option Citation := do
  let chunk ← e.chunks.find? (·.id = r.documentChunkId)
  let version ← e.versions.find? (·.id = r.documentVersionId)
  let document ← e.documents.find? (·.id = version.documentId)
  let location ← e.locations.find? (·.id = r.sourceLocationId)
  if chunk.documentVersionId = r.documentVersionId ∧ chunk.sourceLocationId = r.sourceLocationId ∧
      document.projectId = r.projectId then
    some
      { id := r.id
        projectId := r.projectId
        retrievalTraceId := r.retrievalTraceId
        documentChunkId := r.documentChunkId
        documentVersionId := r.documentVersionId
        sourceLocation := ⟨location.id, location.locationKind, location.heading, location.lineStart,
          location.lineEnd, location.pageStart, location.pageEnd, location.jsonPointer⟩
        documentType := document.documentType
        displayName := document.displayName
        passage := chunk.normalizedText
        createdAt := r.createdAt }
  else none

/-- The evidence, and the table of citations. -/
structure State where
  evidence : Evidence
  citations : List CitationRecord

/-- `_citation_statement`, for the citations that `where_` asks for. -/
def State.citationRows (t : State) (where_ : CitationRecord → Bool) : List Citation :=
  (t.citations.filter where_).filterMap t.evidence.citation

/-! ## Creation -/

/-- `CitationUnavailable` and `CitationValidationError`. -/
inductive CitationError where
  | unavailable
  | invalid (message : String)
deriving DecidableEq

/-- What a transaction meets: whether the database fails it, and what the id factory and the clock
give for the citation of a chunk. -/
structure Transaction where
  fails : Bool
  newId : Uuid → Uuid
  now : Uuid → Int

def newRecord (x : Transaction) (projectId traceId : Uuid) (chunk : DocumentChunkRecord) :
    CitationRecord where
  id := x.newId chunk.id
  projectId := projectId
  retrievalTraceId := traceId
  documentChunkId := chunk.id
  documentVersionId := chunk.documentVersionId
  sourceLocationId := chunk.sourceLocationId
  createdAt := x.now chunk.id

def CitationRecord.key (r : CitationRecord) : Uuid × Uuid := (r.retrievalTraceId, r.documentChunkId)

/-- The primary key and `uq_citations_trace_chunk`. -/
def admits (rows : List CitationRecord) (row : CitationRecord) : Bool :=
  rows.all fun r => r.id ≠ row.id && r.key ≠ row.key

/-- `flush`: the new rows, or an `IntegrityError`. -/
def flush (rows : List CitationRecord) : List CitationRecord → Option (List CitationRecord)
  | [] => some rows
  | row :: new => if admits rows row then flush (rows ++ [row]) new else none

def ofChunk (projectId traceId chunkId : Uuid) (r : CitationRecord) : Bool :=
  r.projectId = projectId && r.retrievalTraceId = traceId && r.documentChunkId = chunkId

/-- `create_from_selected_candidate` -/
def createFromSelectedCandidate (x : Transaction) (projectId traceId chunkId : Uuid) (t : State) :
    Except CitationError Citation × State :=
  if x.fails then (.error .unavailable, t)
  else
    match t.citationRows (ofChunk projectId traceId chunkId) with
    | [citation] => (.ok citation, t)
    | _ :: _ :: _ => (.error .unavailable, t)
    | [] =>
      match t.evidence.selectedCandidates projectId traceId (· = chunkId) with
      | [] => (.error (.invalid "Citation must reference a selected candidate in its project"), t)
      | _ :: _ :: _ => (.error .unavailable, t)
      | [candidate] =>
        let record := newRecord x projectId traceId candidate
        match flush t.citations [record] with
        | none => (.error .unavailable, t)
        | some rows =>
          match ({ t with citations := rows } : State).citationRows (·.id = record.id) with
          | [citation] => (.ok citation, { t with citations := rows })
          | _ => (.error .unavailable, t)

/-- The values of `d` at `keys`; `none` for a `KeyError`. -/
def valuesAt {ν : Type} (d : Dict Uuid ν) (keys : List Uuid) : Option (List ν) := keys.mapM d.get?

def byChunk (citations : List Citation) : List (Uuid × Citation) :=
  citations.map fun c => (c.documentChunkId, c)

/-- The candidates of the request, by chunk. -/
def State.selected (t : State) (projectId traceId : Uuid) (chunkIds : List Uuid) :
    Dict Uuid DocumentChunkRecord :=
  Dict.empty.update
    ((t.evidence.selectedCandidates projectId traceId (chunkIds.contains ·)).map fun k => (k.id, k))

/-- The citations that the request finds, by chunk. -/
def State.existing (t : State) (projectId traceId : Uuid) (chunkIds : List Uuid) :
    Dict Uuid Citation :=
  Dict.empty.update (byChunk (t.citationRows fun r =>
    r.projectId = projectId && r.retrievalTraceId = traceId && chunkIds.contains r.documentChunkId))

/-- The new records, in the order of the request. -/
def newRecords (x : Transaction) (projectId traceId : Uuid) (selected : Dict Uuid DocumentChunkRecord)
    (existing : Dict Uuid Citation) (chunkIds : List Uuid) : Option (List CitationRecord) :=
  (chunkIds.filter fun c => (existing.get? c).isNone).mapM fun c =>
    (selected.get? c).map (newRecord x projectId traceId)

/-- `create_from_selected_candidates`; a `KeyError`, which is not declared, is `none`. -/
def createFromSelectedCandidates (x : Transaction) (projectId traceId : Uuid) (chunkIds : List Uuid)
    (t : State) : Option (Except CitationError (List Citation)) × State :=
  if chunkIds = [] ∨ ¬ chunkIds.Nodup then
    (some (.error (.invalid "Citation candidates must be a non-empty unique sequence")), t)
  else if x.fails then (some (.error .unavailable), t)
  else
    let selected := t.selected projectId traceId chunkIds
    if selected.size ≠ chunkIds.length then
      (some (.error (.invalid "Citation must reference selected candidates in its project")), t)
    else
      let existing := t.existing projectId traceId chunkIds
      match newRecords x projectId traceId selected existing chunkIds with
      | none => (none, t)
      | some records =>
        match flush t.citations records with
        | none => (some (.error .unavailable), t)
        | some rows =>
          let t' : State := { t with citations := rows }
          let created := t'.citationRows fun r => (records.map (·.id)).contains r.id
          match valuesAt (existing.update (byChunk created)) chunkIds with
          | none => (none, t)
          | some citations => (some (.ok citations), t')

/-! ## What the statements find -/

section
variable {e e' : Evidence} {projectId traceId : Uuid}

/-- The trace of the project selected the chunk, from a document of the project. -/
def Selected (e : Evidence) (projectId traceId chunkId : Uuid) : Prop :=
  ∃ c ∈ e.candidates, c.retrievalTraceId = traceId ∧ c.documentChunkId = chunkId ∧
    c.finalRank.isSome ∧
    (∃ trace ∈ e.traces, trace.id = traceId ∧ trace.projectId = projectId) ∧
    ∃ chunk ∈ e.chunks, chunk.id = chunkId ∧
      ∃ version ∈ e.versions, version.id = chunk.documentVersionId ∧
        ∃ document ∈ e.documents, document.id = version.documentId ∧ document.projectId = projectId

/-- `Selected`, with the row of the chunk. -/
def Picked (e : Evidence) (projectId traceId : Uuid) (chunk : DocumentChunkRecord) : Prop :=
  chunk ∈ e.chunks ∧ Selected e projectId traceId chunk.id

theorem Selected.picked {chunkId : Uuid} (selected : Selected e projectId traceId chunkId) :
    ∃ chunk, chunk.id = chunkId ∧ Picked e projectId traceId chunk := by
  obtain ⟨c, hc, of, names, final, trace, chunk, hk, same, rest⟩ := selected
  exact ⟨chunk, same, hk, c, hc, of, names.trans same.symm, final, trace, chunk, hk, rfl, rest⟩

theorem Selected.grow {chunkId : Uuid} (selected : Selected e projectId traceId chunkId)
    (within : e.within e' = true) : Selected e' projectId traceId chunkId := by
  simp only [Evidence.within, Bool.and_eq_true, List.all_eq_true, List.contains_iff_mem] at within
  obtain ⟨⟨⟨⟨⟨documents, versions⟩, -⟩, chunks⟩, traces⟩, candidates⟩ := within
  obtain ⟨c, hc, of, names, final, ⟨trace, ht, own⟩, chunk, hk, same, version, hv, isVersion,
    document, hd, rest⟩ := selected
  exact ⟨c, candidates c hc, of, names, final, ⟨trace, traces trace ht, own⟩, chunk, chunks chunk hk,
    same, version, versions version hv, isVersion, document, documents document hd, rest⟩

theorem Picked.grow {chunk : DocumentChunkRecord} (picked : Picked e projectId traceId chunk)
    (within : e.within e' = true) : Picked e' projectId traceId chunk := by
  refine ⟨?_, picked.2.grow within⟩
  simp only [Evidence.within, Bool.and_eq_true, List.all_eq_true, List.contains_iff_mem] at within
  exact within.1.1.2 chunk picked.1

theorem selection_some {c : RetrievalTraceCandidateRecord} {chunk : DocumentChunkRecord}
    (hc : c ∈ e.candidates) :
    e.selection projectId c = some chunk ↔
      c.documentChunkId = chunk.id ∧ Picked e projectId c.retrievalTraceId chunk := by
  simp only [Evidence.selection, Option.bind_eq_bind, Option.bind_eq_some_iff, find?_key e.chunkIds,
    find?_key e.traceIds, find?_key e.versionIds, find?_key e.documentIds,
    Option.ite_none_right_eq_some, Option.some.injEq]
  constructor
  · rintro ⟨chunk, ⟨hk, same⟩, trace, ⟨ht, own⟩, version, ⟨hv, isVersion⟩, document, ⟨hd, isDocument⟩,
      ⟨final, ofTrace, project⟩, rfl⟩
    refine ⟨same.symm, hk, c, hc, rfl, same.symm, final, ⟨trace, ht, own, project⟩, chunk, hk, rfl,
      version, hv, isVersion, document, hd, isDocument, ofTrace.trans project⟩
  · rintro ⟨same, hk, c', hc', of, names, final, ⟨trace, ht, own, project⟩, chunk', hk', eq, version, hv,
      isVersion, document, hd, isDocument, ofProject⟩
    obtain rfl := eq_of_key e.chunkIds hk hk' eq.symm
    obtain rfl : c' = c := eq_of_key e.candidateKeys hc' hc
      (by rw [of, names, same])
    exact ⟨chunk, ⟨hk, same.symm⟩, trace, ⟨ht, own⟩, version, ⟨hv, isVersion⟩, document,
      ⟨hd, isDocument⟩, ⟨final, ofProject.trans project.symm, project⟩, rfl⟩

theorem mem_selectedCandidates {where_ : Uuid → Bool} {chunk : DocumentChunkRecord} :
    chunk ∈ e.selectedCandidates projectId traceId where_ ↔
      where_ chunk.id = true ∧ Picked e projectId traceId chunk := by
  simp only [Evidence.selectedCandidates, List.mem_filterMap, List.mem_filter, Bool.and_eq_true,
    decide_eq_true_eq]
  constructor
  · rintro ⟨c, ⟨hc, rfl, asked⟩, selected⟩
    obtain ⟨same, picked⟩ := (selection_some hc).mp selected
    exact ⟨same ▸ asked, picked⟩
  · rintro ⟨asked, picked⟩
    obtain ⟨c, hc, rfl, names, -⟩ := picked.2
    exact ⟨c, ⟨hc, rfl, names ▸ asked⟩, (selection_some hc).mpr ⟨names, picked⟩⟩

theorem Picked.eq {chunk chunk' : DocumentChunkRecord} (picked : Picked e projectId traceId chunk)
    (picked' : Picked e projectId traceId chunk') (same : chunk.id = chunk'.id) : chunk = chunk' :=
  eq_of_key e.chunkIds picked.1 picked'.1 same

/-- The statement for one chunk. -/
theorem selectedCandidates_one {chunk : DocumentChunkRecord}
    (picked : Picked e projectId traceId chunk) :
    e.selectedCandidates projectId traceId (· = chunk.id) = [chunk] := by
  obtain ⟨c, hc, rfl, names, -⟩ := picked.2
  have one : e.candidates.filter (fun c' => decide (c'.retrievalTraceId = c.retrievalTraceId) &&
      decide (c'.documentChunkId = chunk.id)) = [c] := by
    rw [← filter_key e.candidateKeys hc]
    refine List.filter_congr fun c' _ => ?_
    simp [names]
  rw [Evidence.selectedCandidates, one]
  simp [(selection_some hc).mpr ⟨names, picked⟩]

theorem selectedCandidates_none {chunkId : Uuid}
    (none' : ¬ Selected e projectId traceId chunkId) :
    e.selectedCandidates projectId traceId (· = chunkId) = [] := by
  refine List.eq_nil_iff_forall_not_mem.mpr fun chunk h => none' ?_
  obtain ⟨asked, picked⟩ := mem_selectedCandidates.mp h
  exact of_decide_eq_true asked ▸ picked.2

/-- A citation of a selected chunk. -/
def Cites (e : Evidence) (r : CitationRecord) : Prop :=
  ∃ chunk, Picked e r.projectId r.retrievalTraceId chunk ∧ r.documentChunkId = chunk.id ∧
    r.documentVersionId = chunk.documentVersionId ∧ r.sourceLocationId = chunk.sourceLocationId

theorem Cites.grow {r : CitationRecord} (cites : Cites e r) (within : e.within e' = true) :
    Cites e' r := by
  obtain ⟨chunk, picked, rest⟩ := cites
  exact ⟨chunk, picked.grow within, rest⟩

theorem Picked.cites {chunk : DocumentChunkRecord} (picked : Picked e projectId traceId chunk)
    (x : Transaction) : Cites e (newRecord x projectId traceId chunk) :=
  ⟨chunk, picked, rfl, rfl, rfl⟩

/-- The joins find everything that a citation refers to. -/
theorem Cites.citation {r : CitationRecord} (cites : Cites e r) :
    ∃ citation, e.citation r = some citation ∧ citation.documentChunkId = r.documentChunkId := by
  obtain ⟨chunk, ⟨hk, selected⟩, ofChunk, ofVersion, ofLocation⟩ := cites
  obtain ⟨-, -, -, -, -, -, chunk', hk', same, version, hv, isVersion, document, hd, isDocument,
    project⟩ := selected
  obtain rfl := eq_of_key e.chunkIds hk' hk same
  obtain ⟨location, hl, isLocation⟩ := e.chunkLocations chunk' hk
  have foundChunk := (find?_key e.chunkIds).mpr ⟨hk, ofChunk.symm⟩
  have foundVersion := (find?_key e.versionIds).mpr ⟨hv, isVersion.trans ofVersion.symm⟩
  have foundDocument := (find?_key e.documentIds).mpr ⟨hd, isDocument⟩
  have foundLocation := (find?_key e.locationIds).mpr ⟨hl, isLocation.trans ofLocation.symm⟩
  have checks : chunk'.documentVersionId = r.documentVersionId ∧
      chunk'.sourceLocationId = r.sourceLocationId ∧ document.projectId = r.projectId :=
    ⟨ofVersion.symm, ofLocation.symm, project⟩
  simp only [Evidence.citation, foundChunk, foundVersion, foundDocument, foundLocation, if_pos checks,
    Option.bind_eq_bind, Option.bind_some, Option.some.injEq, exists_eq_left']

end

/-! ## Sound tables -/

/-- The keys of the table, and what every citation rests on. -/
structure Sound (t : State) : Prop where
  ids : (t.citations.map (·.id)).Nodup
  keys : (t.citations.map CitationRecord.key).Nodup
  cites : ∀ r ∈ t.citations, Cites t.evidence r

theorem Sound.empty (e : Evidence) : Sound ⟨e, []⟩ := ⟨List.nodup_nil, List.nodup_nil, by simp⟩

theorem Sound.grow {t : State} (sound : Sound t) {e : Evidence}
    (within : t.evidence.within e = true) : Sound { t with evidence := e } :=
  ⟨sound.ids, sound.keys, fun r hr => (sound.cites r hr).grow within⟩

theorem flush_cons {rows new rows' : List CitationRecord} {row : CitationRecord} :
    flush rows (row :: new) = some rows' ↔ admits rows row = true ∧ flush (rows ++ [row]) new = some rows' := by
  simp [flush]

/-- A flush keeps the keys, and fails where they collide. -/
theorem Sound.flush {t : State} (sound : Sound t) {new rows : List CitationRecord}
    (cites : ∀ r ∈ new, Cites t.evidence r) (h : flush t.citations new = some rows) :
    Sound { t with citations := rows } := by
  induction new generalizing t with
  | nil =>
    obtain rfl := Option.some.inj h
    exact sound
  | cons row new ih =>
    obtain ⟨admitted, rest⟩ := flush_cons.mp h
    simp only [admits, List.all_eq_true, Bool.and_eq_true, decide_eq_true_eq] at admitted
    refine @ih { t with citations := t.citations ++ [row] } ⟨?_, ?_, ?_⟩ ?_ rest
    · exact nodup_snoc sound.ids fun r hr => (admitted r hr).1
    · exact nodup_snoc sound.keys fun r hr => (admitted r hr).2
    · intro r hr
      rcases List.mem_append.mp hr with hr | hr
      · exact sound.cites r hr
      · exact List.mem_singleton.mp hr ▸ cites row List.mem_cons_self
    · exact fun r hr => cites r (List.mem_cons_of_mem _ hr)

/-- The ids of new records are new, and so are their keys. -/
theorem flush_some {rows new : List CitationRecord} (ids : ((rows ++ new).map (·.id)).Nodup)
    (keys : ((rows ++ new).map CitationRecord.key).Nodup) : flush rows new = some (rows ++ new) := by
  induction new generalizing rows with
  | nil => simp [flush]
  | cons row new ih =>
    have admitted : admits rows row = true := by
      simp only [admits, List.all_eq_true, Bool.and_eq_true, decide_eq_true_eq]
      intro r hr
      rw [List.map_append, List.nodup_append] at ids keys
      exact ⟨ids.2.2 _ (List.mem_map_of_mem hr) _ (List.mem_map_of_mem List.mem_cons_self),
        keys.2.2 _ (List.mem_map_of_mem hr) _ (List.mem_map_of_mem List.mem_cons_self)⟩
    rw [List.append_cons] at ids keys ⊢
    exact flush_cons.mpr ⟨admitted, ih ids keys⟩

/-! ## One citation -/

section
variable {t : State} {x : Transaction} {projectId traceId chunkId : Uuid}
  {chunk : DocumentChunkRecord}

/-- The project of a trace is one. -/
theorem Selected.project {e : Evidence} {projectId' : Uuid} {chunkId' : Uuid}
    (selected : Selected e projectId traceId chunkId)
    (selected' : Selected e projectId' traceId chunkId') : projectId = projectId' := by
  obtain ⟨-, -, -, -, -, ⟨trace, ht, own, project⟩, -⟩ := selected
  obtain ⟨-, -, -, -, -, ⟨trace', ht', own', project'⟩, -⟩ := selected'
  obtain rfl := eq_of_key e.traceIds ht ht' (own.trans own'.symm)
  exact project.symm.trans project'

theorem Cites.selected {e : Evidence} {r : CitationRecord} (cites : Cites e r) :
    Selected e r.projectId r.retrievalTraceId r.documentChunkId := by
  obtain ⟨chunk, picked, same, -⟩ := cites
  exact same ▸ picked.2

theorem ofChunk_iff {r : CitationRecord} : ofChunk projectId traceId chunkId r = true ↔
    r.projectId = projectId ∧ r.retrievalTraceId = traceId ∧ r.documentChunkId = chunkId := by
  simp [ofChunk, and_assoc]

theorem Sound.eq_of_ofChunk (sound : Sound t) {r r' : CitationRecord} (hr : r ∈ t.citations)
    (hr' : r' ∈ t.citations) (of : ofChunk projectId traceId chunkId r = true)
    (of' : ofChunk projectId traceId chunkId r' = true) : r' = r := by
  rw [ofChunk_iff] at of of'
  refine eq_of_key sound.keys hr' hr ?_
  simp only [CitationRecord.key, of, of']

/-- A statement that one citation meets. -/
theorem Sound.citationRows_one (sound : Sound t) {r : CitationRecord} {citation : Citation}
    {p : CitationRecord → Bool} (hr : r ∈ t.citations) (meets : p r = true)
    (only : ∀ r' ∈ t.citations, p r' = true → r' = r)
    (joined : t.evidence.citation r = some citation) : t.citationRows p = [citation] := by
  have one : t.citations.filter p = [r] := by
    refine eq_singleton (k := CitationRecord.id) (sound.ids.sublist (List.filter_sublist.map _))
      (List.mem_filter.mpr ⟨hr, meets⟩) ?_
    intro r' hr'
    rw [only r' (List.mem_filter.mp hr').1 (List.mem_filter.mp hr').2]
  rw [State.citationRows, one]
  simp [joined]

theorem create_existing (sound : Sound t) (running : x.fails = false) {r : CitationRecord}
    {citation : Citation} (hr : r ∈ t.citations) (of : ofChunk projectId traceId chunkId r = true)
    (joined : t.evidence.citation r = some citation) :
    createFromSelectedCandidate x projectId traceId chunkId t = (.ok citation, t) := by
  rw [createFromSelectedCandidate, if_neg (by simp [running]),
    sound.citationRows_one hr of (fun r' hr' of' => sound.eq_of_ofChunk hr hr' of of') joined]

/-- No citation of the chunk is there. -/
def Missing (t : State) (projectId traceId chunkId : Uuid) : Prop :=
  ∀ r ∈ t.citations, ofChunk projectId traceId chunkId r = false

theorem Missing.citationRows (missing : Missing t projectId traceId chunkId) :
    t.citationRows (ofChunk projectId traceId chunkId) = [] := by
  rw [State.citationRows, List.filter_eq_nil_iff.mpr (by simpa [Missing] using missing),
    List.filterMap_nil]

theorem create_invalid (sound : Sound t) (running : x.fails = false)
    (none' : ¬ Selected t.evidence projectId traceId chunkId) :
    createFromSelectedCandidate x projectId traceId chunkId t =
      (.error (.invalid "Citation must reference a selected candidate in its project"), t) := by
  have missing : Missing t projectId traceId chunkId := by
    intro r hr
    rw [Bool.eq_false_iff]
    intro of
    obtain ⟨rfl, rfl, rfl⟩ := ofChunk_iff.mp of
    exact none' (sound.cites r hr).selected
  rw [createFromSelectedCandidate, if_neg (by simp [running]), missing.citationRows]
  simp only [selectedCandidates_none none']

/-- A missing chunk of the trace leaves its key free. -/
theorem Missing.key (sound : Sound t) (missing : Missing t projectId traceId chunk.id)
    (picked : Picked t.evidence projectId traceId chunk) :
    ∀ r ∈ t.citations, r.key ≠ (traceId, chunk.id) := by
  intro r hr same
  simp only [CitationRecord.key, Prod.mk.injEq] at same
  have selected := (sound.cites r hr).selected
  rw [same.1] at selected
  have absent := missing r hr
  rw [ofChunk_iff.mpr ⟨selected.project picked.2, same.1, same.2⟩] at absent
  cases absent

theorem create_new (sound : Sound t) (running : x.fails = false)
    (missing : Missing t projectId traceId chunk.id)
    (picked : Picked t.evidence projectId traceId chunk)
    (fresh : ∀ r ∈ t.citations, r.id ≠ x.newId chunk.id) {citation : Citation}
    (joined : t.evidence.citation (newRecord x projectId traceId chunk) = some citation) :
    createFromSelectedCandidate x projectId traceId chunk.id t =
      (.ok citation,
        { t with citations := t.citations ++ [newRecord x projectId traceId chunk] }) := by
  have flushed : flush t.citations [newRecord x projectId traceId chunk] =
      some (t.citations ++ [newRecord x projectId traceId chunk]) :=
    flush_some (nodup_snoc sound.ids fresh) (nodup_snoc sound.keys (missing.key sound picked))
  have after := sound.flush (by simpa using picked.cites x) flushed
  have last : newRecord x projectId traceId chunk ∈
      t.citations ++ [newRecord x projectId traceId chunk] := by simp
  have row := after.citationRows_one (p := fun r => decide
    (r.id = (newRecord x projectId traceId chunk).id)) last (by simp)
    (fun r' hr' same => eq_of_key after.ids hr' last (of_decide_eq_true same)) joined
  rw [createFromSelectedCandidate, if_neg (by simp [running]), missing.citationRows]
  simp only [selectedCandidates_one picked, flushed, row]

end

/-! ## Many citations -/

/-- The citations of the chunks created one after another. -/
def oneByOne (x : Transaction) (projectId traceId : Uuid) :
    List Uuid → State → List (Except CitationError Citation) × State
  | [], t => ([], t)
  | c :: chunkIds, t =>
    let (citation, t') := createFromSelectedCandidate x projectId traceId c t
    let (citations, t'') := oneByOne x projectId traceId chunkIds t'
    (citation :: citations, t'')

/-- The id factory draws new ids. -/
structure Fresh (x : Transaction) (chunkIds : List Uuid) (t : State) : Prop where
  distinct : (chunkIds.map x.newId).Nodup
  unused : ∀ c ∈ chunkIds, ∀ r ∈ t.citations, r.id ≠ x.newId c

section
variable {t : State} {x : Transaction} {projectId traceId : Uuid}

/-- The citation of a chunk, found or new. -/
def State.entry (t : State) (x : Transaction) (projectId traceId : Uuid)
    (chunk : DocumentChunkRecord) : CitationRecord :=
  (t.citations.find? (ofChunk projectId traceId chunk.id)).getD (newRecord x projectId traceId chunk)

/-- The records that the chunks still need. -/
def State.additions (t : State) (x : Transaction) (projectId traceId : Uuid)
    (chunks : List DocumentChunkRecord) : List CitationRecord :=
  (chunks.filter fun k => (t.citations.find? (ofChunk projectId traceId k.id)).isNone).map
    (newRecord x projectId traceId)

theorem find?_none {chunkId : Uuid} :
    t.citations.find? (ofChunk projectId traceId chunkId) = none ↔
      Missing t projectId traceId chunkId := by
  simp [Missing]

/-- One creation answers with the entry, and adds it where it is missing. -/
theorem create_entry (sound : Sound t) (running : x.fails = false) {chunk : DocumentChunkRecord}
    (picked : Picked t.evidence projectId traceId chunk)
    (fresh : ∀ r ∈ t.citations, r.id ≠ x.newId chunk.id) :
    ∃ citation, t.evidence.citation (t.entry x projectId traceId chunk) = some citation ∧
      citation.documentChunkId = chunk.id ∧
      createFromSelectedCandidate x projectId traceId chunk.id t =
        (.ok citation,
          { t with citations := t.citations ++ t.additions x projectId traceId [chunk] }) := by
  cases found : t.citations.find? (ofChunk projectId traceId chunk.id) with
  | some r =>
    have hr := List.mem_of_find?_eq_some found
    have of := List.find?_some found
    obtain ⟨citation, joined, same⟩ := (sound.cites r hr).citation
    refine ⟨citation, by simpa [State.entry, found] using joined, ?_, ?_⟩
    · exact same.trans (ofChunk_iff.mp of).2.2
    · rw [create_existing sound running hr of joined]
      simp [State.additions, found]
  | none =>
    obtain ⟨citation, joined, same⟩ := (picked.cites x).citation
    refine ⟨citation, by simpa [State.entry, found] using joined, same, ?_⟩
    rw [create_new sound running (find?_none.mp found) picked fresh joined]
    simp [State.additions, found]

/-- No creation makes the tables unsound, whatever it meets. -/
theorem create_sound (sound : Sound t) (x : Transaction) (projectId traceId chunkId : Uuid) :
    Sound (createFromSelectedCandidate x projectId traceId chunkId t).2 := by
  unfold createFromSelectedCandidate
  split
  · exact sound
  split
  · exact sound
  · exact sound
  split
  · exact sound
  · exact sound
  next candidate found =>
    have picked : Picked t.evidence projectId traceId candidate :=
      (mem_selectedCandidates.mp (found ▸ List.mem_singleton.mpr rfl)).2
    dsimp only
    split
    · exact sound
    next rows flushed =>
      have after := sound.flush (by simpa using picked.cites x) flushed
      split
      · exact after
      · exact sound

theorem entry_congr {t' : State} {chunk : DocumentChunkRecord}
    (same : t'.citations.find? (ofChunk projectId traceId chunk.id) =
      t.citations.find? (ofChunk projectId traceId chunk.id)) :
    t'.entry x projectId traceId chunk = t.entry x projectId traceId chunk := by
  rw [State.entry, State.entry, same]

/-- New records of other chunks are not found. -/
theorem find?_additions {chunks : List DocumentChunkRecord} {chunkId : Uuid}
    (other : ∀ k ∈ chunks, k.id ≠ chunkId) :
    (t.citations ++ t.additions x projectId traceId chunks).find?
        (ofChunk projectId traceId chunkId) =
      t.citations.find? (ofChunk projectId traceId chunkId) := by
  have none' : (t.additions x projectId traceId chunks).find?
      (ofChunk projectId traceId chunkId) = none := by
    refine List.find?_eq_none.mpr fun r hr of => ?_
    obtain ⟨k, hk, rfl⟩ := List.mem_map.mp hr
    exact other k (List.mem_filter.mp hk).1 (ofChunk_iff.mp of).2.2
  rw [List.find?_append, none', Option.or_none]

theorem oneByOne_entries {chunks : List DocumentChunkRecord} (sound : Sound t)
    (running : x.fails = false) (picked : ∀ k ∈ chunks, Picked t.evidence projectId traceId k)
    (distinct : (chunks.map (·.id)).Nodup) (fresh : Fresh x (chunks.map (·.id)) t) :
    ∃ citations : List Citation,
      chunks.map (fun k => t.evidence.citation (t.entry x projectId traceId k)) =
        citations.map some ∧
      oneByOne x projectId traceId (chunks.map (·.id)) t = (citations.map .ok,
        { t with citations := t.citations ++ t.additions x projectId traceId chunks }) := by
  induction chunks generalizing t with
  | nil => exact ⟨[], rfl, by simp [oneByOne, State.additions]⟩
  | cons k chunks ih =>
    obtain ⟨new, distinct⟩ := List.nodup_cons.mp distinct
    have other : ∀ k' ∈ chunks, ∀ k'' ∈ [k], k''.id ≠ k'.id := by
      intro k' hk' k'' hk'' same
      rw [List.mem_singleton.mp hk''] at same
      exact new (List.mem_map.mpr ⟨k', hk', same.symm⟩)
    obtain ⟨citation, joined, -, answered⟩ := create_entry sound running
      (picked k List.mem_cons_self) (fresh.unused k.id List.mem_cons_self)
    have after := create_sound sound x projectId traceId k.id
    rw [answered] at after
    have fresh' : Fresh x (chunks.map (·.id))
        { t with citations := t.citations ++ t.additions x projectId traceId [k] } := by
      refine ⟨(List.nodup_cons.mp fresh.distinct).2, fun c hc r hr => ?_⟩
      rcases List.mem_append.mp hr with hr | hr
      · exact fresh.unused c (List.mem_cons_of_mem _ hc) r hr
      · obtain ⟨k', hk', rfl⟩ := List.mem_map.mp hr
        rw [List.mem_singleton.mp (List.mem_filter.mp hk').1]
        intro same
        exact (List.nodup_cons.mp fresh.distinct).1 (List.mem_map.mpr ⟨c, hc, same.symm⟩)
    obtain ⟨citations, entries, rest⟩ := ih after
      (fun k' hk' => picked k' (List.mem_cons_of_mem _ hk')) distinct fresh'
    refine ⟨citation :: citations, ?_, ?_⟩
    · rw [List.map_cons, List.map_cons, joined, ← entries]
      congr 1
      refine List.map_congr_left fun k' hk' => ?_
      exact congrArg t.evidence.citation (entry_congr (find?_additions (other k' hk'))).symm
    · have later : ({ t with citations := t.citations ++ t.additions x projectId traceId [k] } :
          State).additions x projectId traceId chunks = t.additions x projectId traceId chunks :=
        congrArg (List.map _) (List.filter_congr fun k' hk' =>
          congrArg Option.isNone (find?_additions (other k' hk')))
      rw [List.map_cons, oneByOne, answered]
      dsimp only
      rw [rest, later]
      simp only [State.additions, List.map_cons, List.append_assoc, ← List.map_append,
        ← List.filter_append, List.singleton_append]

/-! ## The batch -/

theorem mem_citationRows (sound : Sound t) {where_ : CitationRecord → Bool} {citation : Citation}
    (h : citation ∈ t.citationRows where_) : ∃ r ∈ t.citations, where_ r = true ∧
      t.evidence.citation r = some citation ∧ citation.documentChunkId = r.documentChunkId := by
  obtain ⟨r, hr, joined⟩ := List.mem_filterMap.mp h
  obtain ⟨hr, meets⟩ := List.mem_filter.mp hr
  obtain ⟨citation', joined', same⟩ := (sound.cites r hr).citation
  obtain rfl := Option.some.inj (joined.symm.trans joined')
  exact ⟨r, hr, meets, joined, same⟩

/-- The value of a chunk that one citation of the statement has. -/
theorem get?_byChunk (sound : Sound t) {d : Dict Uuid Citation} {where_ : CitationRecord → Bool}
    {r : CitationRecord} {citation : Citation} (hr : r ∈ t.citations) (meets : where_ r = true)
    (only : ∀ r' ∈ t.citations, where_ r' = true → r'.documentChunkId = r.documentChunkId → r' = r)
    (joined : t.evidence.citation r = some citation) :
    (d.update (byChunk (t.citationRows where_))).get? r.documentChunkId = some citation := by
  obtain ⟨citation', cited, same⟩ := (sound.cites r hr).citation
  obtain rfl := Option.some.inj (joined.symm.trans cited)
  apply Dict.get?_update_of
  · rw [byChunk, List.map_map, List.mem_map]
    exact ⟨citation, List.mem_filterMap.mpr ⟨r, List.mem_filter.mpr ⟨hr, meets⟩, joined⟩, same⟩
  · intro i hi key
    obtain ⟨found, present, rfl⟩ := List.mem_map.mp hi
    obtain ⟨r', hr', meets', joined', same'⟩ := mem_citationRows sound present
    obtain rfl := only r' hr' meets' (same'.symm.trans key)
    exact Option.some.inj (joined'.symm.trans joined)

/-- A chunk of which no citation meets the statement. -/
theorem get?_byChunk_other (sound : Sound t) {d : Dict Uuid Citation}
    {where_ : CitationRecord → Bool} {chunkId : Uuid}
    (other : ∀ r ∈ t.citations, where_ r = true → r.documentChunkId ≠ chunkId) :
    (d.update (byChunk (t.citationRows where_))).get? chunkId = d.get? chunkId := by
  apply Dict.get?_update_other
  rw [byChunk, List.map_map, List.mem_map]
  rintro ⟨citation, present, key⟩
  obtain ⟨r, hr, meets, -, same⟩ := mem_citationRows sound present
  exact other r hr meets (same.symm.trans key)

theorem selected_get? {chunkIds : List Uuid} {chunk : DocumentChunkRecord}
    (picked : Picked t.evidence projectId traceId chunk) (asked : chunk.id ∈ chunkIds) :
    (t.selected projectId traceId chunkIds).get? chunk.id = some chunk := by
  apply Dict.get?_update_of
  · rw [List.map_map, List.mem_map]
    exact ⟨chunk, mem_selectedCandidates.mpr ⟨by simpa using asked, picked⟩, rfl⟩
  · intro i hi same
    obtain ⟨found, present, rfl⟩ := List.mem_map.mp hi
    exact (mem_selectedCandidates.mp present).2.eq picked same

theorem selected_size {chunkIds : List Uuid} (distinct : chunkIds.Nodup) :
    (t.selected projectId traceId chunkIds).size = chunkIds.length ↔
      ∀ c ∈ chunkIds, Selected t.evidence projectId traceId c := by
  have keys {c : Uuid} : c ∈ (t.selected projectId traceId chunkIds).keys ↔
      c ∈ chunkIds ∧ Selected t.evidence projectId traceId c := by
    rw [State.selected, Dict.mem_keys_update, Dict.keys_empty, List.map_map, List.mem_map]
    constructor
    · rintro (h | ⟨chunk, h, rfl⟩)
      · cases h
      · obtain ⟨asked, picked⟩ := mem_selectedCandidates.mp h
        exact ⟨by simpa using asked, picked.2⟩
    · rintro ⟨asked, selected⟩
      obtain ⟨chunk, rfl, picked⟩ := selected.picked
      exact .inr ⟨chunk, mem_selectedCandidates.mpr ⟨by simpa using asked, picked⟩, rfl⟩
  rw [Dict.size_eq_length (fun c h => (keys.mp h).1) distinct]
  exact ⟨fun all c hc => (keys.mp (all hc)).2, fun all c hc => keys.mpr ⟨hc, all c hc⟩⟩

theorem existing_get? (sound : Sound t) {chunkIds : List Uuid} {chunkId : Uuid}
    (asked : chunkId ∈ chunkIds) :
    (t.existing projectId traceId chunkIds).get? chunkId =
      (t.citations.find? (ofChunk projectId traceId chunkId)).bind t.evidence.citation := by
  cases found : t.citations.find? (ofChunk projectId traceId chunkId) with
  | some r =>
    have hr := List.mem_of_find?_eq_some found
    have of := List.find?_some found
    obtain ⟨citation, joined, -⟩ := (sound.cites r hr).citation
    obtain ⟨rfl, rfl, rfl⟩ := ofChunk_iff.mp of
    rw [Option.bind_some, joined]
    refine get?_byChunk sound hr (by simpa using asked) ?_ joined
    intro r' hr' meets same
    simp only [Bool.and_eq_true, decide_eq_true_eq] at meets
    exact sound.eq_of_ofChunk hr hr' of (ofChunk_iff.mpr ⟨meets.1.1, meets.1.2, same⟩)
  | none =>
    rw [Option.bind_none]
    refine get?_byChunk_other sound fun r hr meets same => ?_
    simp only [Bool.and_eq_true, decide_eq_true_eq] at meets
    have absent := find?_none.mp found r hr
    rw [ofChunk_iff.mpr ⟨meets.1.1, meets.1.2, same⟩] at absent
    cases absent

/-- The records of the request are those that its chunks need. -/
theorem newRecords_eq (sound : Sound t) {chunks : List DocumentChunkRecord}
    (picked : ∀ k ∈ chunks, Picked t.evidence projectId traceId k) :
    newRecords x projectId traceId (t.selected projectId traceId (chunks.map (·.id)))
        (t.existing projectId traceId (chunks.map (·.id))) (chunks.map (·.id)) =
      some (t.additions x projectId traceId chunks) := by
  have asked {k : DocumentChunkRecord} (hk : k ∈ chunks) : k.id ∈ chunks.map (·.id) :=
    List.mem_map.mpr ⟨k, hk, rfl⟩
  have missing : (chunks.map (·.id)).filter (fun c =>
      ((t.existing projectId traceId (chunks.map (·.id))).get? c).isNone) =
      (chunks.filter fun k => (t.citations.find? (ofChunk projectId traceId k.id)).isNone).map
        (·.id) := by
    rw [List.filter_map]
    refine congrArg (List.map _) (List.filter_congr fun k hk => ?_)
    rw [Function.comp_apply, existing_get? sound (asked hk)]
    cases found : t.citations.find? (ofChunk projectId traceId k.id) with
    | none => rfl
    | some r =>
      obtain ⟨citation, joined, -⟩ := (sound.cites r (List.mem_of_find?_eq_some found)).citation
      rw [Option.bind_some, joined]
      rfl
  rw [newRecords, missing]
  apply mapM_some
  rw [State.additions, List.map_map, List.map_map]
  refine List.map_congr_left fun k hk => ?_
  have hk := (List.mem_filter.mp hk).1
  simp [selected_get? (picked k hk) (asked hk)]

/-- The new records can be flushed. -/
theorem additions_flush (sound : Sound t) {chunks : List DocumentChunkRecord}
    (picked : ∀ k ∈ chunks, Picked t.evidence projectId traceId k)
    (distinct : (chunks.map (·.id)).Nodup) (fresh : Fresh x (chunks.map (·.id)) t) :
    flush t.citations (t.additions x projectId traceId chunks) =
      some (t.citations ++ t.additions x projectId traceId chunks) := by
  have sub : (chunks.filter fun k =>
      (t.citations.find? (ofChunk projectId traceId k.id)).isNone).Sublist chunks :=
    List.filter_sublist
  apply flush_some
  · rw [List.map_append, List.nodup_append]
    refine ⟨sound.ids, ?_, ?_⟩
    · rw [State.additions, List.map_map]
      have := fresh.distinct
      rw [List.map_map] at this
      exact this.sublist (sub.map _)
    · intro a ha b hb
      obtain ⟨r, hr, rfl⟩ := List.mem_map.mp ha
      obtain ⟨r', hr', rfl⟩ := List.mem_map.mp hb
      obtain ⟨k, hk, rfl⟩ := List.mem_map.mp hr'
      exact fresh.unused k.id (List.mem_map.mpr ⟨k, sub.subset hk, rfl⟩) r hr
  · rw [List.map_append, List.nodup_append]
    refine ⟨sound.keys, ?_, ?_⟩
    · rw [State.additions, List.map_map]
      refine List.Nodup.of_map Prod.snd ?_
      rw [List.map_map]
      exact distinct.sublist (sub.map _)
    · intro a ha b hb
      obtain ⟨r, hr, rfl⟩ := List.mem_map.mp ha
      obtain ⟨r', hr', rfl⟩ := List.mem_map.mp hb
      obtain ⟨k, hk, rfl⟩ := List.mem_map.mp hr'
      obtain ⟨hk, none'⟩ := List.mem_filter.mp hk
      exact (find?_none.mp (Option.isNone_iff_eq_none.mp none')).key sound (picked k hk) r hr

theorem additions_cites {chunks : List DocumentChunkRecord}
    (picked : ∀ k ∈ chunks, Picked t.evidence projectId traceId k) :
    ∀ r ∈ t.additions x projectId traceId chunks, Cites t.evidence r := by
  intro r hr
  obtain ⟨k, hk, rfl⟩ := List.mem_map.mp hr
  exact (picked k (List.mem_filter.mp hk).1).cites x

/-- What the batch looks up at the end. -/
theorem values_get? (sound : Sound t) {chunks : List DocumentChunkRecord}
    (picked : ∀ k ∈ chunks, Picked t.evidence projectId traceId k)
    (after : Sound { t with citations := t.citations ++ t.additions x projectId traceId chunks })
    {chunk : DocumentChunkRecord} (hk : chunk ∈ chunks) :
    ((t.existing projectId traceId (chunks.map (·.id))).update
      (byChunk (({ t with citations := t.citations ++ t.additions x projectId traceId chunks } :
        State).citationRows fun r =>
          ((t.additions x projectId traceId chunks).map (·.id)).contains r.id))).get? chunk.id =
      t.evidence.citation (t.entry x projectId traceId chunk) := by
  have own {r : CitationRecord} (hr : r ∈ t.citations ++ t.additions x projectId traceId chunks)
      (listed : ((t.additions x projectId traceId chunks).map (·.id)).contains r.id = true) :
      r ∈ t.additions x projectId traceId chunks := by
    obtain ⟨r', hr', same⟩ := List.mem_map.mp (List.contains_iff_mem.mp listed)
    obtain rfl := eq_of_key after.ids (List.mem_append_right _ hr') hr same
    exact hr'
  cases found : t.citations.find? (ofChunk projectId traceId chunk.id) with
  | some r =>
    rw [get?_byChunk_other after, existing_get? sound (List.mem_map.mpr ⟨chunk, hk, rfl⟩), found,
      State.entry, found]
    · rfl
    · intro r' hr' listed same
      obtain ⟨k, hk', rfl⟩ := List.mem_map.mp (own hr' listed)
      obtain ⟨hk', none'⟩ := List.mem_filter.mp hk'
      rw [show k.id = chunk.id from same, found] at none'
      cases none'
  | none =>
    have listed : newRecord x projectId traceId chunk ∈ t.additions x projectId traceId chunks :=
      List.mem_map.mpr ⟨chunk, List.mem_filter.mpr ⟨hk, by simp [found]⟩, rfl⟩
    obtain ⟨citation, joined, -⟩ := ((picked chunk hk).cites x).citation
    rw [State.entry, found, Option.getD_none, joined]
    have new : newRecord x projectId traceId chunk ∈
        t.citations ++ t.additions x projectId traceId chunks := List.mem_append_right _ listed
    refine get?_byChunk (r := newRecord x projectId traceId chunk) after new ?_ ?_ joined
    · exact List.contains_iff_mem.mpr (List.mem_map.mpr ⟨_, listed, rfl⟩)
    · intro r' hr' meets same
      obtain ⟨k, hk', rfl⟩ := List.mem_map.mp (own hr' meets)
      obtain rfl := (picked k (List.mem_filter.mp hk').1).eq (picked chunk hk) same
      rfl

/-- A batch of selected chunks answers with their entries, and adds those that are missing. -/
theorem batch_entries {chunks : List DocumentChunkRecord} (sound : Sound t)
    (running : x.fails = false) (some' : chunks ≠ [])
    (picked : ∀ k ∈ chunks, Picked t.evidence projectId traceId k)
    (distinct : (chunks.map (·.id)).Nodup)
    (flushed : flush t.citations (t.additions x projectId traceId chunks) =
      some (t.citations ++ t.additions x projectId traceId chunks)) {citations : List Citation}
    (entries : chunks.map (fun k => t.evidence.citation (t.entry x projectId traceId k)) =
      citations.map some) :
    createFromSelectedCandidates x projectId traceId (chunks.map (·.id)) t =
      (some (.ok citations),
        { t with citations := t.citations ++ t.additions x projectId traceId chunks }) := by
  have after := sound.flush (additions_cites picked) flushed
  have all : (t.selected projectId traceId (chunks.map (·.id))).size = (chunks.map (·.id)).length := by
    refine (selected_size distinct).mpr fun c hc => ?_
    obtain ⟨k, hk, rfl⟩ := List.mem_map.mp hc
    exact (picked k hk).2
  have admissible : ¬ (chunks.map (·.id) = [] ∨ ¬ (chunks.map (·.id)).Nodup) := by
    simp only [List.map_eq_nil_iff, some', distinct, not_true_eq_false, or_self, not_false_eq_true]
  have values : valuesAt ((t.existing projectId traceId (chunks.map (·.id))).update
      (byChunk (({ t with citations := t.citations ++ t.additions x projectId traceId chunks } :
        State).citationRows fun r =>
          ((t.additions x projectId traceId chunks).map (·.id)).contains r.id)))
      (chunks.map (·.id)) = some citations := by
    apply mapM_some
    rw [List.map_map, ← entries]
    exact List.map_congr_left fun k hk => values_get? sound picked after hk
  rw [createFromSelectedCandidates, if_neg admissible, if_neg (by simp [running])]
  simp only [all, ne_eq, not_true_eq_false, if_false, newRecords_eq sound picked, flushed, values]

/-- After the batch every chunk has its entry. -/
theorem find?_after {chunks : List DocumentChunkRecord}
    (after : Sound { t with citations := t.citations ++ t.additions x projectId traceId chunks })
    {chunk : DocumentChunkRecord} (hk : chunk ∈ chunks) :
    (t.citations ++ t.additions x projectId traceId chunks).find?
        (ofChunk projectId traceId chunk.id) = some (t.entry x projectId traceId chunk) := by
  cases found : t.citations.find? (ofChunk projectId traceId chunk.id) with
  | some r => rw [List.find?_append, State.entry, found, Option.some_or, Option.getD_some]
  | none =>
    have listed : newRecord x projectId traceId chunk ∈
        t.citations ++ t.additions x projectId traceId chunks :=
      List.mem_append_right _ (List.mem_map.mpr
        ⟨chunk, List.mem_filter.mpr ⟨hk, by simp [found]⟩, rfl⟩)
    have of : ofChunk projectId traceId chunk.id (newRecord x projectId traceId chunk) = true :=
      ofChunk_iff.mpr ⟨rfl, rfl, rfl⟩
    obtain ⟨r, hr⟩ := Option.isSome_iff_exists.mp (List.find?_isSome.mpr ⟨_, listed, of⟩)
    rw [hr, State.entry, found, Option.getD_none]
    exact congrArg some
      (after.eq_of_ofChunk listed (List.mem_of_find?_eq_some hr) of (List.find?_some hr))

/-- The same batch again finds every entry and adds none. -/
theorem batch_again {chunks : List DocumentChunkRecord} (some' : chunks ≠ [])
    (picked : ∀ k ∈ chunks, Picked t.evidence projectId traceId k)
    (distinct : (chunks.map (·.id)).Nodup)
    (after : Sound { t with citations := t.citations ++ t.additions x projectId traceId chunks })
    {citations : List Citation}
    (entries : chunks.map (fun k => t.evidence.citation (t.entry x projectId traceId k)) =
      citations.map some) {x' : Transaction} (running : x'.fails = false) :
    createFromSelectedCandidates x' projectId traceId (chunks.map (·.id))
        { t with citations := t.citations ++ t.additions x projectId traceId chunks } =
      (some (.ok citations),
        { t with citations := t.citations ++ t.additions x projectId traceId chunks }) := by
  have none' : ({ t with citations := t.citations ++ t.additions x projectId traceId chunks } :
      State).additions x' projectId traceId chunks = [] := by
    rw [State.additions, List.map_eq_nil_iff, List.filter_eq_nil_iff]
    intro k hk
    rw [find?_after after hk]
    simp
  have entries' : chunks.map (fun k => t.evidence.citation (State.entry
      { t with citations := t.citations ++ t.additions x projectId traceId chunks } x' projectId
      traceId k)) = citations.map some := by
    rw [← entries]
    refine List.map_congr_left fun k hk => ?_
    rw [State.entry, find?_after after hk]
    rfl
  have again := batch_entries (x := x') after running some' picked distinct
    (by rw [none']; simp [flush]) entries'
  rw [none', List.append_nil] at again
  exact again

theorem batch_sound (sound : Sound t) (x : Transaction) (projectId traceId : Uuid)
    (chunkIds : List Uuid) :
    Sound (createFromSelectedCandidates x projectId traceId chunkIds t).2 := by
  unfold createFromSelectedCandidates
  split
  · exact sound
  split
  · exact sound
  next admissible _ =>
    dsimp only
    split
    · exact sound
    split
    · exact sound
    next complete _ records made =>
      have cites : ∀ r ∈ records, Cites t.evidence r := by
        intro r hr
        obtain ⟨c, hc, found⟩ := mem_of_mapM_some made hr
        have asked := (List.mem_filter.mp hc).1
        obtain ⟨k, selected, rfl⟩ := Option.map_eq_some_iff.mp found
        simp only [not_or, not_not] at admissible complete
        obtain ⟨k', rfl, picked⟩ :=
          ((selected_size admissible.2).mp complete c asked).picked
        obtain rfl := Option.some.inj (selected.symm.trans (selected_get? picked asked))
        exact picked.cites x
      split
      · exact sound
      next rows flushed =>
        split
        · exact sound
        · exact sound.flush cites flushed

theorem batch_invalid {chunkIds : List Uuid} (some' : chunkIds ≠ []) (distinct : chunkIds.Nodup)
    (running : x.fails = false) (none' : ∃ c ∈ chunkIds, ¬ Selected t.evidence projectId traceId c) :
    createFromSelectedCandidates x projectId traceId chunkIds t =
      (some (.error (.invalid "Citation must reference selected candidates in its project")), t) := by
  have incomplete : (t.selected projectId traceId chunkIds).size ≠ chunkIds.length := by
    intro complete
    obtain ⟨c, hc, unselected⟩ := none'
    exact unselected ((selected_size distinct).mp complete c hc)
  rw [createFromSelectedCandidates, if_neg (by simp [some', distinct]), if_neg (by simp [running])]
  simp only [incomplete, ne_eq, not_false_eq_true, if_true]

end

/-! ## Runs -/

inductive Request where
  | publish (e : Evidence)
  | create (x : Transaction) (projectId traceId chunkId : Uuid)
  | createAll (x : Transaction) (projectId traceId : Uuid) (chunkIds : List Uuid)

def State.step (t : State) : Request → State
  | .publish e => if t.evidence.within e then { t with evidence := e } else t
  | .create x projectId traceId chunkId =>
    (createFromSelectedCandidate x projectId traceId chunkId t).2
  | .createAll x projectId traceId chunkIds =>
    (createFromSelectedCandidates x projectId traceId chunkIds t).2

theorem step_sound {t : State} (sound : Sound t) (r : Request) : Sound (t.step r) := by
  cases r with
  | publish e =>
    simp only [State.step]
    split
    · exact sound.grow ‹_›
    · exact sound
  | create x projectId traceId chunkId => exact create_sound sound x projectId traceId chunkId
  | createAll x projectId traceId chunkIds => exact batch_sound sound x projectId traceId chunkIds

theorem run_sound (e : Evidence) (history : List Request) : Sound (run State.step ⟨e, []⟩ history) :=
  run_invariant' (I := Sound) (fun _ r sound => step_sound sound r) (.empty e) history

/-- Lists that agree where the entries do. -/
theorem map_of_some {κ α β : Type} {f : κ → Option α} {g : κ → β} {h : α → β} {ks : List κ}
    {as : List α} (found : ks.map f = as.map some)
    (agree : ∀ k ∈ ks, ∃ a, f k = some a ∧ g k = h a) : ks.map g = as.map h := by
  induction ks generalizing as with
  | nil =>
    obtain rfl := List.map_eq_nil_iff.mp found.symm
    rfl
  | cons k ks ih =>
    cases as with
    | nil => cases found
    | cons a as =>
      obtain ⟨first, rest⟩ := List.cons.inj found
      obtain ⟨a', here, same⟩ := agree k List.mem_cons_self
      obtain rfl := Option.some.inj (here.symm.trans first)
      rw [List.map_cons, List.map_cons, same, ih rest fun k hk => agree k (List.mem_cons_of_mem _ hk)]

/-- The rows of selected chunks. -/
theorem selected_chunks {e : Evidence} {projectId traceId : Uuid} {chunkIds : List Uuid}
    (selected : ∀ c ∈ chunkIds, Selected e projectId traceId c) :
    ∃ chunks : List DocumentChunkRecord, chunks.map (·.id) = chunkIds ∧
      ∀ k ∈ chunks, Picked e projectId traceId k := by
  induction chunkIds with
  | nil => exact ⟨[], rfl, by simp⟩
  | cons c chunkIds ih =>
    obtain ⟨k, rfl, picked⟩ := (selected c List.mem_cons_self).picked
    obtain ⟨chunks, rfl, all⟩ := ih fun c hc => selected c (List.mem_cons_of_mem _ hc)
    exact ⟨k :: chunks, rfl, List.forall_mem_cons.mpr ⟨picked, all⟩⟩

/-- After any history of creations, while what is retrieved and indexed grows: a batch of selected
chunks answers what its citations created one by one do, in the order of the request, and again the
same when it is repeated; with any other chunk it creates nothing; a trace cites a chunk once, and
only one that it selected for its project. -/
theorem batch_creation (e : Evidence) (history : List Request) (x : Transaction)
    (projectId traceId : Uuid) (chunkIds : List Uuid) (running : x.fails = false)
    (some' : chunkIds ≠ []) (distinct : chunkIds.Nodup)
    (fresh : Fresh x chunkIds (run State.step ⟨e, []⟩ history)) :
    let t := run State.step ⟨e, []⟩ history
    let batch := createFromSelectedCandidates x projectId traceId chunkIds t
    ((∀ c ∈ chunkIds, Selected t.evidence projectId traceId c) →
      ∃ citations : List Citation, batch.1 = some (.ok citations) ∧
        oneByOne x projectId traceId chunkIds t = (citations.map .ok, batch.2) ∧
        chunkIds.map (fun c => (createFromSelectedCandidate x projectId traceId c t).1) =
          citations.map .ok ∧
        citations.map (·.documentChunkId) = chunkIds ∧
        ∀ x', x'.fails = false →
          createFromSelectedCandidates x' projectId traceId chunkIds batch.2 =
            (some (.ok citations), batch.2)) ∧
    (∀ c ∈ chunkIds, ¬ Selected t.evidence projectId traceId c →
      batch = (some (.error
        (.invalid "Citation must reference selected candidates in its project")), t) ∧
      createFromSelectedCandidate x projectId traceId c t =
        (.error (.invalid "Citation must reference a selected candidate in its project"), t)) ∧
    (batch.2.citations.map CitationRecord.key).Nodup ∧
    ∀ r ∈ batch.2.citations,
      Selected batch.2.evidence r.projectId r.retrievalTraceId r.documentChunkId := by
  intro t batch
  have sound : Sound t := run_sound e history
  have after : Sound batch.2 := batch_sound sound x projectId traceId chunkIds
  refine ⟨?_, ?_, after.keys, fun r hr => (after.cites r hr).selected⟩
  · intro selected
    obtain ⟨chunks, rfl, picked⟩ := selected_chunks selected
    have some' : chunks ≠ [] := by
      rintro rfl
      exact some' rfl
    obtain ⟨citations, entries, singles⟩ := oneByOne_entries sound running picked distinct fresh
    have answered : batch = _ := batch_entries sound running some' picked distinct
      (additions_flush sound picked distinct fresh) entries
    have alone {k : DocumentChunkRecord} (hk : k ∈ chunks) := create_entry sound running
      (picked k hk) (fresh.unused k.id (List.mem_map.mpr ⟨k, hk, rfl⟩))
    rw [answered] at after ⊢
    refine ⟨citations, rfl, singles, ?_, ?_, ?_⟩
    · rw [List.map_map]
      refine map_of_some entries fun k hk => ?_
      obtain ⟨citation, joined, -, eq⟩ := alone hk
      exact ⟨citation, joined, by rw [Function.comp_apply, eq]⟩
    · refine (map_of_some entries fun k hk => ?_).symm
      obtain ⟨citation, joined, same, -⟩ := alone hk
      exact ⟨citation, joined, same.symm⟩
    · exact fun x' running' => batch_again some' picked distinct after entries running'
  · intro c hc unselected
    exact ⟨batch_invalid some' distinct running ⟨c, hc, unselected⟩,
      create_invalid sound running unselected⟩

/-! ## A request -/

/-- Two chunks of a document, both selected by one trace. -/
def sampleEvidence : Evidence where
  documents := [⟨1, 10, .text, lit "a.txt", 0⟩]
  versions := [⟨2, 1, 3, 1, [], 1, lit "text/plain", 0⟩]
  locations := [⟨⟨4, 2, "lines", none, some 1, some 1⟩, none, none, none⟩]
  chunks := [⟨5, 2, 6, 4, 0, lit "a", [], []⟩, ⟨7, 2, 6, 4, 1, lit "b", [], []⟩]
  traces := [⟨8, 10⟩]
  candidates := [⟨11, 8, 5, some 1⟩, ⟨12, 8, 7, some 2⟩]
  documentIds := by decide
  versionIds := by decide
  locationIds := by decide
  chunkIds := by decide
  traceIds := by decide
  candidateKeys := by decide
  chunkLocations := by decide

/-- Citations get the ids of their chunks, moved by `n`. -/
def sampleCreation (n : Uuid) : Transaction := ⟨false, fun c => c + n, fun _ => 0⟩

/-- One chunk is cited already. -/
def sampleHistory : List Request := [.create (sampleCreation 100) 10 8 5]

theorem batch_creation_sample :
    let t := run State.step ⟨sampleEvidence, []⟩ sampleHistory
    ∃ citations : List Citation,
      (createFromSelectedCandidates (sampleCreation 200) 10 8 [7, 5] t).1 =
          some (.ok citations) ∧ citations.map (·.documentChunkId) = [7, 5] := by
  have unused : ∀ c ∈ [7, 5], ∀ r ∈ (run State.step ⟨sampleEvidence, []⟩ sampleHistory).citations,
      r.id ≠ (sampleCreation 200).newId c := by
    simp only [List.forall_mem_cons, List.not_mem_nil, false_implies, implies_true, and_true]
    decide +kernel
  have selected : ∀ c ∈ [7, 5],
      Selected (run State.step ⟨sampleEvidence, []⟩ sampleHistory).evidence 10 8 c := by
    simp only [List.forall_mem_cons, List.not_mem_nil, false_implies, implies_true, and_true,
      Selected]
    decide +kernel
  obtain ⟨citations, answered, -, -, same, -⟩ := (batch_creation sampleEvidence sampleHistory
    (sampleCreation 200) 10 8 [7, 5] rfl (by decide) (by decide) ⟨by decide, unused⟩).1 selected
  exact ⟨citations, answered, same⟩

/-- The chunk that was cited keeps its citation. -/
example :
    let t := run State.step ⟨sampleEvidence, []⟩ sampleHistory
    (createFromSelectedCandidates (sampleCreation 200) 10 8 [7, 5] t).2.citations.map (·.id) =
      [105, 207] := by
  decide +kernel

end QaCopilot.Retrieval
