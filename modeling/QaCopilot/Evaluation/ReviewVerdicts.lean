import Mathlib.Tactic.MkIffOfInductiveProp
import QaCopilot.Evaluation.Adjudication

/-!
# Recording a verdict

What the service has written it reads back, so with a repository that answers only the comparison
with the latest label of the role stands between a reviewer and the next revision.

* `verdicts_recorded`: in every reachable store a verdict is recorded exactly when its normalized
  label differs from the latest one of its role;
* `repeated_verdict_refused`: a review of a new primary revision that comes to the same label.
-/

namespace QaCopilot.Reviews

open QaCopilot.Python QaCopilot.Runs QaCopilot.Table QaCopilot.Results

/-! ## Reachable stores -/

/-- The rows are as the service writes them. -/
structure Sound (rt : Runtime) (s : Store) : Prop where
  read : ∀ l ∈ s.labels, labelFromRecord rt l = .ok l
  texts : ∀ l ∈ s.labels, Trimmed l.caseId ∧ Trimmed l.subjectId ∧ Trimmed l.datasetVersion ∧
    Trimmed l.rubricVersion
  digests : ∀ l ∈ s.labels, isDigest l.caseSha256 = true
  reviewers : ∀ a ∈ s.attestations, Trimmed a.reviewerId

theorem step_sound {rt : Runtime} {s : Store} (i : Call × Weather) (sound : Sound rt s) :
    Sound rt (step rt s i) := by
  have effect := step_effect rt s i
  generalize step rt s i = s' at effect
  cases effect with
  | nothing => exact sound
  | attested trimmed =>
    exact ⟨sound.read, sound.texts, sound.digests,
      List.forall_mem_append.mpr ⟨sound.reviewers, List.forall_mem_singleton.mpr trimmed⟩⟩
  | disagreed => exact ⟨sound.read, sound.texts, sound.digests, sound.reviewers⟩
  | labelled drafted made fresh resolved =>
    obtain ⟨-, new, readBack⟩ := newLabel_ok made
    exact ⟨List.forall_mem_append.mpr ⟨sound.read, List.forall_mem_singleton.mpr readBack⟩,
      List.forall_mem_append.mpr ⟨sound.texts, List.forall_mem_singleton.mpr new.texts⟩,
      List.forall_mem_append.mpr ⟨sound.digests, List.forall_mem_singleton.mpr new.digest⟩,
      sound.reviewers⟩

theorem run_sound (rt : Runtime) (calls : List (Call × Weather)) :
    Sound rt (run (step rt) .empty calls) := by
  apply run_invariant' (I := Sound rt)
  · intro s i sound
    exact step_sound i sound
  · exact ⟨by simp [Store.empty], by simp [Store.empty], by simp [Store.empty],
      by simp [Store.empty]⟩

section
variable {rt : Runtime} {s : Store}

theorem Sound.prior (sound : Sound rt s) (caseId : Str) (kind : SubjectKind)
    (subjectId : Str) (role : Role) :
    ∃ prior, latestLabel rt s caseId kind subjectId role = .ok prior := by
  refine ⟨_, bind_ok.mpr ⟨_, mapM_self ?_, rfl⟩⟩
  intro l hl
  exact sound.read l (List.mem_filter.mp ((List.perm_insertionSort _ _).mem_iff.mp hl)).1

theorem Sound.row (sound : Sound rt s) {row label : Label} (h : row ∈ s.labels)
    (read : labelFromRecord rt row = .ok label) : label ∈ s.labels := by
  have := read.symm.trans (sound.read row h)
  exact Except.ok.inj this ▸ h

/-- Who is attested has a name. -/
theorem Sound.reviewer (sound : Sound rt s) {id : Uuid} {reviewerId dataset rubric : Str}
    {independent : Bool} (h : attestationFor s id reviewerId dataset rubric independent = .ok ()) :
    strip reviewerId ≠ [] := by
  rw [attestationFor] at h
  split at h
  · cases h
  · rename_i attestation found
    split_ifs at h with _ other
    have listed := List.mem_of_find?_eq_some found
    exact not_not.mp other ▸ (sound.reviewers _ listed).2

end

/-! ## New revisions -/

/-- What stands between a draft with valid arguments and its row. -/
theorem newLabel_isOk {rt : Runtime} {s : Store} {d : Draft} {q : Payload} {text : Str}
    {prior : Option Label} (id : Uuid) (now : Nat)
    (texts : Trimmed d.caseId ∧ Trimmed d.subjectId ∧ Trimmed d.datasetVersion ∧
      Trimmed d.rubricVersion)
    (reviewer : strip d.reviewerId ≠ []) (digest : isDigest d.caseSha256 = true)
    {candidate packet : Option Str}
    (candidateOk : optionalDigest d.candidateOutputSha256 "Candidate-output SHA-256" = .ok candidate)
    (packetOk : optionalDigest d.reviewPacketSha256 "Review-packet SHA-256" = .ok packet)
    (hashes : checkHashes d.role candidate packet = .ok ())
    (valid : validateLabel d.subjectKind d.labels = .ok q)
    (snapshot : labelSnapshot rt q = .ok text) (encodes : (utf8 text).isSome = true)
    (latest : latestLabel rt s d.caseId d.subjectKind d.subjectId d.role = .ok prior) :
    (∃ label, newLabel rt s d id now = .ok label) ↔
      prior.any (·.labelJson = text) = false := by
  have caseDigest : requireDigest d.caseSha256 "Case SHA-256" = .ok d.caseSha256 := by
    rw [requireDigest_ok, isDigest_strip digest]
    exact ⟨digest, rfl⟩
  obtain ⟨bytes, encoded⟩ := Option.isSome_iff_exists.mp encodes
  simp only [newLabel, texts.1.requireText, texts.2.1.requireText, texts.2.2.1.requireText,
    texts.2.2.2.requireText, requireText_ok.mpr ⟨reviewer, rfl⟩, caseDigest, candidateOk, packetOk,
    hashes, mapError_ok.mpr valid, snapshot, latest, sha256Digest, encoded, bind, Except.bind]
  cases prior.any (·.labelJson = text) <;> simp [rejectIf, pure, Except.pure]

/-- No label of the role and subject has a later revision than the latest. -/
theorem Sound.latest {rt : Runtime} {s : Store} (sound : Sound rt s) {caseId subjectId : Str}
    {kind : SubjectKind} {role : Role} {label : Label}
    (h : latestLabel rt s caseId kind subjectId role = .ok (some label)) :
    ∀ l ∈ s.labels, l.isOf caseId kind subjectId = true → l.role = role →
      l.revisionNumber ≤ label.revisionNumber := by
  obtain ⟨labels, listed, first⟩ := bind_ok.mp h
  have all := listed.symm.trans (mapM_self fun l hl =>
    sound.read l (List.mem_filter.mp ((List.perm_insertionSort _ _).mem_iff.mp hl)).1)
  obtain rfl := Except.ok.inj all
  intro l hl subject hrole
  apply firstBy_greatest (f := Label.revisionNumber) _ _ (Except.ok.inj first)
  · exact List.mem_filter.mpr ⟨(List.perm_insertionSort _ _).mem_iff.mpr
      (List.mem_filter.mpr ⟨hl, subject⟩), by simpa using hrole⟩
  · intro a b newer
    simp only [Label.newer, Bool.or_eq_true, Bool.and_eq_true, decide_eq_true_eq,
      beq_iff_eq] at newer
    omega
  · intro a b older
    simp only [Label.newer, Bool.or_eq_false_iff, decide_eq_false_iff_not] at older
    omega

/-! ## Verdicts -/

/-- The normalized text of a valid label. -/
def labelText (rt : Runtime) (kind : SubjectKind) (labels : Payload) : Except ReviewError Str := do
  labelSnapshot rt (← (validateLabel kind labels).mapError .invalidLabel)

theorem labelText_ok {rt : Runtime} {kind : SubjectKind} {labels : Payload} {text : Str}
    (h : labelText rt kind labels = .ok text) :
    ∃ q, validateLabel kind labels = .ok q ∧ labelSnapshot rt q = .ok text := by
  obtain ⟨q, valid, snapshot⟩ := bind_ok.mp h
  exact ⟨q, mapError_ok.mp valid, snapshot⟩

/-- A valid review, with the given label text, by an attested reviewer who did not write the latest
primary label. -/
@[mk_iff] structure Reviewable (rt : Runtime) (s : Store) (r : IndependentReview) (primary : Label)
    (text : Str) : Prop where
  locked : lockedPrimary rt s r.caseId r.subjectKind r.subjectId = .ok primary
  differs : strip r.reviewerId ≠ primary.reviewerId
  attested : attestationFor s r.reviewerAttestationId r.reviewerId primary.datasetVersion
    primary.rubricVersion true = .ok ()
  packet : isDigest (strip r.reviewPacketSha256) = true
  valid : labelText rt r.subjectKind r.labels = .ok text
  encodes : (utf8 text).isSome = true

/-- A valid verdict, with the given label text and a rationale for every recorded material
disagreement of the pair, none of which is adjudicated, by an attested third person. -/
@[mk_iff] structure Adjudicable (rt : Runtime) (s : Store) (v : Verdict) (primary independent : Label)
    (text : Str) : Prop where
  linked : linkedLabels rt s v.independentLabelId "Only an independent label can be adjudicated" =
    .ok (primary, independent)
  differs : strip v.adjudicatorId ≠ primary.reviewerId ∧
    strip v.adjudicatorId ≠ independent.reviewerId
  attested : attestationFor s v.adjudicatorAttestationId v.adjudicatorId primary.datasetVersion
    primary.rubricVersion false = .ok ()
  material : (s.listDisagreements primary.id independent.id).filter (·.material) ≠ []
  rationales : sameIds (v.rationales.map (·.1))
    (((s.listDisagreements primary.id independent.id).filter (·.material)).map (·.id)) = true
  given : ∀ d ∈ (s.listDisagreements primary.id independent.id).filter (·.material),
    strip (v.rationale d) ≠ []
  unresolved : ∀ d ∈ (s.listDisagreements primary.id independent.id).filter (·.material),
    s.listAdjudications d.id = []
  valid : labelText rt primary.subjectKind v.labels = .ok text
  encodes : (utf8 text).isSome = true

instance {rt : Runtime} {s : Store} {r : IndependentReview} {primary : Label} {text : Str} :
    Decidable (Reviewable rt s r primary text) :=
  decidable_of_iff' _ (reviewable_iff rt s r primary text)

instance {rt : Runtime} {s : Store} {v : Verdict} {primary independent : Label} {text : Str} :
    Decidable (Adjudicable rt s v primary independent text) :=
  decidable_of_iff' _ (adjudicable_iff rt s v primary independent text)

/-- The text is not that of the latest label of the role for the subject of the primary label. -/
def Changes (rt : Runtime) (s : Store) (role : Role) (primary : Label) (text : Str) : Prop :=
  ∀ prior, latestLabel rt s primary.caseId primary.subjectKind primary.subjectId role =
    .ok (some prior) → prior.labelJson ≠ text

theorem changes_iff {rt : Runtime} {s : Store} {role : Role} {primary : Label} {text : Str}
    {prior : Option Label} (latest : latestLabel rt s primary.caseId primary.subjectKind
      primary.subjectId role = .ok prior) :
    Changes rt s role primary text ↔ prior.any (·.labelJson = text) = false := by
  rw [Changes, latest]
  cases prior <;> simp

theorem submitIndependent_recorded {rt : Runtime} {s : Store} (sound : Sound rt s) (w : Weather)
    {r : IndependentReview} {primary : Label} {text : Str}
    (ready : Reviewable rt s r primary text)
    (answered : (submitIndependent rt s w r).1 ≠ .error .unavailable) :
    (∃ label, (submitIndependent rt s w r).1 = .ok label ∧
        label ∈ (submitIndependent rt s w r).2.labels ∧ label.role = .independent ∧
        label.primaryLabelId = some primary.id) ↔ Changes rt s .independent primary text := by
  obtain ⟨role, row, hrow, subject, read⟩ := latestLabel_mem (lockedPrimary_ok.mp ready.locked)
  have stored := sound.row hrow read
  obtain ⟨q, valid, snapshot⟩ := labelText_ok ready.valid
  obtain ⟨prior, latest⟩ := sound.prior primary.caseId primary.subjectKind primary.subjectId
    .independent
  have packet : optionalDigest (some r.reviewPacketSha256) "Review-packet SHA-256" =
      .ok (some (strip r.reviewPacketSha256)) :=
    bind_ok.mpr ⟨_, requireDigest_ok.mpr ⟨ready.packet, rfl⟩, rfl⟩
  have kind : r.subjectKind = primary.subjectKind := by
    obtain ⟨-, _, _, _, _, rfl⟩ := labelFromRecord_ok read
    exact (isOf_iff.mp subject).2.1.symm
  rw [kind] at valid
  have new := newLabel_isOk (d := r.draft primary) (w.newId 0) (w.now 0) (sound.texts _ stored)
    (sound.reviewer ready.attested) (sound.digests _ stored) rfl packet rfl valid snapshot
    ready.encodes latest
  rw [changes_iff latest, ← new]
  have prepared : prepareIndependent rt s r = .ok primary :=
    prepareIndependent_ok.mpr ⟨ready.locked, ready.differs, ready.attested⟩
  simp only [submitIndependent, prepared, createLabel] at answered ⊢
  cases made : newLabel rt s (r.draft primary) (w.newId 0) (w.now 0) with
  | error e => simp
  | ok label =>
    obtain ⟨-, written, readBack⟩ := newLabel_ok made
    simp only [made] at answered
    rcases createLabel_cases rt s (w.fails 0) label with refused | ⟨-, created⟩
    · simp [refused] at answered
    · refine iff_of_true ⟨label, ?_, ?_, written.role, written.primary⟩ ⟨label, rfl⟩
      · simp only [created, readBack]
      · simp [created]

theorem adjudicate_recorded {rt : Runtime} {s : Store} (sound : Sound rt s) (w : Weather)
    {v : Verdict} {primary independent : Label} {text : Str}
    (ready : Adjudicable rt s v primary independent text)
    (answered : (adjudicate rt s w v).1 ≠ .error .unavailable) :
    (∃ label, (adjudicate rt s w v).1 = .ok label) ↔ Changes rt s .adjudicated primary text := by
  obtain ⟨-, -, primaryId, -, readPrimary⟩ := linkedLabels_ok.mp ready.linked
  obtain ⟨row, hrow, -, read⟩ := labelOf_row readPrimary
  have stored := sound.row hrow read
  obtain ⟨q, valid, snapshot⟩ := labelText_ok ready.valid
  obtain ⟨prior, latest⟩ := sound.prior primary.caseId primary.subjectKind primary.subjectId
    .adjudicated
  have new := newLabel_isOk (d := v.draft primary independent) (w.newId 0) (w.now 0)
    (sound.texts _ stored) (sound.reviewer ready.attested) (sound.digests _ stored) rfl rfl rfl
    valid snapshot ready.encodes latest
  rw [changes_iff latest, ← new]
  constructor
  · rintro ⟨label, returned⟩
    cases prepared : prepareAdjudication rt s v (w.newId 0) (w.now 0) with
    | error e => simp [adjudicate_refused prepared] at returned
    | ok p =>
      obtain ⟨p', i', linked, -, -, -, -, -, -, made⟩ := prepareAdjudication_ok.mp prepared
      obtain ⟨rfl, rfl⟩ := Prod.mk.inj (Except.ok.inj (linked.symm.trans ready.linked))
      exact ⟨p.1, made⟩
  · rintro ⟨label, made⟩
    have prepared := prepareAdjudication_ok.mpr ⟨primary, independent, ready.linked, ready.differs,
      ready.attested, rfl, ready.material, ready.rationales, ready.unresolved, made⟩
    have raises := (adjudicate_prepared prepared answered).2
    cases outcome : (adjudicate rt s w v).1 with
    | ok label => exact ⟨label, rfl⟩
    | error e =>
      obtain ⟨d, hd, blank⟩ := raises.mp ⟨e, outcome⟩
      exact absurd blank (ready.given d hd)

/-- With a repository that answers, a valid review is recorded and linked to the latest primary
revision exactly when it changes the latest independent label of the subject, and a valid verdict
exactly when it changes the latest adjudicated one. -/
theorem verdicts_recorded {rt : Runtime} {s : Store} {calls : List (Call × Weather)}
    (reached : run (step rt) .empty calls = s) (w : Weather) :
    (∀ r primary text, Reviewable rt s r primary text →
      (submitIndependent rt s w r).1 ≠ .error .unavailable →
        (∀ l ∈ s.labels, l.isOf r.caseId r.subjectKind r.subjectId = true → l.role = .primary →
          l.revisionNumber ≤ primary.revisionNumber) ∧
        ((∃ label, (submitIndependent rt s w r).1 = .ok label ∧
            label ∈ (submitIndependent rt s w r).2.labels ∧ label.role = .independent ∧
            label.primaryLabelId = some primary.id) ↔ Changes rt s .independent primary text)) ∧
    ∀ v primary independent text, Adjudicable rt s v primary independent text →
      (adjudicate rt s w v).1 ≠ .error .unavailable →
        ((∃ label, (adjudicate rt s w v).1 = .ok label) ↔
          Changes rt s .adjudicated primary text) := by
  have sound : Sound rt s := reached ▸ run_sound rt calls
  constructor
  · intro r primary text ready answered
    exact ⟨sound.latest (lockedPrimary_ok.mp ready.locked),
      submitIndependent_recorded sound w ready answered⟩
  · intro v primary independent text ready answered
    exact adjudicate_recorded sound w ready answered

/-- The sample with its disagreements, and then a second primary revision. -/
def revisedCalls : List (Call × Weather) :=
  sampleCalls ++ [(.recordMaterialDisagreements (sampleId 500), sampleWeather 6),
    (.submitPrimary (samplePrimary "ann" 100 (sampleLabels false "p.1" "abc")), sampleWeather 7)]

def revisedStore : Store := run (step sampleRuntime) .empty revisedCalls

theorem revisedStore_reached : run (step sampleRuntime) .empty revisedCalls = revisedStore := rfl

theorem revisedStore_length : revisedStore.labels.length = 3 := by decide +kernel

/-- Ann's revision. -/
def secondPrimary : Label := revisedStore.labels.get ⟨2, by rw [revisedStore_length]; decide⟩

def sampleText (labels : Payload) : Str :=
  match labelText sampleRuntime .finding labels with
  | .ok text => text
  | .error _ => []

/-- Bob reviews the second primary label. -/
def secondReview (labels : Payload) : IndependentReview := sampleIndependent "bob" 200 labels

theorem verdicts_recorded_sample :
    ((∃ label, (submitIndependent sampleRuntime revisedStore (sampleWeather 8)
          (secondReview (sampleLabels true "p.1" "abc"))).1 = .ok label ∧
        label ∈ (submitIndependent sampleRuntime revisedStore (sampleWeather 8)
          (secondReview (sampleLabels true "p.1" "abc"))).2.labels ∧ label.role = .independent ∧
        label.primaryLabelId = some secondPrimary.id) ↔
      Changes sampleRuntime revisedStore .independent secondPrimary
        (sampleText (sampleLabels true "p.1" "abc"))) ∧
    ((∃ label, (adjudicate sampleRuntime revisedStore (sampleWeather 8)
          (sampleVerdict "seen")).1 = .ok label) ↔
      Changes sampleRuntime revisedStore .adjudicated annsLabel
        (sampleText (sampleLabels true "p.1" "abc"))) :=
  ⟨((verdicts_recorded revisedStore_reached (sampleWeather 8)).1 _ _ _
      (by decide +kernel) (by decide +kernel)).2,
    (verdicts_recorded revisedStore_reached (sampleWeather 8)).2 _ _ bobsLabel _
      (by decide +kernel) (by decide +kernel)⟩

/-- Bob reads the second primary label and comes to the label that he gave the first. -/
theorem repeated_verdict_refused : ¬ ∀ rt calls w r primary text,
    Reviewable rt (run (step rt) .empty calls) r primary text →
      (submitIndependent rt (run (step rt) .empty calls) w r).1 ≠ .error .unavailable →
        ∃ label, (submitIndependent rt (run (step rt) .empty calls) w r).1 = .ok label := by
  intro always
  have refused : (submitIndependent sampleRuntime revisedStore (sampleWeather 8)
      (secondReview (sampleLabels true "p.2" "a"))).1 =
        .error (.rejected "A label revision must change the prior label") := by decide +kernel
  have recorded := always sampleRuntime revisedCalls (sampleWeather 8)
    (secondReview (sampleLabels true "p.2" "a")) secondPrimary
    (sampleText (sampleLabels true "p.2" "a"))
  rw [revisedStore_reached, refused] at recorded
  obtain ⟨label, returned⟩ := recorded (by decide +kernel) (by simp)
  exact nomatch returned

end QaCopilot.Reviews
