import QaCopilot.Evaluation.Reviews

/-!
# What a review call leaves behind

* `newLabel_ok`: a label that the service writes reads back as it was written;
* `step_effect`: what one call, returning or raising, appends to the store.
-/

namespace QaCopilot.Reviews

open QaCopilot.Python QaCopilot.Table QaCopilot.Results

/-! ## New labels -/

@[simp] theorem rejectIf_ok {c : Bool} {message : String} {u : Unit} :
    rejectIf c message = .ok u ↔ c = false := by
  cases c <;> simp [rejectIf]

theorem requireText_ok {v r : Str} {label : String} :
    requireText v label = .ok r ↔ strip v ≠ [] ∧ r = strip v := by
  by_cases blank : strip v = []
  · rw [requireText, if_pos blank]
    exact iff_of_false (by simp) (fun h => h.1 blank)
  · rw [requireText, if_neg blank, Except.ok.injEq]
    exact ⟨fun h => ⟨blank, h.symm⟩, fun h => h.2.symm⟩

/-- A text that `_required_text` returns as it is. -/
def Trimmed (v : Str) : Prop := strip v = v ∧ v ≠ []

theorem requireText_trimmed {v r : Str} {label : String} (h : requireText v label = .ok r) :
    Trimmed r := by
  obtain ⟨text, rfl⟩ := requireText_ok.mp h
  exact ⟨strip_strip v, text⟩

theorem Trimmed.requireText {v : Str} (h : Trimmed v) (label : String) :
    requireText v label = .ok v :=
  requireText_ok.mpr ⟨h.1.symm ▸ h.2, h.1.symm⟩

theorem requireDigest_ok {v r : Str} {label : String} :
    requireDigest v label = .ok r ↔ isDigest (strip v) = true ∧ r = strip v := by
  by_cases digest : isDigest (strip v) = true
  · rw [requireDigest, if_pos digest, Except.ok.injEq]
    exact ⟨fun h => ⟨digest, h.symm⟩, fun h => h.2.symm⟩
  · rw [requireDigest, if_neg digest]
    exact iff_of_false (by simp) (fun h => digest h.1)

theorem isDigest_strip {s : Str} (h : isDigest s = true) : strip s = s := by
  have solid : ∀ c ∈ s, isSpace c = false := by
    intro c hc
    simp only [isDigest, Bool.and_eq_true, List.all_eq_true] at h
    have range := h.2 c hc
    simp only [Bool.or_eq_true, Bool.and_eq_true, decide_eq_true_eq] at range
    simp only [isSpace, Bool.or_eq_false_iff, Bool.and_eq_false_imp, decide_eq_true_eq,
      decide_eq_false_iff_not, beq_eq_false_iff_ne, ne_eq]
    omega
  apply strip_eq_self
  · rintro c t rfl
    exact solid c (by simp)
  · rintro c t rfl
    exact solid c (by simp)

/-- A digest that was read once reads again as itself. -/
theorem requireDigest_again {v r : Str} {label : String} (h : requireDigest v label = .ok r)
    (label' : String) : requireDigest r label' = .ok r := by
  obtain ⟨digest, rfl⟩ := requireDigest_ok.mp h
  exact requireDigest_ok.mpr ⟨(strip_strip v).symm ▸ digest, (strip_strip v).symm⟩

theorem optionalDigest_again {v r : Option Str} {label : String}
    (h : optionalDigest v label = .ok r) (label' : String) : optionalDigest r label' = .ok r := by
  cases v with
  | none =>
    obtain rfl := Except.ok.inj h
    rfl
  | some v =>
    obtain ⟨digest, made, h⟩ := bind_ok.mp h
    obtain rfl := Except.ok.inj h
    simp [optionalDigest, requireDigest_again made, bind, Except.bind, pure, Except.pure]

theorem sha256Digest_isDigest {rt : Runtime} {text r : Str} (h : sha256Digest rt text = .ok r) :
    isDigest r = true := by
  rw [sha256Digest] at h
  split at h
  · obtain rfl := Except.ok.inj h
    exact isDigest_hexdigest _
  · cases h

/-- The part of `newLabel` that later calls look at. -/
structure NewLabel (rt : Runtime) (s : Store) (d : Draft) (label : Label) : Prop where
  subject : label.isOf (strip d.caseId) d.subjectKind (strip d.subjectId) = true
  role : label.role = d.role
  reviewer : label.reviewerId = strip d.reviewerId
  primary : label.primaryLabelId = d.primaryLabelId
  independent : label.independentLabelId = d.independentLabelId
  texts : Trimmed label.caseId ∧ Trimmed label.subjectId ∧ Trimmed label.datasetVersion ∧
    Trimmed label.rubricVersion
  digest : isDigest label.caseSha256 = true

/-- The snapshot of a validated label. -/
theorem checkSnapshot_ok {rt : Runtime} {kind : SubjectKind} {p q : Payload} {label : Label}
    (valid : validateLabel kind p = .ok q) (snapshot : labelSnapshot rt q = .ok label.labelJson) :
    label.labels rt = .ok (sortItems (Json.sortedItems q)) ∧ checkSnapshot rt label = .ok () := by
  obtain ⟨plain, nonempty⟩ := validateLabel_plain valid
  have distinct : (Json.dict q).sorted.check .distinctKeys = true := by
    rw [check_sorted distinctKeys_unordered, plain.distinct]
  have made : dumps .compactUnicode rt.maxDepth (Json.dict q).sorted = .ok label.labelJson := by
    rw [labelSnapshot, if_neg nonempty, canonicalJson] at snapshot
    cases text : dumps .compactUnicode rt.maxDepth (Json.dict q).sorted with
    | ok t =>
      rw [text] at snapshot
      exact congrArg _ (Except.ok.inj snapshot)
    | error e => cases e <;> simp [text] at snapshot
  have room : (Json.dict q).sorted.depth ≤ rt.maxDepth := by
    rw [depth_sorted]
    exact Nat.le_trans plain.shallow rt.deep
  have read : label.labels rt = .ok (sortItems (Json.sortedItems q)) := by
    rw [Label.labels, loads_dumps separates_compactUnicode made distinct nofun room]
    rfl
  refine ⟨read, ?_⟩
  have items : sortItems (Json.sortedItems q) ≠ [] := by
    intro empty
    have keys := (sortItems_perm (Json.sortedItems q)).map (·.1)
    rw [empty, sortedItems_keys] at keys
    exact nonempty (List.map_eq_nil_iff.mp keys.nil_eq.symm)
  obtain ⟨text, again⟩ : ∃ text, dumps .compactUnicode rt.maxDepth
      (Json.dict (sortItems (Json.sortedItems q))).sorted = .ok text := by
    change ∃ text, dumps .compactUnicode rt.maxDepth (Json.dict q).sorted.sorted = .ok text
    rw [dumps_isOk, check_sorted (accepts_unordered _), check_sorted (accepts_unordered _),
      depth_sorted]
    exact ⟨plain.accepted, room⟩
  have snapshotAgain : labelSnapshot rt (sortItems (Json.sortedItems q)) = .ok text := by
    rw [labelSnapshot, if_neg items, canonicalJson, again]
  simp only [checkSnapshot, read, bind, Except.bind, snapshotAgain]

theorem newLabel_ok {rt : Runtime} {s : Store} {d : Draft} {id : Uuid} {now : Nat} {label : Label}
    (h : newLabel rt s d id now = .ok label) :
    label.id = id ∧ NewLabel rt s d label ∧ labelFromRecord rt label = .ok label := by
  obtain ⟨caseId, caseText, h⟩ := bind_ok.mp h
  obtain ⟨subjectId, subjectText, h⟩ := bind_ok.mp h
  obtain ⟨datasetVersion, datasetText, h⟩ := bind_ok.mp h
  obtain ⟨rubricVersion, rubricText, h⟩ := bind_ok.mp h
  obtain ⟨reviewerId, reviewerText, h⟩ := bind_ok.mp h
  obtain ⟨caseSha256, caseDigest, h⟩ := bind_ok.mp h
  obtain ⟨candidate, candidateDigest, h⟩ := bind_ok.mp h
  obtain ⟨packet, packetDigest, h⟩ := bind_ok.mp h
  obtain ⟨-, -, h⟩ := bind_ok.mp h
  obtain ⟨validated, valid, h⟩ := bind_ok.mp h
  obtain ⟨labelJson, snapshot, h⟩ := bind_ok.mp h
  obtain ⟨prior, -, h⟩ := bind_ok.mp h
  obtain ⟨_, -, h⟩ := bind_ok.mp h
  obtain ⟨labelSha256, labelDigest, h⟩ := bind_ok.mp h
  obtain rfl := Except.ok.inj h
  have texts := (⟨requireText_trimmed caseText, requireText_trimmed subjectText,
    requireText_trimmed datasetText, requireText_trimmed rubricText⟩ :
    Trimmed caseId ∧ Trimmed subjectId ∧ Trimmed datasetVersion ∧ Trimmed rubricVersion)
  obtain ⟨-, rfl⟩ := requireText_ok.mp caseText
  obtain ⟨-, rfl⟩ := requireText_ok.mp subjectText
  obtain ⟨-, rfl⟩ := requireText_ok.mp reviewerText
  refine ⟨rfl, ⟨by simp [Label.isOf], rfl, rfl, rfl, rfl, texts, ?_⟩, ?_⟩
  · obtain ⟨digest, rfl⟩ := requireDigest_ok.mp caseDigest
    exact digest
  · have digest := sha256Digest_isDigest labelDigest
    have stored : requireDigest labelSha256 "Stored label SHA-256" = .ok labelSha256 := by
      rw [requireDigest_ok, isDigest_strip digest]
      exact ⟨digest, rfl⟩
    refine bind_ok.mpr ⟨_, requireDigest_again caseDigest _, ?_⟩
    refine bind_ok.mpr ⟨_, stored, ?_⟩
    refine bind_ok.mpr ⟨_, optionalDigest_again candidateDigest _, ?_⟩
    refine bind_ok.mpr ⟨_, optionalDigest_again packetDigest _, ?_⟩
    refine bind_ok.mpr ⟨_, labelDigest, ?_⟩
    refine bind_ok.mpr ⟨(), rejectIf_ok.mpr (by simp), ?_⟩
    exact bind_ok.mpr ⟨(), (checkSnapshot_ok (mapError_ok.mp valid) snapshot).2, rfl⟩

/-! ## Creates -/

theorem createAdjudication_cases (s : Store) (fails : Bool) (row : Adjudication) :
    s.createAdjudication fails row = (.error .unavailable, s) ∨
      s.createAdjudication fails row =
        (.ok row, { s with adjudications := s.adjudications ++ [row] }) := by
  rw [Store.createAdjudication]
  split
  · exact .inl rfl
  · exact .inr rfl

theorem createLabel_cases (rt : Runtime) (s : Store) (fails : Bool) (row : Label) :
    s.createLabel rt fails row = (.error .unavailable, s) ∨
      (∀ l ∈ s.labels, row.clashes l = false) ∧ s.createLabel rt fails row =
        (labelFromRecord rt row, { s with labels := s.labels ++ [row] }) := by
  rw [Store.createLabel]
  split
  · exact .inl rfl
  · rename_i free
    simp only [Bool.or_eq_true, not_or, List.any_eq_true, not_exists, not_and,
      Bool.not_eq_true] at free
    exact .inr ⟨free.2, rfl⟩

theorem createDisagreement_cases (s : Store) (fails : Bool) (row : Disagreement) :
    s.createDisagreement fails row = (.error .unavailable, s) ∨
      s.createDisagreement fails row =
        (.ok row, { s with disagreements := s.disagreements ++ [row] }) := by
  rw [Store.createDisagreement]
  split
  · exact .inl rfl
  · exact .inr rfl

theorem createAdjudications_effect (w : Weather) (v : Verdict) (label : Label) (n : Nat)
    (ds : List Disagreement) (s : Store) :
    ∃ made, (createAdjudications w v label n ds s).2 =
        { s with adjudications := s.adjudications ++ made } ∧
      ∀ a ∈ made, a.adjudicatedLabelId = label.id ∧ a.adjudicatorId = strip v.adjudicatorId ∧
        ∃ d ∈ ds, a.disagreementId = d.id := by
  induction ds generalizing n s with
  | nil => exact ⟨[], by simp [createAdjudications], by simp⟩
  | cons d ds ih =>
    rw [createAdjudications]
    cases requireText (v.rationale d) "Adjudication rationale" with
    | error e => exact ⟨[], by simp, by simp⟩
    | ok rationale =>
      rcases createAdjudication_cases s (w.fails n) (newAdjudication w v label n d rationale)
        with refused | made
      · exact ⟨[], by simp [refused], by simp⟩
      · obtain ⟨later, after, each⟩ := ih (n + 1)
          { s with adjudications := s.adjudications ++ [newAdjudication w v label n d rationale] }
        refine ⟨newAdjudication w v label n d rationale :: later, ?_, ?_⟩
        · simp only [made, after, List.append_assoc, List.singleton_append]
        · refine List.forall_mem_cons.mpr ⟨⟨rfl, rfl, d, by simp, rfl⟩, ?_⟩
          intro a ha
          obtain ⟨written, author, x, hx, about⟩ := each a ha
          exact ⟨written, author, x, List.mem_cons_of_mem d hx, about⟩

theorem createDisagreements_effect (w : Weather)
    (row : Str → Uuid → Nat → Except ReviewError Disagreement) (n : Nat) (paths : List Str)
    (s : Store) :
    ∃ made, (createDisagreements w row n paths s).2 =
        { s with disagreements := s.disagreements ++ made } ∧
      ∀ d ∈ made, ∃ path id now, row path id now = .ok d := by
  induction paths generalizing n s with
  | nil => exact ⟨[], by simp [createDisagreements], by simp⟩
  | cons path paths ih =>
    rw [createDisagreements]
    cases written : row path (w.newId n) (w.now n) with
    | error e => exact ⟨[], by simp, by simp⟩
    | ok d =>
      rcases createDisagreement_cases s (w.fails n) d with refused | made
      · exact ⟨[], by simp [refused], by simp⟩
      · obtain ⟨later, after, each⟩ := ih (n + 1)
          { s with disagreements := s.disagreements ++ [d] }
        refine ⟨d :: later, ?_, ?_⟩
        · simp only [made]
          cases rest : createDisagreements w row (n + 1) paths
              { s with disagreements := s.disagreements ++ [d] } with
          | mk outcome s' =>
            rw [rest] at after
            simp only at after
            cases outcome <;> simp [after]
        · exact List.forall_mem_cons.mpr ⟨⟨path, _, _, written⟩, each⟩

/-! ## Reads -/

/-- Reading a row normalizes its digests and keeps every other column. -/
theorem labelFromRecord_ok {rt : Runtime} {row label : Label}
    (h : labelFromRecord rt row = .ok label) :
    checkSnapshot rt label = .ok () ∧ ∃ caseSha256 labelSha256 candidate packet, label =
      { row with caseSha256 := caseSha256, labelSha256 := labelSha256,
                 candidateOutputSha256 := candidate, reviewPacketSha256 := packet } := by
  obtain ⟨caseSha256, -, h⟩ := bind_ok.mp h
  obtain ⟨labelSha256, -, h⟩ := bind_ok.mp h
  obtain ⟨candidate, -, h⟩ := bind_ok.mp h
  obtain ⟨packet, -, h⟩ := bind_ok.mp h
  obtain ⟨_, -, h⟩ := bind_ok.mp h
  obtain ⟨_, -, h⟩ := bind_ok.mp h
  obtain ⟨⟨⟩, sound, h⟩ := bind_ok.mp h
  obtain rfl := Except.ok.inj h
  exact ⟨sound, _, _, _, _, rfl⟩

theorem labelOf_ok {rt : Runtime} {s : Store} {id : Uuid} {label : Label} :
    labelOf rt s id = .ok label ↔
      ∃ row, s.labels.find? (·.id = id) = some row ∧ labelFromRecord rt row = .ok label := by
  rw [labelOf, bind_ok]
  constructor
  · rintro ⟨found, read, h⟩
    cases found with
    | none => cases h
    | some l =>
      obtain rfl := Except.ok.inj h
      rw [Store.getLabel] at read
      cases row : s.labels.find? (·.id = id) with
      | none => simp [row] at read
      | some r =>
        rw [row] at read
        obtain ⟨l', made, h⟩ := bind_ok.mp read
        obtain rfl := Option.some.inj (Except.ok.inj h)
        exact ⟨r, rfl, made⟩
  · rintro ⟨row, found, made⟩
    refine ⟨some label, ?_, rfl⟩
    rw [Store.getLabel, found]
    exact bind_ok.mpr ⟨label, made, rfl⟩

theorem labelOf_row {rt : Runtime} {s : Store} {id : Uuid} {label : Label}
    (h : labelOf rt s id = .ok label) :
    ∃ row ∈ s.labels, row.id = id ∧ labelFromRecord rt row = .ok label := by
  obtain ⟨row, found, made⟩ := labelOf_ok.mp h
  exact ⟨row, List.mem_of_find?_eq_some found, by simpa using List.find?_some found, made⟩

theorem labelOf_id {rt : Runtime} {s : Store} {id : Uuid} {label : Label}
    (h : labelOf rt s id = .ok label) : label.id = id := by
  obtain ⟨row, found, made⟩ := labelOf_ok.mp h
  obtain ⟨-, _, _, _, _, rfl⟩ := labelFromRecord_ok made
  simpa using List.find?_some found

theorem linkedLabels_ok {rt : Runtime} {s : Store} {id : Uuid} {message : String}
    {primary independent : Label} :
    linkedLabels rt s id message = .ok (primary, independent) ↔
      labelOf rt s id = .ok independent ∧ independent.role = .independent ∧
        ∃ primaryId, independent.primaryLabelId = some primaryId ∧
          labelOf rt s primaryId = .ok primary := by
  rw [linkedLabels, bind_ok]
  constructor
  · rintro ⟨label, read, h⟩
    obtain ⟨_, role, h⟩ := bind_ok.mp h
    cases link : label.primaryLabelId with
    | none => simp [link] at h
    | some primaryId =>
      simp only [link] at h
      obtain ⟨found, readPrimary, h⟩ := bind_ok.mp h
      obtain ⟨rfl, rfl⟩ := Prod.mk.inj (Except.ok.inj h)
      exact ⟨read, by simpa using rejectIf_ok.mp role, primaryId, link, readPrimary⟩
  · rintro ⟨read, role, primaryId, link, readPrimary⟩
    refine ⟨independent, read, bind_ok.mpr ⟨(), rejectIf_ok.mpr (by simp [role]), ?_⟩⟩
    simp only [link]
    exact bind_ok.mpr ⟨primary, readPrimary, rfl⟩

theorem lockedPrimary_ok {rt : Runtime} {s : Store} {caseId subjectId : Str} {kind : SubjectKind}
    {primary : Label} :
    lockedPrimary rt s caseId kind subjectId = .ok primary ↔
      latestLabel rt s caseId kind subjectId .primary = .ok (some primary) := by
  rw [lockedPrimary, bind_ok]
  constructor
  · rintro ⟨found, read, h⟩
    cases found with
    | none => cases h
    | some l =>
      obtain rfl := Except.ok.inj h
      exact read
  · intro read
    exact ⟨some primary, read, rfl⟩

theorem isOf_iff {l : Label} {caseId subjectId : Str} {kind : SubjectKind} :
    l.isOf caseId kind subjectId = true ↔
      l.caseId = caseId ∧ l.subjectKind = kind ∧ l.subjectId = subjectId := by
  simp [Label.isOf, and_assoc]

theorem listLabels_mem {rt : Runtime} {s : Store} {caseId subjectId : Str} {kind : SubjectKind}
    {labels : List Label} (h : s.listLabels rt caseId kind subjectId = .ok labels) {label : Label}
    (hl : label ∈ labels) :
    ∃ row ∈ s.labels, row.isOf caseId kind subjectId = true ∧ labelFromRecord rt row = .ok label := by
  obtain ⟨row, hr, made⟩ := forall₂_mem (mapM_ok.mp h) hl
  have listed := List.mem_filter.mp ((List.perm_insertionSort _ _).mem_iff.mp hr)
  exact ⟨row, listed.1, listed.2, made⟩

/-- The latest label of a role is read from one of its rows. -/
theorem latestLabel_mem {rt : Runtime} {s : Store} {caseId subjectId : Str} {kind : SubjectKind}
    {role : Role} {label : Label}
    (h : latestLabel rt s caseId kind subjectId role = .ok (some label)) :
    label.role = role ∧ ∃ row ∈ s.labels, row.isOf caseId kind subjectId = true ∧
      labelFromRecord rt row = .ok label := by
  obtain ⟨labels, listed, first⟩ := bind_ok.mp h
  have found := List.mem_filter.mp (firstBy_mem (Except.ok.inj first))
  exact ⟨by simpa using found.2, listLabels_mem listed found.1⟩

/-! ## Calls -/

/-- The draft from which a call may write a label. -/
inductive Drafted (rt : Runtime) (s : Store) : Call → Draft → Prop
  | primary (r : PrimaryReview) : Drafted rt s (.submitPrimary r) r.draft
  | independent (r : IndependentReview) {primary : Label}
      (locked : lockedPrimary rt s r.caseId r.subjectKind r.subjectId = .ok primary)
      (differs : strip r.reviewerId ≠ primary.reviewerId) :
      Drafted rt s (.submitIndependent r) (r.draft primary)
  | adjudicated (v : Verdict) {message : String} {primary independent : Label}
      (linked : linkedLabels rt s v.independentLabelId message = .ok (primary, independent))
      (differs : strip v.adjudicatorId ≠ primary.reviewerId ∧
        strip v.adjudicatorId ≠ independent.reviewerId) :
      Drafted rt s (.adjudicate v) (v.draft primary independent)

/-- The independent label whose disagreements a call may record. -/
def Call.compared : Call → Option Uuid
  | .recordMaterialDisagreements id | .approvedFinalLabel id => some id
  | _ => none

/-- What a call may leave behind. -/
inductive Effect (rt : Runtime) (s : Store) (i : Call × Weather) : Store → Prop
  | nothing : Effect rt s i s
  | attested {row : Attestation} (trimmed : Trimmed row.reviewerId) :
      Effect rt s i { s with attestations := s.attestations ++ [row] }
  | labelled {d : Draft} {label : Label} {adjudications : List Adjudication}
      (drafted : Drafted rt s i.1 d)
      (made : newLabel rt s d (i.2.newId 0) (i.2.now 0) = .ok label)
      (fresh : ∀ l ∈ s.labels, label.clashes l = false)
      (resolved : ∀ a ∈ adjudications, d.role = .adjudicated ∧ a.adjudicatedLabelId = label.id ∧
        a.adjudicatorId = label.reviewerId ∧ ∃ x ∈ s.disagreements, a.disagreementId = x.id ∧
          label.primaryLabelId = some x.primaryLabelId) :
      Effect rt s i { s with
        labels := s.labels ++ [label]
        adjudications := s.adjudications ++ adjudications }
  | disagreed {id : Uuid} {message : String} {primary independent : Label}
      {made : List Disagreement} (compared : i.1.compared = some id)
      (linked : linkedLabels rt s id message = .ok (primary, independent))
      (rows : ∀ d ∈ made, d.isOf primary.id independent.id = true) :
      Effect rt s i { s with disagreements := s.disagreements ++ made }

/-- The checks of `adjudicate` before the final label. -/
theorem prepareAdjudication_ok {rt : Runtime} {s : Store} {v : Verdict} {id : Uuid} {now : Nat}
    {label : Label} {material : List Disagreement} :
    prepareAdjudication rt s v id now = .ok (label, material) ↔
      ∃ primary independent,
        linkedLabels rt s v.independentLabelId "Only an independent label can be adjudicated" =
          .ok (primary, independent) ∧
        (strip v.adjudicatorId ≠ primary.reviewerId ∧
          strip v.adjudicatorId ≠ independent.reviewerId) ∧
        attestationFor s v.adjudicatorAttestationId v.adjudicatorId primary.datasetVersion
          primary.rubricVersion false = .ok () ∧
        material = (s.listDisagreements primary.id independent.id).filter (·.material) ∧
        material ≠ [] ∧
        sameIds (v.rationales.map (·.1)) (material.map (·.id)) = true ∧
        (∀ d ∈ material, s.listAdjudications d.id = []) ∧
        newLabel rt s (v.draft primary independent) id now = .ok label := by
  constructor
  · intro h
    obtain ⟨⟨primary, independent⟩, linked, h⟩ := bind_ok.mp h
    obtain ⟨_, differs, h⟩ := bind_ok.mp h
    obtain ⟨⟨⟩, attested, h⟩ := bind_ok.mp h
    obtain ⟨_, some, h⟩ := bind_ok.mp h
    obtain ⟨_, ids, h⟩ := bind_ok.mp h
    obtain ⟨_, open', h⟩ := bind_ok.mp h
    obtain ⟨made, written, h⟩ := bind_ok.mp h
    obtain ⟨rfl, rfl⟩ := Prod.mk.inj (Except.ok.inj h)
    refine ⟨primary, independent, linked, ?_, attested, rfl, ?_, ?_, ?_, written⟩
    · simpa using rejectIf_ok.mp differs
    · simpa using rejectIf_ok.mp some
    · simpa using rejectIf_ok.mp ids
    · simpa using rejectIf_ok.mp open'
  · rintro ⟨primary, independent, linked, differs, attested, rfl, some, ids, open', written⟩
    refine bind_ok.mpr ⟨_, linked, ?_⟩
    refine bind_ok.mpr ⟨(), rejectIf_ok.mpr (by simpa using differs), ?_⟩
    refine bind_ok.mpr ⟨(), attested, ?_⟩
    refine bind_ok.mpr ⟨(), rejectIf_ok.mpr (by simpa using some), ?_⟩
    refine bind_ok.mpr ⟨(), rejectIf_ok.mpr (by simpa using ids), ?_⟩
    refine bind_ok.mpr ⟨(), rejectIf_ok.mpr (by simpa using open'), ?_⟩
    exact bind_ok.mpr ⟨label, written, rfl⟩

theorem prepareIndependent_ok {rt : Runtime} {s : Store} {r : IndependentReview} {primary : Label} :
    prepareIndependent rt s r = .ok primary ↔
      lockedPrimary rt s r.caseId r.subjectKind r.subjectId = .ok primary ∧
        strip r.reviewerId ≠ primary.reviewerId ∧
        attestationFor s r.reviewerAttestationId r.reviewerId primary.datasetVersion
          primary.rubricVersion true = .ok () := by
  constructor
  · intro h
    obtain ⟨label, locked, h⟩ := bind_ok.mp h
    obtain ⟨_, differs, h⟩ := bind_ok.mp h
    obtain ⟨⟨⟩, attested, h⟩ := bind_ok.mp h
    obtain rfl := Except.ok.inj h
    exact ⟨locked, by simpa using rejectIf_ok.mp differs, attested⟩
  · rintro ⟨locked, differs, attested⟩
    refine bind_ok.mpr ⟨primary, locked, ?_⟩
    refine bind_ok.mpr ⟨(), rejectIf_ok.mpr (by simpa using differs), ?_⟩
    exact bind_ok.mpr ⟨(), attested, rfl⟩

theorem createLabel_effect (rt : Runtime) (s : Store) (i : Call × Weather) {d : Draft}
    (drafted : Drafted rt s i.1 d) : Effect rt s i (createLabel rt s i.2 d).2 := by
  rw [createLabel]
  cases made : newLabel rt s d (i.2.newId 0) (i.2.now 0) with
  | error e => exact .nothing
  | ok label =>
    rcases createLabel_cases rt s (i.2.fails 0) label with refused | ⟨fresh, written⟩
    · simp only [refused]
      exact .nothing
    · simp only [written]
      have effect : Effect rt s i { s with
          labels := s.labels ++ [label]
          adjudications := s.adjudications ++ [] } := .labelled drafted made fresh (by simp)
      rwa [List.append_nil] at effect

theorem record_effect (rt : Runtime) (s : Store) (i : Call × Weather) {id : Uuid}
    (compared : i.1.compared = some id) :
    Effect rt s i (recordMaterialDisagreements rt s i.2 id).2 := by
  rw [recordMaterialDisagreements]
  split
  · exact .nothing
  · rename_i primary independent linked
    split
    · exact .nothing
    · split
      · exact .nothing
      · exact .nothing
      · rename_i primaryLabels independentLabels _ _
        obtain ⟨made, after, rows⟩ := createDisagreements_effect i.2 (newDisagreement rt primary
          independent (flattenLabels primaryLabels) (flattenLabels independentLabels)) 0
          (differingPaths (flattenLabels primaryLabels) (flattenLabels independentLabels)) s
        rw [after]
        refine .disagreed compared linked fun d hd => ?_
        obtain ⟨path, id, now, row⟩ := rows d hd
        obtain ⟨_, -, row⟩ := bind_ok.mp row
        obtain ⟨_, -, row⟩ := bind_ok.mp row
        obtain rfl := Except.ok.inj row
        simp [Disagreement.isOf]

theorem adjudicate_effect (rt : Runtime) (s : Store) (w : Weather) (v : Verdict) :
    Effect rt s (.adjudicate v, w) (adjudicate rt s w v).2 := by
  rw [adjudicate]
  cases prepared : prepareAdjudication rt s v (w.newId 0) (w.now 0) with
  | error e => exact .nothing
  | ok p =>
    obtain ⟨label, material⟩ := p
    obtain ⟨primary, independent, linked, differs, -, rows, -, -, -, written⟩ :=
      prepareAdjudication_ok.mp prepared
    obtain ⟨-, new, readBack⟩ := newLabel_ok written
    rcases createLabel_cases rt s (w.fails 0) label with refused | ⟨fresh, made⟩
    · simp only [refused]
      exact .nothing
    · obtain ⟨adjudications, after, each⟩ := createAdjudications_effect w v label 1 material
        { s with labels := s.labels ++ [label] }
      have drafted : Drafted rt s (.adjudicate v) (v.draft primary independent) :=
        .adjudicated v linked differs
      have resolved : ∀ a ∈ adjudications, (v.draft primary independent).role = .adjudicated ∧
          a.adjudicatedLabelId = label.id ∧ a.adjudicatorId = label.reviewerId ∧
            ∃ x ∈ s.disagreements, a.disagreementId = x.id ∧
              label.primaryLabelId = some x.primaryLabelId := by
        intro a ha
        obtain ⟨written, author, x, hx, about⟩ := each a ha
        rw [rows] at hx
        have listed := List.mem_filter.mp (mem_olderFirst.mp (List.mem_filter.mp hx).1)
        have pair : x.primaryLabelId = primary.id := by
          have := listed.2
          simp only [Disagreement.isOf, Bool.and_eq_true, decide_eq_true_eq] at this
          exact this.1
        refine ⟨rfl, written, author.trans new.reviewer.symm, x, listed.1, about, ?_⟩
        rw [new.primary, pair]
        rfl
      have effect := Effect.labelled (i := (.adjudicate v, w)) drafted written fresh resolved
      simp only [made, readBack]
      cases rest : createAdjudications w v label 1 material
          { s with labels := s.labels ++ [label] } with
      | mk outcome s' =>
        rw [rest] at after
        simp only at after
        subst after
        cases outcome <;> exact effect

/-- Besides recording the disagreements of the pair, `approved_final_label` only reads. -/
theorem approved_store (rt : Runtime) (s : Store) (w : Weather) (id : Uuid) :
    (approvedFinalLabel rt s w id).2 = s ∨
      (approvedFinalLabel rt s w id).2 = (recordMaterialDisagreements rt s w id).2 := by
  rw [approvedFinalLabel]
  split
  · exact .inl rfl
  · rename_i primary independent linked
    rw [labelOf_id (linkedLabels_ok.mp linked).1]
    right
    cases recordMaterialDisagreements rt s w id with
    | mk outcome after =>
      cases outcome with
      | error e => rfl
      | ok disagreements =>
        simp only
        split
        · rfl
        · split
          · rfl
          · split
            · rfl
            · split <;> rfl

theorem step_effect (rt : Runtime) (s : Store) (i : Call × Weather) :
    Effect rt s i (step rt s i) := by
  obtain ⟨call, w⟩ := i
  cases call with
  | recordAttestation =>
    simp only [step, recordAttestation]
    split
    · exact .nothing
    · rename_i attestation made
      obtain ⟨reviewerId, text, made⟩ := bind_ok.mp made
      obtain ⟨_, -, made⟩ := bind_ok.mp made
      obtain ⟨_, -, made⟩ := bind_ok.mp made
      obtain ⟨_, -, made⟩ := bind_ok.mp made
      obtain rfl := Except.ok.inj made
      rw [Store.createAttestation]
      split
      · exact .nothing
      · exact .attested (requireText_trimmed text)
  | submitPrimary r =>
    simp only [step, submitPrimary]
    split
    · exact .nothing
    · exact createLabel_effect rt s (.submitPrimary r, w) (.primary r)
  | submitIndependent r =>
    simp only [step, submitIndependent]
    split
    · exact .nothing
    · rename_i primary prepared
      obtain ⟨locked, differs, -⟩ := prepareIndependent_ok.mp prepared
      exact createLabel_effect rt s (.submitIndependent r, w) (.independent r locked differs)
  | recordMaterialDisagreements id => exact record_effect rt s _ rfl
  | adjudicate v => exact adjudicate_effect rt s w v
  | approvedFinalLabel id =>
    change Effect rt s _ (approvedFinalLabel rt s w id).2
    rcases approved_store rt s w id with same | compared
    · rw [same]
      exact .nothing
    · rw [compared]
      exact record_effect rt s (.approvedFinalLabel id, w) rfl

end QaCopilot.Reviews
