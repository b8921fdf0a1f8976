import QaCopilot.Lib.Escapes
import QaCopilot.Evaluation.LabelCompleteness

/-!
# What escapes the label verification

The verification rejects a manifest or returns its result, but for two kinds of entry of the
holdout access log. One lists a value that `str` cannot write. The other names a held-out case
that has no label: the log is read before the labels are known to cover the suite.

* `verification_closed_iff`: nothing escapes exactly when the log has no such entry in reach.
-/

namespace QaCopilot.Evaluation.LabelCompleteness

open Python Results

/-- What the verification declares to raise. -/
def Failure.Rejects (f : Failure) : Prop := ∃ message, f = .rejected message

theorem escapes_check {α : Type} (x : Checked α) : ¬ Escapes Failure.Rejects (check x) :=
  escapes_mapError fun message => ⟨message, rfl⟩

theorem escapes_check_bind {α β : Type} {x : Checked α} {f : α → Verified β} :
    Escapes Failure.Rejects (check x >>= f) ↔ ∃ a, x = .ok a ∧ Escapes Failure.Rejects (f a) := by
  rw [escapes_bind]
  constructor
  · rintro (h | ⟨a, made, h⟩)
    · exact absurd h (escapes_check x)
    · exact ⟨a, mapError_ok.mp made, h⟩
  · rintro ⟨a, made, h⟩
    exact .inr ⟨a, mapError_ok.mpr made, h⟩

theorem rejectWhen_ok {c : Bool} {text : Str} : rejectWhen c text = .ok () ↔ c = false := by
  cases c <;> simp [rejectWhen, reject]

/-! ## Entries of the log -/

/-- The review of a label whose reviewer the accessor of a case has to be. -/
def AccessPurpose.reviewKey : AccessPurpose → Option String
  | .ownerLabeling => none
  | .releaseCandidateAssessment => some "primary"
  | .independentReview => some "independent"

/-- The label names the accessor as the reviewer. -/
def ReviewedBy (accessor : Str) (key : String) (label : Fields) : Prop :=
  ∃ review, (label.get key).fields? = some review ∧
    (review.get "reviewer_id").str? = some accessor

/-- A held-out case, whose label names the accessor where the purpose asks for it. -/
def Accessible (context : AccessContext) (event : AccessEvent) (rawCaseId : Object) : Prop :=
  ∃ caseId, rawCaseId.str? = some caseId ∧ isHoldout context.suite caseId = true ∧
    ∀ key, event.purpose.reviewKey = some key → ∃ case label,
      context.labels.get? caseId = some (case, label) ∧ ReviewedBy event.accessor key label

/-- A held-out case without a label that the purpose asks for. -/
def Unlabelled (context : AccessContext) (event : AccessEvent) (rawCaseId : Object) : Prop :=
  ∃ caseId, rawCaseId.str? = some caseId ∧ isHoldout context.suite caseId = true ∧
    event.purpose ≠ .ownerLabeling ∧ context.labels.get? caseId = none

/-- The case ids can be written, there are some, and they differ. -/
def DistinctIds (show' : Object → Option Str) (rawCaseIds : List Object) : Prop :=
  rawCaseIds ≠ [] ∧ ∃ texts, rawCaseIds.mapM (strOf show') = some texts ∧ texts.Nodup

/-- An entry that the log accepts after entries with these ids. -/
structure Accepted (context : AccessContext) (eventIds : List Str) (rawEvent : Object)
    (event : AccessEvent) : Prop where
  read : readEvent context.reviewMode eventIds rawEvent = .ok event
  distinct : DistinctIds context.show' event.rawCaseIds
  accessible : ∀ rawCaseId ∈ event.rawCaseIds, Accessible context event rawCaseId
  candidate : checkCandidate context.candidate event = .ok ()

/-- Entries that the log accepts, and their ids, the last first. -/
inductive AllAccepted (context : AccessContext) : List Object → List Str → Prop where
  | start : AllAccepted context [] []
  | next {before eventIds rawEvent event} : AllAccepted context before eventIds →
      Accepted context eventIds rawEvent event →
      AllAccepted context (before ++ [rawEvent]) (event.eventId :: eventIds)

/-- An entry that lists a value that `str` cannot write, or, after cases that are in order, a case
that has no label. -/
inductive Stray (context : AccessContext) (event : AccessEvent) : Prop where
  | unprintable {rawCaseId : Object} (listed : rawCaseId ∈ event.rawCaseIds)
      (none' : strOf context.show' rawCaseId = none)
  | unlabelled {before after : List Object} {rawCaseId : Object}
      (ids : event.rawCaseIds = before ++ rawCaseId :: after)
      (distinct : DistinctIds context.show' event.rawCaseIds)
      (accessible : ∀ earlier ∈ before, Accessible context event earlier)
      (absent : Unlabelled context event rawCaseId)

/-- The first entry of the log that is not accepted is a stray one. -/
def StrayInReach (context : AccessContext) (events : List Object) : Prop :=
  ∃ before rawEvent after eventIds event, events = before ++ rawEvent :: after ∧
    AllAccepted context before eventIds ∧
    readEvent context.reviewMode eventIds rawEvent = .ok event ∧ Stray context event

/-! ## Cases -/

section
variable {context : AccessContext} {event : AccessEvent} {log : AccessLog}

theorem requireHoldout_ok {suite : EvaluationCaseSuite} {eventId caseId : Str}
    {rawCaseId : Object} : requireHoldout suite eventId rawCaseId = .ok caseId ↔
      rawCaseId.str? = some caseId ∧ isHoldout suite caseId = true := by
  unfold requireHoldout
  cases rawCaseId.str? with
  | none => simp [reject]
  | some id =>
    by_cases held : isHoldout suite id
    · simp only [held, if_true, Except.ok.injEq, Option.some.injEq]
      constructor
      · rintro rfl
        exact ⟨rfl, held⟩
      · exact And.left
    · simp only [held, Bool.false_eq_true, if_false, reject, reduceCtorEq, Option.some.injEq,
        false_iff, not_and]
      rintro rfl
      exact held

theorem mapping_ok {value : Object} {description : Str} {fields : Fields} :
    mapping value description = .ok fields ↔ value.fields? = some fields := by
  unfold mapping
  cases value.fields? <;> simp [reject]

theorem labelOf_ok {labels : ByCase} {caseId : Str} {label : Fields} :
    labelOf labels caseId = .ok label ↔ ∃ case, labels.get? caseId = some (case, label) := by
  unfold labelOf
  cases labels.get? caseId with
  | none => simp
  | some found =>
    obtain ⟨case, record⟩ := found
    simp

theorem checkAccessor_ok {labels : ByCase} {key : String} {text accessor caseId : Str} :
    checkAccessor labels key text accessor caseId = .ok () ↔
      ∃ case label, labels.get? caseId = some (case, label) ∧ ReviewedBy accessor key label := by
  rw [checkAccessor, bind_ok, exists_comm]
  refine exists_congr fun label => ?_
  rw [labelOf_ok, ← exists_and_right]
  refine exists_congr fun case => and_congr_right fun _ => ?_
  rw [bind_ok]
  refine exists_congr fun review => ?_
  rw [check, check, mapError_ok, mapError_ok, requireMapping, mapping_ok, rejectWhen_ok,
    Bool.not_eq_false', isText, decide_eq_true_eq]

theorem checkAccessor_escapes {labels : ByCase} {key : String} {text accessor caseId : Str} :
    Escapes Failure.Rejects (checkAccessor labels key text accessor caseId) ↔
      labels.get? caseId = none := by
  have checked : ∀ label : Fields, ¬ Escapes Failure.Rejects (do
      let review ← check (requireMapping label key (lit "Label " ++ caseId))
      check (rejectWhen (!isText (review.get "reviewer_id") accessor) (text ++ caseId))) := by
    intro label h
    obtain ⟨review, -, h⟩ := escapes_check_bind.mp h
    exact escapes_check _ h
  rw [checkAccessor, escapes_bind, labelOf]
  cases labels.get? caseId with
  | none => simp [Failure.Rejects]
  | some found => simp [checked]

/-- What is left of a step whose only check is that of the accessor. -/
theorem checkAccessor_then_escapes {α : Type} {a : α} {labels : ByCase} {key : String}
    {text accessor caseId : Str} :
    Escapes Failure.Rejects (do
      checkAccessor labels key text accessor caseId
      return a) ↔ labels.get? caseId = none := by
  rw [escapes_bind, checkAccessor_escapes]
  simp [pure, Except.pure]

theorem accessCase_escapes {rawCaseId : Object} :
    Escapes Failure.Rejects (accessCase context event log rawCaseId) ↔
      Unlabelled context event rawCaseId := by
  rw [accessCase, escapes_check_bind]
  refine exists_congr fun caseId => ?_
  rw [requireHoldout_ok, and_assoc]
  refine and_congr_right fun _ => and_congr_right fun _ => ?_
  cases purpose : event.purpose with
  | ownerLabeling => simp [pure, Except.pure]
  | releaseCandidateAssessment =>
    simp only [ne_eq, reduceCtorEq, not_false_eq_true, true_and]
    exact checkAccessor_then_escapes
  | independentReview =>
    simp only [ne_eq, reduceCtorEq, not_false_eq_true, true_and]
    exact checkAccessor_then_escapes

/-- A case passes whatever the log is, and leaves its entries as they are. -/
theorem accessCase_ok {rawCaseId : Object} {after : AccessLog}
    (passed : accessCase context event log rawCaseId = .ok after) :
    Accessible context event rawCaseId ∧ after.eventIds = log.eventIds := by
  obtain ⟨caseId, held, passed⟩ := bind_ok.mp passed
  obtain ⟨text, held⟩ := requireHoldout_ok.mp (mapError_ok.mp held)
  cases purpose : event.purpose with
  | ownerLabeling =>
    simp only [purpose] at passed
    obtain rfl := Except.ok.inj passed
    exact ⟨⟨caseId, text, held, by simp [purpose, AccessPurpose.reviewKey]⟩, rfl⟩
  | releaseCandidateAssessment =>
    simp only [purpose] at passed
    obtain ⟨⟨⟩, checked, passed⟩ := bind_ok.mp passed
    obtain rfl := Except.ok.inj passed
    refine ⟨⟨caseId, text, held, ?_⟩, rfl⟩
    rw [purpose]
    rintro key ⟨⟩
    exact checkAccessor_ok.mp checked
  | independentReview =>
    simp only [purpose] at passed
    obtain ⟨⟨⟩, checked, passed⟩ := bind_ok.mp passed
    obtain rfl := Except.ok.inj passed
    refine ⟨⟨caseId, text, held, ?_⟩, rfl⟩
    rw [purpose]
    rintro key ⟨⟩
    exact checkAccessor_ok.mp checked

theorem Accessible.passes {rawCaseId : Object} (accessible : Accessible context event rawCaseId) :
    ∃ after, accessCase context event log rawCaseId = .ok after := by
  obtain ⟨caseId, text, held, reviewed⟩ := accessible
  have known : check (requireHoldout context.suite event.eventId rawCaseId) = .ok caseId :=
    mapError_ok.mpr (requireHoldout_ok.mpr ⟨text, held⟩)
  rw [accessCase, known, ok_bind]
  cases purpose : event.purpose with
  | ownerLabeling => exact ⟨_, rfl⟩
  | releaseCandidateAssessment =>
    rw [purpose] at reviewed
    rw [checkAccessor_ok.mpr (reviewed _ rfl)]
    exact ⟨_, rfl⟩
  | independentReview =>
    rw [purpose] at reviewed
    rw [checkAccessor_ok.mpr (reviewed _ rfl)]
    exact ⟨_, rfl⟩

theorem accessCases_ok {rawCaseIds : List Object} {after : AccessLog}
    (passed : rawCaseIds.foldlM (accessCase context event) log = .ok after) :
    (∀ rawCaseId ∈ rawCaseIds, Accessible context event rawCaseId) ∧
      after.eventIds = log.eventIds := by
  induction rawCaseIds generalizing log with
  | nil =>
    obtain rfl := Except.ok.inj passed
    exact ⟨fun _ h => (nomatch h), rfl⟩
  | cons rawCaseId rest ih =>
    rw [List.foldlM_cons] at passed
    obtain ⟨next, first, passed⟩ := bind_ok.mp passed
    obtain ⟨accessible, kept⟩ := accessCase_ok first
    obtain ⟨later, same⟩ := ih passed
    exact ⟨List.forall_mem_cons.mpr ⟨accessible, later⟩, same.trans kept⟩

theorem accessCases_pass {rawCaseIds : List Object}
    (accessible : ∀ rawCaseId ∈ rawCaseIds, Accessible context event rawCaseId) :
    ∃ after, rawCaseIds.foldlM (accessCase context event) log = .ok after := by
  induction rawCaseIds generalizing log with
  | nil => exact ⟨log, rfl⟩
  | cons rawCaseId rest ih =>
    obtain ⟨first, later⟩ := List.forall_mem_cons.mp accessible
    obtain ⟨next, passed⟩ := first.passes
    obtain ⟨after, done⟩ := ih later
    refine ⟨after, ?_⟩
    rw [List.foldlM_cons, passed]
    exact done

/-! ## Entries -/

theorem caseTexts_ok {show' : Object → Option Str} {rawCaseIds : List Object} {texts : List Str} :
    caseTexts show' rawCaseIds = .ok texts ↔ rawCaseIds.mapM (strOf show') = some texts := by
  unfold caseTexts
  cases rawCaseIds.mapM (strOf show') <;> simp

theorem mapM_eq_none {α β : Type} {f : α → Option β} {as : List α} :
    as.mapM f = none ↔ ∃ a ∈ as, f a = none := by
  induction as with
  | nil => simp
  | cons a as ih =>
    have head : (∃ b ∈ a :: as, f b = none) ↔ f a = none ∨ as.mapM f = none := by
      rw [ih]
      simp only [List.mem_cons, or_and_right, exists_or, exists_eq_left]
    rw [List.mapM_cons, head]
    cases f a <;> cases as.mapM f <;> simp

theorem caseTexts_escapes {show' : Object → Option Str} {rawCaseIds : List Object} :
    Escapes Failure.Rejects (caseTexts show' rawCaseIds) ↔
      ∃ rawCaseId ∈ rawCaseIds, strOf show' rawCaseId = none := by
  rw [← mapM_eq_none, caseTexts]
  cases rawCaseIds.mapM (strOf show') <;> simp [Failure.Rejects]

theorem distinctIds_iff {show' : Object → Option Str} {rawCaseIds : List Object} (text : Str) :
    DistinctIds show' rawCaseIds ↔ ∃ texts, caseTexts show' rawCaseIds = .ok texts ∧
      rejectWhen (rawCaseIds.isEmpty || !decide texts.Nodup) text = .ok () := by
  simp only [DistinctIds, caseTexts_ok, rejectWhen_ok, Bool.or_eq_false_iff,
    List.isEmpty_eq_false_iff, Bool.not_eq_false', decide_eq_true_eq]
  constructor
  · rintro ⟨some', texts, written, distinct⟩
    exact ⟨texts, written, some', distinct⟩
  · rintro ⟨texts, written, some', distinct⟩
    exact ⟨some', texts, written, distinct⟩

theorem recordEvent_ok {rawEvent : Object} {after : AccessLog}
    (recorded : recordEvent context log rawEvent = .ok after) : ∃ event,
      Accepted context log.eventIds rawEvent event ∧
        after.eventIds = event.eventId :: log.eventIds := by
  obtain ⟨event, read, recorded⟩ := bind_ok.mp recorded
  obtain ⟨texts, written, recorded⟩ := bind_ok.mp recorded
  obtain ⟨⟨⟩, distinct, recorded⟩ := bind_ok.mp recorded
  obtain ⟨accessed, passed, recorded⟩ := bind_ok.mp recorded
  obtain ⟨⟨⟩, candidate, recorded⟩ := bind_ok.mp recorded
  obtain rfl := Except.ok.inj recorded
  obtain ⟨accessible, kept⟩ := accessCases_ok passed
  exact ⟨event, ⟨mapError_ok.mp read, (distinctIds_iff _).mpr ⟨texts, written, mapError_ok.mp distinct⟩,
    accessible, mapError_ok.mp candidate⟩, kept⟩

theorem Accepted.recorded {rawEvent : Object}
    (accepted : Accepted context log.eventIds rawEvent event) :
    ∃ after, recordEvent context log rawEvent = .ok after ∧
      after.eventIds = event.eventId :: log.eventIds := by
  obtain ⟨texts, written, distinct⟩ := (distinctIds_iff _).mp accepted.distinct
  obtain ⟨after, passed⟩ := accessCases_pass accepted.accessible
  exact ⟨after, bind_ok.mpr ⟨event, mapError_ok.mpr accepted.read, bind_ok.mpr ⟨texts, written,
    bind_ok.mpr ⟨(), mapError_ok.mpr distinct, bind_ok.mpr ⟨after, passed,
      bind_ok.mpr ⟨(), mapError_ok.mpr accepted.candidate, rfl⟩⟩⟩⟩⟩, (accessCases_ok passed).2⟩

theorem recordEvent_escapes {rawEvent : Object} :
    Escapes Failure.Rejects (recordEvent context log rawEvent) ↔ ∃ event,
      readEvent context.reviewMode log.eventIds rawEvent = .ok event ∧ Stray context event := by
  rw [recordEvent, escapes_check_bind]
  refine exists_congr fun event => and_congr_right fun _ => ?_
  rw [escapes_bind, caseTexts_escapes]
  constructor
  · rintro (⟨rawCaseId, listed, none'⟩ | ⟨texts, written, escapes⟩)
    · exact .unprintable listed none'
    · obtain ⟨⟨⟩, distinct, escapes⟩ := escapes_check_bind.mp escapes
      rcases escapes_bind.mp escapes with escapes | ⟨accessed, -, escapes⟩
      · obtain ⟨before, rawCaseId, after, reached, ids, passed, escapes⟩ :=
          escapes_foldlM.mp escapes
        exact .unlabelled ids ((distinctIds_iff _).mpr ⟨texts, written, distinct⟩)
          (accessCases_ok passed).1 (accessCase_escapes.mp escapes)
      · obtain ⟨⟨⟩, -, escapes⟩ := escapes_check_bind.mp escapes
        exact absurd escapes (escapes_ok accessed)
  · intro stray
    cases stray with
    | unprintable listed none' => exact .inl ⟨_, listed, none'⟩
    | unlabelled ids distinct accessible absent =>
      obtain ⟨texts, written, distinct⟩ := (distinctIds_iff _).mp distinct
      obtain ⟨reached, passed⟩ := accessCases_pass accessible
      exact .inr ⟨texts, written, escapes_check_bind.mpr ⟨(), distinct, escapes_bind.mpr
        (.inl (escapes_foldlM.mpr ⟨_, _, _, reached, ids, passed,
          accessCase_escapes.mpr absent⟩))⟩⟩

/-! ## The log -/

theorem recordEvents_ok {events : List Object} {after : AccessLog}
    (recorded : events.foldlM (recordEvent context) .empty = .ok after) :
    AllAccepted context events after.eventIds := by
  induction events using List.reverseRecOn generalizing after with
  | nil =>
    obtain rfl := Except.ok.inj recorded
    exact .start
  | append_singleton events rawEvent ih =>
    obtain ⟨log, before, recorded⟩ := foldlM_append_ok.mp recorded
    have last : recordEvent context log rawEvent = .ok after := by simpa using recorded
    obtain ⟨event, accepted, ids⟩ := recordEvent_ok last
    rw [ids]
    exact .next (ih before) accepted

theorem AllAccepted.recorded {events : List Object} {eventIds : List Str}
    (accepted : AllAccepted context events eventIds) :
    ∃ after, events.foldlM (recordEvent context) .empty = .ok after ∧
      after.eventIds = eventIds := by
  induction accepted with
  | start => exact ⟨.empty, rfl, rfl⟩
  | next _ last ih =>
    obtain ⟨log, before, rfl⟩ := ih
    obtain ⟨after, recorded, ids⟩ := last.recorded
    exact ⟨after, foldlM_append_ok.mpr ⟨log, before, bind_ok.mpr ⟨after, recorded, rfl⟩⟩, ids⟩

theorem validateHoldoutAccess_escapes {manifest : Fields} :
    Escapes Failure.Rejects (validateHoldoutAccess manifest context) ↔
      ∃ events, accessEvents manifest = .ok events ∧ StrayInReach context events := by
  rw [validateHoldoutAccess, escapes_check_bind]
  refine exists_congr fun events => and_congr_right fun _ => ?_
  rw [escapes_bind]
  constructor
  · rintro (escapes | ⟨log, -, escapes⟩)
    · obtain ⟨before, rawEvent, after, log, split, recorded, escapes⟩ := escapes_foldlM.mp escapes
      obtain ⟨event, read, stray⟩ := recordEvent_escapes.mp escapes
      exact ⟨before, rawEvent, after, log.eventIds, event, split, recordEvents_ok recorded, read,
        stray⟩
    · obtain ⟨⟨⟩, -, escapes⟩ := escapes_check_bind.mp escapes
      exact absurd escapes (escapes_ok _)
  · rintro ⟨before, rawEvent, after, eventIds, event, split, accepted, read, stray⟩
    obtain ⟨log, recorded, rfl⟩ := accepted.recorded
    exact .inl (escapes_foldlM.mpr ⟨before, rawEvent, after, log, split, recorded,
      recordEvent_escapes.mpr ⟨event, read, stray⟩⟩)

end

/-! ## The verification -/

section
variable {show' : Object → Option Str} {path : Str} {document : Document} {selection : Fields}
  {suite : EvaluationCaseSuite}

/-- The manifest is of the second version and passes the checks before its access log, whose first
entry that is not accepted is a stray one. -/
def Strays (show' : Object → Option Str) (selection : Fields) (suite : EvaluationCaseSuite)
    (manifest : Fields) : Prop :=
  ∃ p events, prepare show' manifest selection suite = .ok p ∧ p.header.isV2 = true ∧
    accessEvents manifest = .ok events ∧ StrayInReach p.context events

theorem loadMapping_escapes {description : Str} :
    Escapes Failure.Rejects (loadMapping path document description) ↔ document = .unloadable := by
  cases document with
  | unloadable => simp [loadMapping, Failure.Rejects]
  | missing => exact iff_of_false (escapes_check _) (by simp)
  | invalid => exact iff_of_false (escapes_check _) (by simp)
  | loaded value => exact iff_of_false (escapes_check _) (by simp)

theorem loadMapping_ok {description : Str} {fields : Fields} :
    loadMapping path document description = .ok fields ↔
      ∃ value, document = .loaded value ∧ value.fields? = some fields := by
  cases document with
  | unloadable => simp [loadMapping]
  | missing => simp [loadMapping, check, reject, Except.mapError]
  | invalid => simp [loadMapping, check, reject, Except.mapError]
  | loaded value => simp [loadMapping, check, mapError_ok, mapping_ok]

theorem accessEventCount_escapes {manifest : Fields} {p : Prepared} :
    Escapes Failure.Rejects (accessEventCount manifest p) ↔ p.header.isV2 = true ∧
      ∃ events, accessEvents manifest = .ok events ∧ StrayInReach p.context events := by
  unfold accessEventCount
  by_cases v2 : p.header.isV2 = true
  · rw [if_pos v2, validateHoldoutAccess_escapes]
    exact (and_iff_right v2).symm
  · rw [if_neg v2]
    exact iff_of_false (escapes_ok 0) (fun h => v2 h.1)

theorem verification_escapes :
    Escapes Failure.Rejects
        (verifyLabelCompletenessAndAdjudication show' path document selection suite) ↔
      document = .unloadable ∨ ∃ value manifest, document = .loaded value ∧
        value.fields? = some manifest ∧ Strays show' selection suite manifest := by
  rw [verifyLabelCompletenessAndAdjudication, escapes_bind, loadMapping_escapes, exists_comm]
  refine or_congr_right (exists_congr fun manifest => ?_)
  rw [loadMapping_ok, ← exists_and_right]
  refine exists_congr fun value => ?_
  rw [and_assoc, escapes_check_bind]
  refine and_congr_right fun _ => and_congr_right fun _ => exists_congr fun p => ?_
  rw [escapes_bind, accessEventCount_escapes]
  constructor
  · rintro ⟨prepared, ⟨v2, events, listed, stray⟩ | ⟨count, -, escapes⟩⟩
    · exact ⟨events, prepared, v2, listed, stray⟩
    · exact absurd escapes (escapes_check _)
  · rintro ⟨events, prepared, v2, listed, stray⟩
    exact ⟨prepared, .inl ⟨v2, events, listed, stray⟩⟩

/-- Nothing but its own rejection escapes the verification exactly when the manifest is read
without such an error, and is none of the second version with a stray entry in its access log. -/
theorem verification_closed_iff :
    (∀ f, verifyLabelCompletenessAndAdjudication show' path document selection suite = .error f →
        ∃ message, f = .rejected message) ↔
      document ≠ .unloadable ∧ ∀ value manifest, document = .loaded value →
        value.fields? = some manifest → ¬ Strays show' selection suite manifest := by
  apply Iff.trans (b := ¬ Escapes Failure.Rejects _) closed_iff
  rw [verification_escapes]
  push Not
  rfl

end

/-! ## A manifest that is not rejected -/

def record (items : List (String × Object)) : Object :=
  .dict (items.map fun item => (.str (lit item.1), item.2))

def text (s : String) : Object := .str (lit s)

def sampleDigest : Object := .str (List.replicate 64 (CodePoint.ofChar 'a'))

def sampleCaseId (n : Nat) : Str := lit "EVAL-" ++ padded 3 n

/-- The cases 1 to 100: the last forty are for validation and held out. -/
def sampleCase (n : Nat) : EvaluationCase where
  id := sampleCaseId n
  version := 1
  split := if n ≤ 60 then lit "development" else if n ≤ 80 then lit "validation" else lit "holdout"
  category := lit "requirement_quality"
  tags := []
  criticality := lit "high"
  runMode := lit "analysis"
  sideEffectSchema := sideEffectsSchemaVersion
  inputs := ⟨[], [], []⟩
  expected := ⟨[], [], [], [], .empty, [], .int 0⟩

def sampleSuite : EvaluationCaseSuite where
  schemaVersion := evaluationCasesSchemaVersion
  suiteId := lit "evaluation-corpus/v1"
  cases := (List.range' 1 100).map sampleCase
  distinct := by
    rw [List.map_map]
    refine List.Nodup.map_on ?_ List.nodup_range'
    intro m hm n hn same
    have m_le := List.mem_range'_1.mp hm
    have n_le := List.mem_range'_1.mp hn
    have digits := congrArg ofDigits (List.append_cancel_left same)
    rwa [ofDigits_padded (by omega), ofDigits_padded (by omega)] at digits

def sampleSelection : Fields :=
  [(lit "selection_id", text "SELECTION"), (lit "case_fixture_semantic_sha256", sampleDigest),
    (lit "ground_truth_fixture_semantic_sha256", sampleDigest),
    (lit "selection", record [("recorded_at", text "2026-09-12T00:00:00Z"),
      ("selected_before_candidate_execution", .bool true),
      ("replacement_policy", text "no_replacement")]),
    (lit "selected_cases", .list ((List.range' 71 20).map fun n =>
      record [("case_id", .str (sampleCaseId n))]))]

/-- A v2 manifest without labels whose log records the assessment of a held-out case. -/
def sampleManifest : Object :=
  record [("schema_version", .str internalReviewManifestSchemaVersion),
    ("dataset_version", text "evaluation-corpus/v1"),
    ("release_review_selection_id", text "SELECTION"),
    ("case_fixture_semantic_sha256", sampleDigest),
    ("ground_truth_fixture_semantic_sha256", sampleDigest),
    ("candidate", record [("commit_sha", .str (List.replicate 40 (CodePoint.ofChar 'c'))),
      ("frozen_at", text "2026-09-12T00:00:00Z")]),
    ("review_mode", record [("schema_version", .str reviewModeSchemaVersion),
      ("mode", text "independent"), ("independent_review_status", text "completed"),
      ("disclosure", text "independently_reviewed"), ("external_custody_claimed", .bool false)]),
    ("reviewer_attestations", .list []), ("labels", .list []),
    ("holdout_access", record [("schema_version", .str holdoutAccessSchemaVersion),
      ("events", .list [record [("event_id", text "ACCESS-1"), ("accessor_id", text "owner"),
        ("purpose", text "release_candidate_assessment"),
        ("accessed_at", text "2026-09-12T00:01:00Z"),
        ("case_ids", .list [.str (sampleCaseId 81)])]])])]

theorem sampleManifest_fails :
    verifyLabelCompletenessAndAdjudication (fun _ => none) [] (.loaded sampleManifest)
      sampleSelection sampleSuite = .error (.unlabelled (sampleCaseId 81)) := by
  decide +kernel

theorem unlabelled_case_escapes : ¬ ∀ value manifest, value.fields? = some manifest → ∀ f,
    verifyLabelCompletenessAndAdjudication (fun _ => none) [] (.loaded value) sampleSelection
      sampleSuite = .error f → ∃ message, f = .rejected message := by
  intro closed
  have isMapping : ∃ manifest, sampleManifest.fields? = some manifest := ⟨_, rfl⟩
  obtain ⟨manifest, read⟩ := isMapping
  obtain ⟨message, same⟩ := closed sampleManifest manifest read _ sampleManifest_fails
  cases same

end QaCopilot.Evaluation.LabelCompleteness
