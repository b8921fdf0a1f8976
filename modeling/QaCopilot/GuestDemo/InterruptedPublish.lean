import QaCopilot.GuestDemo.Planning
import QaCopilot.GuestDemo.Writing

/-!
# A plan that is written in part

* `loaded_written`: the archive of a plan that is written is loaded as the state after the plan;
* `interrupted_publication`: an archive whose writes stopped is refused, or loaded as the state before
  the plan or the state after it;
* `demo_planned`: a first publication.
-/

namespace QaCopilot.GuestDemo

open Python Results Interruption

/-- The state after a plan. -/
def SitePlan.after (p : Platform) (plan : SitePlan) (s : ArchiveState) : Except Failure ArchiveState :=
  match plan.historyEntry with
  | none => .ok ⟨plan.publications s, s.history, s.historyBytes⟩
  | some e => do
    return ⟨plan.publications s, s.history ++ [e], some (s.historyBytes.getD [] ++ (← e.toBytes p))⟩

section
variable {p p' : Platform} {release release' : Files} {ids ids' : List Str} {a a' : Archive}
  {s s' : ArchiveState}

/-! ## Two archives -/

theorem oldBytes_entry (loaded : Loaded p release ids a s) :
    oldBytes a.entry = s.historyBytes.getD [] := by
  unfold oldBytes
  split
  · rename_i data there
    rw [(loaded.bytes data).mpr there]
    rfl
  · rename_i other
    cases found : s.historyBytes with
    | none => rfl
    | some data => exact absurd ((loaded.bytes data).mp found) (other data)

/-- A directory is loaded as the same publication from both archives. -/
theorem publications_eq (loaded : Loaded p release ids a s) (loaded' : Loaded p' release' ids' a' s')
    {h : Str} (same : ∀ items, a'.entry h = some (.directory items) ↔ a.entry h = some (.directory items)) :
    s'.publications.get? h = s.publications.get? h := by
  apply Option.ext
  intro files
  rw [loaded'.publications, loaded.publications]
  simp only [same]

/-- The history is loaded from its bytes. -/
theorem history_eq (loaded : Loaded p release ids a s) (loaded' : Loaded p' release' ids' a' s')
    (parses : parseHistory p' = parseHistory p)
    (bytes : s'.historyBytes.getD [] = s.historyBytes.getD []) : s'.history = s.history := by
  have parsed := loaded'.history
  rw [parses, bytes] at parsed
  exact Except.ok.inj (parsed.symm.trans loaded.history)

/-- Archives with the same entries are loaded as the same state. -/
theorem loaded_same (loaded : Loaded p release ids a s) (loaded' : Loaded p' release' ids' a' s')
    (parses : parseHistory p' = parseHistory p) (same : ∀ name, a'.entry name = a.entry name) :
    s'.Same s := by
  have bytes : s'.historyBytes = s.historyBytes := by
    apply Option.ext
    intro data
    rw [loaded'.bytes, loaded.bytes, same]
  refine ⟨fun h name => ?_, history_eq loaded loaded' parses (by rw [bytes]), bytes⟩
  rw [publications_eq loaded loaded' fun items => by rw [same]]

/-- A publication that the history does not record is refused. -/
theorem unrecorded_refused (loaded : Loaded p release ids a s)
    (loaded' : Loaded p' release' ids' a' s') (parses : parseHistory p' = parseHistory p)
    (bytes : s'.historyBytes.getD [] = s.historyBytes.getD []) {h : Str} (digest : isDigest h = true)
    (new : h ∉ s.publications.keys) (there : (a'.entry h).isSome = true) : False := by
  apply new
  rw [← loaded.recorded, ← history_eq loaded loaded' parses bytes, loaded'.recorded, loaded'.mem_keys]
  exact ⟨digest, there⟩

end

/-! ## The archive after a plan -/

section
variable {p p' : Platform} {release release' : Files} {ids ids' : List Str} {d u d' : Disk}
  {s s' : ArchiveState} {plan : SitePlan}

/-- The directories of the archive are those of the plan. -/
def Written (plan : SitePlan) (get : Str → Option Entry) (d : Disk) : Prop :=
  match plan.newPublication with
  | none => Entries get d
  | some files => WithFiles get plan.contentHash files.get? d

theorem written_other {get : Str → Option Entry} (written : Written plan get u) {name : Str}
    (other : name ≠ plan.contentHash) : u.archive.entry name = get name := by
  unfold Written at written
  split at written
  · exact written name
  · exact written.2 name other

/-- What is loaded for the publications of a plan that is written. -/
theorem publications_written (loaded : Loaded p release ids d.archive s)
    (loaded' : Loaded p' release' ids' d'.archive s') (planned : Planned p s plan)
    (written : Written plan d.archive.entry u)
    (kept : ∀ name, name ≠ historyFile → d'.archive.entry name = u.archive.entry name)
    (file' : ∃ data, d'.archive.entry historyFile = some (.file data)) (h name : Str) :
    (s'.publications.get? h).map (·.get? name) =
      ((plan.publications s).get? h).map (·.get? name) := by
  have old : h ≠ plan.contentHash ∨ plan.newPublication = none →
      s'.publications.get? h = s.publications.get? h := by
    intro other
    refine publications_eq loaded loaded' fun items => ?_
    by_cases own : h = historyFile
    · subst own
      obtain ⟨data, there⟩ := file'
      rw [there]
      constructor
      · intro h
        cases h
      · intro h
        exact absurd rfl (historyFile_ne (loaded.readable historyFile _ h).1)
    · rw [kept h own]
      rcases other with other | none'
      · rw [written_other written other]
      · simp only [Written, none'] at written
        rw [written h]
  cases new : plan.newPublication with
  | none => rw [old (.inr new), SitePlan.publications, new, withNew]
  | some files =>
    rw [SitePlan.publications, new, withNew]
    by_cases own : h = plan.contentHash
    · subst own
      obtain ⟨-, digest, -⟩ := planned.fresh files new
      simp only [Written, new] at written
      obtain ⟨items, there, holds⟩ := written.1
      rw [← kept _ (historyFile_ne digest)] at there
      obtain ⟨-, files', read, -⟩ := loaded'.readable _ _ there
      have found := (loaded'.publications _ files').mpr ⟨items, there, read⟩
      rw [found, Dict.get?_set_self]
      refine congrArg some (Option.ext fun data => ?_)
      rw [(readFiles_ok read).2, holds]
      cases held : files.get? name <;> simp [held]
    · rw [old (.inl own), Dict.get?_set_other _ _ own]

theorem oldBytes_written (loaded : Loaded p release ids d.archive s) (planned : Planned p s plan)
    (written : Written plan d.archive.entry u) :
    oldBytes u.archive.entry = s.historyBytes.getD [] := by
  rw [← oldBytes_entry loaded, oldBytes, oldBytes]
  cases new : plan.newPublication with
  | none =>
    simp only [Written, new] at written
    rw [written]
  | some files =>
    rw [written_other written (historyFile_ne (planned.fresh files new).2.1).symm]

/-- The archive of a plan that is written is loaded as the state after the plan. -/
theorem loaded_written (loaded : Loaded p release ids d.archive s)
    (loaded' : Loaded p' release' ids' d'.archive s') (parses : parseHistory p' = parseHistory p)
    (planned : Planned p s plan) (written : Written plan d.archive.entry u) {e : HistoryEntry}
    {line : Bytes} (entry : plan.historyEntry = some e) (made : e.toBytes p = .ok line)
    (recorded : WithHistory u.archive.entry (oldBytes u.archive.entry ++ line) d') :
    ∃ after, plan.after p s = .ok after ∧ s'.Same after := by
  have old := oldBytes_written loaded planned written
  have bytes : s'.historyBytes = some (s.historyBytes.getD [] ++ line) :=
    (loaded'.bytes _).mpr (old ▸ recorded.1)
  have replays := planned.replays
  rw [SitePlan.history, entry] at replays
  have history : s'.history = s.history ++ [e] := by
    have parsed := loaded'.history
    rw [parses, bytes] at parsed
    have whole := parseHistory_ok.mpr
      (loaded.recordedHistory.append (planned.entry e entry).1 made replays)
    exact Except.ok.inj (parsed.symm.trans whole)
  refine ⟨⟨plan.publications s, s.history ++ [e], some (s.historyBytes.getD [] ++ line)⟩, ?_, ?_⟩
  · simp only [SitePlan.after, entry, made, ok_bind]
    rfl
  · exact ⟨publications_written loaded loaded' planned written recorded.2 ⟨_, recorded.1⟩, history, bytes⟩

/-! ## Where the writes stop -/

/-- The publication of a plan is not there, or its directory is. -/
theorem interrupted_before (loaded : Loaded p release ids d.archive s)
    (loaded' : Loaded p' release' ids' d'.archive s') (parses : parseHistory p' = parseHistory p)
    (planned : Planned p s plan) {files : Files} (new : plan.newPublication = some files)
    (partly : Entries d.archive.entry d' ∨ WithDirectory d.archive.entry plan.contentHash d') :
    s'.Same s := by
  rcases partly with same | ⟨⟨items, there⟩, others⟩
  · exact loaded_same loaded loaded' parses same
  · obtain ⟨unknown, digest, -⟩ := planned.fresh files new
    have bytes : s'.historyBytes.getD [] = s.historyBytes.getD [] := by
      rw [← oldBytes_entry loaded, ← oldBytes_entry loaded', oldBytes, oldBytes,
        others _ (historyFile_ne digest).symm]
    exact (unrecorded_refused loaded loaded' parses bytes digest unknown (by rw [there]; rfl)).elim

/-- A history that got no byte of its line is that of before, or is refused. -/
theorem interrupted_opened (loaded : Loaded p release ids d.archive s)
    (loaded' : Loaded p' release' ids' d'.archive s') (parses : parseHistory p' = parseHistory p)
    (planned : Planned p s plan) (written : Written plan d.archive.entry u)
    (opened : WithHistory u.archive.entry (oldBytes u.archive.entry) d') : s'.Same s := by
  have old := oldBytes_written loaded planned written
  have bytes : s'.historyBytes.getD [] = s.historyBytes.getD [] := by
    rw [(loaded'.bytes _).mpr opened.1, ← old]
    rfl
  cases new : plan.newPublication with
  | some files =>
    obtain ⟨unknown, digest, -⟩ := planned.fresh files new
    simp only [Written, new] at written
    obtain ⟨items, there, -⟩ := written.1
    rw [← opened.2 _ (historyFile_ne digest)] at there
    exact (unrecorded_refused loaded loaded' parses bytes digest unknown (by rw [there]; rfl)).elim
  | none =>
    simp only [Written, new] at written
    cases held : s.historyBytes with
    | some data =>
      refine loaded_same loaded loaded' parses fun name => ?_
      by_cases own : name = historyFile
      · rw [own, opened.1, old, held, (loaded.bytes data).mp held]
        rfl
      · rw [opened.2 name own, written name]
    | none =>
      have empty := loaded.history
      rw [held] at empty
      have known := (loaded.recorded _).mpr (planned.known new)
      rw [← Except.ok.inj empty] at known
      cases known

/-- A line that is cut is refused. -/
theorem interrupted_torn (loaded : Loaded p release ids d.archive s)
    (loaded' : Loaded p' release' ids' d'.archive s') (parses : parseHistory p' = parseHistory p)
    (planned : Planned p s plan) (written : Written plan d.archive.entry u) {e : HistoryEntry}
    {line part : Bytes} (made : e.toBytes p = .ok line) (cut : part <+: line) (short : part ≠ line)
    (some' : part ≠ [])
    (torn : WithHistory u.archive.entry (oldBytes u.archive.entry ++ part) d') : False := by
  have parsed := loaded'.history
  rw [parses, (loaded'.bytes _).mpr torn.1, oldBytes_written loaded planned written] at parsed
  exact parseHistory_torn made cut short some' _ parsed

theorem written_of_run {w : Disk} (planned : Planned p s plan) {get : Str → Option Entry}
    (held : Entries get w)
    (run : (plan.newPublication.elim [] (publicationWrites plan.contentHash)).foldlM Disk.write w =
      .ok u) : Written plan get u := by
  unfold Written
  cases new : plan.newPublication with
  | none =>
    rw [new] at run
    obtain rfl := Except.ok.inj run
    exact held
  | some files =>
    rw [new] at run
    exact run_publicationWrites held (planned.fresh files new).2.2 run

/-- Without its line the publication of a plan is not recorded. -/
theorem interrupted_unrecorded (loaded : Loaded p release ids d.archive s)
    (loaded' : Loaded p' release' ids' d'.archive s') (parses : parseHistory p' = parseHistory p)
    (planned : Planned p s plan) (written : Written plan d.archive.entry u)
    (same : Entries u.archive.entry d') : s'.Same s := by
  cases new : plan.newPublication with
  | none =>
    simp only [Written, new] at written
    exact loaded_same loaded loaded' parses fun name => (same name).trans (written name)
  | some files =>
    simp only [Written, new] at written
    obtain ⟨⟨items, there, -⟩, others⟩ := written
    refine interrupted_before loaded loaded' parses planned new (.inr ⟨⟨items, ?_⟩, fun name ne => ?_⟩)
    · rw [same, there]
    · rw [same, others name ne]

/-- The site first, then the publication, then the line of the history. -/
theorem interrupted_plan (loaded : Loaded p release ids d.archive s)
    (planned : Planned p s plan) (stopped : Interrupted Disk.write d (plan.writes p) d')
    (loaded' : Loaded p' release' ids' d'.archive s') (parses : parseHistory p' = parseHistory p) :
    s'.Same s ∨ ∃ after, plan.after p s = .ok after ∧ s'.Same after := by
  have site : ∀ w ∈ Write.makeSite :: fileWrites .createSite .appendSite plan.siteFiles.items,
      ∀ x y : Disk, x.archive = d.archive → x.write w = .ok y → y.archive = d.archive :=
    fun w hw x y kept made => (archive_of_site (siteWrites_ofSite _ w hw) made).trans kept
  rcases interrupted_append.mp stopped with stopped | ⟨v, wrote, stopped⟩
  · have archive : d'.archive = d.archive :=
      interrupted_invariant (I := fun x => x.archive = d.archive) site rfl stopped
    exact .inl (loaded_same loaded loaded' parses fun name => by rw [archive])
  have archive : v.archive = d.archive :=
    run_invariant (I := fun x => x.archive = d.archive) site rfl wrote
  rcases interrupted_cons.mp stopped with rfl | ⟨w, made, stopped⟩
  · exact .inl (loaded_same loaded loaded' parses fun name => by rw [archive])
  have entries : Entries d.archive.entry w := entries_makeArchive (fun name => by rw [archive]) made
  rcases interrupted_append.mp stopped with stopped | ⟨x, run, stopped⟩
  · left
    cases new : plan.newPublication with
    | none =>
      rw [new] at stopped
      obtain rfl := interrupted_nil.mp stopped
      exact loaded_same loaded loaded' parses entries
    | some files =>
      rw [new] at stopped
      exact interrupted_before loaded loaded' parses planned new
        (interrupted_publicationWrites entries stopped)
  have written := written_of_run planned entries run
  cases entry : plan.historyEntry with
  | none =>
    rw [entry] at stopped
    obtain rfl := interrupted_nil.mp stopped
    exact .inl (interrupted_unrecorded loaded loaded' parses planned written fun _ => rfl)
  | some e =>
    rw [entry] at stopped
    rcases interrupted_historyWrites (fun _ => rfl) stopped with
      same | opened | ⟨line, part, made, cut, partly⟩
    · exact .inl (interrupted_unrecorded loaded loaded' parses planned written same)
    · exact .inl (interrupted_opened loaded loaded' parses planned written opened)
    · by_cases none' : part = []
      · rw [none', List.append_nil] at partly
        exact .inl (interrupted_opened loaded loaded' parses planned written partly)
      by_cases whole : part = line
      · rw [whole] at partly
        exact .inr (loaded_written loaded loaded' parses planned written entry made partly)
      · exact (interrupted_torn loaded loaded' parses planned written made cut whole none' partly).elim

end

/-! ## A first publication -/

/-- The smallest snapshot that the schema accepts. -/
def demoSnapshot : Mapping :=
  [(lit "schema_version", .str snapshotSchemaVersion), (lit "content_class", .str contentClass),
    (lit "sanitization_policy_version", .str sanitizationPolicyVersion),
    (lit "source", .dict [(lit "fixture_id", .str (lit "demo")), (lit "fixture_version", .int 1),
      (lit "classification", .str (lit "synthetic"))]),
    (lit "provenance", .dict (provenanceKeys.map fun key =>
      (key, if key = lit "not_a_model_result" then .bool true
        else .str (if key = lit "statement" then notAModelResult else [])))),
    (lit "summary", .dict (summaryKeys.map fun key =>
      (key, if key = lit "finding_counts" then .list [] else .int 0))),
    (lit "sections", .list []),
    (lit "traceability", .dict (traceabilityKeys.map fun key =>
      (key, if key = lit "rows" then .list [] else .null))),
    (lit "excerpts", .list [])]

def demoBytes (v : Mapping) : Bytes := (canonicalJsonBytes 10 (.dict v)).toOption.getD []

def demoSnapshotBytes : Bytes := demoBytes demoSnapshot

def demoIndex : Bytes :=
  (encodeAscii (lit "<meta name=\"guest-demo-viewer-version\" " ++
    lit "content=\"guest-demo-viewer/v1\" />")).getD []

/-- The digests of the files, as `sha256sum` prints them. -/
def demoDigests : List (Bytes × BitVec 256) :=
  [(demoSnapshotBytes, 0xc46696852ac32ea6dd4ba0730543e06ca07f765ed493f46d1334c4c829a50e6f),
    (demoIndex, 0xd974e6f82a7bcfa039968cfe34173d2976f854ea608955c6b0dc2d1c0525d4cb),
    ([0x31], 0x6b86b273ff34fce19d6b804eff5a3f5747ada4eaa22f1d49c01e52ddb7875b4b),
    ([], 0xe3b0c44298fc1c149afbf4c8996fb92427ae41e4649b934ca495991b7852b855)]

/-- A pattern that matches nowhere. -/
def noPattern : Pattern := ⟨fun _ => false, fun _ text => text⟩

def demoPlatform : Platform where
  sha256 data := ((demoDigests.find? (·.1 = data)).map (·.2)).getD 0
  depth := 10
  patterns := ⟨[], noPattern, noPattern, noPattern, noPattern⟩
  setOrder := List.dedup

def demoViewer : List (Str × Bytes) :=
  [(lit "index.html", demoIndex), (lit "viewer.js", [0x31]), (lit "viewer.css", [])]

def demoBuild : StagedBuild :=
  let contentHash := demoPlatform.digest demoSnapshotBytes
  let files := Dict.empty.update ((snapshotFile, demoSnapshotBytes) :: demoViewer)
  let manifest := expectedManifest demoPlatform contentHash (file files)
  ⟨⟨demoSnapshotBytes, demoBytes manifest, contentHash, demoViewer⟩,
    [lit "3f2504e0-4f89-11d3-9a0c-0305e82c3301"]⟩

def demoRelease : Files := Dict.empty.update demoViewer

theorem demoDay_year : 1 ≤ 2026 ∧ 2026 ≤ 9999 := by decide

def demoDay : Date := ⟨2026, 7, 30, demoDay_year, by decide, by decide⟩

def demoState : ArchiveState := ⟨.empty, [], none⟩

/-- An archive that does not exist is empty. -/
theorem loadArchive_none (p : Platform) (release : Files) (ids : List Str) :
    loadArchive p release ids none = .ok ⟨.empty, [], none⟩ := by
  refine bind_ok.mpr ⟨_, rfl, bind_ok.mpr ⟨[], parseHistory_nil p, bind_ok.mpr ⟨(), ?_, rfl⟩⟩⟩
  rw [refuseWhen_ok]
  simp

def demoFiles : Files := publicationFiles demoBuild.output

theorem sameFiles_self (files : Files) : sameFiles files files = true := by
  rw [sameFiles, decide_eq_true rfl, Bool.true_and, List.all_eq_true]
  exact fun i hi => decide_eq_true (Dict.get?_eq_some.mpr hi)

theorem demoFiles_read : (do
    let manifest ← canonicalObject demoPlatform (file demoFiles buildManifestFile) "manifest.json"
    refuseWhen ((Json.dict manifest).eq (.dict (expectedManifest demoPlatform
      demoBuild.output.contentHash (file demoFiles))) = false)
      (demoBuild.output.contentHash ++ lit ": manifest.json does not match the files")) = .ok () := by
  decide +kernel

theorem demoSnapshot_read :
    (do
      let snapshot ← canonicalObject demoPlatform (file demoFiles snapshotFile) "snapshot.json"
      match validateSnapshotSchema snapshot with
        | .error message => refuse (demoBuild.output.contentHash ++ lit (": " ++ message))
        | .ok () => .ok ()) = .ok () := by
  decide +kernel

theorem demoFiles_scanned :
    (publicationFileNames.forM fun name =>
      scanPublishedFile demoPlatform name (file demoFiles name)
        (demoBuild.output.contentHash :: (fileHashes demoPlatform (file demoFiles)).map (·.2) ++
          publicationFileNames) demoBuild.internalIdentifiers) = .ok () := by
  decide +kernel

theorem demoFiles_verified : verifyPublication demoPlatform demoBuild.output.contentHash demoFiles
    demoRelease demoBuild.internalIdentifiers = .ok () := by
  obtain ⟨manifest, read, matching⟩ := bind_ok.mp demoFiles_read
  obtain ⟨snapshot, parsed, valid⟩ := bind_ok.mp demoSnapshot_read
  have files : (do
      let _ ← requireHash (.str demoBuild.output.contentHash)
      refuseWhen (sortedTexts demoFiles.keys ≠ sortedTexts publicationFileNames)
        (demoBuild.output.contentHash ++ lit " must hold exactly the publication files")
      refuseWhen (demoPlatform.digest (file demoFiles snapshotFile) ≠ demoBuild.output.contentHash)
        (demoBuild.output.contentHash ++ lit ": snapshot.json does not match its hash")
      viewerFileNames.forM fun name =>
        refuseWhen (demoRelease.get? name ≠ some (file demoFiles name))
          (demoBuild.output.contentHash ++ lit ": " ++ name ++ lit " differs from the viewer release")) =
      .ok () := by decide +kernel
  obtain ⟨hash, required, files⟩ := bind_ok.mp files
  obtain ⟨⟨⟩, names, files⟩ := bind_ok.mp files
  obtain ⟨⟨⟩, digest, viewer⟩ := bind_ok.mp files
  refine bind_ok.mpr ⟨hash, required, bind_ok.mpr ⟨(), names, bind_ok.mpr ⟨(), digest, ?_⟩⟩⟩
  refine bind_ok.mpr ⟨manifest, read, bind_ok.mpr ⟨(), matching, ?_⟩⟩
  refine bind_ok.mpr ⟨snapshot, parsed, ?_⟩
  cases checked : validateSnapshotSchema snapshot with
  | error message =>
    rw [checked] at valid
    cases valid
  | ok => exact bind_ok.mpr ⟨(), rfl, bind_ok.mpr ⟨(), viewer, demoFiles_scanned⟩⟩

def demoEntry : HistoryEntry := ⟨.publish, demoBuild.output.contentHash, demoDay.text, none, none⟩

theorem demoSite_planned : (do
    let plan ← planSite demoPlatform demoState (some demoEntry) (some demoFiles)
      demoBuild.internalIdentifiers
    return (plan, ← plan.after demoPlatform demoState)).isOk = true := by
  decide +kernel

theorem demo_planned : ∃ plan after,
    planPublish demoPlatform demoState demoBuild demoBuild demoRelease demoDay true = .ok plan ∧
      plan.after demoPlatform demoState = .ok after := by
  have evaluated := demoSite_planned
  cases made : (do
      let plan ← planSite demoPlatform demoState (some demoEntry) (some demoFiles)
        demoBuild.internalIdentifiers
      return (plan, ← plan.after demoPlatform demoState)) with
  | error f =>
    rw [made] at evaluated
    cases evaluated
  | ok r =>
    obtain ⟨plan, planned, rest⟩ := bind_ok.mp made
    obtain ⟨after, next, -⟩ := bind_ok.mp rest
    refine ⟨plan, after, ?_, next⟩
    refine bind_ok.mpr ⟨(), refuseWhen_ok.mpr nofun, ?_⟩
    refine bind_ok.mpr ⟨(), refuseWhen_ok.mpr ?_, ?_⟩
    · exact Bool.eq_false_iff.not.mpr (not_not.mpr (sameFiles_self demoFiles))
    · exact bind_ok.mpr ⟨(), demoFiles_verified, bind_ok.mpr ⟨(), refuseWhen_ok.mpr nofun,
        bind_ok.mpr ⟨(), refuseWhen_ok.mpr nofun, planned⟩⟩⟩

/-! ## Crashes -/

/-- An archive whose writes stopped anywhere, in the middle of a file or of the line of the history
too, is refused by a later load, whatever that hides and whatever viewer it compares with, or it is
loaded as the state before the plan or as the state after it. -/
theorem interrupted_publication (p : Platform) {release : Files} {ids : List Str} {d d' : Disk}
    {s s' : ArchiveState} {plan : SitePlan} (loaded : loadArchive p release ids d.archive = .ok s)
    (planned : (∃ staged rebuild release today reviewed,
        planPublish p s staged rebuild release today reviewed = .ok plan) ∨
      ∃ target today ids, planRollback p s target today ids = .ok plan)
    (stopped : Interrupted Disk.write d (plan.writes p) d') (setOrder : List Str → List Str)
    (laterRelease : Files) (laterIds : List Str)
    (later : loadArchive { p with setOrder } laterRelease laterIds d'.archive = .ok s') :
    s'.Same s ∨ ∃ after, plan.after p s = .ok after ∧ s'.Same after := by
  have loaded := loadArchive_ok loaded
  have promise : Planned p s plan := by
    rcases planned with ⟨staged, rebuild, release, today, reviewed, made⟩ | ⟨target, today, ids, made⟩
    · exact (planned_publish loaded made).1
    · exact (planned_rollback loaded made).1
  exact interrupted_plan loaded promise stopped (loadArchive_ok later) rfl

/-- The first publication, stopped once the directory of the site is there. -/
theorem interrupted_publication_demo : ∃ plan d' s',
    planPublish demoPlatform demoState demoBuild demoBuild demoRelease demoDay true = .ok plan ∧
      Interrupted Disk.write ⟨none, none⟩ (plan.writes demoPlatform) d' ∧
      loadArchive { demoPlatform with setOrder := List.reverse } demoRelease
        demoBuild.internalIdentifiers d'.archive = .ok s' ∧
      (s'.Same demoState ∨ ∃ after, plan.after demoPlatform demoState = .ok after ∧ s'.Same after) := by
  obtain ⟨plan, -, planned, -⟩ := demo_planned
  have loaded := loadArchive_none demoPlatform demoRelease demoBuild.internalIdentifiers
  have stopped : Interrupted Disk.write ⟨none, none⟩ (plan.writes demoPlatform) ⟨none, some .empty⟩ :=
    ⟨1, rfl⟩
  have later := loadArchive_none { demoPlatform with setOrder := List.reverse } demoRelease
    demoBuild.internalIdentifiers
  exact ⟨plan, _, _, planned, stopped, later,
    interrupted_publication demoPlatform loaded (.inl ⟨_, _, _, _, _, planned⟩) stopped
      List.reverse demoRelease demoBuild.internalIdentifiers later⟩

end QaCopilot.GuestDemo
