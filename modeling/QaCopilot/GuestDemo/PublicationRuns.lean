import Mathlib.Data.List.Dedup
import QaCopilot.GuestDemo.Completion

/-!
# Runs of the publisher

* `run_sound`: what one run leaves, in the archive and in the site;
* `runs_sound`: every run of a sequence leaves that, and what is withdrawn stays withdrawn.
-/

namespace QaCopilot.GuestDemo

open Python Results Interruption

/-- A run that is completed, in an interpreter that walks sets in its own order. -/
structure Completed where
  setOrder : List Str → List Str
  request : Request
  before : Disk
  plan : SitePlan
  after : Disk

/-- The platform of a run. -/
def Completed.platform (p : Platform) (t : Completed) : Platform := { p with setOrder := t.setOrder }

/-- Runs that succeed, each on the archive that the one before it left. -/
inductive Runs (p : Platform) (start : Archive) : List Completed → Archive → Prop where
  | start : Runs p start [] start
  | next {done : List Completed} {t : Completed} : Runs p start done t.before.archive →
      run (t.platform p) t.request t.before = .ok (t.plan, t.after) →
      Runs p start (done ++ [t]) t.after.archive

@[simp] theorem platform_own (p : Platform) (r : Request) (before : Disk) (plan : SitePlan)
    (after : Disk) : Completed.platform p ⟨p.setOrder, r, before, plan, after⟩ = p := rfl

/-- A file of the site. -/
def Disk.siteFile (d : Disk) (name : Str) : Option Bytes := (d.site.getD .empty).get? name

/-- What a run leaves, where `before` is the state that it loads and `state` is that of the archive
it leaves, loaded with its own viewer release and internal identifiers. -/
structure Sound (p : Platform) (t : Completed) (release : Files) (staged : StagedBuild)
    (before state : ArchiveState) : Prop where
  built : t.request.viewerRelease = .ok release ∧ t.request.staged = .ok staged
  loadsBefore : loadArchive (t.platform p) release staged.internalIdentifiers t.before.archive =
    .ok before
  loads : loadArchive (t.platform p) release staged.internalIdentifiers t.after.archive = .ok state
  after : ∃ after, t.plan.after p before = .ok after ∧ state.Same after
  replays : ∃ r, replayHistory state.history = .ok r
  lines : ∃ lines, state.history.mapM (·.toBytes p) = .ok lines ∧
    state.historyBytes.getD [] = lines.flatten ∧ parseHistory p lines.flatten = .ok state.history
  entry : ∀ e, t.plan.historyEntry = some e → e.contentHash = t.plan.contentHash
  current : state.current = some t.plan.contentHash ∧ t.plan.contentHash ∈ t.plan.servedPublications
  served : ∀ h, h ∈ t.plan.servedPublications ↔
    (∃ e ∈ state.history, e.action = .publish ∧ e.contentHash = h) ∧ h ∉ state.withdrawn
  withdrawn : ∀ h, h ∈ t.plan.withdrawnPublications ↔ h ∈ state.withdrawn
  siteNames : ∀ name data, t.after.siteFile name = some data → name ∈ siteRootFileNames ∨
    ∃ h ∈ t.plan.servedPublications, ∃ n ∈ publicationFileNames, name = siteName h n
  siteFiles : ∀ h ∈ t.plan.servedPublications, ∀ n ∈ publicationFileNames,
    ∃ files data, state.publications.get? h = some files ∧ files.get? n = some data ∧
      t.after.siteFile (siteName h n) = some data
  pointer : ∃ (pointer : CurrentPointer) (data : Bytes), t.after.siteFile currentFile = some data ∧
    canonicalJsonBytes p.depth (.dict pointer.payload) = .ok data ∧
    pointer.contentHash = t.plan.contentHash ∧
    ∀ h, pointer.previousHash = some h → h ∈ t.plan.servedPublications

/-- What the first run has withdrawn the second neither serves nor points to nor publishes. -/
structure Withdraws (t u : Completed) : Prop where
  withdrawn : ∀ h ∈ t.plan.withdrawnPublications, h ∈ u.plan.withdrawnPublications
  served : ∀ h ∈ t.plan.withdrawnPublications, h ∉ u.plan.servedPublications
  site : ∀ h ∈ t.plan.withdrawnPublications, ∀ n ∈ publicationFileNames,
    u.after.siteFile (siteName h n) = none
  pointer : u.plan.contentHash ∉ t.plan.withdrawnPublications
  published : ∀ e, u.plan.historyEntry = some e → e.contentHash ∉ t.plan.withdrawnPublications

/-! ## One run -/

section
variable {p : Platform} {t : Completed}

theorem site_of_empty {d : Disk} (empty : ¬ ∃ files ∈ d.site, files.keys ≠ []) :
    SiteHolds (fun _ => none) d := by
  intro name
  cases site : d.site with
  | none => rfl
  | some files =>
    have keys : files.keys = [] := by
      by_contra some'
      exact empty ⟨files, site, some'⟩
    rw [Option.getD_some, Dict.get?_eq_none, keys]
    exact List.not_mem_nil

/-- The parts of a run that succeeds. -/
theorem run_ok {p : Platform} {r : Request} {d d' : Disk} {plan : SitePlan}
    (made : run p r d = .ok (plan, d')) : ∃ release staged s,
      SiteHolds (fun _ => none) d ∧ r.viewerRelease = .ok release ∧ r.staged = .ok staged ∧
      loadArchive p release staged.internalIdentifiers d.archive = .ok s ∧
      r.plan p s staged release = .ok plan ∧ writePlan p plan d = .ok d' := by
  obtain ⟨⟨⟩, empty, made⟩ := bind_ok.mp made
  obtain ⟨release, viewer, made⟩ := bind_ok.mp made
  obtain ⟨staged, built, made⟩ := bind_ok.mp made
  obtain ⟨s, loaded, made⟩ := bind_ok.mp made
  obtain ⟨plan', planned, made⟩ := bind_ok.mp made
  obtain ⟨d'', written, made⟩ := bind_ok.mp made
  obtain ⟨rfl, rfl⟩ := Prod.mk.inj (Except.ok.inj made)
  exact ⟨release, staged, s, site_of_empty (refuseWhen_ok.mp empty), viewer, built, loaded, planned,
    written⟩

theorem run_of {p : Platform} (r : Request) {d d' : Disk} {release : Files} {staged : StagedBuild}
    {s : ArchiveState} {plan : SitePlan} (empty : ¬ ∃ files ∈ d.site, files.keys ≠ [])
    (viewer : r.viewerRelease = .ok release) (built : r.staged = .ok staged)
    (loaded : loadArchive p release staged.internalIdentifiers d.archive = .ok s)
    (planned : r.plan p s staged release = .ok plan) (written : writePlan p plan d = .ok d') :
    run p r d = .ok (plan, d') :=
  bind_ok.mpr ⟨(), refuseWhen_ok.mpr empty, bind_ok.mpr ⟨release, viewer, bind_ok.mpr ⟨staged, built,
    bind_ok.mpr ⟨s, loaded, bind_ok.mpr ⟨plan, planned, bind_ok.mpr ⟨d', written, rfl⟩⟩⟩⟩⟩⟩

theorem plan_of {p : Platform} {r : Request} {s : ArchiveState} {staged rebuild : StagedBuild}
    {release : Files} {plan : SitePlan} (publish : r.rollbackTo = none) (rebuilt : r.rebuild = .ok rebuild)
    (made : planPublish p s staged rebuild release r.today r.ownerReviewed = .ok plan) :
    r.plan p s staged release = .ok plan := by
  rw [Request.plan, publish]
  exact bind_ok.mpr ⟨rebuild, rebuilt, made⟩

/-- A plan of a run is for its state, and its new publication passes the check of the run. -/
theorem plan_ok {release : Files} {staged : StagedBuild} {a : Archive} {s : ArchiveState}
    {plan : SitePlan} {r : Request} (loaded : Loaded p release staged.internalIdentifiers a s)
    (made : r.plan p s staged release = .ok plan) : Planned p s plan ∧
      ∀ files, plan.newPublication = some files →
        verifyPublication p plan.contentHash files release staged.internalIdentifiers = .ok () := by
  unfold Request.plan at made
  split at made
  · obtain ⟨rebuild, -, made⟩ := bind_ok.mp made
    obtain ⟨planned, -, verified, new⟩ := planned_publish loaded made
    exact ⟨planned, fun files fresh => new files fresh ▸ verified⟩
  · obtain ⟨planned, none'⟩ := planned_rollback loaded made
    refine ⟨planned, fun files fresh => ?_⟩
    cases none'.symm.trans fresh

/-- The files of a publication that is loaded. -/
theorem Loaded.file_of {release : Files} {ids : List Str} {a : Archive} {s : ArchiveState}
    (loaded : Loaded p release ids a s) {h n : Str} {files : Files}
    (found : s.publications.get? h = some files) (listed : n ∈ publicationFileNames) :
    ∃ data, files.get? n = some data := by
  obtain ⟨items, there, read⟩ := (loaded.publications h files).mp found
  obtain ⟨-, files', read', verified⟩ := loaded.readable h _ there
  obtain rfl := Except.ok.inj (read.symm.trans read')
  exact Option.isSome_iff_exists.mp
    (Dict.get?_isSome.mpr ((keys_of_verified verified).mem_iff.mpr listed))

/-- What one run leaves. -/
theorem run_sound (made : run (t.platform p) t.request t.before = .ok (t.plan, t.after)) :
    ∃ release staged before state, Sound p t release staged before state ∧
      state.history = t.plan.history before := by
  obtain ⟨release, staged, s, empty, viewer, built, loads, plans, written⟩ := run_ok made
  have loaded := loadArchive_ok loads
  obtain ⟨planned, verified⟩ := plan_ok loaded plans
  obtain ⟨left, site, same⟩ := writePlan_ok loaded planned empty written
  obtain ⟨state, loads'⟩ := loadArchive_written loaded planned verified left
  have loaded' := loadArchive_ok loads'
  obtain ⟨after, made', same⟩ := same state loaded'
  have history : state.history = t.plan.history s := by
    rw [same.history]
    unfold SitePlan.after at made'
    unfold SitePlan.history
    split at made'
    · rename_i none'
      obtain rfl := Except.ok.inj made'
      rw [none', Option.toList, List.append_nil]
    · rename_i e some'
      obtain ⟨line, -, made'⟩ := bind_ok.mp made'
      obtain rfl := Except.ok.inj made'
      rw [some']
      rfl
  have publications : after.publications = t.plan.publications s := by
    unfold SitePlan.after at made'
    split at made'
    · obtain rfl := Except.ok.inj made'
      rfl
    · obtain ⟨line, -, made'⟩ := bind_ok.mp made'
      obtain rfl := Except.ok.inj made'
      rfl
  obtain ⟨r, replays⟩ := planned.replays
  have held := replayed replays
  obtain ⟨lines, printed, joined⟩ := loaded'.recordedHistory.lines
  have currentHash : (t.plan.history s).getLast?.map (·.contentHash) = some t.plan.contentHash :=
    planned.last
  have live := held.live t.plan.contentHash (held.current.trans currentHash)
  have servedIff : ∀ h, h ∈ t.plan.servedPublications ↔
      (∃ e ∈ t.plan.history s, e.action = .publish ∧ e.contentHash = h) ∧
        h ∉ withdrawnHashes (t.plan.history s) := by
    intro h
    rw [planned.served_iff loaded, ← held.published]
    refine and_congr_left fun _ => ⟨held.publish h, ?_⟩
    rintro ⟨e, he, -, rfl⟩
    exact (held.published _).mpr (List.mem_map_of_mem he)
  refine ⟨release, staged, s, state, ?_, history⟩
  constructor
  · exact ⟨viewer, built⟩
  · exact loads
  · exact loads'
  · exact ⟨after, made', same⟩
  · exact history ▸ ⟨r, replays⟩
  · refine ⟨lines, printed, joined, ?_⟩
    rw [← joined]
    exact loaded'.history
  · exact fun e he => (planned.entry e he).2
  · refine ⟨?_, (servedIff _).mpr ⟨held.publish _ live.1, held.withdrawn ▸ live.2⟩⟩
    rw [ArchiveState.current, history]
    exact currentHash
  · rw [ArchiveState.withdrawn, history]
    exact servedIff
  · intro h
    rw [planned.withdrawn, mem_sortedTexts, List.mem_dedup, ArchiveState.withdrawn, history]
  · intro name data there
    rw [Disk.siteFile, site name] at there
    exact planned.siteNames there
  · intro h served n listed
    have recorded := (planned.recorded loaded).mp ((planned.served_iff loaded).mp served).1
    obtain ⟨files, found⟩ := Option.isSome_iff_exists.mp (Dict.get?_isSome.mpr recorded)
    have equal := same.publications h n
    rw [publications, found] at equal
    obtain ⟨files', found', equal⟩ := Option.map_eq_some_iff.mp equal
    obtain ⟨data, there⟩ := loaded'.file_of found' listed
    have own : files.get? n = some data := equal.symm.trans there
    refine ⟨files', data, found', there, ?_⟩
    rw [Disk.siteFile, site, planned.siteFile loaded served listed, found, Option.getD_some, file, own]
    rfl
  · have pointed := planned.pointer loaded
    simp only [Disk.siteFile, site _]
    exact pointed

end

/-! ## Sequences of runs -/

/-- The history that an archive holds. -/
def HistoryOf (p : Platform) (a : Archive) (history : List HistoryEntry) : Prop :=
  parseHistory p (oldBytes a.entry) = .ok history

theorem Loaded.historyOf {p p' : Platform} {release : Files} {ids : List Str} {a : Archive}
    {s : ArchiveState} (loaded : Loaded p' release ids a s) (parses : parseHistory p' = parseHistory p) :
    HistoryOf p a s.history := by
  rw [HistoryOf, oldBytes_entry loaded, ← parses]
  exact loaded.history

/-- What holds along a sequence of runs: each is sound, a later one keeps what an earlier one withdrew,
and the history at its end withdraws all of that. -/
structure Kept (p : Platform) (done : List Completed) (a : Archive) : Prop where
  sound : ∀ t ∈ done, ∃ release staged before state, Sound p t release staged before state
  withdraws : done.Pairwise Withdraws
  history : ∃ history, HistoryOf p a history ∧
    ∀ t ∈ done, ∀ h ∈ t.plan.withdrawnPublications, h ∈ withdrawnHashes history

theorem digest_withdrawn {entries : List HistoryEntry} (valid : ∀ e ∈ entries, e.WellFormed) {h : Str}
    (gone : h ∈ withdrawnHashes entries) : isDigest h = true := by
  obtain ⟨e, he, named⟩ := List.mem_filterMap.mp gone
  split at named
  · exact ((valid e he).withdrawn h named).2
  · cases named

theorem withdraws_of {p : Platform} {t u : Completed} {release : Files} {staged : StagedBuild}
    {before state : ArchiveState} (sound : Sound p u release staged before state)
    (mono : ∀ h ∈ t.plan.withdrawnPublications, h ∈ state.withdrawn) : Withdraws t u := by
  have loaded := loadArchive_ok sound.loads
  have unserved : ∀ h ∈ t.plan.withdrawnPublications, h ∉ u.plan.servedPublications :=
    fun h hh served => ((sound.served h).mp served).2 (mono h hh)
  have pointer : u.plan.contentHash ∉ t.plan.withdrawnPublications :=
    fun gone => unserved _ gone sound.current.2
  refine ⟨fun h hh => (sound.withdrawn h).mpr (mono h hh), unserved, ?_, pointer, ?_⟩
  · intro h hh n hn
    by_contra some'
    obtain ⟨data, there⟩ := Option.ne_none_iff_exists'.mp some'
    rcases sound.siteNames _ _ there with root | ⟨h', served, n', -, same⟩
    · exact siteName_not_root root
    · obtain ⟨e, he, -, rfl⟩ := ((sound.served h').mp served).1
      obtain ⟨rfl, -⟩ := siteName_inj (digest_withdrawn loaded.recordedHistory.wellFormed (mono h hh))
        (loaded.recordedHistory.wellFormed e he).hash same
      exact unserved _ hh served
  · intro e he
    rw [sound.entry e he]
    exact pointer

theorem kept_step {p : Platform} {done : List Completed} {t : Completed}
    (kept : Kept p done t.before.archive)
    (made : run (t.platform p) t.request t.before = .ok (t.plan, t.after)) :
    Kept p (done ++ [t]) t.after.archive := by
  obtain ⟨release, staged, before, state, sound, grows⟩ := run_sound made
  obtain ⟨history, held, gone⟩ := kept.history
  have loaded := loadArchive_ok sound.loadsBefore
  have loaded' := loadArchive_ok sound.loads
  have same : before.history = history := Except.ok.inj ((loaded.historyOf rfl).symm.trans held)
  have mono : ∀ u ∈ done, ∀ h ∈ u.plan.withdrawnPublications, h ∈ state.withdrawn := by
    intro u hu h hh
    rw [ArchiveState.withdrawn, grows, SitePlan.history, same]
    exact withdrawn_mono _ (gone u hu h hh)
  refine ⟨?_, ?_, state.history, loaded'.historyOf rfl, ?_⟩
  · intro u hu
    rcases List.mem_append.mp hu with hu | hu
    · exact kept.sound u hu
    · obtain rfl := List.mem_singleton.mp hu
      exact ⟨release, staged, before, state, sound⟩
  · refine List.pairwise_append.mpr ⟨kept.withdraws, List.pairwise_singleton _ t, ?_⟩
    intro u hu v hv
    obtain rfl := List.mem_singleton.mp hv
    exact withdraws_of sound (mono u hu)
  · intro u hu h hh
    rcases List.mem_append.mp hu with hu | hu
    · exact mono u hu h hh
    · obtain rfl := List.mem_singleton.mp hu
      exact (sound.withdrawn h).mp hh

theorem runs_kept {p : Platform} {a b : Archive} {done : List Completed}
    (empty : ∀ name, a.entry name = none) (runs : Runs p a done b) : Kept p done b := by
  induction runs with
  | start =>
    refine ⟨fun t ht => (nomatch ht), List.Pairwise.nil, [], ?_, fun t ht => nomatch ht⟩
    rw [HistoryOf, oldBytes, empty]
    exact parseHistory_nil p
  | next _ made ih => exact kept_step ih made

/-- Runs from an empty archive, with any builds: each leaves an archive that is loaded as the state
after its plan and a site that serves what is published and not withdrawn, and no later run serves,
points to or publishes what an earlier one withdrew. -/
theorem runs_sound (p : Platform) {a b : Archive} {done : List Completed}
    (empty : ∀ name, a.entry name = none) (runs : Runs p a done b) :
    (∀ t ∈ done, ∃ release staged before state, Sound p t release staged before state) ∧
      done.Pairwise Withdraws :=
  ⟨(runs_kept empty runs).sound, (runs_kept empty runs).withdraws⟩

def demoRequest : Request where
  viewer := .ok demoViewer
  staged := .ok demoBuild
  rebuild := .ok demoBuild
  today := demoDay
  ownerReviewed := true
  rollbackTo := none

/-- The first publication is written to its end. -/
theorem demo_run : ∃ plan d, run demoPlatform demoRequest ⟨none, none⟩ = .ok (plan, d) := by
  obtain ⟨plan, after, planned, next⟩ := demo_planned
  have loads := loadArchive_none demoPlatform demoRelease demoBuild.internalIdentifiers
  have loaded := loadArchive_ok loads
  obtain ⟨d, written⟩ := writePlan_isOk (d := ⟨none, none⟩) loaded (planned_publish loaded planned).1
    (fun _ => rfl) fun e entry => by
      unfold SitePlan.after at next
      rw [entry] at next
      obtain ⟨line, made, -⟩ := bind_ok.mp next
      exact ⟨line, made⟩
  exact ⟨plan, d, run_of demoRequest (by rintro ⟨files, none', -⟩; cases none') rfl rfl loads
    (plan_of rfl rfl planned) written⟩

theorem runs_sound_demo : ∃ t : Completed, t.request = demoRequest ∧
    Runs demoPlatform none [t] t.after.archive ∧
    (∀ u ∈ [t], ∃ release staged before state, Sound demoPlatform u release staged before state) ∧
    [t].Pairwise Withdraws := by
  obtain ⟨plan, d, made⟩ := demo_run
  have runs : Runs demoPlatform none ([] ++ [⟨demoPlatform.setOrder, demoRequest, ⟨none, none⟩, plan, d⟩])
      d.archive := by
    refine .next .start ?_
    rw [platform_own]
    exact made
  exact ⟨_, rfl, runs, runs_sound demoPlatform (fun _ => rfl) runs⟩

end QaCopilot.GuestDemo
