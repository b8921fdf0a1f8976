import QaCopilot.GuestDemo.HistoryReplay
import QaCopilot.GuestDemo.Loading

/-!
# What a plan promises

* `Planned`: what the writer and the loader rely on in a plan for a loaded state;
* `planned_publish`, `planned_rollback`: both planners keep to it.
-/

namespace QaCopilot.GuestDemo

open Python Results

/-- The history with the entry of a plan. -/
def SitePlan.history (plan : SitePlan) (s : ArchiveState) : List HistoryEntry :=
  s.history ++ plan.historyEntry.toList

/-- The publications with the new one of a plan. -/
def SitePlan.publications (plan : SitePlan) (s : ArchiveState) : Dict Str Files :=
  withNew s.publications plan.contentHash plan.newPublication

/-- The site of a plan. -/
structure SiteOf (p : Platform) (s : ArchiveState) (plan : SitePlan) : Prop where
  replays : ∃ r, replayHistory (plan.history s) = .ok r
  last : (plan.history s).getLast?.map (·.contentHash) = some plan.contentHash
  served : plan.servedPublications =
    sortedTexts ((plan.publications s).keys.filter (· ∉ withdrawnHashes (plan.history s)))
  withdrawn : plan.withdrawnPublications = sortedTexts (withdrawnHashes (plan.history s)).dedup
  files : ∃ current headers redirects,
    renderCurrent p (plan.history s) = .ok current ∧
      renderHeaders plan.servedPublications = .ok headers ∧
      renderRedirects plan.contentHash = .ok redirects ∧
      plan.siteFiles = (Dict.empty.update (servedFiles (plan.publications s) plan.servedPublications)).update
        [(currentFile, current), (headersFile, headers), (redirectsFile, redirects),
          (notFoundFile, notFoundPage)]

theorem planSite_ok {p : Platform} {s : ArchiveState} {entry : Option HistoryEntry}
    {new : Option Files} {ids : List Str} {plan : SitePlan}
    (made : planSite p s entry new ids = .ok plan) :
    plan.historyEntry = entry ∧ plan.newPublication = new ∧ SiteOf p s plan := by
  obtain ⟨r, replays, made⟩ := bind_ok.mp made
  obtain ⟨current, last, made⟩ := bind_ok.mp made
  obtain ⟨pointer, rendered, made⟩ := bind_ok.mp made
  obtain ⟨headers, headed, made⟩ := bind_ok.mp made
  obtain ⟨redirects, redirected, made⟩ := bind_ok.mp made
  obtain ⟨⟨⟩, -, made⟩ := bind_ok.mp made
  obtain rfl := Except.ok.inj made
  refine ⟨rfl, rfl, ⟨r, replays⟩, ?_, rfl, rfl, pointer, headers, redirects, rendered, headed,
    redirected, rfl⟩
  simp only [SitePlan.history]
  unfold lastHash at last
  split at last
  · rename_i e found
    rw [found]
    exact congrArg some (Except.ok.inj last)
  · cases last

/-- What the writer and the loader rely on. -/
structure Planned (p : Platform) (s : ArchiveState) (plan : SitePlan) : Prop extends
    SiteOf p s plan where
  entry : ∀ e, plan.historyEntry = some e → e.WellFormed ∧ e.contentHash = plan.contentHash
  fresh : ∀ files, plan.newPublication = some files →
    plan.contentHash ∉ s.publications.keys ∧ isDigest plan.contentHash = true ∧
      files.keys.Perm publicationFileNames
  known : plan.newPublication = none → plan.contentHash ∈ s.publications.keys

theorem isIsoDate_text (d : Date) : isIsoDate d.text = true := by
  have digits : ∀ n, isDigit (CodePoint.ofChar (Nat.digitChar (n % 10))) = true :=
    fun n => isDigit_digit (Nat.mod_lt n (by decide))
  have dash : lit "-" = [CodePoint.ofChar '-'] := rfl
  simp only [Date.text, padded, dash, List.nil_append, List.cons_append, isIsoDate,
    List.all_cons, List.all_nil, digits, decide_true, Bool.and_true]

theorem isDay_text (d : Date) : isDay d.text = true := by
  rw [isDay, isIsoDate_text, parseDate_text]
  rfl

theorem current_mem {p : Platform} {viewerRelease : Files} {ids : List Str} {archive : Archive}
    {s : ArchiveState} (loaded : Loaded p viewerRelease ids archive s) {h : Str}
    (now : s.current = some h) : h ∈ s.publications.keys := by
  obtain ⟨last, there, rfl⟩ := Option.map_eq_some_iff.mp now
  exact (loaded.recorded _).mp (List.mem_map_of_mem (List.mem_of_getLast? there))

theorem current_digest {p : Platform} {viewerRelease : Files} {ids : List Str} {archive : Archive}
    {s : ArchiveState} (loaded : Loaded p viewerRelease ids archive s) {h : Str}
    (now : s.current = some h) : isDigest h = true :=
  (loaded.mem_keys.mp (current_mem loaded now)).1

section
variable {p : Platform} {viewerRelease : Files} {ids : List Str} {archive : Archive}
  {s : ArchiveState}

theorem planned_publish (loaded : Loaded p viewerRelease ids archive s) {staged rebuild : StagedBuild}
    {release : Files} {today : Date} {reviewed : Bool} {plan : SitePlan}
    (made : planPublish p s staged rebuild release today reviewed = .ok plan) :
    Planned p s plan ∧ plan.contentHash = staged.output.contentHash ∧
      verifyPublication p plan.contentHash (publicationFiles staged.output) release
        staged.internalIdentifiers = .ok () ∧
      ∀ files, plan.newPublication = some files → files = publicationFiles staged.output := by
  obtain ⟨⟨⟩, -, made⟩ := bind_ok.mp made
  obtain ⟨⟨⟩, -, made⟩ := bind_ok.mp made
  obtain ⟨⟨⟩, verified, made⟩ := bind_ok.mp made
  obtain ⟨⟨⟩, live, made⟩ := bind_ok.mp made
  obtain ⟨⟨⟩, unchanged, made⟩ := bind_ok.mp made
  obtain ⟨entry, new, site⟩ := planSite_ok made
  have digest := isDigest_of_verified verified
  have own : plan.contentHash = staged.output.contentHash := by
    have last := site.last
    rw [SitePlan.history, entry] at last
    split at last
    · rename_i now
      rw [Option.toList, List.append_nil] at last
      exact Option.some.inj (last.symm.trans now)
    · rw [Option.toList, List.getLast?_concat] at last
      exact (Option.some.inj last).symm
  have absent : ∀ files, plan.newPublication = some files →
      staged.output.contentHash ∉ s.publications.keys ∧ files = publicationFiles staged.output := by
    intro files hf
    rw [new] at hf
    split at hf
    · rename_i archived
      exact ⟨Dict.get?_eq_none.mp (Option.isNone_iff_eq_none.mp archived), (Option.some.inj hf).symm⟩
    · cases hf
  refine ⟨⟨site, ?_, ?_, ?_⟩, own, own ▸ verified, fun files hf => (absent files hf).2⟩
  · intro e he
    rw [entry] at he
    split at he
    · cases he
    · obtain rfl := Option.some.inj he
      refine ⟨⟨digest, isDay_text today, fun h now => ⟨rfl, current_digest loaded now⟩,
        fun h gone => (by cases gone), fun act => by cases act⟩, own.symm⟩
  · intro files hf
    obtain ⟨unknown, rfl⟩ := absent files hf
    exact ⟨own ▸ unknown, own ▸ digest, keys_of_verified verified⟩
  · intro none'
    rw [new] at none'
    split at none'
    · cases none'
    · rename_i archived
      rw [own, ← Dict.get?_isSome]
      simpa [Option.isSome_iff_ne_none] using archived

theorem planned_rollback (loaded : Loaded p viewerRelease ids archive s) {target : Str} {today : Date}
    {identifiers : List Str} {plan : SitePlan}
    (made : planRollback p s target today identifiers = .ok plan) :
    Planned p s plan ∧ plan.newPublication = none := by
  obtain ⟨h, required, made⟩ := bind_ok.mp made
  obtain ⟨⟨⟩, some', made⟩ := bind_ok.mp made
  obtain ⟨⟨⟩, live, made⟩ := bind_ok.mp made
  obtain ⟨⟨⟩, moves, made⟩ := bind_ok.mp made
  obtain ⟨⟨⟩, there, made⟩ := bind_ok.mp made
  obtain ⟨entry, new, site⟩ := planSite_ok made
  have present : target ∈ s.publications.keys := not_not.mp (refuseWhen_ok.mp there)
  have digest := (loaded.mem_keys.mp present).1
  have own : plan.contentHash = target := by
    have last := site.last
    rw [SitePlan.history, entry, Option.toList, List.getLast?_concat] at last
    exact (Option.some.inj last).symm
  obtain ⟨current, now⟩ := Option.ne_none_iff_exists'.mp (not_or.mp (refuseWhen_ok.mp some')).1
  refine ⟨⟨site, ?_, ?_, fun _ => own ▸ present⟩, new⟩
  · intro e he
    rw [entry] at he
    obtain rfl := Option.some.inj he
    refine ⟨⟨digest, isDay_text today, fun h gone => (nomatch gone),
      fun h gone => ⟨rfl, current_digest loaded gone⟩, fun _ => ?_⟩, own.symm⟩
    rw [now]
    rfl
  · intro files hf
    cases new.symm.trans hf

end

end QaCopilot.GuestDemo
