import QaCopilot.GuestDemo.InterruptedPublish

/-!
# What a plan leaves when it is written

* `loadArchive_written`: the archive is loaded again with what the run hides and compares with;
* `writePlan_ok`: the archive and the site that are left;
* `Planned.siteNames`, `Planned.siteFile`, `Planned.pointer`: what the site serves.
-/

namespace QaCopilot.GuestDemo

open Python Results Interruption

/-! ## The archive of a run -/

section
variable {p : Platform} {release : Files} {ids : List Str} {a : Archive} {d u d' : Disk}
  {s : ArchiveState} {plan : SitePlan}

theorem Loaded.mem_directories (loaded : Loaded p release ids a s) {h : Str} :
    h ∈ s.publications.keys ↔ ∃ items, a.entry h = some (.directory items) := by
  rw [← Dict.get?_isSome, Option.isSome_iff_exists]
  constructor
  · rintro ⟨files, found⟩
    obtain ⟨items, there, -⟩ := (loaded.publications h files).mp found
    exact ⟨items, there⟩
  · rintro ⟨items, there⟩
    obtain ⟨-, files, read, -⟩ := loaded.readable h _ there
    exact ⟨files, (loaded.publications h files).mpr ⟨items, there, read⟩⟩

theorem keys_withNew {publications : Dict Str Files} {contentHash h : Str} {new : Option Files} :
    h ∈ (withNew publications contentHash new).keys ↔
      h ∈ publications.keys ∨ new.isSome = true ∧ h = contentHash := by
  cases new with
  | none => simp [withNew]
  | some files =>
    rw [withNew, Dict.mem_keys_set]
    simp [or_comm]

/-- A publication is new only with an entry. -/
theorem Planned.entry_of_new (loaded : Loaded p release ids a s) (planned : Planned p s plan)
    (none' : plan.historyEntry = none) : plan.newPublication = none := by
  by_contra some'
  obtain ⟨files, new⟩ := Option.ne_none_iff_exists'.mp some'
  have last := planned.last
  rw [SitePlan.history, none', Option.toList, List.append_nil] at last
  exact (planned.fresh files new).1 (current_mem loaded last)

/-- The publications of a plan are those that its history names. -/
theorem Planned.recorded (loaded : Loaded p release ids a s) (planned : Planned p s plan) {h : Str} :
    h ∈ (plan.history s).map (·.contentHash) ↔ h ∈ (plan.publications s).keys := by
  rw [SitePlan.publications, keys_withNew, SitePlan.history, List.map_append, List.mem_append,
    loaded.recorded]
  cases entry : plan.historyEntry with
  | none =>
    rw [Planned.entry_of_new loaded planned entry]
    simp
  | some e =>
    have own := (planned.entry e entry).2
    cases new : plan.newPublication with
    | some files => simp [own]
    | none =>
      have known := planned.known new
      simp only [Option.toList, List.map_cons, List.map_nil, List.mem_singleton, own]
      constructor
      · rintro (there | rfl)
        · exact .inl there
        · exact .inl known
      · rintro (there | ⟨there, -⟩)
        · exact .inl there
        · cases there

/-- The bytes of the history after a plan. -/
def SitePlan.bytes (p : Platform) (plan : SitePlan) (s : ArchiveState) : Except Failure Bytes :=
  match plan.historyEntry with
  | none => .ok (s.historyBytes.getD [])
  | some e => do return s.historyBytes.getD [] ++ (← e.toBytes p)

theorem Planned.recordedHistory (loaded : Loaded p release ids a s) (planned : Planned p s plan)
    {data : Bytes} (made : plan.bytes p s = .ok data) : Recorded p data (plan.history s) := by
  have replays := planned.replays
  unfold SitePlan.bytes at made
  unfold SitePlan.history at replays ⊢
  split at made
  · rename_i entry
    obtain rfl := Except.ok.inj made
    rw [entry, Option.toList, List.append_nil]
    exact loaded.recordedHistory
  · rename_i e entry
    obtain ⟨line, written, made⟩ := bind_ok.mp made
    obtain rfl := Except.ok.inj made
    rw [entry, Option.toList] at replays ⊢
    exact loaded.recordedHistory.append (planned.entry e entry).1 written replays

/-- What the archive holds after a plan is written. -/
structure LeftBy (p : Platform) (s : ArchiveState) (plan : SitePlan) (get : Str → Option Entry)
    (d : Disk) : Prop where
  bytes : ∃ data, plan.bytes p s = .ok data ∧ oldBytes d.archive.entry = data
  history : ∀ e, d.archive.entry historyFile = some e → ∃ data, e = .file data
  new : ∀ files, plan.newPublication = some files → ∃ items,
    d.archive.entry plan.contentHash = some (.directory items) ∧
      ∀ name, items.get? name = (files.get? name).map .file
  others : ∀ name, name ≠ historyFile → (plan.newPublication.isSome = true → name ≠ plan.contentHash) →
    d.archive.entry name = get name

/-- The archive that a run leaves is loaded again. -/
theorem loadArchive_written (loaded : Loaded p release ids d.archive s) (planned : Planned p s plan)
    (verified : ∀ files, plan.newPublication = some files →
      verifyPublication p plan.contentHash files release ids = .ok ())
    (left : LeftBy p s plan d.archive.entry d') :
    ∃ s', loadArchive p release ids d'.archive = .ok s' := by
  obtain ⟨data, made, bytes⟩ := left.bytes
  refine loadArchive_isOk (plan.history s) data ?_ ?_ ?_ ?_ ?_
  · intro name e there
    by_cases own : name = historyFile
    · subst own
      obtain ⟨data, rfl⟩ := left.history e there
      exact rfl
    by_cases fresh : plan.newPublication.isSome = true ∧ name = plan.contentHash
    · obtain ⟨some', rfl⟩ := fresh
      obtain ⟨files, new⟩ := Option.isSome_iff_exists.mp some'
      obtain ⟨items, there', holds⟩ := left.new files new
      obtain rfl := Option.some.inj (there'.symm.trans there)
      have plain : ∀ name item, items.get? name = some item → ∃ data, item = .file data := by
        intro name item found
        rw [holds] at found
        obtain ⟨data, -, rfl⟩ := Option.map_eq_some_iff.mp found
        exact ⟨data, rfl⟩
      obtain ⟨files', read⟩ := readFiles_isOk plan.contentHash plain
      have same : ∀ name, files'.get? name = files.get? name := by
        intro name
        apply Option.ext
        intro data
        rw [(readFiles_ok read).2, holds]
        cases held : files.get? name <;> simp
      refine ⟨(planned.fresh files new).2.1, files', read, ?_⟩
      rw [verifyPublication_congr same]
      exact verified files new
    · rw [left.others name own fun some' eq => fresh ⟨some', eq⟩] at there
      exact loaded.readable name e there
  · intro data' there
    rw [← bytes, oldBytes, there]
  · intro absent
    rw [← bytes, oldBytes]
    split
    · rename_i data' there
      exact absurd there (absent data')
    · rfl
  · exact parseHistory_ok.mpr (planned.recordedHistory loaded made)
  · intro h
    rw [planned.recorded loaded, SitePlan.publications, keys_withNew, loaded.mem_directories]
    by_cases fresh : plan.newPublication.isSome = true ∧ h = plan.contentHash
    · obtain ⟨some', rfl⟩ := fresh
      obtain ⟨files, new⟩ := Option.isSome_iff_exists.mp some'
      obtain ⟨items, there, -⟩ := left.new files new
      exact ⟨fun _ => ⟨items, there⟩, fun _ => .inr ⟨some', rfl⟩⟩
    by_cases own : h = historyFile
    · subst own
      constructor
      · rintro (⟨items, there⟩ | there)
        · exact absurd rfl (historyFile_ne (loaded.readable historyFile _ there).1)
        · exact absurd there fresh
      · rintro ⟨items, there⟩
        obtain ⟨data, none'⟩ := left.history _ there
        cases none'
    · rw [left.others h own fun some' eq => fresh ⟨some', eq⟩]
      exact or_iff_left fresh

/-- The writes of the archive leave the site. -/
theorem site_of_archive {d d' : Disk} {w : Write} (archive : ¬ OfSite w) (made : d.write w = .ok d') :
    d'.site = d.site := by
  cases w with
  | makeSite | createSite | appendSite => exact absurd trivial archive
  | makeArchive =>
    obtain rfl := Except.ok.inj made
    rfl
  | makePublication contentHash =>
    simp only [Disk.write] at made
    split at made
    · obtain rfl := Except.ok.inj made
      rfl
    · cases made
  | createFile contentHash name =>
    obtain ⟨items, -, -, rfl⟩ := createFile_ok made
    rfl
  | appendFile contentHash name byte =>
    obtain ⟨items, data, -, -, rfl⟩ := appendFile_ok made
    rfl
  | openHistory =>
    simp only [Disk.write] at made
    split at made
    · obtain rfl := Except.ok.inj made
      rfl
    · obtain rfl := Except.ok.inj made
      rfl
    · cases made
  | appendHistory byte =>
    simp only [Disk.write] at made
    split at made
    · obtain rfl := Except.ok.inj made
      rfl
    · cases made
  | fail f => cases made

theorem archiveWrites_notOfSite (p : Platform) (plan : SitePlan) :
    ∀ w ∈ Write.makeArchive :: (plan.newPublication.elim [] (publicationWrites plan.contentHash) ++
      plan.historyEntry.elim [] (historyWrites p)), ¬ OfSite w := by
  intro w hw
  rcases List.mem_cons.mp hw with rfl | hw
  · exact id
  rcases List.mem_append.mp hw with hw | hw
  · cases new : plan.newPublication with
    | none =>
      rw [new] at hw
      cases hw
    | some files =>
      rw [new] at hw
      rcases List.mem_cons.mp hw with rfl | hw
      · exact id
      · obtain ⟨f, -, rfl | ⟨b, rfl⟩⟩ := mem_fileWrites hw
        · exact id
        · exact id
  · cases entry : plan.historyEntry with
    | none =>
      rw [entry] at hw
      cases hw
    | some e =>
      rw [entry] at hw
      rcases List.mem_cons.mp hw with rfl | hw
      · exact id
      · cases made : e.toBytes p with
        | ok line =>
          rw [made] at hw
          obtain ⟨b, -, rfl⟩ := List.mem_map.mp hw
          exact id
        | error f =>
          rw [made] at hw
          obtain rfl := List.mem_singleton.mp hw
          exact id

/-- A plan that is written, on a disk whose site was empty. -/
theorem writePlan_ok (loaded : Loaded p release ids d.archive s) (planned : Planned p s plan)
    (empty : SiteHolds (fun _ => none) d) (run : writePlan p plan d = .ok d') :
    LeftBy p s plan d.archive.entry d' ∧ SiteHolds plan.siteFiles.get? d' ∧
      ∀ s', Loaded p release ids d'.archive s' →
        ∃ after, plan.after p s = .ok after ∧ s'.Same after := by
  rw [writePlan, SitePlan.writes, List.foldlM_append] at run
  obtain ⟨v, wrote, run⟩ := bind_ok.mp run
  have site := run_siteWrites empty wrote
  have archive : v.archive = d.archive :=
    run_invariant (I := fun x => x.archive = d.archive)
      (fun w hw x y kept made => (archive_of_site (siteWrites_ofSite _ w hw) made).trans kept) rfl wrote
  have kept : d'.site = v.site :=
    run_invariant (I := fun x => x.site = v.site)
      (fun w hw x y kept made => (site_of_archive (archiveWrites_notOfSite p plan w hw) made).trans kept)
      rfl run
  rw [List.foldlM_cons] at run
  obtain ⟨w, made, run⟩ := bind_ok.mp run
  have entries : Entries d.archive.entry w := entries_makeArchive (fun name => by rw [archive]) made
  rw [List.foldlM_append] at run
  obtain ⟨x, published, run⟩ := bind_ok.mp run
  have written := written_of_run planned entries published
  have old := oldBytes_written loaded planned written
  have here : SiteHolds plan.siteFiles.get? d' := fun name => by rw [kept]; exact site name
  have others : ∀ name, name ≠ historyFile →
      (plan.newPublication.isSome = true → name ≠ plan.contentHash) →
      x.archive.entry name = d.archive.entry name := by
    intro name _ other
    cases new : plan.newPublication with
    | none =>
      simp only [Written, new] at written
      exact written name
    | some files => exact written_other written (other (by rw [new]; rfl))
  have new : ∀ files, plan.newPublication = some files → ∃ items,
      x.archive.entry plan.contentHash = some (.directory items) ∧
        ∀ name, items.get? name = (files.get? name).map .file := by
    intro files new
    simp only [Written, new] at written
    exact written.1
  cases entry : plan.historyEntry with
  | none =>
    rw [entry] at run
    obtain rfl := Except.ok.inj run
    have fresh := Planned.entry_of_new loaded planned entry
    simp only [Written, fresh] at written
    refine ⟨⟨⟨_, by rw [SitePlan.bytes, entry], old⟩, ?_, new, others⟩, here, ?_⟩
    · intro e there
      rw [written] at there
      have readable := loaded.readable _ _ there
      cases e with
      | file data => exact ⟨data, rfl⟩
      | link | other => cases readable
      | directory items => exact absurd rfl (historyFile_ne readable.1)
    · intro s' loaded'
      refine ⟨⟨plan.publications s, s.history, s.historyBytes⟩, by rw [SitePlan.after, entry], ?_⟩
      rw [SitePlan.publications, fresh]
      exact loaded_same loaded loaded' rfl written
  | some e =>
    rw [entry] at run
    obtain ⟨line, made, recorded⟩ := run_historyWrites (fun _ => rfl) run
    refine ⟨⟨⟨_, by rw [SitePlan.bytes, entry]; exact bind_ok.mpr ⟨line, made, rfl⟩, ?_⟩, ?_, ?_, ?_⟩,
      here, fun s' loaded' => loaded_written loaded loaded' rfl planned written entry made recorded⟩
    · rw [oldBytes, recorded.1, ← old]
    · intro e there
      exact ⟨_, Option.some.inj (there.symm.trans recorded.1)⟩
    · intro files fresh
      obtain ⟨items, there, holds⟩ := new files fresh
      refine ⟨items, ?_, holds⟩
      rw [recorded.2 _ (historyFile_ne (planned.fresh files fresh).2.1), there]
    · intro name own other
      rw [recorded.2 name own]
      exact others name own other

end

/-! ## The site of a run -/

theorem length_of_isDigest {h : Str} (digest : isDigest h = true) : h.length = 64 := by
  simp only [isDigest, Bool.and_eq_true, decide_eq_true_eq] at digest
  exact digest.1

theorem siteName_inj {h h' name name' : Str} (digest : isDigest h = true) (digest' : isDigest h' = true)
    (same : siteName h name = siteName h' name') : h = h' ∧ name = name' := by
  rw [siteName, siteName, List.append_assoc, List.append_assoc] at same
  obtain ⟨rfl, rest⟩ := List.append_inj same
    ((length_of_isDigest digest).trans (length_of_isDigest digest').symm)
  exact ⟨rfl, List.append_cancel_left rest⟩

theorem siteName_not_root {h name : Str} : siteName h name ∉ siteRootFileNames := by
  intro listed
  have slash : ∀ n ∈ siteRootFileNames, CodePoint.ofChar '/' ∉ n := by decide
  refine slash _ listed ?_
  rw [siteName]
  exact List.mem_append_left _ (List.mem_append_right _ List.mem_cons_self)

section
variable {p : Platform} {release : Files} {ids : List Str} {a : Archive} {s : ArchiveState}
  {plan : SitePlan}

theorem Planned.served_iff (loaded : Loaded p release ids a s) (planned : Planned p s plan) {h : Str} :
    h ∈ plan.servedPublications ↔
      h ∈ (plan.history s).map (·.contentHash) ∧ h ∉ withdrawnHashes (plan.history s) := by
  rw [planned.served, mem_sortedTexts, List.mem_filter, planned.recorded loaded, decide_eq_true_eq]

theorem Planned.digest_served (loaded : Loaded p release ids a s) (planned : Planned p s plan) {h : Str}
    (served : h ∈ plan.servedPublications) : isDigest h = true := by
  have recorded := (planned.recorded loaded).mp ((planned.served_iff loaded).mp served).1
  rw [SitePlan.publications, keys_withNew] at recorded
  rcases recorded with old | ⟨some', rfl⟩
  · exact (loaded.mem_keys.mp old).1
  · obtain ⟨files, new⟩ := Option.isSome_iff_exists.mp some'
    exact (planned.fresh files new).2.1

/-- The names of the site: its root files, and the files of the served publications. -/
theorem Planned.siteNames (planned : Planned p s plan) {name : Str} {data : Bytes}
    (there : plan.siteFiles.get? name = some data) : name ∈ siteRootFileNames ∨
      ∃ h ∈ plan.servedPublications, ∃ n ∈ publicationFileNames, name = siteName h n := by
  obtain ⟨current, headers, redirects, -, -, -, files⟩ := planned.files
  have listed := Dict.get?_isSome.mp (Option.isSome_iff_exists.mpr ⟨data, there⟩)
  rw [files, Dict.mem_keys_update, Dict.mem_keys_update] at listed
  rcases listed with (none' | listed) | listed
  · cases none'
  · obtain ⟨f, hf, rfl⟩ := List.mem_map.mp listed
    obtain ⟨h, hh, hf⟩ := List.mem_flatMap.mp hf
    obtain ⟨n, hn, rfl⟩ := List.mem_map.mp hf
    exact .inr ⟨h, hh, n, hn, rfl⟩
  · exact .inl listed

/-- Each served publication is in the site as it is in the archive. -/
theorem Planned.siteFile (loaded : Loaded p release ids a s) (planned : Planned p s plan) {h n : Str}
    (served : h ∈ plan.servedPublications) (listed : n ∈ publicationFileNames) :
    plan.siteFiles.get? (siteName h n) =
      some (file (((plan.publications s).get? h).getD .empty) n) := by
  obtain ⟨current, headers, redirects, -, -, -, files⟩ := planned.files
  rw [files, Dict.get?_update_other siteName_not_root]
  refine Dict.get?_update_of ?_ ?_
  · rw [List.mem_map]
    exact ⟨_, List.mem_flatMap.mpr ⟨h, served, List.mem_map_of_mem listed⟩, rfl⟩
  · intro i hi own
    obtain ⟨h', hh', hi⟩ := List.mem_flatMap.mp hi
    obtain ⟨n', hn', rfl⟩ := List.mem_map.mp hi
    obtain ⟨rfl, rfl⟩ := siteName_inj (planned.digest_served loaded hh')
      (planned.digest_served loaded served) own
    rfl

/-- `current.json` of the site: the publication of the plan, and a previous one that is served. -/
theorem Planned.pointer (loaded : Loaded p release ids a s) (planned : Planned p s plan) :
    ∃ (pointer : CurrentPointer) (data : Bytes), plan.siteFiles.get? currentFile = some data ∧
      canonicalJsonBytes p.depth (.dict pointer.payload) = .ok data ∧
      pointer.contentHash = plan.contentHash ∧
      ∀ h, pointer.previousHash = some h → h ∈ plan.servedPublications := by
  obtain ⟨current, headers, redirects, rendered, -, -, files⟩ := planned.files
  obtain ⟨r, replays⟩ := planned.replays
  have held := replayed replays
  obtain ⟨pointer, pointed, printed⟩ := bind_ok.mp rendered
  refine ⟨pointer, current, ?_, printed, ?_⟩
  · rw [files]
    refine Dict.get?_update_of (by simp) ?_
    intro i hi own
    simp only [List.mem_cons, List.not_mem_nil, or_false] at hi
    rcases hi with rfl | rfl | rfl | rfl
    · rfl
    · exact absurd own (by decide : headersFile ≠ currentFile)
    · exact absurd own (by decide : redirectsFile ≠ currentFile)
    · exact absurd own (by decide : notFoundFile ≠ currentFile)
  · unfold currentPointer at pointed
    split at pointed
    · cases pointed
    · rename_i last there
      split at pointed
      · cases pointed
      · rename_i first found
        obtain rfl := Except.ok.inj pointed
        have own := planned.last
        rw [there] at own
        refine ⟨Option.some.inj own, fun h previous => ?_⟩
        obtain ⟨named, live⟩ := Option.filter_eq_some_iff.mp previous
        have publish := List.find?_some found
        simp only [decide_eq_true_eq] at publish live
        have known := held.previous first (List.mem_of_find?_eq_some found) publish.1 h named
        exact (planned.served_iff loaded).mpr ⟨(held.published h).mp known, live⟩

end

end QaCopilot.GuestDemo
