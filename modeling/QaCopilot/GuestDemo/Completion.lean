import QaCopilot.GuestDemo.PublishedArchive

/-!
# A plan that can be written

* `writePlan_isOk`: on the archive that it was made for and an empty site, a plan whose history line
  can be written is written to its end.
-/

namespace QaCopilot.GuestDemo

open Python Results Interruption

section
variable {create : Str → Write} {append : Str → UInt8 → Write}
  {H : (Str → Option Bytes) → Disk → Prop}

/-- Files of distinct names, none of which is there, can be written. -/
theorem fileWrites_isOk
    (creates : ∀ f name u, H f u → f name = none → ∃ v, u.write (create name) = .ok v ∧
      H (Function.update f name (some [])) v)
    (appends : ∀ f name data byte u, H (Function.update f name (some data)) u →
      ∃ v, u.write (append name byte) = .ok v ∧
        H (Function.update f name (some (data ++ [byte]))) v)
    {files : List (Str × Bytes)} {f : Str → Option Bytes} {d : Disk}
    (distinct : (files.map (·.1)).Nodup) (fresh : ∀ i ∈ files, f i.1 = none) (start : H f d) :
    ∃ d', (fileWrites create append files).foldlM Disk.write d = .ok d' := by
  induction files generalizing f d with
  | nil => exact ⟨d, rfl⟩
  | cons i files ih =>
    obtain ⟨name, data⟩ := i
    obtain ⟨absent, distinct⟩ := List.nodup_cons.mp distinct
    obtain ⟨u, made, opened⟩ := creates f name d start (fresh _ List.mem_cons_self)
    have grows : ∀ c b x y, H (Function.update f name (some c)) x →
        x.write (append name b) = .ok y → H (Function.update f name (some (c ++ [b]))) y := by
      intro c b x y held wrote
      obtain ⟨y', wrote', held'⟩ := appends f name c b x held
      obtain rfl := Except.ok.inj (wrote'.symm.trans wrote)
      exact held'
    obtain ⟨v, written⟩ := appends_isOk (H := fun c => H (Function.update f name (some c)))
      (l := data) grows (fun c b x held => (appends f name c b x held).imp fun _ h => h.1) opened
    have own : H (Function.update f name (some data)) v :=
      run_appends (H := fun c => H (Function.update f name (some c))) grows opened written
    have fresh' : ∀ i ∈ files, Function.update f name (some data) i.1 = none := by
      intro i hi
      have other : i.1 ≠ name := fun same => absent (List.mem_map.mpr ⟨i, hi, same⟩)
      rw [Function.update_of_ne other]
      exact fresh i (List.mem_cons_of_mem _ hi)
    obtain ⟨d', run⟩ := ih distinct fresh' own
    refine ⟨d', ?_⟩
    rw [fileWrites, List.flatMap_cons, List.cons_append, List.foldlM_cons]
    refine bind_ok.mpr ⟨u, made, ?_⟩
    rw [List.foldlM_append]
    exact bind_ok.mpr ⟨v, written, run⟩

end

theorem siteWrites_isOk (files : Files) {d : Disk} (empty : SiteHolds (fun _ => none) d) :
    ∃ d', (Write.makeSite :: fileWrites .createSite .appendSite files.items).foldlM Disk.write d =
      .ok d' := by
  have start : SiteHolds (fun _ => none) { d with site := some (d.site.getD .empty) } := empty
  suffices ∃ d', (fileWrites .createSite .appendSite files.items).foldlM Disk.write
      { d with site := some (d.site.getD .empty) } = .ok d' by
    obtain ⟨d', run⟩ := this
    exact ⟨d', bind_ok.mpr ⟨_, rfl, run⟩⟩
  refine fileWrites_isOk (H := SiteHolds) ?_ ?_ files.distinct (fun _ _ => rfl) start
  · intro f name u held absent
    refine ⟨u.putSite name [], ?_, siteHolds_put held name []⟩
    simp only [Disk.write, held name, absent]
  · intro f name data byte u held
    refine ⟨u.putSite name (data ++ [byte]), ?_, ?_⟩
    · simp only [Disk.write, held name, Function.update_self]
    · have put := siteHolds_put held name (data ++ [byte])
      rwa [Function.update_idem] at put

theorem publicationWrites_isOk {get : Str → Option Entry} {contentHash : Str} {files : Files} {d : Disk}
    (held : Entries get d) (fresh : get contentHash = none) :
    ∃ d', (publicationWrites contentHash files).foldlM Disk.write d = .ok d' := by
  have made : d.write (.makePublication contentHash) =
      .ok (d.putEntry contentHash (.directory .empty)) := by
    simp only [Disk.write, held contentHash, fresh]
  have start : WithFiles get contentHash (fun _ => none)
      (d.putEntry contentHash (.directory .empty)) := by
    refine ⟨⟨_, entry_putEntry_self _ _ _, fun _ => rfl⟩, fun other ne => ?_⟩
    rw [entry_putEntry_other _ _ ne]
    exact held other
  suffices ∃ d', (fileWrites (.createFile contentHash) (.appendFile contentHash)
      (publicationFileNames.map fun name => (name, file files name))).foldlM Disk.write
      (d.putEntry contentHash (.directory .empty)) = .ok d' by
    obtain ⟨d', run⟩ := this
    exact ⟨d', bind_ok.mpr ⟨_, made, run⟩⟩
  refine fileWrites_isOk (H := WithFiles get contentHash) ?_ ?_ (nodup_publication files)
    (fun _ _ => rfl) start
  · rintro f name u ⟨⟨items, there, kept⟩, others⟩ absent
    refine ⟨u.putItem contentHash items name [], ?_, withFiles_put kept others name []⟩
    refine bind_ok.mpr ⟨items, directory_ok.mpr there, ?_⟩
    simp only [kept, absent, Option.map_none]
  · rintro f name data byte u ⟨⟨items, there, kept⟩, others⟩
    refine ⟨u.putItem contentHash items name (data ++ [byte]), ?_, ?_⟩
    · refine bind_ok.mpr ⟨items, directory_ok.mpr there, ?_⟩
      simp only [kept, Function.update_self, Option.map_some]
    · have put := withFiles_put kept others name (data ++ [byte])
      rwa [Function.update_idem] at put

/-- A history file that can be read can get a line. -/
theorem historyWrites_isOk {p : Platform} {e : HistoryEntry} {line : Bytes} {d : Disk}
    (made : e.toBytes p = .ok line)
    (readable : ∀ i, d.archive.entry historyFile = some i → ∃ data, i = .file data) :
    ∃ d', (historyWrites p e).foldlM Disk.write d = .ok d' := by
  have opened : ∃ u, d.write .openHistory = .ok u := by
    cases there : d.archive.entry historyFile with
    | none => simp only [Disk.write, there, Except.ok.injEq, exists_eq']
    | some i =>
      obtain ⟨data, rfl⟩ := readable i there
      simp only [Disk.write, there, Except.ok.injEq, exists_eq']
  obtain ⟨u, opened⟩ := opened
  have start := openHistory_ok (fun _ => rfl) opened
  have goes : ∀ data byte v, WithHistory d.archive.entry data v →
      ∃ w, v.write (.appendHistory byte) = .ok w := by
    rintro data byte v ⟨there, -⟩
    simp only [Disk.write, there, Except.ok.injEq, exists_eq']
  obtain ⟨d', run⟩ := appends_isOk (l := line) (fun _ _ _ _ => appendHistory_ok) goes start
  refine ⟨d', ?_⟩
  rw [historyWrites, made]
  exact bind_ok.mpr ⟨u, opened, run⟩

/-- A plan is written to its end. -/
theorem writePlan_isOk {p : Platform} {release : Files} {ids : List Str} {d : Disk} {s : ArchiveState}
    {plan : SitePlan} (loaded : Loaded p release ids d.archive s) (planned : Planned p s plan)
    (empty : SiteHolds (fun _ => none) d)
    (line : ∀ e, plan.historyEntry = some e → ∃ line, e.toBytes p = .ok line) :
    ∃ d', writePlan p plan d = .ok d' := by
  obtain ⟨v, wrote⟩ := siteWrites_isOk plan.siteFiles empty
  have archive : v.archive = d.archive :=
    run_invariant (I := fun x => x.archive = d.archive)
      (fun w hw x y kept made => (archive_of_site (siteWrites_ofSite _ w hw) made).trans kept) rfl wrote
  have made : v.write .makeArchive = .ok { v with archive := some (v.archive.getD .empty) } := rfl
  have same : Entries d.archive.entry v := fun name => by rw [archive]
  have entries := entries_makeArchive same made
  have published : ∃ x, (plan.newPublication.elim [] (publicationWrites plan.contentHash)).foldlM
      Disk.write { v with archive := some (v.archive.getD .empty) } = .ok x := by
    cases new : plan.newPublication with
    | none => exact ⟨_, rfl⟩
    | some files =>
      obtain ⟨unknown, digest, -⟩ := planned.fresh files new
      refine publicationWrites_isOk entries ?_
      by_contra there
      obtain ⟨i, there⟩ := Option.ne_none_iff_exists'.mp there
      exact unknown (loaded.mem_keys.mpr ⟨digest, by rw [there]; rfl⟩)
  obtain ⟨x, published⟩ := published
  have written := written_of_run planned entries published
  have recorded : ∃ d', (plan.historyEntry.elim [] (historyWrites p)).foldlM Disk.write x = .ok d' := by
    cases entry : plan.historyEntry with
    | none => exact ⟨_, rfl⟩
    | some e =>
      obtain ⟨line, made⟩ := line e entry
      refine historyWrites_isOk made fun i there => ?_
      have own : x.archive.entry historyFile = d.archive.entry historyFile := by
        unfold Written at written
        split at written
        · exact written historyFile
        · rename_i files new
          exact written.2 _ (historyFile_ne (planned.fresh files new).2.1).symm
      have readable := loaded.readable _ _ (own.symm.trans there)
      cases i with
      | file data => exact ⟨data, rfl⟩
      | link | other => cases readable
      | directory items => exact absurd rfl (historyFile_ne readable.1)
  obtain ⟨d', recorded⟩ := recorded
  refine ⟨d', ?_⟩
  rw [writePlan, SitePlan.writes, List.foldlM_append]
  refine bind_ok.mpr ⟨v, wrote, bind_ok.mpr ⟨_, made, ?_⟩⟩
  rw [List.foldlM_append]
  exact bind_ok.mpr ⟨x, published, recorded⟩

end QaCopilot.GuestDemo
