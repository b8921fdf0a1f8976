import QaCopilot.GuestDemo.Archive
import QaCopilot.GuestDemo.HistoryLines
import QaCopilot.Python.SortedTexts

/-!
# What `load_archive` accepts

* `loadArchive_ok`: the state that is loaded, entry by entry of the archive;
* `loadArchive_isOk`: an archive whose entries are readable and agree with the history is loaded;
* `loadArchive_same`: archives with the same entries are loaded as the same state.
-/

namespace QaCopilot.GuestDemo

open Python Results

/-! ## Directories in order -/

section
variable {ν : Type}

theorem byName_perm (items : List (Str × ν)) : (byName items).Perm items := List.perm_insertionSort _ _

theorem mem_byName {d : Dict Str ν} {name : Str} {v : ν} :
    (name, v) ∈ byName d.items ↔ d.get? name = some v := by
  rw [(byName_perm d.items).mem_iff, Dict.get?_eq_some]

theorem nodup_byName (d : Dict Str ν) : ((byName d.items).map (·.1)).Nodup :=
  ((byName_perm d.items).map _).nodup_iff.mpr d.distinct

/-- What a loop over distinct names keeps of the entries before it holds at its end. -/
theorem foldlM_names {σ : Type} {f : σ → Str × ν → Except Failure σ}
    {P : List (Str × ν) → σ → Prop} {s t : σ} {items : List (Str × ν)}
    (distinct : (items.map (·.1)).Nodup) (start : P [] s)
    (step : ∀ before i u v, i.1 ∉ before.map (·.1) → P before u → f u i = .ok v → P (before ++ [i]) v)
    (run : items.foldlM f s = .ok t) : P items t := by
  refine foldlM_run (P := fun before u => (before.map (·.1)).Nodup → P before u) (fun _ => start)
    ?_ run distinct
  intro before i u v kept made nodup
  rw [List.map_append, List.nodup_append] at nodup
  refine step before i u v ?_ (kept nodup.1) made
  intro listed
  exact nodup.2.2 i.1 listed i.1 (by simp) rfl

end

/-- A loop succeeds when each of its steps does, whatever came before. -/
theorem foldlM_isOk {σ α : Type} {f : σ → α → Except Failure σ} {as : List α}
    (each : ∀ a ∈ as, ∀ s, ∃ t, f s a = .ok t) (s : σ) : ∃ t, as.foldlM f s = .ok t := by
  induction as generalizing s with
  | nil => exact ⟨s, rfl⟩
  | cons a as ih =>
    obtain ⟨u, first⟩ := each a List.mem_cons_self s
    obtain ⟨t, rest⟩ := ih (fun b hb => each b (List.mem_cons_of_mem a hb)) u
    exact ⟨t, bind_ok.mpr ⟨u, first, rest⟩⟩

/-! ## The files of a publication -/

/-- The files of a directory, none for an entry that is no file. -/
def Holds (items : Dict Str Item) (files : Files) : Prop :=
  (∀ name item, items.get? name = some item → ∃ data, item = .file data) ∧
    ∀ name data, files.get? name = some data ↔ items.get? name = some (.file data)

theorem readFile_ok {directory : Str} {files files' : Files} {i : Str × Item} :
    readFile directory files i = .ok files' ↔ ∃ data, i.2 = .file data ∧ files' = files.set i.1 data := by
  unfold readFile
  split
  · rename_i link
    simp [refuse, link]
  · rename_i data own
    simp [own, eq_comm]
  · rename_i other
    simp [refuse, other]

theorem readFiles_ok {directory : Str} {items : Dict Str Item} {files : Files}
    (read : readFiles directory items = .ok files) : Holds items files := by
  have all : (∀ i ∈ byName items.items, ∃ data, i.2 = .file data) ∧
      ∀ name data, files.get? name = some data ↔ (name, Item.file data) ∈ byName items.items := by
    refine foldlM_names (P := fun before files => (∀ i ∈ before, ∃ data, i.2 = .file data) ∧
      ∀ name data, files.get? name = some data ↔ (name, Item.file data) ∈ before)
      (nodup_byName items) (by simp) ?_ read
    rintro before ⟨n, item⟩ u v fresh ⟨plain, kept⟩ made
    obtain ⟨data, rfl, rfl⟩ := readFile_ok.mp made
    constructor
    · intro i hi
      rcases List.mem_append.mp hi with hi | hi
      · exact plain i hi
      · exact ⟨data, by rw [List.mem_singleton.mp hi]⟩
    · intro name data'
      rw [List.mem_append, List.mem_singleton, ← kept]
      by_cases own : name = n
      · subst own
        have absent : u.get? name = none := by
          rw [Option.eq_none_iff_forall_ne_some]
          intro w found
          exact fresh (List.mem_map_of_mem (f := (·.1)) ((kept name w).mp found))
        simp [Dict.get?_set_self, absent, eq_comm]
      · simp [Dict.get?_set_other _ _ own, own]
  refine ⟨?_, ?_⟩
  · intro name item found
    exact all.1 _ (mem_byName.mpr found)
  · intro name data
    rw [all.2, mem_byName]

theorem readFiles_isOk (directory : Str) {items : Dict Str Item}
    (plain : ∀ name item, items.get? name = some item → ∃ data, item = .file data) :
    ∃ files, readFiles directory items = .ok files := by
  refine foldlM_isOk ?_ _
  rintro ⟨name, item⟩ hi files
  obtain ⟨data, own⟩ := plain name item (mem_byName.mp hi)
  exact ⟨files.set name data, readFile_ok.mpr ⟨data, own, rfl⟩⟩

/-! ## The check of a publication -/

theorem perm_keys {files files' : Files} (same : ∀ name, files.get? name = files'.get? name) :
    files.keys.Perm files'.keys := by
  refine (List.perm_ext_iff_of_nodup files.nodup_keys files'.nodup_keys).mpr fun name => ?_
  rw [← Dict.get?_isSome, ← Dict.get?_isSome, same]

/-- The check depends on nothing but the contents. -/
theorem verifyPublication_congr {files files' : Files}
    (same : ∀ name, files.get? name = files'.get? name) (p : Platform) (contentHash : Str)
    (viewerRelease : Files) (ids : List Str) :
    verifyPublication p contentHash files viewerRelease ids =
      verifyPublication p contentHash files' viewerRelease ids := by
  have contents : file files = file files' := by
    funext name
    rw [file, file, same]
  rw [verifyPublication, verifyPublication, sortedTexts_eq.mpr (perm_keys same), contents]

theorem isDigest_of_verified {p : Platform} {contentHash : Str} {files viewerRelease : Files}
    {ids : List Str} (verified : verifyPublication p contentHash files viewerRelease ids = .ok ()) :
    isDigest contentHash = true := by
  obtain ⟨h, required, -⟩ := bind_ok.mp verified
  obtain ⟨own, digest⟩ := requireText_ok.mp required
  exact Json.str.inj own ▸ digest

theorem keys_of_verified {p : Platform} {contentHash : Str} {files viewerRelease : Files}
    {ids : List Str} (verified : verifyPublication p contentHash files viewerRelease ids = .ok ()) :
    files.keys.Perm publicationFileNames := by
  obtain ⟨h, -, verified⟩ := bind_ok.mp verified
  obtain ⟨⟨⟩, names, -⟩ := bind_ok.mp verified
  exact sortedTexts_eq.mp (not_not.mp (refuseWhen_ok.mp names))

/-! ## The archive -/

theorem historyFile_ne {h : Str} (digest : isDigest h = true) : h ≠ historyFile := by
  rintro rfl
  revert digest
  decide

section
variable (p : Platform) (viewerRelease : Files) (ids : List Str)

/-- The loop takes the entry: the history, or a publication that passes its check. -/
def Readable (name : Str) : Entry → Prop
  | .file _ => name = historyFile
  | .directory items => isDigest name = true ∧ ∃ files, readFiles name items = .ok files ∧
      verifyPublication p name files viewerRelease ids = .ok ()
  | .link | .other => False

end

section
variable {p : Platform} {viewerRelease : Files} {ids : List Str}

theorem readEntry_ok {l l' : Listing} {i : Str × Entry}
    (read : readEntry p viewerRelease ids l i = .ok l') :
    (∃ data, i.1 = historyFile ∧ i.2 = .file data ∧ l' = { l with historyBytes := some data }) ∨
      ∃ items files, i.2 = .directory items ∧ isDigest i.1 = true ∧ readFiles i.1 items = .ok files ∧
        verifyPublication p i.1 files viewerRelease ids = .ok () ∧
        l' = { l with publications := l.publications.set i.1 files } := by
  unfold readEntry at read
  split at read
  · cases read
  · rename_i data own
    split at read
    · rename_i named
      exact .inl ⟨data, named, own, (Except.ok.inj read).symm⟩
    · cases read
  · rename_i items own
    split at read
    · rename_i digest
      obtain ⟨files, made, read⟩ := bind_ok.mp read
      obtain ⟨⟨⟩, verified, read⟩ := bind_ok.mp read
      exact .inr ⟨items, files, own, digest, made, verified, (Except.ok.inj read).symm⟩
    · cases read
  · cases read

theorem readEntry_isOk {i : Str × Entry} (readable : Readable p viewerRelease ids i.1 i.2)
    (l : Listing) : ∃ l', readEntry p viewerRelease ids l i = .ok l' := by
  obtain ⟨name, e⟩ := i
  cases e with
  | link | other => cases readable
  | file data =>
    have named : name = historyFile := readable
    refine ⟨{ l with historyBytes := some data }, ?_⟩
    simp only [readEntry]
    rw [if_pos named]
  | directory items =>
    obtain ⟨digest, files, read, verified⟩ := readable
    refine ⟨{ l with publications := l.publications.set name files }, ?_⟩
    simp only [readEntry]
    rw [if_pos digest, read, ok_bind, verified]
    rfl

/-- The loop over these entries has these variables. -/
structure Listed (p : Platform) (viewerRelease : Files) (ids : List Str)
    (has : Str → Entry → Prop) (l : Listing) : Prop where
  readable : ∀ name e, has name e → Readable p viewerRelease ids name e
  publications : ∀ h files, l.publications.get? h = some files ↔
    ∃ items, has h (.directory items) ∧ readFiles h items = .ok files
  history : ∀ data, l.historyBytes = some data ↔ has historyFile (.file data)

theorem Listed.congr {has has' : Str → Entry → Prop} {l : Listing}
    (listed : Listed p viewerRelease ids has l) (same : ∀ name e, has name e ↔ has' name e) :
    Listed p viewerRelease ids has' l where
  readable := fun name e h => listed.readable name e ((same name e).mpr h)
  publications := by
    simp only [← same]
    exact listed.publications
  history := by
    simp only [← same]
    exact listed.history

theorem listed_nil : Listed p viewerRelease ids (fun name e => (name, e) ∈ []) ⟨.empty, none⟩ where
  readable := fun _ _ listed => nomatch listed
  publications := by simp
  history := by simp

theorem listed_step {before : List (Str × Entry)} {i : Str × Entry} {l l' : Listing}
    (fresh : i.1 ∉ before.map (·.1))
    (listed : Listed p viewerRelease ids (fun name e => (name, e) ∈ before) l)
    (read : readEntry p viewerRelease ids l i = .ok l') :
    Listed p viewerRelease ids (fun name e => (name, e) ∈ before ++ [i]) l' := by
  obtain ⟨n, entry⟩ := i
  have new : ∀ e, (n, e) ∉ before := fun e listed => fresh (List.mem_map_of_mem (f := (·.1)) listed)
  rcases readEntry_ok read with ⟨data, named, own, rfl⟩ | ⟨items, files, own, digest, made, verified, rfl⟩
  · obtain rfl : n = historyFile := named
    obtain rfl : entry = .file data := own
    refine ⟨?_, ?_, ?_⟩
    · intro name e he
      rcases List.mem_append.mp he with he | he
      · exact listed.readable name e he
      · obtain ⟨rfl, rfl⟩ := Prod.mk.inj (List.mem_singleton.mp he)
        exact rfl
    · intro h files
      rw [listed.publications]
      simp
    · intro data'
      simp [new, eq_comm]
  · obtain rfl : entry = .directory items := own
    refine ⟨?_, ?_, ?_⟩
    · intro name e he
      rcases List.mem_append.mp he with he | he
      · exact listed.readable name e he
      · obtain ⟨rfl, rfl⟩ := Prod.mk.inj (List.mem_singleton.mp he)
        exact ⟨digest, files, made, verified⟩
    · intro h files'
      by_cases own : h = n
      · subst own
        simp [Dict.get?_set_self, new, made]
      · simp [Dict.get?_set_other _ _ own, listed.publications, own]
    · intro data'
      rw [listed.history]
      simp [Ne.symm (historyFile_ne digest)]

theorem entry_eq_some {directory : Dict Str Entry} {name : Str} {e : Entry} :
    (name, e) ∈ byName directory.items ↔ Archive.entry (some directory) name = some e :=
  mem_byName

theorem listArchive_ok {archive : Archive} {l : Listing}
    (made : listArchive p viewerRelease ids archive = .ok l) :
    Listed p viewerRelease ids (fun name e => archive.entry name = some e) l := by
  cases archive with
  | none =>
    obtain rfl := Except.ok.inj made
    exact listed_nil.congr fun name e => by simp [Archive.entry]
  | some directory =>
    have listed : Listed p viewerRelease ids (fun name e => (name, e) ∈ byName directory.items) l :=
      foldlM_names (P := fun before l => Listed p viewerRelease ids (fun name e => (name, e) ∈ before) l)
        (nodup_byName directory) listed_nil (fun _ _ _ _ fresh => listed_step fresh) made
    exact listed.congr fun name e => entry_eq_some

theorem listArchive_isOk {archive : Archive}
    (readable : ∀ name e, archive.entry name = some e → Readable p viewerRelease ids name e) :
    ∃ l, listArchive p viewerRelease ids archive = .ok l := by
  cases archive with
  | none => exact ⟨_, rfl⟩
  | some directory =>
    refine foldlM_isOk ?_ _
    rintro ⟨name, e⟩ hi l
    exact readEntry_isOk (readable name e (entry_eq_some.mp hi)) l

/-! ## States -/

/-- `==` of two states. -/
structure ArchiveState.Same (s t : ArchiveState) : Prop where
  publications : ∀ h name, (s.publications.get? h).map (·.get? name) =
    (t.publications.get? h).map (·.get? name)
  history : s.history = t.history
  historyBytes : s.historyBytes = t.historyBytes

/-- What is loaded from an archive. -/
structure Loaded (p : Platform) (viewerRelease : Files) (ids : List Str) (archive : Archive)
    (s : ArchiveState) : Prop where
  readable : ∀ name e, archive.entry name = some e → Readable p viewerRelease ids name e
  publications : ∀ h files, s.publications.get? h = some files ↔
    ∃ items, archive.entry h = some (.directory items) ∧ readFiles h items = .ok files
  bytes : ∀ data, s.historyBytes = some data ↔ archive.entry historyFile = some (.file data)
  history : parseHistory p (s.historyBytes.getD []) = .ok s.history
  recorded : ∀ h, h ∈ s.history.map (·.contentHash) ↔ h ∈ s.publications.keys

theorem loadArchive_ok {archive : Archive} {s : ArchiveState}
    (loaded : loadArchive p viewerRelease ids archive = .ok s) :
    Loaded p viewerRelease ids archive s := by
  obtain ⟨l, made, loaded⟩ := bind_ok.mp loaded
  obtain ⟨history, parsed, loaded⟩ := bind_ok.mp loaded
  obtain ⟨⟨⟩, agree, loaded⟩ := bind_ok.mp loaded
  obtain rfl := Except.ok.inj loaded
  have listed := listArchive_ok made
  obtain ⟨sub, sup⟩ := not_not.mp (refuseWhen_ok.mp agree)
  exact ⟨listed.readable, listed.publications, listed.history, parsed, fun h => ⟨sub h, sup h⟩⟩

/-- An archive whose entries are readable and agree with the history is loaded. -/
theorem loadArchive_isOk {archive : Archive} (history : List HistoryEntry) (data : Bytes)
    (readable : ∀ name e, archive.entry name = some e → Readable p viewerRelease ids name e)
    (held : ∀ data', archive.entry historyFile = some (.file data') → data' = data)
    (absent : (∀ data', archive.entry historyFile ≠ some (.file data')) → data = [])
    (parsed : parseHistory p data = .ok history)
    (recorded : ∀ h, h ∈ history.map (·.contentHash) ↔
      ∃ items, archive.entry h = some (.directory items)) :
    ∃ s, loadArchive p viewerRelease ids archive = .ok s := by
  obtain ⟨l, made⟩ := listArchive_isOk readable
  have listed := listArchive_ok made
  have bytes : l.historyBytes.getD [] = data := by
    cases found : l.historyBytes with
    | none =>
      refine (absent fun data' there => ?_).symm
      cases found.symm.trans ((listed.history data').mpr there)
    | some data' => exact held data' ((listed.history data').mp found)
  have keys : ∀ h, h ∈ l.publications.keys ↔ h ∈ history.map (·.contentHash) := by
    intro h
    rw [← Dict.get?_isSome, Option.isSome_iff_exists, recorded]
    constructor
    · rintro ⟨files, found⟩
      obtain ⟨items, there, -⟩ := (listed.publications h files).mp found
      exact ⟨items, there⟩
    · rintro ⟨items, there⟩
      obtain ⟨-, files, read, -⟩ := listed.readable h _ there
      exact ⟨files, (listed.publications h files).mpr ⟨items, there, read⟩⟩
  refine ⟨⟨l.publications, history, l.historyBytes⟩, bind_ok.mpr ⟨l, made, ?_⟩⟩
  refine bind_ok.mpr ⟨history, bytes ▸ parsed, bind_ok.mpr ⟨(), refuseWhen_ok.mpr ?_, rfl⟩⟩
  exact not_not.mpr ⟨fun h hh => (keys h).mpr hh, fun h hh => (keys h).mp hh⟩

/-- The bytes of the history and the history that they hold. -/
theorem Loaded.recordedHistory {archive : Archive} {s : ArchiveState}
    (loaded : Loaded p viewerRelease ids archive s) :
    Recorded p (s.historyBytes.getD []) s.history :=
  parseHistory_ok.mp loaded.history

/-- A publication of the archive is one of the state. -/
theorem Loaded.mem_keys {archive : Archive} {s : ArchiveState}
    (loaded : Loaded p viewerRelease ids archive s) {h : Str} :
    h ∈ s.publications.keys ↔ isDigest h = true ∧ (archive.entry h).isSome = true := by
  rw [← Dict.get?_isSome, Option.isSome_iff_exists, Option.isSome_iff_exists]
  constructor
  · rintro ⟨files, found⟩
    obtain ⟨items, there, -⟩ := (loaded.publications h files).mp found
    exact ⟨(loaded.readable h _ there).1, _, there⟩
  · rintro ⟨digest, e, there⟩
    have readable := loaded.readable h e there
    cases e with
    | link | other => cases readable
    | file data => exact absurd readable (historyFile_ne digest)
    | directory items =>
      obtain ⟨-, files, read, -⟩ := readable
      exact ⟨files, (loaded.publications h files).mpr ⟨items, there, read⟩⟩

end

end QaCopilot.GuestDemo
