import QaCopilot.GuestDemo.Loading
import QaCopilot.Lib.Interruption
import QaCopilot.Lib.Table

/-!
# What the writes of a plan leave

* `interrupted_publicationWrites`, `interrupted_historyWrites`: the entries of the archive where the
  writes stop;
* `run_fileWrites`: files that are all written hold their data.
-/

namespace QaCopilot.GuestDemo

open Python Results Interruption

/-! ## Single writes -/

@[simp] theorem entry_putEntry_self (d : Disk) (name : Str) (e : Entry) :
    (d.putEntry name e).archive.entry name = some e := by
  simp [Disk.putEntry, Archive.entry, Dict.get?_set_self]

@[simp] theorem entry_putEntry_other (d : Disk) {name other : Str} (e : Entry) (ne : other ≠ name) :
    (d.putEntry name e).archive.entry other = d.archive.entry other := by
  cases h : d.archive <;> simp [Disk.putEntry, Archive.entry, Dict.get?_set_other _ _ ne, h]

@[simp] theorem archive_putSite (d : Disk) (name : Str) (data : Bytes) :
    (d.putSite name data).archive = d.archive := rfl

theorem directory_ok {d : Disk} {name : Str} {items : Dict Str Item} :
    d.directory name = .ok items ↔ d.archive.entry name = some (.directory items) := by
  unfold Disk.directory
  split
  · rename_i items' there
    simp [there]
  · rename_i other
    constructor
    · intro h
      cases h
    · intro h
      exact absurd h (other items)

/-- The entries of the archive are these. -/
def Entries (get : Str → Option Entry) (d : Disk) : Prop := ∀ name, d.archive.entry name = get name

theorem mem_fileWrites {create : Str → Write} {append : Str → UInt8 → Write}
    {files : List (Str × Bytes)} {w : Write} (listed : w ∈ fileWrites create append files) :
    ∃ f ∈ files, w = create f.1 ∨ ∃ b, w = append f.1 b := by
  obtain ⟨f, hf, hw⟩ := List.mem_flatMap.mp listed
  refine ⟨f, hf, ?_⟩
  rcases List.mem_cons.mp hw with hw | hw
  · exact .inl hw
  · obtain ⟨b, -, rfl⟩ := List.mem_map.mp hw
    exact .inr ⟨b, rfl⟩

/-! ## The site -/

/-- A write of the site. -/
def OfSite : Write → Prop
  | .makeSite | .createSite _ | .appendSite _ _ => True
  | _ => False

theorem archive_of_site {d d' : Disk} {w : Write} (site : OfSite w) (made : d.write w = .ok d') :
    d'.archive = d.archive := by
  cases w with
  | makeSite =>
    obtain rfl := Except.ok.inj made
    rfl
  | createSite name =>
    simp only [Disk.write] at made
    split at made
    · obtain rfl := Except.ok.inj made
      rfl
    · cases made
  | appendSite name byte =>
    simp only [Disk.write] at made
    split at made
    · obtain rfl := Except.ok.inj made
      rfl
    · cases made
  | makeArchive | makePublication | createFile | appendFile | openHistory | appendHistory | fail =>
    cases site

theorem siteWrites_ofSite (files : Files) :
    ∀ w ∈ Write.makeSite :: fileWrites .createSite .appendSite files.items, OfSite w := by
  intro w hw
  rcases List.mem_cons.mp hw with rfl | hw
  · trivial
  · obtain ⟨f, -, rfl | ⟨b, rfl⟩⟩ := mem_fileWrites hw
    · trivial
    · trivial

theorem entries_makeArchive {get : Str → Option Entry} {d d' : Disk} (held : Entries get d)
    (made : d.write .makeArchive = .ok d') : Entries get d' := by
  obtain rfl := Except.ok.inj made
  intro name
  rw [← held name]
  cases d.archive <;> simp [Archive.entry]

/-! ## A publication -/

/-- Beside the entries there is a directory for this publication. -/
def WithDirectory (get : Str → Option Entry) (contentHash : Str) (d : Disk) : Prop :=
  (∃ items, d.archive.entry contentHash = some (.directory items)) ∧
    ∀ name, name ≠ contentHash → d.archive.entry name = get name

theorem withDirectory_putItem {get : Str → Option Entry} {contentHash : Str} {d : Disk}
    (held : WithDirectory get contentHash d) (items : Dict Str Item) (name : Str) (data : Bytes) :
    WithDirectory get contentHash (d.putItem contentHash items name data) := by
  refine ⟨⟨_, entry_putEntry_self _ _ _⟩, fun other ne => ?_⟩
  rw [Disk.putItem, entry_putEntry_other _ _ ne]
  exact held.2 other ne

theorem makePublication_ok {get : Str → Option Entry} {contentHash : Str} {d d' : Disk}
    (held : Entries get d) (made : d.write (.makePublication contentHash) = .ok d') :
    get contentHash = none ∧ d' = d.putEntry contentHash (.directory .empty) := by
  simp only [Disk.write] at made
  split at made
  · rename_i absent
    exact ⟨(held contentHash).symm.trans absent, (Except.ok.inj made).symm⟩
  · cases made

theorem createFile_ok {contentHash name : Str} {d d' : Disk}
    (made : d.write (.createFile contentHash name) = .ok d') :
    ∃ items, d.archive.entry contentHash = some (.directory items) ∧ items.get? name = none ∧
      d' = d.putItem contentHash items name [] := by
  obtain ⟨items, there, made⟩ := bind_ok.mp made
  split at made
  · rename_i absent
    exact ⟨items, directory_ok.mp there, absent, (Except.ok.inj made).symm⟩
  · cases made

theorem appendFile_ok {contentHash name : Str} {byte : UInt8} {d d' : Disk}
    (made : d.write (.appendFile contentHash name byte) = .ok d') :
    ∃ items data, d.archive.entry contentHash = some (.directory items) ∧
      items.get? name = some (.file data) ∧ d' = d.putItem contentHash items name (data ++ [byte]) := by
  obtain ⟨items, there, made⟩ := bind_ok.mp made
  split at made
  · rename_i data found
    exact ⟨items, data, directory_ok.mp there, found, (Except.ok.inj made).symm⟩
  · cases made

/-- The writes of a publication stop before its directory is made, or leave the directory. -/
theorem interrupted_publicationWrites {get : Str → Option Entry} {contentHash : Str} {files : Files}
    {d d' : Disk} (held : Entries get d)
    (stopped : Interrupted Disk.write d (publicationWrites contentHash files) d') :
    Entries get d' ∨ WithDirectory get contentHash d' := by
  rcases interrupted_cons.mp stopped with rfl | ⟨u, first, stopped⟩
  · exact .inl held
  · right
    obtain ⟨-, rfl⟩ := makePublication_ok held first
    refine interrupted_invariant (I := WithDirectory get contentHash) ?_
      ⟨⟨_, entry_putEntry_self _ _ _⟩, fun other ne => ?_⟩ stopped
    · intro w hw u v kept made
      obtain ⟨f, -, rfl | ⟨b, rfl⟩⟩ := mem_fileWrites hw
      · obtain ⟨items, -, -, rfl⟩ := createFile_ok made
        exact withDirectory_putItem kept items _ _
      · obtain ⟨items, data, -, -, rfl⟩ := appendFile_ok made
        exact withDirectory_putItem kept items _ _
    · rw [entry_putEntry_other _ _ ne]
      exact held other

/-! ## The history -/

/-- The history file holds these bytes, and the other entries are these. -/
def WithHistory (get : Str → Option Entry) (data : Bytes) (d : Disk) : Prop :=
  d.archive.entry historyFile = some (.file data) ∧
    ∀ name, name ≠ historyFile → d.archive.entry name = get name

/-- The bytes of the history file before the writes; none of a file that is not there. -/
def oldBytes (get : Str → Option Entry) : Bytes :=
  match get historyFile with
  | some (.file data) => data
  | _ => []

theorem openHistory_ok {get : Str → Option Entry} {d d' : Disk} (held : Entries get d)
    (made : d.write .openHistory = .ok d') : WithHistory get (oldBytes get) d' := by
  have here := held historyFile
  simp only [Disk.write] at made
  split at made
  · rename_i absent
    obtain rfl := Except.ok.inj made
    refine ⟨?_, fun name ne => ?_⟩
    · rw [entry_putEntry_self, oldBytes, ← here, absent]
    · rw [entry_putEntry_other _ _ ne]
      exact held name
  · rename_i data there
    obtain rfl := Except.ok.inj made
    refine ⟨?_, fun name _ => held name⟩
    rw [there, oldBytes, ← here, there]
  · cases made

theorem appendHistory_ok {get : Str → Option Entry} {data : Bytes} {byte : UInt8} {d d' : Disk}
    (held : WithHistory get data d) (made : d.write (.appendHistory byte) = .ok d') :
    WithHistory get (data ++ [byte]) d' := by
  simp only [Disk.write] at made
  split at made
  · rename_i data' there
    obtain rfl := Except.ok.inj made
    cases Option.some.inj (held.1.symm.trans there)
    refine ⟨entry_putEntry_self _ _ _, fun name ne => ?_⟩
    rw [entry_putEntry_other _ _ ne]
    exact held.2 name ne
  · cases made

/-- The line of an entry is opened for, or is there in part. -/
theorem interrupted_historyWrites {p : Platform} {e : HistoryEntry} {get : Str → Option Entry}
    {d d' : Disk} (held : Entries get d)
    (stopped : Interrupted Disk.write d (historyWrites p e) d') :
    Entries get d' ∨ WithHistory get (oldBytes get) d' ∨
      ∃ line part, e.toBytes p = .ok line ∧ part <+: line ∧
        WithHistory get (oldBytes get ++ part) d' := by
  rcases interrupted_cons.mp stopped with rfl | ⟨u, first, stopped⟩
  · exact .inl held
  · right
    have opened := openHistory_ok held first
    cases made : e.toBytes p with
    | ok line =>
      right
      rw [made] at stopped
      obtain ⟨part, sub, written⟩ :=
        interrupted_appends (H := WithHistory get) (fun _ _ _ _ => appendHistory_ok) opened stopped
      exact ⟨line, part, rfl, sub, written⟩
    | error f =>
      left
      rw [made] at stopped
      rcases interrupted_cons.mp stopped with rfl | ⟨v, failed, -⟩
      · exact opened
      · cases failed

/-! ## Files that are all written -/

/-- The data of a name among files. -/
def dataOf (files : List (Str × Bytes)) (name : Str) : Option Bytes :=
  (files.find? (·.1 = name)).map (·.2)

section
variable {create : Str → Write} {append : Str → UInt8 → Write}
  {H : (Str → Option Bytes) → Disk → Prop}

/-- Files of distinct names that are all written hold their data. -/
theorem run_fileWrites
    (creates : ∀ f name u v, H f u → u.write (create name) = .ok v →
      H (Function.update f name (some [])) v)
    (appends : ∀ f name data byte u v, H (Function.update f name (some data)) u →
      u.write (append name byte) = .ok v →
      H (Function.update f name (some (data ++ [byte]))) v)
    {files : List (Str × Bytes)} {f : Str → Option Bytes} {d d' : Disk}
    (distinct : (files.map (·.1)).Nodup) (start : H f d)
    (run : (fileWrites create append files).foldlM Disk.write d = .ok d') :
    H (fun name => (dataOf files name).or (f name)) d' := by
  induction files generalizing f d with
  | nil =>
    obtain rfl := Except.ok.inj run
    exact start
  | cons i files ih =>
    obtain ⟨name, data⟩ := i
    obtain ⟨absent, distinct⟩ := List.nodup_cons.mp distinct
    rw [fileWrites, List.flatMap_cons, List.cons_append, List.foldlM_cons] at run
    obtain ⟨u, made, run⟩ := bind_ok.mp run
    rw [List.foldlM_append] at run
    obtain ⟨v, written, run⟩ := bind_ok.mp run
    have own : H (Function.update f name (some data)) v :=
      run_appends (H := fun c => H (Function.update f name (some c)))
        (fun c b u v => appends f name c b u v) (creates f name d u start made) written
    have all := ih distinct own run
    have same : (fun n => (dataOf files n).or (Function.update f name (some data) n)) =
        fun n => (dataOf ((name, data) :: files) n).or (f n) := by
      funext n
      by_cases here : n = name
      · subst here
        have none' : dataOf files n = none := by
          rw [dataOf, Option.map_eq_none_iff, List.find?_eq_none]
          intro j hj own
          exact absent (List.mem_map.mpr ⟨j, hj, of_decide_eq_true own⟩)
        rw [none']
        simp [dataOf]
      · simp [dataOf, here, Ne.symm here]
    rwa [same] at all

end

/-- The site holds these files. -/
def SiteHolds (f : Str → Option Bytes) (d : Disk) : Prop :=
  ∀ name, (d.site.getD .empty).get? name = f name

theorem siteHolds_put {f : Str → Option Bytes} {d : Disk} (held : SiteHolds f d) (name : Str)
    (data : Bytes) : SiteHolds (Function.update f name (some data)) (d.putSite name data) := by
  intro other
  by_cases own : other = name
  · subst own
    simp [Disk.putSite, Dict.get?_set_self]
  · simp only [Disk.putSite, Option.getD_some]
    rw [Dict.get?_set_other _ _ own, Function.update_of_ne own]
    exact held other

/-- A site that was empty holds the files of the plan. -/
theorem run_siteWrites {files : Files} {d d' : Disk} (empty : SiteHolds (fun _ => none) d)
    (run : (Write.makeSite :: fileWrites .createSite .appendSite files.items).foldlM Disk.write d =
      .ok d') : SiteHolds files.get? d' := by
  rw [List.foldlM_cons] at run
  obtain ⟨u, made, run⟩ := bind_ok.mp run
  obtain rfl := Except.ok.inj made
  have start : SiteHolds (fun _ => none) { d with site := some (d.site.getD .empty) } := empty
  have all := run_fileWrites (H := SiteHolds) ?_ ?_ files.distinct start run
  · intro name
    exact (all name).trans Option.or_none
  · intro f name u v held made
    simp only [Disk.write] at made
    split at made
    · obtain rfl := Except.ok.inj made
      exact siteHolds_put held name []
    · cases made
  · intro f name data byte u v held made
    simp only [Disk.write, held name, Function.update_self] at made
    obtain rfl := Except.ok.inj made
    have put := siteHolds_put held name (data ++ [byte])
    rwa [Function.update_idem] at put

/-- Beside the entries there is a directory with these files. -/
def WithFiles (get : Str → Option Entry) (contentHash : Str) (f : Str → Option Bytes) (d : Disk) :
    Prop :=
  (∃ items, d.archive.entry contentHash = some (.directory items) ∧
    ∀ name, items.get? name = (f name).map .file) ∧
    ∀ name, name ≠ contentHash → d.archive.entry name = get name

theorem withFiles_put {get : Str → Option Entry} {contentHash : Str} {f : Str → Option Bytes}
    {d : Disk} {items : Dict Str Item} (held : ∀ name, items.get? name = (f name).map .file)
    (others : ∀ name, name ≠ contentHash → d.archive.entry name = get name) (name : Str)
    (data : Bytes) :
    WithFiles get contentHash (Function.update f name (some data))
      (d.putItem contentHash items name data) := by
  refine ⟨⟨_, entry_putEntry_self _ _ _, fun other => ?_⟩, fun other ne => ?_⟩
  · by_cases own : other = name
    · subst own
      rw [Dict.get?_set_self, Function.update_self]
      rfl
    · rw [Dict.get?_set_other _ _ own, Function.update_of_ne own, held]
  · rw [Disk.putItem, entry_putEntry_other _ _ ne]
    exact others other ne

theorem nodup_publication (files : Files) :
    ((publicationFileNames.map fun name => (name, file files name)).map (·.1)).Nodup := by
  have names : (publicationFileNames.map fun name => (name, file files name)).map (·.1) =
      publicationFileNames := by
    rw [List.map_map]
    exact List.map_id publicationFileNames
  rw [names]
  decide

theorem dataOf_publication {files : Files} (names : files.keys.Perm publicationFileNames)
    (name : Str) :
    dataOf (publicationFileNames.map fun name => (name, file files name)) name = files.get? name := by
  by_cases listed : name ∈ publicationFileNames
  · have found : files.get? name = some (file files name) := by
      obtain ⟨data, there⟩ := Option.isSome_iff_exists.mp
        (Dict.get?_isSome.mpr (names.mem_iff.mpr listed))
      rw [file, there]
      rfl
    rw [found, dataOf,
      Table.find?_key (nodup_publication files) |>.mpr ⟨List.mem_map_of_mem listed, rfl⟩]
    rfl
  · rw [Dict.get?_eq_none.mpr fun h => listed (names.mem_iff.mp h), dataOf, Option.map_eq_none_iff,
      List.find?_eq_none]
    intro i hi own
    obtain ⟨n, hn, rfl⟩ := List.mem_map.mp hi
    exact listed (of_decide_eq_true own ▸ hn)

theorem run_publicationWrites {get : Str → Option Entry} {contentHash : Str} {files : Files}
    {d d' : Disk} (held : Entries get d) (names : files.keys.Perm publicationFileNames)
    (run : (publicationWrites contentHash files).foldlM Disk.write d = .ok d') :
    WithFiles get contentHash files.get? d' := by
  rw [publicationWrites, List.foldlM_cons] at run
  obtain ⟨u, first, run⟩ := bind_ok.mp run
  obtain ⟨-, rfl⟩ := makePublication_ok held first
  have start : WithFiles get contentHash (fun _ => none)
      (d.putEntry contentHash (.directory .empty)) := by
    refine ⟨⟨_, entry_putEntry_self _ _ _, fun _ => rfl⟩, fun other ne => ?_⟩
    rw [entry_putEntry_other _ _ ne]
    exact held other
  have all := run_fileWrites (H := WithFiles get contentHash) ?_ ?_ (nodup_publication files) start run
  · simpa only [Option.or_none, dataOf_publication names] using all
  · rintro f name u v ⟨⟨items, there, kept⟩, others⟩ made
    obtain ⟨items', there', -, rfl⟩ := createFile_ok made
    cases Option.some.inj (there.symm.trans there')
    exact withFiles_put kept others name []
  · rintro f name data byte u v ⟨⟨items, there, kept⟩, others⟩ made
    obtain ⟨items', data', there', found, rfl⟩ := appendFile_ok made
    cases Option.some.inj (there.symm.trans there')
    rw [kept, Function.update_self] at found
    cases Option.some.inj found
    have put := withFiles_put kept others name (data ++ [byte])
    rwa [Function.update_idem] at put

/-- The line of an entry is at the end of the history. -/
theorem run_historyWrites {p : Platform} {e : HistoryEntry} {get : Str → Option Entry} {d d' : Disk}
    (held : Entries get d) (run : (historyWrites p e).foldlM Disk.write d = .ok d') :
    ∃ line, e.toBytes p = .ok line ∧ WithHistory get (oldBytes get ++ line) d' := by
  rw [historyWrites, List.foldlM_cons] at run
  obtain ⟨u, first, run⟩ := bind_ok.mp run
  have opened := openHistory_ok held first
  cases made : e.toBytes p with
  | ok line =>
    rw [made] at run
    exact ⟨line, rfl,
      run_appends (H := WithHistory get) (fun _ _ _ _ => appendHistory_ok) opened run⟩
  | error f =>
    rw [made, List.foldlM_cons] at run
    obtain ⟨v, failed, -⟩ := bind_ok.mp run
    cases failed

end QaCopilot.GuestDemo
