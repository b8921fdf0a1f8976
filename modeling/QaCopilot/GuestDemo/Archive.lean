import QaCopilot.GuestDemo.Publication

/-!
# The archive and the site

`load_archive`, the two planners, and `write_plan` as a list of writes: each makes a directory,
makes an empty file, or puts one byte at the end of a file.
-/

namespace QaCopilot.GuestDemo

open Python

/-- An entry of the directory of a publication. -/
inductive Item where
  | link
  | file (data : Bytes)
  | other

/-- An entry of the archive directory. -/
inductive Entry where
  | link
  | file (data : Bytes)
  | directory (items : Dict Str Item)
  | other

/-- The archive directory; none where it does not exist. -/
abbrev Archive := Option (Dict Str Entry)

structure ArchiveState where
  publications : Dict Str Files
  history : List HistoryEntry
  historyBytes : Option Bytes

/-- `ArchiveState.current` -/
def ArchiveState.current (s : ArchiveState) : Option Str := s.history.getLast?.map (·.contentHash)

/-- `ArchiveState.withdrawn` -/
def ArchiveState.withdrawn (s : ArchiveState) : List Str := withdrawnHashes s.history

structure SitePlan where
  contentHash : Str
  siteFiles : Files
  newPublication : Option Files
  historyEntry : Option HistoryEntry
  servedPublications : List Str
  withdrawnPublications : List Str

/-! ## `load_archive` -/

/-- `sorted(directory.iterdir())` -/
def byName {ν : Type} (items : List (Str × ν)) : List (Str × ν) :=
  items.insertionSort fun a b => Str.le a.1 b.1

def linkRefused (name : Str) : Str := name ++ lit " is a link; links are refused"

def unexpectedEntry (name : Str) : Str := lit "Unexpected archive entry " ++ name

def readFile (directory : Str) (files : Files) (i : Str × Item) : Except Failure Files :=
  match i.2 with
  | .link => refuse (linkRefused i.1)
  | .file data => .ok (files.set i.1 data)
  | .other => refuse (lit "Unexpected entry in " ++ directory)

def readFiles (directory : Str) (items : Dict Str Item) : Except Failure Files :=
  (byName items.items).foldlM (readFile directory) .empty

/-- The variables of the loop over the archive. -/
structure Listing where
  publications : Dict Str Files
  historyBytes : Option Bytes

section
variable (p : Platform) (viewerRelease : Files) (internalIdentifiers : List Str)

def readEntry (l : Listing) (i : Str × Entry) : Except Failure Listing :=
  match i.2 with
  | .link => refuse (linkRefused i.1)
  | .file data =>
    if i.1 = historyFile then .ok { l with historyBytes := some data }
    else refuse (unexpectedEntry i.1)
  | .directory items =>
    if isDigest i.1 then do
      let files ← readFiles i.1 items
      verifyPublication p i.1 files viewerRelease internalIdentifiers
      return { l with publications := l.publications.set i.1 files }
    else refuse (unexpectedEntry i.1)
  | .other => refuse (unexpectedEntry i.1)

def listArchive : Archive → Except Failure Listing
  | none => .ok ⟨.empty, none⟩
  | some directory =>
    (byName directory.items).foldlM (readEntry p viewerRelease internalIdentifiers) ⟨.empty, none⟩

def loadArchive (archive : Archive) : Except Failure ArchiveState := do
  let listing ← listArchive p viewerRelease internalIdentifiers archive
  let history ← parseHistory p (listing.historyBytes.getD [])
  let recorded := history.map (·.contentHash)
  refuseWhen (¬ ((∀ h ∈ recorded, h ∈ listing.publications.keys) ∧
    ∀ h ∈ listing.publications.keys, h ∈ recorded))
    (lit "The archive publications and the publish history disagree")
  return ⟨listing.publications, history, listing.historyBytes⟩

end

/-! ## The files of the site -/

def strictCsp : Str :=
  lit "default-src 'none'; script-src 'self'; style-src 'self'; " ++
    lit "connect-src 'self'; img-src 'none'; base-uri 'none'; form-action 'none'"

def securityHeaders : List (Str × Str) :=
  [(lit "Content-Security-Policy", strictCsp ++ lit "; frame-ancestors 'none'"),
    (lit "X-Content-Type-Options", lit "nosniff"),
    (lit "Referrer-Policy", lit "no-referrer"),
    (lit "Permissions-Policy",
      lit "camera=(), microphone=(), geolocation=(), payment=(), usb=(), interest-cohort=()"),
    (lit "Cross-Origin-Opener-Policy", lit "same-origin"),
    (lit "Cross-Origin-Resource-Policy", lit "same-origin")]

def maxHeaderRules : Nat := 100

def maxHeaderLineCharacters : Nat := 2000

def headerLines (served : List Str) : List Str :=
  lit "/*" :: (securityHeaders.map fun h => lit "  " ++ h.1 ++ lit ": " ++ h.2) ++
    [lit "/" ++ currentFile, lit "  Cache-Control: no-cache"] ++
    (sortedTexts served).flatMap fun h =>
      [lit "/" ++ h ++ lit "/*", lit "  Cache-Control: public, max-age=31536000, immutable"]

def renderHeaders (served : List Str) : Except Failure Bytes := do
  let lines := headerLines served
  refuseWhen ((lines.filter fun line => line.head? ≠ some (CodePoint.ofChar ' ')).length ≥ maxHeaderRules)
    (lit "Too many publications for the _headers rule limit")
  refuseWhen (∃ line ∈ lines, line.length ≥ maxHeaderLineCharacters)
    (lit "A _headers line exceeds the line length limit")
  asciiBytes ((lit "\n").intercalate lines ++ lit "\n")

def renderRedirects (current : Str) : Except Failure Bytes := do
  asciiBytes (lit "/ /" ++ (← requireHash (.str current)) ++ lit "/ 302\n")

/-- The payload of `current.json`. -/
structure CurrentPointer where
  contentHash : Str
  publishedAt : Str
  previousHash : Option Str

def CurrentPointer.payload (c : CurrentPointer) : Mapping :=
  [(lit "schema_version", .str (lit "guest-demo-current/v1")), (lit "content_hash", .str c.contentHash),
    (lit "published_at", .str c.publishedAt), (lit "previous_hash", optionalText c.previousHash)]

/-- The pointer to the last publication of the history, with the values of its first publish. -/
def currentPointer (history : List HistoryEntry) : Except Failure CurrentPointer :=
  match history.getLast? with
  | none => .error .index
  | some last =>
    match history.find? fun e => e.action = .publish ∧ e.contentHash = last.contentHash with
    | none => .error .stop
    | some first => .ok
      { contentHash := last.contentHash
        publishedAt := first.date
        previousHash := first.previousHash.filter (· ∉ withdrawnHashes history) }

def renderCurrent (p : Platform) (history : List HistoryEntry) : Except Failure Bytes := do
  canonicalJsonBytes p.depth (.dict (← currentPointer history).payload)

/-- `NOT_FOUND_PAGE` -/
def notFoundPage : Bytes :=
  let text := [lit "<!doctype html>\n",
    lit "<html lang=\"en\">\n",
    lit "  <head>\n",
    lit "    <meta charset=\"utf-8\" />\n",
    lit "    <meta http-equiv=\"Content-Security-Policy\" content=\"" ++ strictCsp ++ lit "\" />\n",
    lit "    <meta name=\"viewport\" content=\"width=device-width, initial-scale=1\" />\n",
    lit "    <title>Page not found</title>\n",
    lit "  </head>\n",
    lit "  <body>\n",
    lit "    <h1>Page not found</h1>\n",
    lit "    <p>This page does not exist. The guest demo is at <a href=\"/\">the site",
    lit " root</a>.</p>\n",
    lit "  </body>\n",
    lit "</html>\n"]
  (utf8 text.flatten).getD []

/-! ## Plans -/

def siteName (contentHash name : Str) : Str := contentHash ++ lit "/" ++ name

/-- The files of the served publications, by their name in the site. -/
def servedFiles (publications : Dict Str Files) (served : List Str) : List (Str × Bytes) :=
  served.flatMap fun h => publicationFileNames.map fun name =>
    (siteName h name, file ((publications.get? h).getD .empty) name)

/-- The publications with the new one of a plan. -/
def withNew (publications : Dict Str Files) (contentHash : Str) : Option Files → Dict Str Files
  | none => publications
  | some files => publications.set contentHash files

/-- `history[-1].content_hash` -/
def lastHash (history : List HistoryEntry) : Except Failure Str :=
  match history.getLast? with
  | some last => .ok last.contentHash
  | none => .error .index

/-- `_plan_site` -/
def planSite (p : Platform) (s : ArchiveState) (entry : Option HistoryEntry)
    (newPublication : Option Files) (internalIdentifiers : List Str) : Except Failure SitePlan := do
  let history := s.history ++ entry.toList
  let _ ← replayHistory history
  let current ← lastHash history
  let publications := withNew s.publications current newPublication
  let withdrawn := withdrawnHashes history
  let served := sortedTexts (publications.keys.filter (· ∉ withdrawn))
  let rootFiles := [(currentFile, ← renderCurrent p history), (headersFile, ← renderHeaders served),
    (redirectsFile, ← renderRedirects current), (notFoundFile, notFoundPage)]
  let masks := served ++ withdrawn ++ history.map (·.date) ++ publicationFileNames ++ siteRootFileNames
  rootFiles.forM fun f => scanPublishedFile p f.1 f.2 masks internalIdentifiers
  return {
    contentHash := current
    siteFiles := (Dict.empty.update (servedFiles publications served)).update rootFiles
    newPublication
    historyEntry := entry
    servedPublications := served
    withdrawnPublications := sortedTexts withdrawn.dedup }

def planPublish (p : Platform) (s : ArchiveState) (staged rebuild : StagedBuild)
    (viewerRelease : Files) (today : Date) (ownerReviewed : Bool) : Except Failure SitePlan := do
  refuseWhen (ownerReviewed = false)
    (lit "--owner-reviewed is required: it records the ADR-019 D4 manual review")
  let files := publicationFiles staged.output
  refuseWhen (sameFiles files (publicationFiles rebuild.output) = false)
    (lit "A rebuild from the demo fixture gave different bytes")
  let contentHash := staged.output.contentHash
  verifyPublication p contentHash files viewerRelease staged.internalIdentifiers
  refuseWhen (contentHash ∈ s.withdrawn) (contentHash ++ lit " is withdrawn and is never re-published")
  let archived := s.publications.get? contentHash
  refuseWhen (∃ old ∈ archived, sameFiles old files = false)
    (contentHash ++ lit " already exists with different bytes; never overwritten")
  let entry : Option HistoryEntry :=
    if s.current = some contentHash then none
    else some ⟨.publish, contentHash, today.text, s.current, none⟩
  planSite p s entry (if archived.isNone then some files else none) staged.internalIdentifiers

def planRollback (p : Platform) (s : ArchiveState) (target : Str) (today : Date)
    (internalIdentifiers : List Str) : Except Failure SitePlan := do
  let _ ← requireHash (.str target)
  let current := s.current
  let knownGood := s.publications.keys.filter fun h => h ∉ s.withdrawn ∧ some h ≠ current
  refuseWhen (current = none ∨ knownGood = [])
    (lit "No earlier known-good publication to roll back to; take the Cloudflare deployment " ++
      lit "offline by hand (INFRASTRUCTURE.md runbook)")
  refuseWhen (target ∈ s.withdrawn) (target ++ lit " is withdrawn and is never re-pointed")
  refuseWhen (some target = current) (target ++ lit " is already the current publication")
  refuseWhen (target ∉ s.publications.keys) (target ++ lit " is not in the archive")
  planSite p s (some ⟨.rollback, target, today.text, none, current⟩) none internalIdentifiers

/-! ## Writes -/

/-- The archive directory and the files of the site by their names; the directories of the site come
with their files. -/
structure Disk where
  archive : Archive
  site : Option Files

inductive Write where
  | makeSite
  | createSite (name : Str)
  | appendSite (name : Str) (byte : UInt8)
  | makeArchive
  | makePublication (contentHash : Str)
  | createFile (contentHash name : Str)
  | appendFile (contentHash name : Str) (byte : UInt8)
  | openHistory
  | appendHistory (byte : UInt8)
  /-- The exception of a value that is not written. -/
  | fail (f : Failure)

/-- The writes of a file: it is opened with `xb` and gets its bytes. -/
def fileWrites (create : Str → Write) (append : Str → UInt8 → Write) (files : List (Str × Bytes)) :
    List Write :=
  files.flatMap fun f => create f.1 :: f.2.map (append f.1)

def publicationWrites (contentHash : Str) (files : Files) : List Write :=
  .makePublication contentHash :: fileWrites (.createFile contentHash) (.appendFile contentHash)
    (publicationFileNames.map fun name => (name, file files name))

def historyWrites (p : Platform) (e : HistoryEntry) : List Write :=
  .openHistory ::
    match e.toBytes p with
    | .ok line => line.map .appendHistory
    | .error f => [.fail f]

/-- The writes of `write_plan`, in their order. -/
def SitePlan.writes (p : Platform) (plan : SitePlan) : List Write :=
  .makeSite :: fileWrites .createSite .appendSite plan.siteFiles.items ++
    .makeArchive :: (plan.newPublication.elim [] (publicationWrites plan.contentHash) ++
      plan.historyEntry.elim [] (historyWrites p))

/-- The entry of a name in the archive. -/
def Archive.entry (a : Archive) (name : Str) : Option Entry := a.bind (·.get? name)

/-- `archive_dir / name` becomes this entry. -/
def Disk.putEntry (d : Disk) (name : Str) (e : Entry) : Disk :=
  { d with archive := some ((d.archive.getD .empty).set name e) }

def Disk.putSite (d : Disk) (name : Str) (data : Bytes) : Disk :=
  { d with site := some ((d.site.getD .empty).set name data) }

/-- The files of a directory of the archive. -/
def Disk.directory (d : Disk) (name : Str) : Except Failure (Dict Str Item) :=
  match d.archive.entry name with
  | some (.directory items) => .ok items
  | _ => .error .fileNotFound

def Disk.putItem (d : Disk) (contentHash : Str) (items : Dict Str Item) (name : Str) (data : Bytes) :
    Disk :=
  d.putEntry contentHash (.directory (items.set name (.file data)))

/-- One write. -/
def Disk.write (d : Disk) : Write → Except Failure Disk
  | .makeSite => .ok { d with site := some (d.site.getD .empty) }
  | .createSite name =>
    match (d.site.getD .empty).get? name with
    | none => .ok (d.putSite name [])
    | some _ => .error .fileExists
  | .appendSite name byte =>
    match (d.site.getD .empty).get? name with
    | some data => .ok (d.putSite name (data ++ [byte]))
    | none => .error .fileNotFound
  | .makeArchive => .ok { d with archive := some (d.archive.getD .empty) }
  | .makePublication contentHash =>
    match d.archive.entry contentHash with
    | none => .ok (d.putEntry contentHash (.directory .empty))
    | some _ => .error .fileExists
  | .createFile contentHash name => do
    let items ← d.directory contentHash
    match items.get? name with
    | none => .ok (d.putItem contentHash items name [])
    | some _ => .error .fileExists
  | .appendFile contentHash name byte => do
    let items ← d.directory contentHash
    match items.get? name with
    | some (.file data) => .ok (d.putItem contentHash items name (data ++ [byte]))
    | _ => .error .fileNotFound
  | .openHistory =>
    match d.archive.entry historyFile with
    | none => .ok (d.putEntry historyFile (.file []))
    | some (.file _) => .ok d
    | some _ => .error .fileExists
  | .appendHistory byte =>
    match d.archive.entry historyFile with
    | some (.file data) => .ok (d.putEntry historyFile (.file (data ++ [byte])))
    | _ => .error .fileNotFound
  | .fail f => .error f

/-- `write_plan` -/
def writePlan (p : Platform) (plan : SitePlan) (d : Disk) : Except Failure Disk :=
  (plan.writes p).foldlM Disk.write d

/-! ## `run` -/

/-- The arguments of a run, and what its two builds, the viewer directory and the clock give. -/
structure Request where
  viewer : Except Failure (List (Str × Bytes))
  staged : Except Failure StagedBuild
  rebuild : Except Failure StagedBuild
  today : Date
  ownerReviewed : Bool
  rollbackTo : Option Str

def Request.viewerRelease (r : Request) : Except Failure Files :=
  match r.viewer with
  | .ok files => .ok (Dict.empty.update files)
  | .error (.rejected message) => refuse (lit ("Viewer release refused: " ++ message))
  | .error f => .error f

/-- The plan of a run. -/
def Request.plan (p : Platform) (r : Request) (s : ArchiveState) (staged : StagedBuild)
    (viewerRelease : Files) : Except Failure SitePlan :=
  match r.rollbackTo with
  | none => do planPublish p s staged (← r.rebuild) viewerRelease r.today r.ownerReviewed
  | some target => planRollback p s target r.today staged.internalIdentifiers

/-- `run`; the paths of the archive and of the site do not overlap. -/
def run (p : Platform) (r : Request) (d : Disk) : Except Failure (SitePlan × Disk) := do
  refuseWhen (∃ files ∈ d.site, files.keys ≠ []) (lit "The site directory must be new or empty")
  let viewerRelease ← r.viewerRelease
  let staged ← r.staged
  let s ← loadArchive p viewerRelease staged.internalIdentifiers d.archive
  let plan ← r.plan p s staged viewerRelease
  return (plan, ← writePlan p plan d)

end QaCopilot.GuestDemo
