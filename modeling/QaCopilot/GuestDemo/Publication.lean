import QaCopilot.GuestDemo.History
import QaCopilot.Python.JsonEquality
import QaCopilot.Python.Objects
import QaCopilot.Python.Words

/-!
# A publication and its checks

The five files of a publication, the scan of each published file, and the check of a publication
against its hash, its manifest, the schema and the viewer release.
-/

namespace QaCopilot.GuestDemo

open Python

abbrev Files := Dict Str Bytes

/-- `PUBLICATION_FILES` -/
def publicationFileNames : List Str := snapshotFile :: viewerFileNames ++ [buildManifestFile]

def historyFile : Str := lit "publish-history.jsonl"

def currentFile : Str := lit "current.json"

def headersFile : Str := lit "_headers"

def redirectsFile : Str := lit "_redirects"

def notFoundFile : Str := lit "404.html"

/-- `SITE_ROOT_FILES` -/
def siteRootFileNames : List Str := [currentFile, headersFile, redirectsFile, notFoundFile]

structure SnapshotOutput where
  snapshotBytes : Bytes
  manifestBytes : Bytes
  contentHash : Str
  viewerFiles : List (Str × Bytes)

structure StagedBuild where
  output : SnapshotOutput
  internalIdentifiers : List Str

/-- `files[name]` of a file that is there. -/
def file (files : Files) (name : Str) : Bytes := (files.get? name).getD []

/-- `==` of two mappings of files. -/
def sameFiles (files others : Files) : Bool :=
  files.size = others.size && files.items.all fun i => others.get? i.1 = some i.2

def publicationFiles (output : SnapshotOutput) : Files :=
  Dict.empty.update
    ((snapshotFile, output.snapshotBytes) :: output.viewerFiles ++
      [(buildManifestFile, output.manifestBytes)])

/-! ## The scan of a file -/

/-- `sorted(set(masks), key=len, reverse=True)` -/
def longestFirst (p : Platform) (masks : List Str) : List Str :=
  (p.setOrder masks).insertionSort fun a b => b.length ≤ a.length

def endsWith (name suffix : Str) : Bool := suffix.isSuffixOf name

/-- The placeholders whose patterns a file is searched for. -/
def scannedPatterns (p : Platform) (name : Str) : List Pattern :=
  [p.patterns.url, p.patterns.email] ++
    (if endsWith name (lit ".js") || endsWith name (lit ".css") || endsWith name (lit ".html") then []
      else [p.patterns.host]) ++
    (if endsWith name headersFile then [] else [p.patterns.phone])

def scanPublishedFile (p : Platform) (name : Str) (data : Bytes) (masks : List Str)
    (internalIdentifiers : List Str) : Except Failure Unit :=
  match decodeUtf8 data with
  | none => refuse (name ++ lit " is not UTF-8")
  | some text => do
    refuseWhen (∃ i ∈ internalIdentifiers, i ≠ [] ∧ occursIn i text = true)
      (lit "An internal identifier reached " ++ name)
    let text := (longestFirst p masks).foldl (fun text token => replaceAll token (lit " ") text) text
    refuseWhen (p.patterns.secrets.any (·.search text) = true) (name ++ lit " contains secret-like text")
    refuseWhen ((scannedPatterns p name).any (·.search text) = true)
      (name ++ lit " contains an unredacted identifier")

/-! ## The check of a publication -/

/-- The files that the manifest lists, by their name. -/
def listedFiles : List Str := snapshotFile :: viewerFileNames

def fileHashes (p : Platform) (files : Str → Bytes) : List (Str × Str) :=
  listedFiles.map fun name => (name, p.digest (files name))

def expectedManifest (p : Platform) (contentHash : Str) (files : Str → Bytes) : Mapping :=
  [(lit "schema_version", .str buildManifestSchemaVersion), (lit "content_class", .str contentClass),
    (lit "content_hash", .str contentHash),
    (lit "snapshot_schema_version", .str snapshotSchemaVersion),
    (lit "sanitization_policy_version", .str sanitizationPolicyVersion),
    (lit "viewer_version", .str viewerVersion),
    (lit "files", .list ((fileHashes p files).map fun h =>
      .dict [(lit "path", .str h.1), (lit "sha256", .str h.2), (lit "bytes", .int (files h.1).length)]))]

/-- `verify_publication` once the names of the files are known to be right. -/
def verifyFiles (p : Platform) (contentHash : Str) (files : Str → Bytes) (viewerRelease : Files)
    (internalIdentifiers : List Str) : Except Failure Unit := do
  refuseWhen (p.digest (files snapshotFile) ≠ contentHash)
    (contentHash ++ lit ": snapshot.json does not match its hash")
  let manifest ← canonicalObject p (files buildManifestFile) "manifest.json"
  refuseWhen ((Json.dict manifest).eq (.dict (expectedManifest p contentHash files)) = false)
    (contentHash ++ lit ": manifest.json does not match the files")
  let snapshot ← canonicalObject p (files snapshotFile) "snapshot.json"
  match validateSnapshotSchema snapshot with
  | .error message => refuse (contentHash ++ lit (": " ++ message))
  | .ok () => .ok ()
  viewerFileNames.forM fun name =>
    refuseWhen (viewerRelease.get? name ≠ some (files name))
      (contentHash ++ lit ": " ++ name ++ lit " differs from the viewer release")
  let masks := contentHash :: (fileHashes p files).map (·.2) ++ publicationFileNames
  publicationFileNames.forM fun name =>
    scanPublishedFile p name (files name) masks internalIdentifiers

def verifyPublication (p : Platform) (contentHash : Str) (files : Files) (viewerRelease : Files)
    (internalIdentifiers : List Str) : Except Failure Unit := do
  let _ ← requireHash (.str contentHash)
  refuseWhen (sortedTexts files.keys ≠ sortedTexts publicationFileNames)
    (contentHash ++ lit " must hold exactly the publication files")
  verifyFiles p contentHash (file files) viewerRelease internalIdentifiers

end QaCopilot.GuestDemo
