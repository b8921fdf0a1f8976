import Mathlib.Algebra.Order.BigOperators.Group.List
import Mathlib.Algebra.Order.Group.Nat
import Mathlib.Data.Fintype.EquivFin
import QaCopilot.Ingestion.PdfTraversal

/-!
# Objects and their addresses in a PDF file

* `validate_ok_iff`: the traversal ends well exactly when what it begins with leads to objects that
  are fine;
* `structure_exact_iff`: when `parse_pdf` accepts exactly the clean files.

An object of an object stream has generation 0; the traversal asks for it under its index in the
stream.
-/

namespace QaCopilot.Ingestion

open Python Results Marking

variable {ι : Type} {r : PdfReader ι} {limits : PdfParserLimits}

/-! ## Tables -/

/-- What the tables list under a generation: with an offset, or in an object stream. -/
def PdfReader.Listed (r : PdfReader ι) (number generation : Nat) : Prop :=
  (∃ i ∈ r.xref.items, i.1 = generation ∧ number ∈ i.2) ∨
    (generation = 0 ∧ number ∈ r.xrefObjStm.keys)

/-- `get_object` of `pypdf` finds what the tables list. -/
structure ReadsAsDocumented (r : PdfReader ι) : Prop where
  found : ∀ {number generation}, r.Listed number generation →
    ∃ v, r.getObject number generation = .ok v
  missing : ∀ {number generation}, ¬ r.Listed number generation →
    r.getObject number generation = .error .pdfRead

theorem ReadsAsDocumented.listed_iff (documented : ReadsAsDocumented r) {number generation : Nat} :
    r.Listed number generation ↔ ∃ v, r.getObject number generation = .ok v := by
  refine ⟨documented.found, ?_⟩
  rintro ⟨v, found⟩
  by_contra absent
  rw [documented.missing absent] at found
  cases found

/-- The references of `xref`. -/
def PdfReader.offsets (r : PdfReader ι) : List (PdfValue ι) :=
  r.xref.items.flatMap fun i => i.2.map fun number => .indirect number i.1

theorem mem_offsets {v : PdfValue ι} : v ∈ r.offsets ↔
    ∃ i ∈ r.xref.items, ∃ number ∈ i.2, .indirect number i.1 = v := by
  simp only [PdfReader.offsets, List.mem_flatMap, List.mem_map]

/-- The trailer and the objects of both tables. -/
def PdfReader.roots (r : PdfReader ι) : List (PdfValue ι) :=
  .direct r.trailer :: (r.offsets ++ r.xrefObjStm.items.map fun i => .indirect i.1 0)

/-- The trailer and the objects of both tables, where the traversal looks for them. -/
def PdfReader.visitedRoots (r : PdfReader ι) : List (PdfValue ι) :=
  .direct r.trailer :: (r.offsets ++ r.xrefObjStm.items.map fun i => .indirect i.1 i.2.2)

/-- Everything in the file. -/
def PdfReader.contents (r : PdfReader ι) : Set (PdfValue ι) := Reached r.Child {v | v ∈ r.roots}

/-- Everything that the traversal is led to. -/
def PdfReader.visited (r : PdfReader ι) : Set (PdfValue ι) := Reached r.Child {v | v ∈ r.visitedRoots}

/-- The index of each compressed object is a generation under which its number is listed. -/
def Addressed (r : PdfReader ι) : Prop := ∀ i ∈ r.xrefObjStm.items, r.Listed i.1 i.2.2

/-- An addressed file leads the traversal to nothing but its contents. -/
theorem visited_subset (addressed : Addressed r) : r.visited ⊆ r.contents := by
  refine Reached.mono fun v hv => Reached.root ?_
  rcases List.mem_cons.mp hv with rfl | hv
  · exact List.mem_cons_self
  · rcases List.mem_append.mp hv with offset | compressed
    · exact List.mem_cons_of_mem _ (List.mem_append_left _ offset)
    · obtain ⟨i, hi, rfl⟩ := List.mem_map.mp compressed
      refine List.mem_cons_of_mem _ (List.mem_append.mpr ?_)
      rcases addressed i hi with ⟨j, hj, same, listed⟩ | ⟨zero, -⟩
      · exact .inl (mem_offsets.mpr ⟨j, hj, i.1, listed, same ▸ rfl⟩)
      · exact .inr (List.mem_map.mpr ⟨i, hi, zero ▸ rfl⟩)

/-- The traversal finds an object under each of its references exactly when the file is addressed. -/
theorem visited_resolves (documented : ReadsAsDocumented r) (resolves : Resolves r r.contents) :
    Resolves r r.visited ↔ Addressed r := by
  constructor
  · intro h i hi
    refine documented.listed_iff.mpr (h i.1 i.2.2 (Reached.root ?_))
    exact List.mem_cons_of_mem _ (List.mem_append_right _ (List.mem_map.mpr ⟨i, hi, rfl⟩))
  · exact fun addressed n g held => resolves n g (visited_subset addressed held)

/-! ## Validation -/

theorem marked_empty_closed : Closed r.Child (⟨[], [], 0⟩ : Seen ι).marked := by
  intro v hv w next
  cases v with
  | indirect n g => exact absurd hv List.not_mem_nil
  | direct id => exact absurd hv List.not_mem_nil
  | other => exact next.elim

theorem tallied_empty (positive : limits.positive = true) : Tallied r limits ⟨[], [], 0⟩ := by
  simp only [PdfParserLimits.positive, Bool.and_eq_true, decide_eq_true_eq] at positive
  exact ⟨List.nodup_nil, rfl, by simp only [Int.natCast_zero]; omega⟩

/-- Distinct objects that were marked come to no more than the total. -/
theorem Tallied.covers {s : Seen ι} (tallied : Tallied r limits s) {ids : List ι} (once : ids.Nodup)
    (held : ∀ id ∈ ids, id ∈ s.direct) : r.decodedSize ids ≤ limits.maxTotalDecodedStreamBytes := by
  obtain ⟨sub, perm, within⟩ := once.subperm held
  have less : r.decodedSize sub ≤ r.decodedSize s.direct :=
    (within.map _).sum_le_sum fun _ _ => Nat.zero_le _
  have same : r.decodedSize sub = r.decodedSize ids := (perm.map _).sum_eq
  have total := tallied.total
  have bound := tallied.within
  omega

variable [DecidableEq ι] {room : Nat}

theorem validate_eq : validatePdfObjects r limits room =
    r.visitedRoots.foldlM (visit r limits room) ⟨[], [], 0⟩ := by
  have offsets : ∀ s, r.xref.items.foldlM (fun s (i : Nat × List Nat) =>
      i.2.foldlM (fun s number => visit r limits room s (.indirect number i.1)) s) s =
        r.offsets.foldlM (visit r limits room) s := by
    intro s
    rw [PdfReader.offsets]
    induction r.xref.items generalizing s with
    | nil => rfl
    | cons i items ih =>
      simp only [List.foldlM_cons, List.flatMap_cons, List.foldlM_append, List.foldlM_map, ih]
  rw [validatePdfObjects, PdfReader.visitedRoots, List.foldlM_cons]
  refine congrArg _ (funext fun s => ?_)
  rw [List.foldlM_append, ← offsets]
  simp only [List.foldlM_map]

/-- A traversal that ends well was led to nothing but fine objects. -/
theorem validate_region (positive : limits.positive = true) {s : Seen ι}
    (run : validatePdfObjects r limits room = .ok s) : Region r limits r.visited := by
  rw [validate_eq] at run
  obtain ⟨visited, all⟩ := loop_ok (Q := fun M v => v ∈ M) (fun h more => more h)
    (fun u v u' turn => visit_ok turn) run
  have within : r.visited ⊆ s.marked :=
    (visited.expands.closed marked_empty_closed).reached fun v hv => all v hv
  exact {
    closed := reached_closed _
    resolves := fun n g held => visited.opens (n, g) (within held) List.not_mem_nil
    fine := fun id held => visited.fine id (within held) List.not_mem_nil
    total := fun ids once held =>
      (visited.tallied (tallied_empty positive)).covers once fun id hid => within (held id hid) }

theorem validate_safe (positive : limits.positive = true) (region : Region r limits r.visited) :
    Yields (Inside r limits r.visited) (· = .stack) (validatePdfObjects r limits room) := by
  rw [validate_eq]
  exact Yields.foldlM (fun v root s kept => visit_safe region (Reached.root root) kept)
    ⟨tallied_empty positive, nofun⟩

/-- The traversal that has stack enough ends well exactly when it is led to fine objects alone. -/
theorem validate_ok_iff (positive : limits.positive = true)
    (nests : validatePdfObjects r limits room ≠ .error .stack) :
    (∃ s, validatePdfObjects r limits room = .ok s) ↔ Region r limits r.visited := by
  constructor
  · rintro ⟨s, run⟩
    exact validate_region positive run
  · intro region
    have safe : Yields (Inside r limits r.visited) (· = .stack) (validatePdfObjects r limits room) :=
      validate_safe positive region
    cases run : validatePdfObjects r limits room with
    | ok s => exact ⟨s, rfl⟩
    | error e =>
      rw [run] at safe nests
      exact absurd (congrArg _ safe) nests

/-- Every file has a depth from which on the traversal does not run out of stack. -/
theorem validate_ends [Finite ι] (documented : ReadsAsDocumented r) :
    ∃ depth, ∀ more, depth ≤ more → validatePdfObjects r limits more ≠ .error .stack := by
  have := Fintype.ofFinite ι
  let nodes : List (PdfValue ι) :=
    Finset.univ.toList.map .direct ++ (r.offsets ++ r.xrefObjStm.items.map fun i => .indirect i.1 0)
  refine ⟨nodes.length + 1, fun more deep run => ?_⟩
  rw [validate_eq] at run
  obtain ⟨before, v, after, s, -, -, failed⟩ := foldlM_error run
  obtain ⟨path, fresh, long, -, opens⟩ := visit_stack failed
  have sub : path ⊆ nodes := by
    intro u hu
    cases u with
    | direct id =>
      exact List.mem_append_left _ (List.mem_map.mpr ⟨id, Finset.mem_toList.mpr (Finset.mem_univ id), rfl⟩)
    | other => exact absurd trivial (fresh.fresh _ hu)
    | indirect n g =>
      refine List.mem_append_right _ (List.mem_append.mpr ?_)
      rcases documented.listed_iff.mpr (opens n g hu) with ⟨i, hi, rfl, listed⟩ | ⟨rfl, listed⟩
      · exact .inl (mem_offsets.mpr ⟨i, hi, n, listed, rfl⟩)
      · obtain ⟨i, hi, rfl⟩ := List.mem_map.mp listed
        exact .inr (List.mem_map.mpr ⟨i, hi, rfl⟩)
  have short := (fresh.once.subperm sub).length_le
  omega

/-! ## Acceptance -/

/-- A PDF file that is open, is not encrypted, is within the limits of its size, its objects and its
pages, has pages with texts, whose references all have objects, and that nests within the stack. -/
structure Admissible (pdfReader : Bytes → Except PyError (PdfReader ι)) (room : Nat) (documentType : Str)
    (raw : Bytes) (limits : PdfParserLimits) (r : PdfReader ι) : Prop where
  pdf : documentType = lit "pdf"
  positive : limits.positive = true
  small : raw.length ≤ limits.maxRawBytes
  signed : pdfSignature.isPrefixOf raw = true
  opened : pdfReader raw = .ok r
  plain : r.isEncrypted = false
  few : objectCount r ≤ limits.maxObjects
  pages : ∃ texts : List Str, r.pages = .ok (texts.map .ok) ∧ texts.length ≤ limits.maxPages
  documented : ReadsAsDocumented r
  resolves : Resolves r r.contents
  nests : validatePdfObjects r limits room ≠ .error .stack

variable {pdfReader : Bytes → Except PyError (PdfReader ι)} {documentType : Str} {raw : Bytes}

theorem extractPages_ok (texts : List Str) : ∃ pages, extractPages (texts.map .ok) = .ok pages := by
  refine mapM_isOk.mpr fun page listed => ?_
  obtain ⟨text, -, same⟩ := List.mem_map.mp (List.fst_mem_of_mem_zipIdx listed)
  exact ⟨⟨page.2 + 1, text⟩, by rw [← same]; rfl⟩

theorem parse_ok_iff (h : Admissible pdfReader room documentType raw limits r) :
    (∃ file, parsePdf pdfReader room documentType raw limits = .ok file) ↔
      ∃ s, validatePdfObjects r limits room = .ok s := by
  obtain ⟨texts, pages, count⟩ := h.pages
  have entry : parsePdf pdfReader room documentType raw limits =
      (parseOpened (.ok r) room limits).mapError structureInvalid := by
    rw [parsePdf, rejectPdf_ok.mpr (by simpa using h.pdf), ok_bind, if_neg (not_not.mpr h.positive),
      rejectPdf_ok.mpr (by simpa using h.small), rejectPdf_ok.mpr (by rw [h.signed]; rfl), h.opened]
    rfl
  simp only [entry, mapError_ok]
  constructor
  · rintro ⟨file, parsed⟩
    obtain ⟨reader, opened, parsed⟩ := bind_ok.mp parsed
    obtain ⟨_, -, parsed⟩ := bind_ok.mp parsed
    obtain ⟨_, -, parsed⟩ := bind_ok.mp parsed
    obtain ⟨_, -, parsed⟩ := bind_ok.mp parsed
    obtain ⟨_, -, parsed⟩ := bind_ok.mp parsed
    obtain ⟨s, valid, -⟩ := bind_ok.mp parsed
    obtain rfl := Except.ok.inj opened
    exact ⟨s, valid⟩
  · rintro ⟨s, valid⟩
    obtain ⟨extracted, read⟩ := extractPages_ok texts
    refine ⟨⟨extracted⟩, ?_⟩
    have opened : (Except.ok r).mapError PdfFailure.raised = .ok r := rfl
    have listed : r.pages.mapError PdfFailure.raised = .ok (texts.map .ok) := mapError_ok.mpr pages
    rw [parseOpened, opened, ok_bind, rejectPdf_ok.mpr h.plain, ok_bind,
      rejectPdf_ok.mpr (by simpa using h.few), ok_bind, listed, ok_bind,
      rejectPdf_ok.mpr (by simpa using count), ok_bind, valid, ok_bind, mapError_ok.mpr read]
    rfl

/-- When `parse_pdf` accepts the clean files and no others: a clean file must be addressed, and what
the traversal misses in an addressed file must be clean. -/
theorem structure_exact_iff [Finite ι] (h : Admissible pdfReader room documentType raw limits r) :
    ((∃ depth, ∀ more, depth ≤ more → validatePdfObjects r limits more ≠ .error .stack) ∧
      ((∃ file, parsePdf pdfReader room documentType raw limits = .ok file) ↔
        Clean r limits r.contents)) ↔
      (Clean r limits r.contents → Addressed r) ∧
        (Addressed r → Clean r limits r.visited → Clean r limits r.contents) := by
  have region : Region r limits r.visited ↔ Addressed r ∧ Clean r limits r.visited := by
    rw [← visited_resolves h.documented h.resolves]
    exact ⟨fun region => ⟨region.resolves, region.toClean⟩,
      fun ⟨resolves, clean⟩ => { clean with closed := reached_closed _, resolves := resolves }⟩
  rw [parse_ok_iff h, validate_ok_iff h.positive h.nests, region, and_iff_right (validate_ends h.documented)]
  constructor
  · exact fun exact' => ⟨fun clean => (exact'.mpr clean).1, fun addressed clean => exact'.mp ⟨addressed, clean⟩⟩
  · rintro ⟨needed, enough⟩
    refine ⟨fun found => enough found.1 found.2, fun clean => ⟨needed clean, ?_⟩⟩
    have within := visited_subset (needed clean)
    exact ⟨fun id held => clean.fine id (within held),
      fun ids once held => clean.total ids once fun id hid => within (held id hid)⟩

/-- Files whose compressed objects come first in their streams are accepted exactly when they are
clean. -/
theorem first_exact (h : Admissible pdfReader room documentType raw limits r)
    (first : ∀ i ∈ r.xrefObjStm.items, i.2.2 = 0) :
    (∃ file, parsePdf pdfReader room documentType raw limits = .ok file) ↔ Clean r limits r.contents := by
  have same : r.visitedRoots = r.roots := by
    rw [PdfReader.visitedRoots, PdfReader.roots]
    refine congrArg _ (congrArg _ (List.map_congr_left fun i hi => ?_))
    rw [first i hi]
  have both : r.visited = r.contents := by rw [PdfReader.visited, PdfReader.contents, same]
  rw [parse_ok_iff h, validate_ok_iff h.positive h.nests, both]
  exact ⟨fun region => region.toClean,
    fun clean => { clean with closed := reached_closed _, resolves := h.resolves }⟩

/-! ## A file with an object stream -/

/-- The catalog and the page tree, in one object stream. -/
def compressedStream : Str :=
  lit "1 0 2 30 <</Type/Catalog/Pages 2 0 R>> " ++ lit "<</Type/Pages/Kids[]/Count 0>>"

/-- The entries of the tables, in hexadecimal. -/
def compressedTable : Str := lit "0000FF020300020301010900019600>"

/-- The file of these two streams. -/
def compressedText : Str :=
  lit "%PDF-1.5\n3 0 obj\n<</Type/ObjStm/N 2/First 9/Length 69>>\n" ++ lit "stream\n" ++
  compressedStream ++ lit "\nendstream\nendobj\n" ++
  lit "4 0 obj\n<</Type/XRef/Size 5/W[1 1 1]/Root 1 0 R" ++
  lit "/Filter/ASCIIHexDecode/Length 31>>\nstream\n" ++ compressedTable ++
  lit "\nendstream\nendobj\nstartxref\n150\n%%EOF\n"

def ascii (s : Str) : Bytes := (utf8 s).getD []

/-- The objects of the file: its trailer, the catalog, the page tree and its kids, the two streams and
the widths of the second. -/
def compressedHeap (id : Fin 7) : PdfContainer (Fin 7) :=
  match id with
  | 0 => .dictionary [(lit "/Root", .indirect 1 0), (lit "/Size", .other)]
  | 1 => .dictionary [(lit "/Type", .other), (lit "/Pages", .indirect 2 0)]
  | 2 => .dictionary [(lit "/Type", .other), (lit "/Kids", .direct 3), (lit "/Count", .other)]
  | 3 => .array []
  | 4 => .stream [(lit "/Type", .other), (lit "/N", .other), (lit "/First", .other)]
      (ascii compressedStream) (.ok (ascii compressedStream))
  | 5 => .stream [(lit "/Type", .other), (lit "/Size", .other), (lit "/W", .direct 6),
        (lit "/Root", .indirect 1 0), (lit "/Filter", .other)] (ascii compressedTable)
      (.ok [0, 0, 255, 2, 3, 0, 2, 3, 1, 1, 9, 0, 1, 150, 0])
  | 6 => .array [.other, .other, .other]

/-- The reader of the file: objects 3 and 4 have offsets, 1 and 2 are first and second in stream 3. -/
def compressedReader : PdfReader (Fin 7) where
  isEncrypted := false
  xref := Dict.empty.set 0 [3, 4]
  xrefObjStm := (Dict.empty.set 1 (3, 0)).set 2 (3, 1)
  trailer := 0
  heap := compressedHeap
  getObject := fun
    | 1, 0 => .ok (.direct 1)
    | 2, 0 => .ok (.direct 2)
    | 3, 0 => .ok (.direct 4)
    | 4, 0 => .ok (.direct 5)
    | _, _ => .error .pdfRead
  pages := .ok []

/-- `PdfReader` of this file alone. -/
def openCompressed (raw : Bytes) : Except PyError (PdfReader (Fin 7)) :=
  if raw = ascii compressedText then .ok compressedReader else .error .pdfRead

theorem compressed_listed {number generation : Nat} : compressedReader.Listed number generation ↔
    generation = 0 ∧ number ∈ [1, 2, 3, 4] := by
  have offsets : compressedReader.xref.items = [(0, [3, 4])] := rfl
  have streams : compressedReader.xrefObjStm.keys = [1, 2] := rfl
  simp only [PdfReader.Listed, offsets, streams, exists_eq_left, List.mem_cons, List.not_mem_nil,
    or_false, eq_comm (a := 0)]
  tauto

theorem compressed_documented : ReadsAsDocumented compressedReader where
  found h := by
    obtain ⟨rfl, held⟩ := compressed_listed.mp h
    simp only [List.mem_cons, List.not_mem_nil, or_false] at held
    rcases held with rfl | rfl | rfl | rfl <;> exact ⟨_, rfl⟩
  missing h := by
    rw [compressed_listed] at h
    simp only [compressedReader]
    split
    all_goals first | rfl | exact absurd ⟨rfl, by decide⟩ h

/-- A reference of this file, or a value that is none. -/
def isCompressedValue : PdfValue (Fin 7) → Bool
  | .indirect number generation => generation = 0 && [1, 2, 3, 4].contains number
  | _ => true

theorem compressed_resolves : Resolves compressedReader compressedReader.contents := by
  have entries : ∀ id, ∀ i ∈ (compressedHeap id).entries, isCompressedValue i.2 = true := by decide
  have roots : ∀ v ∈ compressedReader.roots, isCompressedValue v = true := by decide
  have closed : Closed compressedReader.Child {v | isCompressedValue v = true} := by
    intro v hv w next
    cases v with
    | other => exact next.elim
    | direct id =>
      obtain ⟨i, listed, rfl⟩ := next
      exact entries id i listed
    | indirect n g =>
      simp only [PdfReader.Child, compressedReader] at next
      split at next
      all_goals first | exact Except.ok.inj next ▸ rfl | cases next
  intro n g held
  have known := closed.reached roots held
  simp only [isCompressedValue, Set.mem_ofPred_eq, Bool.and_eq_true, decide_eq_true_eq,
    List.contains_iff_mem] at known
  exact compressed_documented.found (compressed_listed.mpr known)

theorem compressed_clean (R : Set (PdfValue (Fin 7))) : Clean compressedReader .default R := by
  have fine : ∀ id, (compressedHeap id).Fine .default := by
    intro id
    match id with
    | 0 | 1 | 2 | 3 | 6 => exact ⟨by decide, trivial⟩
    | 4 => exact ⟨by decide +kernel, _, rfl, by decide +kernel, by decide +kernel⟩
    | 5 => exact ⟨by decide, _, rfl, by decide, by decide⟩
  have tallied : Tallied compressedReader .default
      ⟨[], List.finRange 7, compressedReader.decodedSize (List.finRange 7)⟩ :=
    ⟨List.nodup_finRange 7, rfl, by decide +kernel⟩
  exact ⟨fun id _ => fine id, fun ids once _ => tallied.covers once fun id _ => List.mem_finRange id⟩

theorem compressed_raised :
    (match validatePdfObjects compressedReader .default 900 with
      | .error e => decide (e = .raised .pdfRead)
      | .ok _ => false) = true := by
  decide +kernel

theorem compressed_admissible :
    Admissible openCompressed 900 (lit "pdf") (ascii compressedText) .default compressedReader where
  pdf := rfl
  positive := by decide
  small := by decide +kernel
  signed := by decide +kernel
  opened := by rw [openCompressed, if_pos rfl]
  plain := rfl
  few := by decide
  pages := ⟨[], rfl, by decide⟩
  documented := compressed_documented
  resolves := compressed_resolves
  nests h := by
    have raised := compressed_raised
    rw [h] at raised
    cases raised

theorem structure_exact_iff_sample :
    ((∃ depth, ∀ more, depth ≤ more →
        validatePdfObjects compressedReader .default more ≠ .error .stack) ∧
      ((∃ file, parsePdf openCompressed 900 (lit "pdf") (ascii compressedText) .default = .ok file) ↔
        Clean compressedReader .default compressedReader.contents)) ↔
      (Clean compressedReader .default compressedReader.contents → Addressed compressedReader) ∧
        (Addressed compressedReader → Clean compressedReader .default compressedReader.visited →
          Clean compressedReader .default compressedReader.contents) :=
  structure_exact_iff compressed_admissible

/-- A clean file with two objects in a stream is rejected. -/
theorem compressed_rejected :
    Admissible openCompressed 900 (lit "pdf") (ascii compressedText) .default compressedReader ∧
      Clean compressedReader .default compressedReader.contents ∧
      parsePdf openCompressed 900 (lit "pdf") (ascii compressedText) .default =
        .error (.rejected (lit "PDF_STRUCTURE_INVALID")) ∧
      ¬ ((∃ file, parsePdf openCompressed 900 (lit "pdf") (ascii compressedText) .default = .ok file) ↔
        Clean compressedReader .default compressedReader.contents) := by
  have rejected : parsePdf openCompressed 900 (lit "pdf") (ascii compressedText) .default =
      .error (.rejected (lit "PDF_STRUCTURE_INVALID")) := by decide +kernel
  have clean := compressed_clean compressedReader.contents
  refine ⟨compressed_admissible, clean, rejected, fun exact' => ?_⟩
  obtain ⟨file, parsed⟩ := exact'.mpr clean
  rw [rejected] at parsed
  cases parsed

end QaCopilot.Ingestion
