import QaCopilot.Python.Dict
import QaCopilot.Python.Text

/-!
# The PDF parser

`pdf_parser.py`: the limits, the traversal of a file that `pypdf` has opened, and `parse_pdf`.
-/

namespace QaCopilot.Ingestion

open QaCopilot.Python

/-- `_ACTIVE_CONTENT_KEYS` -/
def activeContentKeys : List Str :=
  [lit "/AA", lit "/AcroForm", lit "/GoToR", lit "/JavaScript", lit "/JS", lit "/Launch",
    lit "/OpenAction", lit "/RichMedia", lit "/SubmitForm", lit "/URI", lit "/XFA"]

/-- `_ATTACHMENT_KEYS` -/
def attachmentKeys : List Str := [lit "/EF", lit "/EmbeddedFiles", lit "/Filespec"]

/-- `b"%PDF-"` -/
def pdfSignature : Bytes := [0x25, 0x50, 0x44, 0x46, 0x2D]

structure PdfParserLimits where
  maxRawBytes : Int
  maxPages : Int
  maxObjects : Int
  maxDecodedStreamBytes : Int
  maxTotalDecodedStreamBytes : Int
  maxExpansionRatio : Int

def PdfParserLimits.default : PdfParserLimits :=
  ⟨10 * 1024 * 1024, 100, 10000, 8 * 1024 * 1024, 32 * 1024 * 1024, 100⟩

structure ParsedPdfPage where
  pageNumber : Nat
  text : Str
deriving DecidableEq

structure ParsedPdf where
  pages : List ParsedPdfPage
deriving DecidableEq

/-! ## Files that are open -/

/-- The exceptions that `parse_pdf` catches, and all others. -/
inductive PyError where
  | pdfRead
  | key
  | os
  | overflow
  | recursion
  | value
  | other
deriving DecidableEq

/-- A value of a file: a reference, an array, a dictionary or a stream by its identity, or anything
else. -/
inductive PdfValue (ι : Type) where
  | indirect (idnum generation : Nat)
  | direct (id : ι)
  | other
deriving DecidableEq

/-- `ArrayObject`, `DictionaryObject` and `StreamObject`; a stream has its bytes and what `get_data`
makes of them. -/
inductive PdfContainer (ι : Type) where
  | array (items : List (PdfValue ι))
  | dictionary (items : List (Str × PdfValue ι))
  | stream (items : List (Str × PdfValue ι)) (encoded : Bytes) (decoded : Except PyError Bytes)

/-- `PdfReader`: the numbers of `xref` under each generation, the stream and the index of each number
of `xref_objStm`, and the objects in memory by their identity. -/
structure PdfReader (ι : Type) where
  isEncrypted : Bool
  xref : Dict Nat (List Nat)
  xrefObjStm : Dict Nat (Nat × Nat)
  trailer : ι
  heap : ι → PdfContainer ι
  getObject : Nat → Nat → Except PyError (PdfValue ι)
  pages : Except PyError (List (Except PyError Str))

/-! ## The traversal -/

/-- `PdfParseRejected` by its code, another exception, and the `RecursionError` of the traversal
itself. -/
inductive PdfFailure where
  | rejected (code : Str)
  | raised (error : PyError)
  | stack
deriving DecidableEq

/-- `raise PdfParseRejected(code)` of what is bad. -/
def rejectPdf (bad : Bool) (code : String) : Except PdfFailure Unit :=
  if bad then .error (.rejected (lit code)) else .ok ()

section
variable {ι : Type}

/-- `seen_indirect`, `seen_direct` and `total_decoded_stream_bytes` -/
structure Seen (ι : Type) where
  indirect : List (Nat × Nat)
  direct : List ι
  total : Nat

/-- The limits of a stream. -/
def checkStream (limits : PdfParserLimits) (s : Seen ι) (encoded : Bytes)
    (decoded : Except PyError Bytes) : Except PdfFailure (Seen ι) := do
  let data ← decoded.mapError .raised
  rejectPdf (limits.maxDecodedStreamBytes < data.length) "PDF_DECODED_STREAM_LIMIT"
  let s := { s with total := s.total + data.length }
  rejectPdf (limits.maxTotalDecodedStreamBytes < s.total) "PDF_TOTAL_DECODED_STREAM_LIMIT"
  rejectPdf (encoded.length * limits.maxExpansionRatio < data.length) "PDF_DECOMPRESSION_RATIO_LIMIT"
  return s

def checkKey (name : Str) : Except PdfFailure Unit := do
  rejectPdf (attachmentKeys.contains name) "PDF_ATTACHMENTS_UNSUPPORTED"
  rejectPdf (activeContentKeys.contains name) "PDF_ACTIVE_CONTENT_UNSUPPORTED"

variable [DecidableEq ι]

/-- `visit`, in what is left of the stack. -/
def visit (r : PdfReader ι) (limits : PdfParserLimits) : Nat → Seen ι → PdfValue ι → Except PdfFailure (Seen ι)
  | 0, _, _ => .error .stack
  | _ + 1, s, .other => .ok s
  | room + 1, s, .indirect idnum generation =>
    if (idnum, generation) ∈ s.indirect then .ok s
    else do
      let value ← (r.getObject idnum generation).mapError .raised
      visit r limits room { s with indirect := (idnum, generation) :: s.indirect } value
  | room + 1, s, .direct id =>
    if id ∈ s.direct then .ok s
    else
      let s := { s with direct := id :: s.direct }
      let visitItem := fun s (item : Str × PdfValue ι) => do
        checkKey item.1
        visit r limits room s item.2
      match r.heap id with
      | .array items => items.foldlM (visit r limits room) s
      | .dictionary items => items.foldlM visitItem s
      | .stream items encoded decoded => do
        let s ← checkStream limits s encoded decoded
        items.foldlM visitItem s

/-- `_validate_pdf_objects`; the third loop takes the index of a compressed object for its
generation. -/
def validatePdfObjects (r : PdfReader ι) (limits : PdfParserLimits) (room : Nat) :
    Except PdfFailure (Seen ι) := do
  let s ← visit r limits room ⟨[], [], 0⟩ (.direct r.trailer)
  let s ← r.xref.items.foldlM (fun s (generation, entries) =>
    entries.foldlM (fun s number => visit r limits room s (.indirect number generation)) s) s
  r.xrefObjStm.items.foldlM (fun s (number, (_, generation)) =>
    visit r limits room s (.indirect number generation)) s

end

/-! ## Parsing -/

/-- `_object_count` -/
def objectCount {ι : Type} (r : PdfReader ι) : Nat :=
  (r.xref.items.map fun i => i.2.length).sum + r.xrefObjStm.size

/-- `_validate_limits` -/
def PdfParserLimits.positive (limits : PdfParserLimits) : Bool :=
  1 ≤ limits.maxRawBytes && 1 ≤ limits.maxPages && 1 ≤ limits.maxObjects &&
    1 ≤ limits.maxDecodedStreamBytes && 1 ≤ limits.maxTotalDecodedStreamBytes &&
    1 ≤ limits.maxExpansionRatio

/-- What `parse_pdf` raises for what is raised in its `try`. -/
def structureInvalid : PdfFailure → PdfFailure
  | .raised .other => .raised .other
  | .rejected code => .rejected code
  | .raised _ | .stack => .rejected (lit "PDF_STRUCTURE_INVALID")

/-- The pages and their texts, from page 1 on. -/
def extractPages (pages : List (Except PyError Str)) : Except PyError (List ParsedPdfPage) :=
  pages.zipIdx.mapM fun page => do return ⟨page.2 + 1, ← page.1⟩

/-- What `parse_pdf` does in its `try`. -/
def parseOpened {ι : Type} [DecidableEq ι] (opened : Except PyError (PdfReader ι)) (room : Nat)
    (limits : PdfParserLimits) : Except PdfFailure ParsedPdf := do
  let reader ← opened.mapError .raised
  rejectPdf reader.isEncrypted "PDF_ENCRYPTION_UNSUPPORTED"
  rejectPdf (limits.maxObjects < objectCount reader) "PDF_OBJECT_LIMIT"
  let pages ← reader.pages.mapError .raised
  rejectPdf (limits.maxPages < pages.length) "PDF_PAGE_LIMIT"
  let _ ← validatePdfObjects reader limits room
  let pages ← (extractPages pages).mapError .raised
  return ⟨pages⟩

/-- `parse_pdf`, with `PdfReader(BytesIO(raw), strict=True)` and what is left of the stack. -/
def parsePdf {ι : Type} [DecidableEq ι] (pdfReader : Bytes → Except PyError (PdfReader ι)) (room : Nat)
    (documentType : Str) (raw : Bytes) (limits : PdfParserLimits) : Except PdfFailure ParsedPdf := do
  rejectPdf (documentType ≠ lit "pdf") "PDF_DOCUMENT_TYPE_UNSUPPORTED"
  if ¬ limits.positive then .error (.raised .value)
  rejectPdf (limits.maxRawBytes < raw.length) "PDF_SIZE_LIMIT"
  rejectPdf (!(pdfSignature.isPrefixOf raw)) "PDF_SIGNATURE_INVALID"
  (parseOpened (pdfReader raw) room limits).mapError structureInvalid

end QaCopilot.Ingestion
