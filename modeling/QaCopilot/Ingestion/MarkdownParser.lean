import QaCopilot.Ingestion.Intake
import QaCopilot.Python.Words

/-!
# The Markdown and text parser

`markdown_parser.py`: the lines of a file that hold a requirement, with the heading above them.

* `parse_texts`: no parsed text is blank.
-/

namespace QaCopilot.Ingestion

open QaCopilot.Python

def maxTextLines : Nat := 100000

def maxTextCodepoints : Nat := 500000

def maxTextLineBytes : Nat := 16 * 1024

def parserVersion : String := "markdown-text-v1"

def normalizationVersion : String := "line-normalized-v1"

structure ParsedRequirement where
  ordinal : Nat
  requirementId : Option Str
  heading : Option Str
  lineStart : Nat
  lineEnd : Nat
  normalizedText : Str
  contentSha256 : Str
deriving DecidableEq

/-- `_normalize` -/
def normalize (value : Str) : Str := joinWords (split (strip value))

/-! ## Headings -/

/-- `[ \t]` -/
def isBlank (c : CodePoint) : Bool := c.val == 0x20 || c.val == 0x09

def isHash (c : CodePoint) : Bool := c.val == 0x23

/-- `[ \t]*#*[ \t]*$` -/
def closesHeading (s : Str) : Bool :=
  ((s.dropWhile isBlank).dropWhile isHash).dropWhile isBlank = []

/-- The lazy `(.+?)` of a title that has characters. -/
def shortestTitle : Str → Str
  | [] => []
  | c :: s => if closesHeading s then [c] else c :: shortestTitle s

/-- The title of `_HEADING`. Where nothing but blanks follows the hashes, the last blank is the
title. -/
def headingTitle (line : Str) : Option Str :=
  let hashes := (line.takeWhile isHash).length
  let blanks := (line.dropWhile isHash).takeWhile isBlank
  match (line.dropWhile isHash).dropWhile isBlank with
  | c :: title =>
    if 1 ≤ hashes ∧ hashes ≤ 6 ∧ blanks ≠ [] then some (shortestTitle (c :: title)) else none
  | [] =>
    if 1 ≤ hashes ∧ hashes ≤ 6 ∧ 2 ≤ blanks.length then blanks.getLast?.map fun c => [c] else none

/-! ## Requirements -/

/-- The character that `re.IGNORECASE` compares; four letters beyond ASCII fold to one of it. -/
def foldCase (c : CodePoint) : Nat :=
  if 0x41 ≤ c.val ∧ c.val ≤ 0x5A then c.val + 0x20
  else if c.val = 0x130 ∨ c.val = 0x131 then 0x69
  else if c.val = 0x17F then 0x73
  else if c.val = 0x212A then 0x6B
  else c.val

/-- `[A-Z0-9]` -/
def isIdStart (c : CodePoint) : Bool :=
  (0x61 ≤ foldCase c && foldCase c ≤ 0x7A) || (0x30 ≤ c.val && c.val ≤ 0x39)

/-- `[A-Z0-9_-]` -/
def isIdRest (c : CodePoint) : Bool := isIdStart c || c.val == 0x5F || c.val == 0x2D

/-- What is left of the text after a prefix. -/
def dropLabel (label : Str) (s : Str) : Option Str :=
  if (label.map foldCase).isPrefixOf (s.map foldCase) then some (s.drop label.length) else none

/-- `\s*[:—-]\s*(.+?)\s*$`, and its group. -/
def separatedText (s : Str) : Option Str :=
  match s.dropWhile isSpace with
  | sep :: c :: text =>
    if sep.val = 0x3A ∨ sep.val = 0x2014 ∨ sep.val = 0x2D then
      match (c :: text).dropWhile isSpace with
      | [] => some [(c :: text).getLast (List.cons_ne_nil c text)]
      | d :: text => some (rstrip (d :: text))
    else none
  | _ => none

/-- The greedy `[A-Z0-9_-]*`: the longest identifier that a separator and a text can follow. -/
def longestId : Str → Option (Str × Str)
  | [] => none
  | c :: s =>
    match if isIdRest c then longestId s else none with
    | some (id, text) => some (c :: id, text)
    | none => (separatedText (c :: s)).map fun text => ([], text)

/-- The identifier after its label. -/
def labelledId (label : Str) (s : Str) : Option (Str × Str) :=
  match dropLabel label s with
  | some (c :: rest) =>
    if isIdStart c then
      (longestId rest).map fun r => (s.take label.length ++ c :: r.1, r.2)
    else none
  | _ => none

/-- The groups of `_REQUIREMENT`. -/
def requirementGroups (line : Str) : Option (Str × Str) :=
  let s := line.dropWhile isSpace
  let s := match s with
    | bullet :: c :: rest =>
      if (bullet.val = 0x2D ∨ bullet.val = 0x2A ∨ bullet.val = 0x2B) ∧ isSpace c then
        rest.dropWhile isSpace
      else s
    | _ => s
  match labelledId (lit "REQ-") s with
  | some groups => some groups
  | none => labelledId (lit "REQUIREMENT-") s

example : requirementGroups (lit "- Req-1-a — be fast ") = some (lit "Req-1-a", lit "be fast") := by
  decide +kernel

/-! ## Lines -/

/-- The requirement of a line that is no heading. -/
def lineRequirement (upper : Str → Str) (documentType : DocumentType) (line : Str) :
    Option (Option Str × Str) :=
  match requirementGroups line with
  | some (id, text) => some (some (upper id), normalize text)
  | none =>
    if documentType = .text ∧ strip line ≠ [] then some (none, normalize line) else none

/-- The lines from number `lineNumber` on, below `heading`, after `parsed`. -/
def parseLines (upper : Str → Str) (sha256 : Bytes → Str) (documentType : DocumentType) :
    Nat → Option Str → List ParsedRequirement → List Str →
      Except String (List ParsedRequirement)
  | _, _, parsed, [] => .ok parsed
  | lineNumber, heading, parsed, line :: lines =>
    if maxTextLineBytes < ((utf8 line).getD []).length then .error "PARSER_LINE_SIZE_LIMIT"
    else
      match headingTitle line with
      | some title =>
        parseLines upper sha256 documentType (lineNumber + 1) (some (normalize title)) parsed lines
      | none =>
        match lineRequirement upper documentType line with
        | some (requirementId, c :: text) =>
          parseLines upper sha256 documentType (lineNumber + 1) heading
            (parsed ++ [⟨parsed.length, requirementId, heading, lineNumber, lineNumber, c :: text,
              sha256 ((utf8 (c :: text)).getD [])⟩]) lines
        | _ => parseLines upper sha256 documentType (lineNumber + 1) heading parsed lines

/-- `parse_markdown_or_text`; an error is the code of a `DocumentParseRejected`. -/
def parseMarkdownOrText (upper : Str → Str) (sha256 : Bytes → Str) (documentType : DocumentType)
    (raw : Bytes) : Except String (List ParsedRequirement) :=
  if documentType ≠ .markdown ∧ documentType ≠ .text then
    .error "PARSER_DOCUMENT_TYPE_UNSUPPORTED"
  else
    match decodeUtf8 raw with
    | none => .error "PARSER_TEXT_ENCODING_INVALID"
    | some text =>
      if maxTextCodepoints < text.length then .error "PARSER_TEXT_CODEPOINT_LIMIT"
      else if maxTextLines < (splitlines text).length then .error "PARSER_LINE_COUNT_LIMIT"
      else parseLines upper sha256 documentType 1 none [] (splitlines text)

theorem strip_normalize {value : Str} (some' : normalize value ≠ []) :
    strip (normalize value) ≠ [] := by
  apply strip_joinWords
  · rintro none
    rw [normalize, none] at some'
    exact some' rfl
  · exact isWord_split (strip value)

theorem lineRequirement_text {upper : Str → Str} {documentType : DocumentType} {line text : Str}
    {id : Option Str} (h : lineRequirement upper documentType line = some (id, text))
    (some' : text ≠ []) : strip text ≠ [] := by
  unfold lineRequirement at h
  split at h
  · obtain ⟨-, rfl⟩ := Prod.mk.inj (Option.some.inj h)
    exact strip_normalize some'
  · split at h
    · obtain ⟨-, rfl⟩ := Prod.mk.inj (Option.some.inj h)
      exact strip_normalize some'
    · cases h

theorem parseLines_texts {upper : Str → Str} {sha256 : Bytes → Str} {documentType : DocumentType}
    {lineNumber : Nat} {heading : Option Str} {parsed : List ParsedRequirement} {lines : List Str}
    {requirements : List ParsedRequirement}
    (h : parseLines upper sha256 documentType lineNumber heading parsed lines = .ok requirements)
    (before : ∀ r ∈ parsed, strip r.normalizedText ≠ []) :
    ∀ r ∈ requirements, strip r.normalizedText ≠ [] := by
  induction lines generalizing lineNumber heading parsed with
  | nil => exact Except.ok.inj h ▸ before
  | cons line lines ih =>
    rw [parseLines] at h
    split at h
    · cases h
    · split at h
      · exact ih h before
      · split at h
        · rename_i found
          apply ih h
          intro r hr
          rcases List.mem_append.mp hr with hr | hr
          · exact before r hr
          · obtain rfl := List.mem_singleton.mp hr
            exact lineRequirement_text found (List.cons_ne_nil _ _)
        · exact ih h before

theorem parse_texts {upper : Str → Str} {sha256 : Bytes → Str} {documentType : DocumentType}
    {raw : Bytes} {requirements : List ParsedRequirement}
    (h : parseMarkdownOrText upper sha256 documentType raw = .ok requirements) :
    ∀ r ∈ requirements, strip r.normalizedText ≠ [] := by
  unfold parseMarkdownOrText at h
  split at h
  · cases h
  · split at h
    · cases h
    · split_ifs at h
      exact parseLines_texts h (by simp)

end QaCopilot.Ingestion
