import QaCopilot.Python.Objects

/-!
# Readers of checked documents

The readers with which the suite loader and the run report decoder check a document, field by
field. A label names the place that a reader refuses.
-/

namespace QaCopilot.Evaluation

open Python

/-- What a rejection says: a fixed message, one that ends in a value of the document, or the
fields that a mapping lacks or has too many. -/
inductive Rejection where
  | message (text : String)
  | about (text : String) (value : Str)
  | fields (label : String) (missing unexpected : List Str)
deriving DecidableEq

/-- A rejection, or the `OverflowError` of an int that is too large for a float. -/
inductive FieldError where
  | rejected (r : Rejection)
  | overflow
deriving DecidableEq

abbrev Checked := Except FieldError

def reject {α : Type} (text : String) : Checked α := .error (.rejected (.message text))

def rejectWhen (c : Bool) (text : String) : Checked Unit := if c then reject text else .ok ()

/-- A message that ends in a value of the document. -/
def rejectValueWhen (c : Bool) (text : String) (value : Str) : Checked Unit :=
  if c then .error (.rejected (.about text value)) else .ok ()

theorem rejectWhen_ok {c : Bool} {text : String} : rejectWhen c text = .ok () ↔ c = false := by
  cases c <;> simp [rejectWhen, reject]

def orOverflow {α : Type} : Except Overflow α → Checked α
  | .ok a => .ok a
  | .error _ => .error .overflow

/-- `_require_mapping` -/
def requireMapping (value : Object) (label : String) : Checked Fields :=
  match value.fields? with
  | some fields => .ok fields
  | none => reject (label ++ " must be a mapping with string keys")

/-- `_require_list` -/
def requireList (value : Object) (label : String) : Checked (List Object) :=
  match value with
  | .list xs => .ok xs
  | _ => reject (label ++ " must be a list")

/-- `_require_exact_fields` -/
def requireExactFields (value : Fields) (expected : List Str) (label : String) : Checked Unit :=
  let missing := sortedTexts (expected.filter (· ∉ value.keys))
  let unexpected := sortedTexts (value.keys.filter (· ∉ expected))
  if missing = [] ∧ unexpected = [] then .ok ()
  else .error (.rejected (.fields label missing unexpected))

/-- `_require_text` -/
def requireText (value : Object) (label : String) : Checked Str :=
  match value.str? with
  | some s => if strip s = [] then reject (label ++ " must be non-empty text") else .ok (strip s)
  | none => reject (label ++ " must be non-empty text")

/-- `_require_distinct_text_list` -/
def requireDistinctTextList (value : Object) (label : String) (nonEmpty : Bool) :
    Checked (List Str) := do
  let items ← requireList value label
  let values ← items.mapM fun item => requireText item (label ++ " item")
  rejectWhen (nonEmpty && values.isEmpty) (label ++ " must contain at least one value")
  rejectWhen (!decide values.Nodup) (label ++ " must not contain duplicate values")
  return values

/-- `_require_non_negative_integer` -/
def requireNonNegativeInteger (value : Object) (label : String) : Checked Int :=
  match value.int? with
  | some n => if n < 0 then reject (label ++ " must be a non-negative integer") else .ok n
  | none => reject (label ++ " must be a non-negative integer")

/-- `_require_positive_integer` -/
def requirePositiveInteger (value : Object) (label : String) : Checked Int := do
  let integer ← requireNonNegativeInteger value label
  rejectWhen (integer = 0) (label ++ " must be greater than zero")
  return integer

/-- `_require_non_negative_number`, with the message for what is no number. -/
def requireNumber (noNumber : String) (value : Object) (label : String) : Checked IntOrFloat :=
  match value.number? with
  | none | some (.bool _) => reject (label ++ noNumber)
  | some v => do
    if ← orOverflow v.nonNegative then return v
    reject (label ++ " must be a finite non-negative number")

/-- `_require_sha256` -/
def requireSha256 (value : Object) (label : String) : Checked Str := do
  let sha256 ← requireText value label
  rejectWhen (!isDigest sha256) (label ++ " must be 64 lowercase hexadecimal characters")
  return sha256

/-! ## What the readers return -/

/-- A text that a reader returned: stripped, and not blank. -/
def Trimmed (s : Str) : Prop := strip s = s ∧ s ≠ []

theorem requireText_trimmed {value : Object} {label : String} {s : Str}
    (read : requireText value label = .ok s) : Trimmed s := by
  unfold requireText at read
  split at read
  · split at read
    · cases read
    · rename_i blank
      obtain rfl := Except.ok.inj read
      exact ⟨strip_strip _, blank⟩
  · cases read

theorem requireText_of_trimmed {s : Str} (h : Trimmed s) (label : String) :
    requireText (.str s) label = .ok s := by
  have kept : (if strip s = [] then reject (label ++ " must be non-empty text")
      else Except.ok (strip s) : Checked Str) = .ok s := by
    rw [h.1, if_neg h.2]
  exact kept

end QaCopilot.Evaluation
