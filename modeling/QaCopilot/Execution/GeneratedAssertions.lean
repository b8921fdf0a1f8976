import QaCopilot.Lib.Results
import QaCopilot.Python.Objects

/-!
# Generated assertions

What `_assertions` reads from the payload of a generated test case: a closed set of targets and
operators, and for each target the operators, the selectors and the expected values that go with
it.
-/

namespace QaCopilot.Execution

open Python Results

def maxGeneratedTestTextLength : Nat := 4000

def maxAssertions : Nat := 20

inductive AssertionTarget where
  | statusCode
  | responseHeader
  | jsonBody
  | responseTimeMs
deriving DecidableEq

inductive AssertionOperator where
  | equals
  | exists'
  | contains
  | lessThanOrEqual
deriving DecidableEq

def AssertionTarget.text : AssertionTarget → Str
  | .statusCode => lit "status_code"
  | .responseHeader => lit "response_header"
  | .jsonBody => lit "json_body"
  | .responseTimeMs => lit "response_time_ms"

def AssertionOperator.text : AssertionOperator → Str
  | .equals => lit "equals"
  | .exists' => lit "exists"
  | .contains => lit "contains"
  | .lessThanOrEqual => lit "less_than_or_equal"

/-- `str | int | float | bool | None` -/
inductive ExpectedValue where
  | none
  | bool (b : Bool)
  | int (n : Int)
  | float (x : PyFloat)
  | str (s : Str)
deriving DecidableEq

structure GeneratedAssertion where
  target : AssertionTarget
  selector : Option Str
  operator : AssertionOperator
  expectedValue : ExpectedValue
deriving DecidableEq

/-! ## Equality -/

/-- The number that Python takes a value for in `==`: a bool is one. -/
def number? : Json → Option IntOrFloat
  | .bool b => some (.bool b)
  | .int n => some (.int n)
  | .float x => some (.float x)
  | _ => none

def ExpectedValue.toJson : ExpectedValue → Json
  | .none => .null
  | .bool b => .bool b
  | .int n => .int n
  | .float x => .float x
  | .str s => .str s

/-- `value == expected` of a JSON value and a scalar. -/
def valueEquals (value : Json) (expected : ExpectedValue) : Bool :=
  match value, expected with
  | .null, .none => true
  | .str s, .str t => s = t
  | value, expected =>
    match number? value, number? expected.toJson with
    | some a, some b => a.eq b
    | _, _ => false

/-- `==` of two assertions. -/
def GeneratedAssertion.same (a b : GeneratedAssertion) : Bool :=
  a.target = b.target && a.selector = b.selector && a.operator = b.operator &&
    valueEquals a.expectedValue.toJson b.expectedValue

/-! ## Patterns -/

def isHeaderNameChar (c : CodePoint) : Bool :=
  (0x41 ≤ c.val && c.val ≤ 0x5A) || (0x61 ≤ c.val && c.val ≤ 0x7A) || isDigit c
    || c.val == 0x2D

/-- `_HEADER_NAME_PATTERN` -/
def isHeaderName (s : Str) : Bool := s ≠ [] && s.all isHeaderNameChar

def slash : CodePoint := CodePoint.ofChar '/'

def tilde : CodePoint := CodePoint.ofChar '~'

def zero : CodePoint := CodePoint.ofChar '0'

def one : CodePoint := CodePoint.ofChar '1'

/-- `(?:[^~/]|~[01])*` -/
def isEscaped : Str → Bool
  | [] => true
  | [c] => c ≠ tilde && c ≠ slash
  | c :: d :: s =>
    if c = tilde then (d = zero || d = one) && isEscaped s
    else c ≠ slash && isEscaped (d :: s)

/-- `_JSON_POINTER_PATTERN` -/
def isJsonPointer : Str → Bool
  | [] => false
  | c :: s => c = slash && (s.splitOn slash).all fun token => token ≠ [] && isEscaped token

/-! ## Reading -/

/-- The text of a `GeneratedTestCaseValidationError`. -/
abbrev Validated := Except String

def reject {α : Type} (text : String) : Validated α := .error text

def rejectWhen (c : Bool) (text : String) : Validated Unit := if c then reject text else .ok ()

theorem rejectWhen_ok {c : Bool} {message : String} : rejectWhen c message = .ok () ↔ c = false := by
  cases c <;> simp [rejectWhen, reject]

/-- `_text` -/
def text (value : Object) (label : String) : Validated Str :=
  match value.str? with
  | none => reject (label ++ " must be text")
  | some s =>
    if strip s = [] ∨ maxGeneratedTestTextLength < (strip s).length then
      reject (label ++ " must be bounded, non-empty text")
    else .ok (strip s)

theorem text_ok {value : Object} {label : String} {s : Str} : text value label = .ok s ↔
    ∃ t, value = .str t ∧ strip t = s ∧ s ≠ [] ∧ s.length ≤ maxGeneratedTestTextLength := by
  cases value with
  | str t =>
    have read : text (.str t) label = if strip t = [] ∨ maxGeneratedTestTextLength < (strip t).length
        then reject (label ++ " must be bounded, non-empty text") else .ok (strip t) := rfl
    rw [read]
    split_ifs with unbounded
    · constructor
      · nofun
      · rintro ⟨_, ⟨⟩, rfl, visible, short⟩
        exact absurd unbounded (not_or.mpr ⟨visible, Nat.not_lt.mpr short⟩)
    · rw [not_or, Nat.not_lt] at unbounded
      constructor
      · intro h
        obtain rfl := Except.ok.inj h
        exact ⟨t, rfl, rfl, unbounded⟩
      · rintro ⟨_, ⟨⟩, rfl, -⟩
        rfl
  | none | bool | int | float | list | dict | other =>
    constructor
    · nofun
    · rintro ⟨_, h, -⟩
      cases h

/-- `_optional_selector` -/
def optionalSelector (value : Object) : Validated (Option Str) :=
  match value with
  | .none => .ok none
  | value => (text value "Assertion selector").map some

/-- `_expected_value` -/
def expectedValue (value : Object) : Validated ExpectedValue :=
  match value with
  | .none => .ok .none
  | .bool b => .ok (.bool b)
  | .int n => .ok (.int n)
  | .str s =>
    if maxGeneratedTestTextLength < s.length then reject "Assertion expected value is too long"
    else .ok (.str s)
  | .float (.finite x) => .ok (.float (.finite x))
  | .float _ => reject "Assertion expected numbers must be finite"
  | _ => reject "Assertion expected values must be scalar JSON values"

/-- `_enum` -/
def enum {α : Type} (members : List α) (name : α → Str) (value : Object) (label : String) :
    Validated α :=
  match value.str? >>= fun s => members.find? (name · = s) with
  | some member => .ok member
  | none => reject (label ++ " is not allowed")

/-- `_is_status_code` -/
def isStatusCode : ExpectedValue → Bool
  | .int n => 100 ≤ n && n ≤ 599
  | _ => false

/-- `_is_positive_integer` -/
def isPositiveInteger : ExpectedValue → Bool
  | .int n => 0 < n
  | _ => false

def isStr : ExpectedValue → Bool
  | .str _ => true
  | _ => false

/-- `_validate_assertion_contract` -/
def validateAssertionContract (a : GeneratedAssertion) : Validated Unit :=
  match a.target with
  | .statusCode =>
    rejectWhen (a.selector.isSome || a.operator ≠ .equals || !isStatusCode a.expectedValue)
      "Status-code assertions require equals and an HTTP status code"
  | .responseHeader => do
    rejectWhen (!a.selector.any isHeaderName || (a.operator ≠ .equals && a.operator ≠ .exists'))
      "Response-header assertions require a header-name selector"
    if a.operator = .exists' then
      rejectWhen (a.expectedValue ≠ .none) "Exists assertions must not include an expected value"
    else
      rejectWhen (!isStr a.expectedValue)
        "Header equals assertions require a text expected value"
  | .jsonBody => do
    rejectWhen (!a.selector.any isJsonPointer
        || (a.operator ≠ .equals && a.operator ≠ .exists' && a.operator ≠ .contains))
      "JSON-body assertions require a JSON-pointer selector"
    if a.operator = .exists' then
      rejectWhen (a.expectedValue ≠ .none) "Exists assertions must not include an expected value"
    else
      rejectWhen (a.operator = .contains && !isStr a.expectedValue)
        "JSON-body contains assertions require a text expected value"
  | .responseTimeMs =>
    rejectWhen (a.selector.isSome || a.operator ≠ .lessThanOrEqual
        || !isPositiveInteger a.expectedValue)
      ("Response-time assertions require less_than_or_equal and " ++
        "a positive integer expected value")

def assertionFields : List Str :=
  [lit "target", lit "selector", lit "operator", lit "expected_value"]

/-- `_require_exact_fields` of an assertion. -/
def requireAssertionFields (payload : List (Object × Object)) : Validated Fields :=
  match (Object.dict payload).fields? with
  | some fields =>
    if assertionFields.all (· ∈ fields.keys) && fields.keys.all (· ∈ assertionFields) then
      .ok fields
    else reject "Generated assertion fields must exactly match the versioned schema"
  | none => reject "Generated assertion fields must exactly match the versioned schema"

/-- One turn of the loop of `_assertions`. -/
def readAssertion (item : Object) : Validated GeneratedAssertion := do
  let .dict payload := item | reject "Generated assertion must be an object"
  let fields ← requireAssertionFields payload
  let target ← enum [.statusCode, .responseHeader, .jsonBody, .responseTimeMs]
    AssertionTarget.text (fields.get "target") "Assertion target"
  let selector ← optionalSelector (fields.get "selector")
  let operator ← enum [.equals, .exists', .contains, .lessThanOrEqual]
    AssertionOperator.text (fields.get "operator") "Assertion operator"
  let expected ← expectedValue (fields.get "expected_value")
  let assertion : GeneratedAssertion := ⟨target, selector, operator, expected⟩
  validateAssertionContract assertion
  return assertion

/-- What the parts of an assertion were read from. -/
structure ReadsAssertion (fields : Fields) (a : GeneratedAssertion) : Prop where
  target : enum [.statusCode, .responseHeader, .jsonBody, .responseTimeMs]
    AssertionTarget.text (fields.get "target") "Assertion target" = .ok a.target
  selector : optionalSelector (fields.get "selector") = .ok a.selector
  operator : enum [.equals, .exists', .contains, .lessThanOrEqual]
    AssertionOperator.text (fields.get "operator") "Assertion operator" = .ok a.operator
  expected : expectedValue (fields.get "expected_value") = .ok a.expectedValue
  contract : validateAssertionContract a = .ok ()

theorem readAssertion_ok {item : Object} {a : GeneratedAssertion} : readAssertion item = .ok a ↔
    ∃ payload fields, item = .dict payload ∧ requireAssertionFields payload = .ok fields ∧
      ReadsAssertion fields a := by
  constructor
  · intro h
    cases item with
    | dict payload =>
      obtain ⟨fields, exact', h⟩ := bind_ok.mp h
      obtain ⟨target, targetRead, h⟩ := bind_ok.mp h
      obtain ⟨selector, selectorRead, h⟩ := bind_ok.mp h
      obtain ⟨operator, operatorRead, h⟩ := bind_ok.mp h
      obtain ⟨expected, expectedRead, h⟩ := bind_ok.mp h
      obtain ⟨_, contract, h⟩ := bind_ok.mp h
      obtain rfl := Except.ok.inj h
      exact ⟨payload, fields, rfl, exact', targetRead, selectorRead, operatorRead, expectedRead, contract⟩
    | none | bool | int | float | str | list | other => cases h
  · rintro ⟨payload, fields, rfl, exact', read⟩
    rw [readAssertion, exact', ok_bind, read.target, ok_bind, read.selector, ok_bind, read.operator,
      ok_bind, read.expected, ok_bind]
    exact bind_ok.mpr ⟨(), read.contract, rfl⟩

/-- No two of the assertions are equal. -/
def distinctAssertions : List GeneratedAssertion → Bool
  | [] => true
  | a :: rest => rest.all (fun b => !a.same b) && distinctAssertions rest

/-- `_assertions` -/
def readAssertions (value : Object) : Validated (List GeneratedAssertion) := do
  let .list items := value | reject "Generated test assertions must be a list"
  rejectWhen items.isEmpty "Generated test cases require at least one assertion"
  rejectWhen (maxAssertions < items.length) "Generated test cases have too many assertions"
  let assertions ← items.mapM readAssertion
  rejectWhen (!distinctAssertions assertions) "Generated assertions must not repeat"
  return assertions

theorem readAssertions_ok {value : Object} {assertions : List GeneratedAssertion} :
    readAssertions value = .ok assertions ↔ ∃ items, value = .list items ∧ items ≠ [] ∧
      items.length ≤ maxAssertions ∧ items.mapM readAssertion = .ok assertions ∧
        distinctAssertions assertions = true := by
  constructor
  · intro h
    cases value with
    | list items =>
      obtain ⟨_, some', h⟩ := bind_ok.mp h
      obtain ⟨_, few, h⟩ := bind_ok.mp h
      obtain ⟨assertions', read, h⟩ := bind_ok.mp h
      obtain ⟨_, distinct, h⟩ := bind_ok.mp h
      obtain rfl := Except.ok.inj h
      rw [rejectWhen_ok] at some' few distinct
      exact ⟨items, rfl, by simpa using some', by simpa using few, read, by simpa using distinct⟩
    | none | bool | int | float | str | dict | other => cases h
  · rintro ⟨items, rfl, some', few, read, distinct⟩
    rw [readAssertions, rejectWhen_ok.mpr (by simpa using some'), ok_bind,
      rejectWhen_ok.mpr (by simpa using few), ok_bind, read, ok_bind,
      rejectWhen_ok.mpr (by simpa using distinct)]
    rfl

end QaCopilot.Execution
