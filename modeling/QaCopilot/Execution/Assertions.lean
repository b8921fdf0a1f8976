import QaCopilot.Execution.GeneratedAssertions
import QaCopilot.Python.Dict
import QaCopilot.Python.JsonLoads
import QaCopilot.Python.Words

/-!
# Assertion evaluation

`_evaluate_assertions`: the body is read once as JSON and the headers are gathered once by their
lower-case names, then each assertion is applied to the value that its selector finds.
-/

namespace QaCopilot.Execution

open Python

structure TransportResponse where
  statusCode : Int
  headers : List (Str × Str)
  body : Bytes
  elapsedMs : Int

structure AssertionResult where
  target : AssertionTarget
  selector : Option Str
  operator : AssertionOperator
  passed : Bool
deriving DecidableEq

/-- What a selector finds: nothing, the values of a header, or a JSON value. -/
inductive Found where
  | missing
  | header (values : List Str)
  | json (value : Json)

/-! ## The response -/

/-- `_response_headers`: the values by the lower-case name, in their order. -/
def responseHeaders (u : Unicode) (headers : List (Str × Str)) : Dict Str (List Str) :=
  headers.foldl
    (fun result h => result.set (u.lower h.1) (((result.get? (u.lower h.1)).getD []) ++ [h.2]))
    .empty

/-- `_parse_json_object_or_array`; none for `_MISSING`. A number that is too long for `int` and a
nesting that is too deep raise other errors than the two that are caught. -/
def parseJsonObjectOrArray (limit : Nat) (body : Bytes) : Except LoadsError (Option Json) :=
  match decodeUtf8 body with
  | none => .ok none
  | some s =>
    match loads limit s with
    | .ok (.dict items) => .ok (some (.dict items))
    | .ok (.list xs) => .ok (some (.list xs))
    | .ok _ => .ok none
    | .error .decode => .ok none
    | .error e => .error e

/-! ## JSON pointers -/

/-- `str.replace` of the two characters `a` and `b`, which differ, by `r`. -/
def replacePair (a b r : CodePoint) : Str → Str
  | [] => []
  | [c] => [c]
  | c :: d :: s =>
    if c = a ∧ d = b then r :: replacePair a b r s else c :: replacePair a b r (d :: s)

/-- `escaped_token.replace("~1", "/").replace("~0", "~")` -/
def pointerToken (escaped : Str) : Str :=
  replacePair tilde zero tilde (replacePair tilde one slash escaped)

/-- `pointer.removeprefix("/").split("/")` -/
def pointerTokens (pointer : Str) : List Str := (pointer.drop 1).splitOn slash

/-- `token.isdecimal() and (token == "0" or not token.startswith("0"))` -/
def isIndex (u : Unicode) (token : Str) : Bool :=
  (token ≠ [] && token.all fun c => (u.decimal c).isSome)
    && (token = [zero] || token.head? ≠ some zero)

/-- The value of decimal digits. -/
def decimalValue (u : Unicode) (token : Str) : Nat :=
  token.foldl (fun n c => 10 * n + (u.decimal c).getD 0) 0

/-- `int(token)` of decimal digits, of which it takes only so many. -/
def intOfDigits (u : Unicode) (token : Str) : Except LoadsError Nat :=
  if maxStrDigits < token.length then .error .value else .ok (decimalValue u token)

/-- One turn of the loop of `_json_pointer`. -/
def pointerStep (u : Unicode) (current : Json) (token : Str) : Except LoadsError (Option Json) :=
  match current with
  | .dict items => .ok ((items.find? (·.1 = token)).map (·.2))
  | .list xs =>
    if isIndex u token then do
      let index ← intOfDigits u token
      return xs[index]?
    else .ok none
  | _ => .ok none

def pointerWalk (u : Unicode) (current : Json) : List Str → Except LoadsError (Option Json)
  | [] => .ok (some current)
  | token :: tokens => do
    match ← pointerStep u current (pointerToken token) with
    | none => return none
    | some value => pointerWalk u value tokens

/-- `_json_pointer` -/
def jsonPointer (u : Unicode) (document : Option Json) (pointer : Str) :
    Except LoadsError (Option Json) :=
  match document with
  | none => .ok none
  | some document =>
    if pointer.head? = some slash then pointerWalk u document (pointerTokens pointer)
    else .ok none

/-! ## Assertions -/

/-- `_apply_operator` -/
def applyOperator (value : Found) (operator : AssertionOperator) (expected : ExpectedValue) : Bool :=
  match operator, value with
  | .exists', .missing => false
  | .exists', _ => true
  | _, .missing => false
  | .equals, .header values => values.any fun v => valueEquals (.str v) expected
  | .equals, .json value => valueEquals value expected
  | .contains, .header values => values.any fun v => valueEquals (.str v) expected
  | .contains, .json (.list xs) => xs.any fun v => valueEquals v expected
  | .contains, .json (.str s) =>
    match expected with
    | .str term => occursIn term s
    | _ => false
  | .contains, .json (.dict items) =>
    match expected with
    | .str key => items.any (·.1 = key)
    | _ => false
  | .contains, .json _ => false
  | .lessThanOrEqual, .json (.int n) =>
    match expected with
    | .int bound => n ≤ bound
    | _ => false
  | .lessThanOrEqual, _ => false

/-- `_evaluate_assertion` -/
def evaluateAssertion (u : Unicode) (response : TransportResponse)
    (headers : Dict Str (List Str)) (jsonBody : Option Json) (a : GeneratedAssertion) :
    Except LoadsError Bool :=
  match a.target with
  | .statusCode => .ok (valueEquals (.int response.statusCode) a.expectedValue)
  | .responseTimeMs =>
    match a.expectedValue with
    | .int expected => .ok (0 < expected && response.elapsedMs ≤ expected)
    | _ => .ok false
  | .responseHeader =>
    let value := match headers.get? (u.lower (a.selector.getD [])) with
      | some values => Found.header values
      | none => .missing
    .ok (applyOperator value a.operator a.expectedValue)
  | .jsonBody => do
    let value := match ← jsonPointer u jsonBody (a.selector.getD []) with
      | some value => Found.json value
      | none => .missing
    return applyOperator value a.operator a.expectedValue

/-- `_evaluate_assertions` -/
def evaluateAssertions (u : Unicode) (limit : Nat) (assertions : List GeneratedAssertion)
    (response : TransportResponse) : Except LoadsError (List AssertionResult) := do
  let jsonBody ← parseJsonObjectOrArray limit response.body
  let headers := responseHeaders u response.headers
  assertions.mapM fun a => do
    let passed ← evaluateAssertion u response headers jsonBody a
    return ⟨a.target, a.selector, a.operator, passed⟩

end QaCopilot.Execution
