import QaCopilot.Execution.Assertions
import QaCopilot.Lib.Results

/-!
# Responses

A response as the transport reads it and as `execute` reports it. The transport reads one byte more
than a response may have, so that the executor can tell a response that is too long from one that
fits.

* `readBody_eq`: the bytes that are read do not depend on how the stream is cut into chunks;
* `reportSend_tooLarge`: a response is reported as too large exactly when its body is.
-/

namespace QaCopilot.Execution

open Python

/-! ## The transport -/

inductive SendError where
  | timeout
  | error
deriving DecidableEq

/-- A response of `httpx`: `response.iter_raw()` gives the chunks and then ends or raises. -/
structure HttpResponse where
  statusCode : Int
  headers : List (Str × Str)
  chunks : List Bytes
  broken : Option SendError

/-- The loop of `_read_bounded_raw_body`. -/
def readChunks (limit : Nat) (broken : Option SendError) (body : Bytes) :
    List Bytes → Except SendError Bytes
  | [] =>
    match broken with
    | some e => .error e
    | none => .ok body
  | chunk :: chunks =>
    let remaining := limit - body.length
    if remaining = 0 then .ok body
    else
      let body := body ++ chunk.take remaining
      if body.length = limit then .ok body else readChunks limit broken body chunks

/-- `_read_bounded_raw_body` -/
def readBoundedRawBody (response : HttpResponse) (maxResponseBytes : Nat) : Except SendError Bytes :=
  readChunks (maxResponseBytes + 1) response.broken [] response.chunks

/-- `response.headers.get("content-encoding", "identity")` -/
def contentEncoding (u : Unicode) (headers : List (Str × Str)) : Str :=
  match headers.filter fun h => u.lower h.1 = lit "content-encoding" with
  | [] => lit "identity"
  | found => (lit ", ").intercalate (found.map (·.2))

/-- `_require_identity_content_encoding` -/
def requireIdentityContentEncoding (u : Unicode) (response : HttpResponse) : Except SendError Unit :=
  let encoding := u.lower (strip (contentEncoding u response.headers))
  if encoding = [] ∨ encoding = lit "identity" then .ok () else .error .error

/-- `send` once the request is made: what `httpx` answers, and the time that it took. -/
def send (u : Unicode) (maxResponseBytes : Nat) (answer : Except SendError HttpResponse)
    (elapsedMs : Nat) : Except SendError TransportResponse := do
  let response ← answer
  requireIdentityContentEncoding u response
  let body ← readBoundedRawBody response maxResponseBytes
  return ⟨response.statusCode, response.headers, body, elapsedMs⟩

/-! ## Evidence -/

def redactedValue : Str := lit "[REDACTED]"

def sensitiveNames : List Str :=
  [lit "authorization", lit "cookie", lit "password", lit "secret", lit "set-cookie", lit "token"]

/-- `_is_sensitive_name` -/
def isSensitiveName (u : Unicode) (name : Str) : Bool :=
  let normalized := (u.lower name).map fun c =>
    if c = CodePoint.ofChar '_' then CodePoint.ofChar '-' else c
  sensitiveNames.any (occursIn · normalized)

/-- `_redact_headers` -/
def redactHeaders (u : Unicode) (headers : List (Str × Str)) : List (Str × Str) :=
  headers.map fun h => (h.1, if isSensitiveName u h.1 then redactedValue else h.2)

mutual

/-- `_redact_json` of a value. -/
def redactJson (u : Unicode) : Json → Json
  | .list xs => .list (redactList u xs)
  | .dict items => .dict (redactItems u items)
  | v => v

def redactList (u : Unicode) : List Json → List Json
  | [] => []
  | v :: vs => redactJson u v :: redactList u vs

def redactItems (u : Unicode) : List (Str × Json) → List (Str × Json)
  | [] => []
  | (k, v) :: items =>
    (k, if isSensitiveName u k then .str redactedValue else redactJson u v) :: redactItems u items

end

structure RedactedResponseEvidence where
  statusCode : Int
  headers : List (Str × Str)
  jsonBody : Option Json
  bodyBytes : Nat
  bodySha256 : Str
  elapsedMs : Int

/-- What the executor is given: the tables of Unicode, SHA-256 and the recursion limit of JSON. -/
structure Platform where
  unicode : Unicode
  sha256 : Bytes → BitVec 256
  recursionLimit : Nat

/-- `_response_evidence` -/
def responseEvidence (p : Platform) (response : TransportResponse) (includeJson : Bool) :
    Except LoadsError RedactedResponseEvidence := do
  let jsonBody ←
    if includeJson then parseJsonObjectOrArray p.recursionLimit response.body else .ok none
  return {
    statusCode := response.statusCode
    headers := redactHeaders p.unicode response.headers
    jsonBody := jsonBody.map (redactJson p.unicode)
    bodyBytes := response.body.length
    bodySha256 := hexdigest (p.sha256 response.body)
    elapsedMs := response.elapsedMs }

/-! ## The executor -/

inductive ExecutionFailureCode where
  | cancelled
  | transportTimeout
  | transportError
  | responseTooLarge
  | redirectResponse
  | assertionsFailed
deriving DecidableEq

inductive ExecutionOutcome where
  | succeeded
  | failed
  | cancelled
deriving DecidableEq

/-- An `ExecutionResult` after the request was sent. -/
structure ExecutionResult where
  outcome : ExecutionOutcome
  assertionResults : List AssertionResult
  responseEvidence : Option RedactedResponseEvidence
  errorCode : Option ExecutionFailureCode

/-- `_valid_transport_response`; the types hold what it asks of them. -/
def validTransportResponse (response : TransportResponse) : Bool :=
  100 ≤ response.statusCode && response.statusCode ≤ 599 && 0 ≤ response.elapsedMs

/-- `_failed` once the request was sent. -/
def failedWith (code : ExecutionFailureCode) (evidence : Option RedactedResponseEvidence)
    (results : List AssertionResult) : ExecutionResult :=
  ⟨.failed, results, evidence, some code⟩

/-- What follows the assertions; the probe is asked once more. -/
def reportAssertions (evidence : RedactedResponseEvidence) (results : List AssertionResult)
    (cancelRequested : Bool) : ExecutionResult :=
  if cancelRequested then ⟨.cancelled, results, some evidence, some .cancelled⟩
  else if !results.all (·.passed) then failedWith .assertionsFailed (some evidence) results
  else ⟨.succeeded, results, some evidence, none⟩

/-- `execute` from the call of `send` on. -/
def reportSend (p : Platform) (maxResponseBytes : Nat) (assertions : List GeneratedAssertion)
    (sent : Except SendError TransportResponse) (cancelRequested : Bool) :
    Except LoadsError ExecutionResult :=
  match sent with
  | .error .timeout => .ok (failedWith .transportTimeout none [])
  | .error .error => .ok (failedWith .transportError none [])
  | .ok response =>
    if !validTransportResponse response then .ok (failedWith .transportError none [])
    else if maxResponseBytes < response.body.length then do
      let evidence ← responseEvidence p response false
      return failedWith .responseTooLarge (some evidence) []
    else do
      let evidence ← responseEvidence p response true
      if 300 ≤ response.statusCode ∧ response.statusCode < 400 then
        return failedWith .redirectResponse (some evidence) []
      let results ← evaluateAssertions p.unicode p.recursionLimit assertions response
      return reportAssertions evidence results cancelRequested

/-! ## Bodies -/

/-- From a body that is not full the loop reads on to the limit. -/
theorem readChunks_eq {limit : Nat} {broken : Option SendError} {body : Bytes} {chunks : List Bytes}
    (short : body.length < limit) :
    readChunks limit broken body chunks =
      if limit ≤ (body ++ chunks.flatten).length then .ok ((body ++ chunks.flatten).take limit)
      else match broken with
        | some e => .error e
        | none => .ok (body ++ chunks.flatten) := by
  induction chunks generalizing body with
  | nil =>
    rw [List.flatten_nil, List.append_nil, if_neg (Nat.not_le.mpr short)]
    rfl
  | cons chunk chunks ih =>
    have room : ¬ limit - body.length = 0 := by omega
    simp only [readChunks, room, if_false, List.flatten_cons]
    by_cases fills : limit - body.length ≤ chunk.length
    · have full : (body ++ chunk.take (limit - body.length)).length = limit := by
        rw [List.length_append, List.length_take]
        omega
      have long : limit ≤ (body ++ (chunk ++ chunks.flatten)).length := by
        simp only [List.length_append]
        omega
      rw [if_pos full, if_pos long, List.take_append, List.take_of_length_le short.le,
        List.take_append_of_le_length fills]
    · have whole : chunk.take (limit - body.length) = chunk := List.take_of_length_le (by omega)
      have short' : (body ++ chunk).length < limit := by
        rw [List.length_append]
        omega
      rw [whole, if_neg (Nat.ne_of_lt short'), ih short', List.append_assoc]

/-- The bytes of a stream that ends are those up to one more than the limit. -/
theorem readBoundedRawBody_eq {response : HttpResponse} (ends : response.broken = none)
    (maxResponseBytes : Nat) :
    readBoundedRawBody response maxResponseBytes =
      .ok (response.chunks.flatten.take (maxResponseBytes + 1)) := by
  rw [readBoundedRawBody, readChunks_eq (Nat.succ_pos maxResponseBytes), List.nil_append, ends]
  split
  · rfl
  · rename_i short
    rw [List.take_of_length_le (by omega)]

theorem send_ok {u : Unicode} {maxResponseBytes elapsedMs : Nat} {response : HttpResponse}
    (identity : requireIdentityContentEncoding u response = .ok ())
    (ends : response.broken = none) :
    send u maxResponseBytes (.ok response) elapsedMs =
      .ok ⟨response.statusCode, response.headers,
        response.chunks.flatten.take (maxResponseBytes + 1), elapsedMs⟩ := by
  simp only [send, identity, readBoundedRawBody_eq ends, bind, Except.bind, pure, Except.pure]

/-- The report of a response says that it is too large. -/
def SaysTooLarge (report : Except LoadsError ExecutionResult) : Prop :=
  ∃ result, report = .ok result ∧ result.errorCode = some .responseTooLarge

theorem reportAssertions_code (evidence : RedactedResponseEvidence) (results : List AssertionResult)
    (cancelRequested : Bool) :
    (reportAssertions evidence results cancelRequested).errorCode ≠ some .responseTooLarge := by
  unfold reportAssertions
  split_ifs <;> simp [failedWith]

/-- A response is reported as too large when it passes the checks before and its body is longer. -/
theorem reportSend_tooLarge {p : Platform} {maxResponseBytes : Nat}
    {assertions : List GeneratedAssertion} {response : TransportResponse} {cancelRequested : Bool} :
    SaysTooLarge (reportSend p maxResponseBytes assertions (.ok response) cancelRequested) ↔
      validTransportResponse response = true ∧ maxResponseBytes < response.body.length := by
  unfold reportSend
  by_cases valid : validTransportResponse response = true
  · by_cases long : maxResponseBytes < response.body.length
    · simp only [valid, long]
      exact iff_of_true ⟨_, rfl, rfl⟩ ⟨trivial, trivial⟩
    · refine iff_of_false ?_ fun both => long both.2
      rintro ⟨result, made, code⟩
      simp only [valid, long, Bool.not_true, Bool.false_eq_true, if_false] at made
      obtain ⟨evidence, -, made⟩ := Results.bind_ok.mp made
      split at made
      · obtain rfl := Except.ok.inj made
        simp [failedWith] at code
      · obtain ⟨results, -, made⟩ := Results.bind_ok.mp made
        obtain rfl := Except.ok.inj made
        exact reportAssertions_code evidence results cancelRequested code
  · refine iff_of_false ?_ fun both => valid both.1
    rintro ⟨result, made, code⟩
    simp only [valid] at made
    obtain rfl := Except.ok.inj made
    simp [failedWith] at code

/-- A response that is not read is not reported as too large. -/
theorem reportSend_error {p : Platform} {maxResponseBytes : Nat}
    {assertions : List GeneratedAssertion} {e : SendError} {cancelRequested : Bool} :
    ¬ SaysTooLarge (reportSend p maxResponseBytes assertions (.error e) cancelRequested) := by
  rintro ⟨result, made, code⟩
  cases e <;>
    obtain rfl := Except.ok.inj made <;>
    simp [failedWith] at code

/-- The response is not compressed, and its status is one of HTTP. -/
def HttpResponse.Accepted (u : Unicode) (response : HttpResponse) : Prop :=
  requireIdentityContentEncoding u response = .ok () ∧
    100 ≤ response.statusCode ∧ response.statusCode ≤ 599

/-- Whatever the chunks of a body are, its first bytes are read, and the executor says that it is too
large exactly when the response is accepted otherwise and the whole body is longer than the limit. -/
theorem body_read (p : Platform) (maxResponseBytes elapsedMs : Nat) (statusCode : Int)
    (headers : List (Str × Str)) (chunks : List Bytes) (assertions : List GeneratedAssertion)
    (cancelRequested : Bool) :
    let response : HttpResponse := ⟨statusCode, headers, chunks, none⟩
    let whole : HttpResponse := ⟨statusCode, headers, [chunks.flatten], none⟩
    let report := fun r => reportSend p maxResponseBytes assertions
      (send p.unicode maxResponseBytes (.ok r) elapsedMs) cancelRequested
    readBoundedRawBody response maxResponseBytes =
        .ok (chunks.flatten.take (maxResponseBytes + 1)) ∧
      (SaysTooLarge (report response) ↔
        response.Accepted p.unicode ∧ maxResponseBytes < chunks.flatten.length) ∧
      report response = report whole := by
  intro response whole report
  have read : readBoundedRawBody response maxResponseBytes =
      .ok (chunks.flatten.take (maxResponseBytes + 1)) := readBoundedRawBody_eq rfl _
  have read' : readBoundedRawBody whole maxResponseBytes =
      .ok (chunks.flatten.take (maxResponseBytes + 1)) := by
    rw [readBoundedRawBody_eq rfl, List.flatten_singleton]
  refine ⟨read, ?_, ?_⟩
  · cases identity : requireIdentityContentEncoding p.unicode response with
    | error e =>
      have refused : send p.unicode maxResponseBytes (.ok response) elapsedMs = .error e := by
        simp only [send, bind, Except.bind, identity]
      simp only [report, refused, HttpResponse.Accepted, identity, reportSend_error, reduceCtorEq,
        false_and]
    | ok =>
      have cut : maxResponseBytes < (chunks.flatten.take (maxResponseBytes + 1)).length ↔
          maxResponseBytes < chunks.flatten.length := by
        rw [List.length_take]
        omega
      have elapsed : (0 : Int) ≤ elapsedMs := Int.natCast_nonneg elapsedMs
      simp only [report, send_ok identity rfl, reportSend_tooLarge, HttpResponse.Accepted, identity,
        validTransportResponse, response, cut, elapsed, Bool.and_eq_true, decide_eq_true_eq, and_true,
        true_and]
  · have same : send p.unicode maxResponseBytes (.ok response) elapsedMs =
        send p.unicode maxResponseBytes (.ok whole) elapsedMs := by
      simp only [send, read, read', bind, Except.bind]
      rfl
    simp only [report, same]

end QaCopilot.Execution
