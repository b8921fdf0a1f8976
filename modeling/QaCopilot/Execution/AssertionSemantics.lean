import QaCopilot.Execution.Assertions
import QaCopilot.Lib.Results

/-!
# What an assertion means

The verdict that JSON and HTTP give an assertion, apart from how Python compares values: pointers
resolve as in RFC 6901, booleans are no numbers, and a header is found by its name in any case.
The evaluation gives the same verdicts but for two kinds of JSON assertion. Python takes `True` for
`1` and `False` for `0`, and it takes the digits of every script for an array index.

* `assertions_agree_iff`: every verdict is right exactly when the body can be read and no assertion
  is of one of these kinds.
-/

namespace QaCopilot.Execution

open Python Results

/-! ## JSON pointers -/

/-- A reference token of RFC 6901: `~1` stands for a slash and `~0` for a tilde. -/
def unescaped : Str → Str
  | [] => []
  | [c] => [c]
  | c :: d :: s =>
    if c = tilde ∧ d = zero then tilde :: unescaped s
    else if c = tilde ∧ d = one then slash :: unescaped s
    else c :: unescaped (d :: s)

def referenceTokens (pointer : Str) : List Str := (pointerTokens pointer).map unescaped

/-- An array index of RFC 6901: ASCII digits without a leading zero. -/
def arrayIndex (token : Str) : Option Nat :=
  if token = [zero] then some 0
  else if token ≠ [] ∧ token.all isDigit ∧ token.head? ≠ some zero then some (ofDigits token)
  else none

/-- The value that a reference token selects, where `index` reads array indices. -/
def child (index : Str → Option Nat) (v : Json) (token : Str) : Option Json :=
  match v with
  | .dict items => (items.find? (·.1 = token)).map (·.2)
  | .list xs => index token >>= fun n => xs[n]?
  | _ => none

def resolve (index : Str → Option Nat) (v : Json) (tokens : List Str) : Option Json :=
  tokens.foldlM (child index) v

/-! ## Verdicts -/

/-- A JSON number, which a boolean is not. -/
def jsonNumber? : Json → Option IntOrFloat
  | .int n => some (.int n)
  | .float x => some (.float x)
  | _ => none

/-- Equality of JSON values, the second of them a scalar. -/
def jsonEqual (v : Json) (expected : ExpectedValue) : Bool :=
  match v, expected with
  | .null, .none => true
  | .bool a, .bool b => a = b
  | .str s, .str t => s = t
  | v, expected =>
    match jsonNumber? v, jsonNumber? expected.toJson with
    | some a, some b => a.eq b
    | _, _ => false

/-- A value passes an operator. -/
def holds (v : Json) (operator : AssertionOperator) (expected : ExpectedValue) : Bool :=
  match operator with
  | .equals => jsonEqual v expected
  | .exists' => true
  | .contains =>
    match v, expected with
    | .str s, .str term => occursIn term s
    | .list xs, expected => xs.any fun x => jsonEqual x expected
    | .dict items, .str key => items.any (·.1 = key)
    | _, _ => false
  | .lessThanOrEqual => false

/-- What JSON and HTTP say of an assertion about a response whose body is `v`. -/
def referenceVerdict (u : Unicode) (response : TransportResponse) (v : Json)
    (a : GeneratedAssertion) : Bool :=
  match a.target with
  | .statusCode => a.expectedValue = .int response.statusCode
  | .responseTimeMs =>
    match a.expectedValue with
    | .int bound => response.elapsedMs ≤ bound
    | _ => false
  | .responseHeader =>
    response.headers.any fun h => u.lower h.1 = u.lower (a.selector.getD [])
      && (a.operator = .exists' || a.expectedValue = .str h.2)
  | .jsonBody =>
    (resolve arrayIndex v (referenceTokens (a.selector.getD []))).any fun w =>
      holds w a.operator a.expectedValue

def referenceResult (u : Unicode) (response : TransportResponse) (v : Json)
    (a : GeneratedAssertion) : AssertionResult :=
  ⟨a.target, a.selector, a.operator, referenceVerdict u response v a⟩

/-- The body is read, and every assertion gets the verdict of its reference. -/
def Agrees (u : Unicode) (limit : Nat) (assertions : List GeneratedAssertion)
    (response : TransportResponse) (body : Str) : Prop :=
  ∃ v, loads limit body = .ok v ∧
    evaluateAssertions u limit assertions response =
      .ok (assertions.map (referenceResult u response v))

/-! ## Where Python differs -/

/-- A boolean and a number that Python takes for equal. -/
def BoolAsNumber (v : Json) (expected : ExpectedValue) : Prop :=
  match v, expected with
  | .bool b, .int n => n = b.toNat
  | .bool b, .float x => (IntOrFloat.bool b).eq (.float x) = true
  | .int n, .bool b => n = b.toNat
  | .float x, .bool b => (IntOrFloat.float x).eq (.bool b) = true
  | _, _ => False

/-- The array index that Python reads from a token. -/
def pythonIndex (u : Unicode) (token : Str) : Option Nat :=
  if isIndex u token then some (decimalValue u token) else none

/-- A JSON assertion whose verdict is wrong. -/
inductive Misread (u : Unicode) (v : Json) (a : GeneratedAssertion) : Prop where
  | boolAsNumber (isBody : a.target = .jsonBody) (isEquals : a.operator = .equals) (w : Json)
      (resolves : resolve arrayIndex v (referenceTokens (a.selector.getD [])) = some w)
      (taken : BoolAsNumber w a.expectedValue)
  | foreignIndex (isBody : a.target = .jsonBody) (w : Json)
      (unresolved : resolve arrayIndex v (referenceTokens (a.selector.getD [])) = none)
      (reached : resolve (pythonIndex u) v (referenceTokens (a.selector.getD [])) = some w)
      (passes : applyOperator (.json w) a.operator a.expectedValue = true)

/-- The digits of ASCII among the decimal digits of Unicode. -/
def AsciiDigits (u : Unicode) : Prop :=
  ∀ c : CodePoint, isDigit c = true → u.decimal c = some (c.val - 48)

/-! ## Equality -/

theorem scale_ne_zero : (scale : Int) ≠ 0 :=
  Int.natCast_ne_zero.mpr (Nat.two_pow_pos unitBits).ne'

theorem exact_bool (b : Bool) : (IntOrFloat.bool b).exact = some (0, (b.toNat : Int) * scale) := by
  cases b with
  | false => rw [Bool.toNat_false, Nat.cast_zero, zero_mul]; rfl
  | true => rw [Bool.toNat_true, Nat.cast_one, one_mul]; rfl

theorem exact_int (n : Int) : (IntOrFloat.int n).exact = some (0, n * scale) := rfl

theorem eq_bool_int (b : Bool) (n : Int) :
    (IntOrFloat.bool b).eq (.int n) = decide (n = b.toNat) := by
  simp only [IntOrFloat.eq, exact_bool, exact_int, Prod.mk.injEq, true_and,
    mul_left_inj' scale_ne_zero]
  rw [decide_eq_decide, eq_comm]

theorem eq_bool_bool (a b : Bool) : (IntOrFloat.bool a).eq (.bool b) = decide (a = b) := by
  simp only [IntOrFloat.eq, exact_bool, Prod.mk.injEq, true_and, mul_left_inj' scale_ne_zero]
  cases a <;> cases b <;> rfl

theorem eq_comm' (a b : IntOrFloat) : a.eq b = b.eq a := by
  unfold IntOrFloat.eq
  cases a.exact <;> cases b.exact <;> simp [eq_comm]

/-- Python compares as JSON does, but for a boolean and a number. -/
theorem valueEquals_iff (v : Json) (expected : ExpectedValue) :
    valueEquals v expected = true ↔ jsonEqual v expected = true ∨ BoolAsNumber v expected := by
  cases v <;> cases expected <;>
    simp [valueEquals, jsonEqual, BoolAsNumber, number?, jsonNumber?, ExpectedValue.toJson,
      eq_bool_bool, eq_bool_int, eq_comm' (.int _) (.bool _)]

theorem boolAsNumber_not_equal {v : Json} {expected : ExpectedValue}
    (taken : BoolAsNumber v expected) : jsonEqual v expected = false := by
  cases v <;> cases expected <;>
    simp_all [BoolAsNumber, jsonEqual, jsonNumber?, ExpectedValue.toJson]

/-- A text is only equal to the same text. -/
theorem valueEquals_str (v : Json) (s : Str) : valueEquals v (.str s) = jsonEqual v (.str s) := by
  rw [Bool.eq_iff_iff, valueEquals_iff, or_iff_left]
  cases v <;> exact id

/-! ## Tokens -/

theorem replacePair_cons_of_ne {a b r c : CodePoint} (other : c ≠ a) (s : Str) :
    replacePair a b r (c :: s) = c :: replacePair a b r s := by
  cases s with
  | nil => rfl
  | cons d s => rw [replacePair, if_neg fun h => other h.1]

theorem replacePair_head (s : Str) (d : CodePoint) :
    ∃ e t, replacePair tilde one slash (d :: s) = e :: t ∧ (e = d ∨ e = slash) := by
  cases s with
  | nil => exact ⟨d, [], rfl, .inl rfl⟩
  | cons e s =>
    rw [replacePair]
    split
    · exact ⟨slash, _, rfl, .inr rfl⟩
    · exact ⟨d, _, rfl, .inl rfl⟩

/-- The two replacements, one after the other, read a reference token. -/
theorem pointerToken_eq (escaped : Str) : pointerToken escaped = unescaped escaped := by
  unfold pointerToken
  fun_induction unescaped escaped with
  | case1 => rfl
  | case2 c => rfl
  | case3 c d s isZero ih =>
    obtain ⟨rfl, rfl⟩ := isZero
    have kept : zero ≠ tilde := by decide
    rw [replacePair, if_neg (by decide), replacePair_cons_of_ne kept, replacePair,
      if_pos ⟨rfl, rfl⟩, ih]
  | case4 c d s _ isOne ih =>
    rw [replacePair, if_pos isOne, replacePair_cons_of_ne (by decide), ih]
  | case5 c d s notZero notOne ih =>
    rw [replacePair, if_neg notOne, ← ih]
    obtain ⟨e, t, starts, isHead⟩ := replacePair_head s d
    rw [starts, replacePair, if_neg]
    rintro ⟨isTilde, isZero⟩
    rcases isHead with rfl | rfl
    · exact notZero ⟨isTilde, isZero⟩
    · exact absurd isZero (by decide)

theorem replacePair_length (a b r : CodePoint) (s : Str) :
    (replacePair a b r s).length ≤ s.length := by
  fun_induction replacePair a b r s with
  | case1 => exact Nat.le_refl _
  | case2 => exact Nat.le_refl _
  | case3 _ _ s _ ih =>
    simp only [List.length_cons]
    omega
  | case4 _ _ s _ ih =>
    simp only [List.length_cons] at ih ⊢
    omega

theorem length_le_of_mem_splitOn {a : CodePoint} {s token : Str} (h : token ∈ s.splitOn a) :
    token.length ≤ s.length := by
  induction s generalizing token with
  | nil => simp_all
  | cons c s ih =>
    rw [List.splitOn_cons_eq_if_modifyHead] at h
    split at h
    · rcases List.mem_cons.mp h with rfl | later
      · exact Nat.zero_le _
      · exact Nat.le_succ_of_le (ih later)
    · obtain ⟨first, rest, split⟩ := List.exists_cons_of_ne_nil (List.splitOn_ne_nil a s)
      rw [split, List.modifyHead_cons] at h
      rw [split] at ih
      rcases List.mem_cons.mp h with rfl | later
      · exact Nat.succ_le_succ (ih List.mem_cons_self)
      · exact Nat.le_succ_of_le (ih (List.mem_cons_of_mem _ later))

/-- The tokens of a selector are no longer than `int` takes. -/
theorem pointerToken_short {pointer token : Str} (h : token ∈ pointerTokens pointer) :
    (pointerToken token).length ≤ pointer.length := by
  have piece := length_le_of_mem_splitOn h
  have outer := replacePair_length tilde zero tilde (replacePair tilde one slash token)
  have inner := replacePair_length tilde one slash token
  have dropped : (pointer.drop 1).length ≤ pointer.length := by
    rw [List.length_drop]
    omega
  unfold pointerToken
  omega

/-! ## Resolution -/

/-- Python finds what its reading of indices resolves. -/
theorem pointerStep_eq {u : Unicode} {token : Str} (short : token.length ≤ maxStrDigits)
    (v : Json) : pointerStep u v token = .ok (child (pythonIndex u) v token) := by
  cases v with
  | list xs =>
    simp only [pointerStep, child, pythonIndex]
    by_cases isIndex : isIndex u token
    · simp only [isIndex, if_true, intOfDigits, if_neg (Nat.not_lt.mpr short)]
      rfl
    · simp [isIndex]
  | null | bool | int | float | str | dict => rfl

theorem pointerWalk_eq {u : Unicode} {tokens : List Str}
    (short : ∀ token ∈ tokens, (pointerToken token).length ≤ maxStrDigits) (v : Json) :
    pointerWalk u v tokens = .ok (resolve (pythonIndex u) v (tokens.map unescaped)) := by
  induction tokens generalizing v with
  | nil => rfl
  | cons token tokens ih =>
    have step := pointerStep_eq (u := u) (short token List.mem_cons_self) v
    rw [pointerWalk, step, pointerToken_eq, List.map_cons, resolve, List.foldlM_cons]
    cases child (pythonIndex u) v (unescaped token) with
    | none => rfl
    | some w => exact ih (fun t ht => short t (List.mem_cons_of_mem _ ht)) w

theorem decimalValue_eq {u : Unicode} (ascii : AsciiDigits u) {token : Str}
    (digits : token.all isDigit = true) : decimalValue u token = ofDigits token := by
  have from' : ∀ n : Nat, token.foldl (fun n c => 10 * n + (u.decimal c).getD 0) n =
      token.foldl (fun n c => 10 * n + (c.val - 48)) n := by
    induction token with
    | nil => exact fun n => rfl
    | cons c token ih =>
      intro n
      rw [List.all_cons, Bool.and_eq_true] at digits
      rw [List.foldl_cons, List.foldl_cons, ascii c digits.1]
      exact ih digits.2 _
  exact from' 0

/-- Python reads every index of RFC 6901. -/
theorem pythonIndex_of_arrayIndex {u : Unicode} (ascii : AsciiDigits u) {token : Str} {n : Nat}
    (index : arrayIndex token = some n) : pythonIndex u token = some n := by
  have numeral : token ≠ [] → token.all isDigit = true →
      (token = [zero] ∨ token.head? ≠ some zero) → pythonIndex u token = some (ofDigits token) := by
    intro some' digits leading
    have isIndex : isIndex u token = true := by
      simp only [Execution.isIndex, Bool.and_eq_true, Bool.or_eq_true, decide_eq_true_eq,
        List.all_eq_true]
      refine ⟨⟨some', fun c hc => ?_⟩, leading⟩
      rw [ascii c (List.all_eq_true.mp digits c hc)]
      rfl
    rw [pythonIndex, if_pos isIndex, decimalValue_eq ascii digits]
  unfold arrayIndex at index
  split at index
  · rename_i isZero
    obtain rfl := Option.some.inj index
    subst isZero
    exact numeral (by decide) (by decide) (.inl rfl)
  · split at index
    · rename_i shape
      obtain rfl := Option.some.inj index
      exact numeral shape.1 shape.2.1 (.inr shape.2.2)
    · cases index

theorem child_mono {i j : Str → Option Nat} (more : ∀ t n, i t = some n → j t = some n) {v : Json}
    {token : Str} {w : Json} (h : child i v token = some w) : child j v token = some w := by
  cases v with
  | list xs =>
    obtain ⟨n, index, item⟩ := Option.bind_eq_some_iff.mp h
    exact Option.bind_eq_some_iff.mpr ⟨n, more token n index, item⟩
  | null | bool | int | float | str | dict => exact h

/-- What a pointer selects by RFC 6901, Python finds. -/
theorem resolve_python {u : Unicode} (ascii : AsciiDigits u) {v w : Json} {tokens : List Str}
    (h : resolve arrayIndex v tokens = some w) : resolve (pythonIndex u) v tokens = some w :=
  foldlM_mono (fun _ _ _ => child_mono fun _ _ => pythonIndex_of_arrayIndex ascii) h

/-! ## Valid assertions -/

/-- What the validation makes sure of. -/
structure Valid (a : GeneratedAssertion) : Prop where
  contract : validateAssertionContract a = .ok ()
  short : (a.selector.getD []).length ≤ maxGeneratedTestTextLength

theorem optionalSelector_short {value : Object} {selector : Option Str}
    (read : optionalSelector value = .ok selector) :
    (selector.getD []).length ≤ maxGeneratedTestTextLength := by
  unfold optionalSelector at read
  split at read
  · obtain rfl := Except.ok.inj read
    exact Nat.zero_le _
  · cases found : text value "Assertion selector" with
    | error e =>
      rw [found] at read
      cases read
    | ok s =>
      rw [found] at read
      obtain rfl := Except.ok.inj read
      obtain ⟨_, -, -, -, short⟩ := text_ok.mp found
      exact short

theorem readAssertion_valid {item : Object} {a : GeneratedAssertion}
    (read : readAssertion item = .ok a) : Valid a := by
  obtain ⟨payload, fields, -, -, read⟩ := readAssertion_ok.mp read
  exact ⟨read.contract, optionalSelector_short read.selector⟩

theorem readAssertions_valid {value : Object} {assertions : List GeneratedAssertion}
    (read : readAssertions value = .ok assertions) : ∀ a ∈ assertions, Valid a := by
  obtain ⟨items, -, -, -, made, -⟩ := readAssertions_ok.mp read
  intro a ha
  obtain ⟨item, -, readItem⟩ := forall₂_mem (mapM_ok.mp made) ha
  exact readAssertion_valid readItem

/-! ## Headers -/

/-- The values of a header, in their order. -/
def headerValues (u : Unicode) (headers : List (Str × Str)) (name : Str) : List Str :=
  (headers.filter (u.lower ·.1 = name)).map (·.2)

theorem responseHeaders_get (u : Unicode) (headers : List (Str × Str)) (name : Str) :
    (responseHeaders u headers).get? name =
      if headerValues u headers name = [] then none else some (headerValues u headers name) := by
  induction headers using List.reverseRecOn with
  | nil => rfl
  | append_singleton headers h ih =>
    rw [responseHeaders, List.foldl_concat, ← responseHeaders]
    by_cases own : u.lower h.1 = name
    · have more : headerValues u (headers ++ [h]) name = headerValues u headers name ++ [h.2] := by
        simp [headerValues, List.filter_append, own]
      have some' : headerValues u headers name ++ [h.2] ≠ [] := by simp
      rw [own, Dict.get?_set_self, ih, more, if_neg some']
      by_cases none' : headerValues u headers name = []
      · rw [if_pos none', none']
        rfl
      · rw [if_neg none']
        rfl
    · have same : headerValues u (headers ++ [h]) name = headerValues u headers name := by
        simp [headerValues, List.filter_append, own]
      rw [Dict.get?_set_other _ _ (Ne.symm own), ih, same]

/-- Some occurrence of a header has the value. -/
theorem mem_headerValues {u : Unicode} {headers : List (Str × Str)} {name value : Str} :
    value ∈ headerValues u headers name ↔ ∃ h ∈ headers, u.lower h.1 = name ∧ h.2 = value := by
  simp only [headerValues, List.mem_map, List.mem_filter, decide_eq_true_eq]
  constructor
  · rintro ⟨h, ⟨hh, own⟩, is⟩
    exact ⟨h, hh, own, is⟩
  · rintro ⟨h, hh, own, is⟩
    exact ⟨h, ⟨hh, own⟩, is⟩

/-! ## Verdicts -/

section
variable {u : Unicode} {response : TransportResponse} {a : GeneratedAssertion}

/-- Python's operators on a JSON value against those of JSON. -/
theorem applyOperator_iff (w : Json) {operator : AssertionOperator} {expected : ExpectedValue}
    (comparable : operator ≠ .lessThanOrEqual)
    (term : operator = .contains → isStr expected = true) :
    applyOperator (.json w) operator expected = true ↔
      holds w operator expected = true ∨ operator = .equals ∧ BoolAsNumber w expected := by
  cases operator with
  | equals => simpa [applyOperator, holds] using valueEquals_iff w expected
  | exists' => simp [applyOperator, holds]
  | lessThanOrEqual => exact absurd rfl comparable
  | contains =>
    cases expected with
    | str s =>
      cases w with
      | list xs => simp [applyOperator, holds, valueEquals_str]
      | null | bool | int | float | str | dict => simp [applyOperator, holds]
    | none | bool | int | float => cases term rfl

/-- A JSON document that is searched: an object or an array. -/
def searched : Json → Option Json
  | .dict items => some (.dict items)
  | .list xs => some (.list xs)
  | _ => none

theorem parse_eq {limit : Nat} {body : Bytes} {s : Str} {v : Json}
    (decoded : decodeUtf8 body = some s) (read : loads limit s = .ok v) :
    parseJsonObjectOrArray limit body = .ok (searched v) := by
  simp only [parseJsonObjectOrArray, decoded, read]
  cases v <;> rfl

/-- A selector finds nothing in a scalar, as by RFC 6901. -/
theorem jsonPointer_eq {pointer : Str} (starts : pointer.head? = some slash)
    (short : pointer.length ≤ maxGeneratedTestTextLength) (v : Json) :
    jsonPointer u (searched v) pointer =
      .ok (resolve (pythonIndex u) v (referenceTokens pointer)) := by
  have fits : ∀ token ∈ pointerTokens pointer, (pointerToken token).length ≤ maxStrDigits := by
    intro token ht
    have bounded := (pointerToken_short ht).trans short
    simp only [maxGeneratedTestTextLength, maxStrDigits] at bounded ⊢
    omega
  obtain ⟨token, tokens, split⟩ :=
    List.exists_cons_of_ne_nil (List.splitOn_ne_nil slash (pointer.drop 1))
  have scalar : child (pythonIndex u) v (unescaped token) = none →
      resolve (pythonIndex u) v (referenceTokens pointer) = none := by
    intro nothing
    rw [referenceTokens, pointerTokens, split, List.map_cons, resolve, List.foldlM_cons, nothing]
    rfl
  cases v with
  | dict | list =>
    simp only [searched, jsonPointer, starts, if_true]
    exact pointerWalk_eq fits _
  | null | bool | int | float | str => exact congrArg Except.ok (scalar rfl).symm

theorem isJsonPointer_head {s : Str} (h : isJsonPointer s = true) : s.head? = some slash := by
  cases s with
  | nil => cases h
  | cons c s =>
    rw [isJsonPointer, Bool.and_eq_true, decide_eq_true_eq] at h
    rw [List.head?_cons, h.1]

theorem jsonBody_contract (valid : Valid a) (isBody : a.target = .jsonBody) :
    (a.selector.getD []).head? = some slash ∧ a.operator ≠ .lessThanOrEqual ∧
      (a.operator = .contains → isStr a.expectedValue = true) := by
  have contract := valid.contract
  simp only [validateAssertionContract, isBody] at contract
  obtain ⟨_, shape, contract⟩ := bind_ok.mp contract
  have shape := rejectWhen_ok.mp shape
  simp only [Bool.or_eq_false_iff, Bool.not_eq_false', Option.any_eq_true] at shape
  obtain ⟨⟨pointer, selected, isPointer⟩, operators⟩ := shape
  refine ⟨?_, ?_, ?_⟩
  · rw [selected]
    exact isJsonPointer_head isPointer
  · intro other
    simp [other] at operators
  · intro isContains
    rw [if_neg (by simp [isContains])] at contract
    simpa [isContains] using rejectWhen_ok.mp contract

theorem applyOperator_missing (operator : AssertionOperator) (expected : ExpectedValue) :
    applyOperator .missing operator expected = false := by
  cases operator <;> rfl

/-- The verdict of a JSON assertion is right unless it is misread. -/
theorem jsonBody_verdict (ascii : AsciiDigits u) (valid : Valid a) (isBody : a.target = .jsonBody)
    (headers : Dict Str (List Str)) (v : Json) :
    ∃ passed, evaluateAssertion u response headers (searched v) a = .ok passed ∧
      (passed = referenceVerdict u response v a ↔ ¬ Misread u v a) := by
  obtain ⟨starts, comparable, term⟩ := jsonBody_contract valid isBody
  simp only [evaluateAssertion, referenceVerdict, isBody, jsonPointer_eq starts valid.short]
  refine ⟨_, rfl, ?_⟩
  cases selects : resolve arrayIndex v (referenceTokens (a.selector.getD [])) with
  | some w =>
    simp only [resolve_python ascii selects, Option.any_some]
    rw [Bool.eq_iff_iff, applyOperator_iff w comparable term, or_iff_left_iff_imp]
    constructor
    · intro same misread
      cases misread with
      | boolAsNumber _ isEquals w' resolves taken =>
        obtain rfl := Option.some.inj (selects.symm.trans resolves)
        have held := same ⟨isEquals, taken⟩
        rw [isEquals, holds, boolAsNumber_not_equal taken] at held
        cases held
      | foreignIndex _ w' unresolved => cases selects.symm.trans unresolved
    · rintro none' ⟨isEquals, taken⟩
      exact absurd (.boolAsNumber isBody isEquals w selects taken) none'
  | none =>
    simp only [Option.any_none]
    cases reaches : resolve (pythonIndex u) v (referenceTokens (a.selector.getD [])) with
    | none =>
      simp only [applyOperator_missing, true_iff]
      intro misread
      cases misread with
      | boolAsNumber _ _ w resolves => cases selects.symm.trans resolves
      | foreignIndex _ w _ reached => cases reaches.symm.trans reached
    | some w =>
      rw [← Bool.not_eq_true]
      refine not_congr ⟨fun passes => .foreignIndex isBody w selects reaches passes, ?_⟩
      intro misread
      cases misread with
      | boolAsNumber _ _ w' resolves => cases selects.symm.trans resolves
      | foreignIndex _ w' _ reached passes =>
        obtain rfl := Option.some.inj (reaches.symm.trans reached)
        exact passes

theorem not_misread {v : Json} (other : a.target ≠ .jsonBody) : ¬ Misread u v a := by
  rintro (⟨isBody, -⟩ | ⟨isBody, -⟩)
  · exact other isBody
  · exact other isBody

/-- The verdict of a header assertion. -/
theorem responseHeader_verdict (valid : Valid a) (isHeader : a.target = .responseHeader)
    (body : Option Json) (v : Json) :
    evaluateAssertion u response (responseHeaders u response.headers) body a =
      .ok (referenceVerdict u response v a) := by
  have contract := valid.contract
  simp only [validateAssertionContract, isHeader] at contract
  obtain ⟨_, shape, contract⟩ := bind_ok.mp contract
  have shape := rejectWhen_ok.mp shape
  simp only [Bool.or_eq_false_iff] at shape
  simp only [evaluateAssertion, referenceVerdict, isHeader, responseHeaders_get]
  generalize u.lower (a.selector.getD []) = name
  refine congrArg Except.ok (Bool.eq_iff_iff.mpr ?_)
  simp only [List.any_eq_true, Bool.and_eq_true, Bool.or_eq_true, decide_eq_true_eq]
  by_cases absent : headerValues u response.headers name = []
  · rw [if_pos absent]
    simp only [applyOperator_missing, Bool.false_eq_true, false_iff]
    rintro ⟨h, hh, own, -⟩
    have listed : h.2 ∈ headerValues u response.headers name := mem_headerValues.mpr ⟨h, hh, own, rfl⟩
    rw [absent] at listed
    cases listed
  rw [if_neg absent]
  by_cases isExists : a.operator = .exists'
  · obtain ⟨value, listed⟩ := List.exists_mem_of_ne_nil _ absent
    obtain ⟨h, hh, own, -⟩ := mem_headerValues.mp listed
    simp only [isExists, applyOperator, true_or, and_true, true_iff]
    exact ⟨h, hh, own⟩
  · have isEquals : a.operator = .equals := by
      have operators := shape.2
      simpa [isExists] using operators
    rw [if_neg isExists] at contract
    have isText := rejectWhen_ok.mp contract
    obtain ⟨s, expected⟩ : ∃ s, a.expectedValue = .str s := by
      cases expected : a.expectedValue with
      | str s => exact ⟨s, rfl⟩
      | none | bool | int | float => simp [expected, isStr] at isText
    simp only [isEquals, applyOperator, expected, valueEquals, List.any_eq_true, decide_eq_true_eq,
      ExpectedValue.str.injEq, reduceCtorEq, false_or]
    constructor
    · rintro ⟨value, listed, rfl⟩
      obtain ⟨h, hh, own, same⟩ := mem_headerValues.mp listed
      exact ⟨h, hh, own, same.symm⟩
    · rintro ⟨h, hh, own, same⟩
      exact ⟨h.2, mem_headerValues.mpr ⟨h, hh, own, rfl⟩, same.symm⟩

theorem statusCode_verdict (valid : Valid a) (isStatus : a.target = .statusCode)
    (headers : Dict Str (List Str)) (body : Option Json) (v : Json) :
    evaluateAssertion u response headers body a = .ok (referenceVerdict u response v a) := by
  have contract := valid.contract
  simp only [validateAssertionContract, isStatus, rejectWhen_ok, Bool.or_eq_false_iff] at contract
  simp only [evaluateAssertion, referenceVerdict, isStatus]
  cases expected : a.expectedValue with
  | int n =>
    simp only [valueEquals, number?, ExpectedValue.toJson, IntOrFloat.eq, exact_int,
      Prod.mk.injEq, true_and, mul_left_inj' scale_ne_zero, ExpectedValue.int.injEq]
    rw [decide_eq_decide.mpr eq_comm]
  | none | bool | float | str => simp [expected, isStatusCode] at contract

theorem responseTime_verdict (valid : Valid a) (isTime : a.target = .responseTimeMs)
    (headers : Dict Str (List Str)) (body : Option Json) (v : Json) :
    evaluateAssertion u response headers body a = .ok (referenceVerdict u response v a) := by
  have contract := valid.contract
  simp only [validateAssertionContract, isTime, rejectWhen_ok, Bool.or_eq_false_iff] at contract
  simp only [evaluateAssertion, referenceVerdict, isTime]
  cases expected : a.expectedValue with
  | int n =>
    have positive : 0 < n := by simpa [expected, isPositiveInteger] using contract.2
    simp [positive]
  | none | bool | float | str => rfl

variable (response) in
/-- The verdict of a valid assertion is right unless it is misread. -/
theorem verdict_iff (ascii : AsciiDigits u) (valid : Valid a) (v : Json) :
    ∃ passed, evaluateAssertion u response (responseHeaders u response.headers) (searched v) a =
        .ok passed ∧ (passed = referenceVerdict u response v a ↔ ¬ Misread u v a) := by
  cases target : a.target with
  | jsonBody => exact jsonBody_verdict ascii valid target _ v
  | statusCode =>
    exact ⟨_, statusCode_verdict valid target _ _ v, iff_of_true rfl (not_misread (by simp [target]))⟩
  | responseTimeMs =>
    exact ⟨_, responseTime_verdict valid target _ _ v, iff_of_true rfl (not_misread (by simp [target]))⟩
  | responseHeader =>
    exact ⟨_, responseHeader_verdict valid target _ v, iff_of_true rfl (not_misread (by simp [target]))⟩

end

/-- The evaluation gives every assertion the verdict of its reference exactly when the body is read
as JSON and no assertion is misread. -/
theorem assertions_agree_iff (u : Unicode) (ascii : AsciiDigits u) (limit : Nat) (payload : Object)
    (assertions : List GeneratedAssertion) (validated : readAssertions payload = .ok assertions)
    (response : TransportResponse) (body : Str)
    (decoded : decodeUtf8 response.body = some body) :
    Agrees u limit assertions response body ↔
      ∃ v, loads limit body = .ok v ∧ ∀ a ∈ assertions, ¬ Misread u v a := by
  refine exists_congr fun v => and_congr_right fun read => ?_
  have valid := readAssertions_valid validated
  rw [evaluateAssertions, parse_eq decoded read, ok_bind, mapM_ok, List.forall₂_map_right_iff,
    List.forall₂_same]
  refine forall₂_congr fun a ha => ?_
  obtain ⟨passed, made, right⟩ := verdict_iff response ascii (valid a ha) v
  rw [← right, made]
  simp [referenceResult, bind, Except.bind, pure, Except.pure]

/-! ## A boolean where a number is expected -/

/-- Lower case and decimal digits of ASCII. -/
def sampleUnicode : Unicode where
  lower := fun s => s.map fun c =>
    if 0x41 ≤ c.val ∧ c.val ≤ 0x5A then Fin.ofNat _ (c.val + 0x20) else c
  decimal := fun c => if isDigit c then some (c.val - 48) else none

theorem sampleUnicode_ascii : AsciiDigits sampleUnicode := fun _ digit => if_pos digit

def samplePayloadItem (target selector operator : String) (expected : Object) : Object :=
  .dict [(.str (lit "target"), .str (lit target)), (.str (lit "selector"), .str (lit selector)),
    (.str (lit "operator"), .str (lit operator)), (.str (lit "expected_value"), expected)]

/-- `/0` equals 1, and a header exists. -/
def samplePayload : Object :=
  .list [samplePayloadItem "json_body" "/0" "equals" (.int 1),
    samplePayloadItem "response_header" "X-Trace" "exists" .none]

def sampleAssertions : List GeneratedAssertion :=
  [⟨.jsonBody, some (lit "/0"), .equals, .int 1⟩,
    ⟨.responseHeader, some (lit "X-Trace"), .exists', .none⟩]

theorem samplePayload_valid : readAssertions samplePayload = .ok sampleAssertions := by
  decide +kernel

def asciiBytes (s : String) : Bytes := (lit s).map fun c => .ofNat c.val

def sampleTransportResponse (body : String) : TransportResponse :=
  ⟨200, [(lit "x-trace", lit "1")], asciiBytes body, 12⟩

theorem assertions_agree_iff_sample :
    Agrees sampleUnicode 1000 sampleAssertions (sampleTransportResponse "[1]") (lit "[1]") ↔
      ∃ v, loads 1000 (lit "[1]") = .ok v ∧
        ∀ a ∈ sampleAssertions, ¬ Misread sampleUnicode v a :=
  assertions_agree_iff sampleUnicode sampleUnicode_ascii 1000 samplePayload sampleAssertions
    samplePayload_valid (sampleTransportResponse "[1]") (lit "[1]") (by decide +kernel)

/-- The item `true` passes for the number 1. -/
theorem true_passes_for_one :
    loads 1000 (lit "[true]") = .ok (.list [.bool true]) ∧
      decodeUtf8 (sampleTransportResponse "[true]").body = some (lit "[true]") ∧
      evaluateAssertions sampleUnicode 1000 sampleAssertions (sampleTransportResponse "[true]") =
        .ok [⟨.jsonBody, some (lit "/0"), .equals, true⟩,
          ⟨.responseHeader, some (lit "X-Trace"), .exists', true⟩] ∧
      sampleAssertions.map (referenceVerdict sampleUnicode (sampleTransportResponse "[true]")
        (.list [.bool true])) = [false, true] ∧
      ¬ Agrees sampleUnicode 1000 sampleAssertions (sampleTransportResponse "[true]")
        (lit "[true]") := by
  have read : loads 1000 (lit "[true]") = .ok (.list [.bool true]) := by rfl
  have verdicts : sampleAssertions.map (referenceVerdict sampleUnicode
      (sampleTransportResponse "[true]") (.list [.bool true])) = [false, true] := by
    decide +kernel
  have evaluated : evaluateAssertions sampleUnicode 1000 sampleAssertions
      (sampleTransportResponse "[true]") = .ok [⟨.jsonBody, some (lit "/0"), .equals, true⟩,
        ⟨.responseHeader, some (lit "X-Trace"), .exists', true⟩] := by
    decide +kernel
  refine ⟨read, by decide +kernel, evaluated, verdicts, ?_⟩
  rintro ⟨v, read', agreed⟩
  obtain rfl := Except.ok.inj (read.symm.trans read')
  rw [evaluated] at agreed
  have passed := congrArg (List.map AssertionResult.passed) (Except.ok.inj agreed)
  revert passed
  decide +kernel

end QaCopilot.Execution
