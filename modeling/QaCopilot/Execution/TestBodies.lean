import QaCopilot.Execution.GeneratedTests
import QaCopilot.Lib.Results

/-!
# The bodies of generated tests

* `body_kept_iff`: the accepted body holds what the payload holds exactly when no mapping of it has two
  keys that differ by blanks around them only.
-/

namespace QaCopilot.Execution

open Python Results

/-! ## What is kept -/

mutual

/-- The same scalars, and as many items and members in the same places, each member under its key as
it is normalised. -/
def Keeps : Object → Json → Prop
  | .none, .null => True
  | .bool a, .bool b => a = b
  | .int m, .int n => m = n
  | .float x, .float y => x = y
  | .str s, .str t => s = t
  | .list xs, .list ys => KeepsAll xs ys
  | .dict items, .dict members => KeepsMembers items members
  | _, _ => False

def KeepsAll : List Object → List Json → Prop
  | [], [] => True
  | x :: xs, y :: ys => Keeps x y ∧ KeepsAll xs ys
  | _, _ => False

def KeepsMembers : List (Object × Object) → List (Str × Json) → Prop
  | [], [] => True
  | (key, v) :: items, (k, w) :: members =>
    key.str?.map strip = some k ∧ Keeps v w ∧ KeepsMembers items members
  | _, _ => False

end

/-- What the body of a request keeps; no body is kept as none. -/
def BodyKept (value : Object) : Option (List (Str × Json)) → Prop
  | none => value = .none
  | some members => Keeps value (.dict members)

mutual

/-- No two keys of a mapping are equal once blanks are stripped, at every depth. -/
def Separate : Object → Prop
  | .list xs => SeparateAll xs
  | .dict items => (items.map fun i => i.1.str?.map strip).Nodup ∧ SeparateMembers items
  | _ => True

def SeparateAll : List Object → Prop
  | [] => True
  | x :: xs => Separate x ∧ SeparateAll xs

def SeparateMembers : List (Object × Object) → Prop
  | [] => True
  | (_, v) :: items => Separate v ∧ SeparateMembers items

end

theorem KeepsMembers.length {items : List (Object × Object)} {members : List (Str × Json)}
    (h : KeepsMembers items members) : items.length = members.length := by
  induction items generalizing members with
  | nil =>
    cases members with
    | nil => rfl
    | cons m members => cases h
  | cons i items ih =>
    cases members with
    | nil => cases h
    | cons m members => exact congrArg (· + 1) (ih h.2.2)

/-! ## Normalisation -/

theorem jsonKey_ok {key : Object} {k : Str} (h : jsonKey key = .ok k) : key.str?.map strip = some k := by
  cases key with
  | str s =>
    have read : text (.str s) "Request JSON key" = .ok k := h
    obtain ⟨_, ⟨⟩, stripped, -⟩ := text_ok.mp read
    exact congrArg some stripped
  | none | bool | int | float | list | dict | other => cases h

theorem jsonItems_keys {depth : Nat} {items : List (Object × Object)} {members : List (Str × Json)}
    (h : jsonItems depth items = .ok members) :
    items.map (fun i => i.1.str?.map strip) = (members.map (·.1)).map some := by
  induction items generalizing members with
  | nil =>
    obtain rfl := Except.ok.inj h
    rfl
  | cons i items ih =>
    obtain ⟨k, key, h⟩ := bind_ok.mp h
    obtain ⟨v, -, h⟩ := bind_ok.mp h
    obtain ⟨members', later, h⟩ := bind_ok.mp h
    obtain rfl := Except.ok.inj h
    rw [List.map_cons, ih later, jsonKey_ok key]
    rfl

theorem jsonItems_length {depth : Nat} {items : List (Object × Object)} {members : List (Str × Json)}
    (h : jsonItems depth items = .ok members) : members.length = items.length := by
  have same := congrArg List.length (jsonItems_keys h)
  simpa using same.symm

/-- A mapping is kept when its values are and no key is set twice. -/
theorem keeps_dict {depth : Nat} {items : List (Object × Object)} {members : List (Str × Json)}
    (read : jsonItems depth items = .ok members)
    (values : KeepsMembers items members ↔ SeparateMembers items) :
    Keeps (.dict items) (.dict (Dict.empty.update members).items) ↔ Separate (.dict items) := by
  have keys : (items.map fun i => i.1.str?.map strip).Nodup ↔ (members.map (·.1)).Nodup := by
    rw [jsonItems_keys read, List.nodup_map_iff (Option.some_injective _)]
  rw [Keeps, Separate, keys, ← values]
  constructor
  · intro kept
    have distinct : (members.map (·.1)).Nodup :=
      Dict.size_comprehension.mp (kept.length.symm.trans (jsonItems_length read).symm)
    rw [Dict.items_comprehension distinct] at kept
    exact ⟨distinct, kept⟩
  · rintro ⟨distinct, kept⟩
    rwa [Dict.items_comprehension distinct]

mutual

theorem keeps_iff (value : Object) {depth : Nat} {v : Json} (h : jsonValue depth value = .ok v) :
    Keeps value v ↔ Separate value := by
  match value with
  | .none =>
    obtain ⟨_, -, h⟩ := bind_ok.mp h
    obtain rfl := Except.ok.inj h
    exact Iff.rfl
  | .bool b =>
    obtain ⟨_, -, h⟩ := bind_ok.mp h
    obtain rfl := Except.ok.inj h
    exact iff_of_true rfl trivial
  | .int n =>
    obtain ⟨_, -, h⟩ := bind_ok.mp h
    obtain rfl := Except.ok.inj h
    exact iff_of_true rfl trivial
  | .str s =>
    obtain ⟨_, -, h⟩ := bind_ok.mp h
    obtain ⟨_, -, h⟩ := bind_ok.mp h
    obtain rfl := Except.ok.inj h
    exact iff_of_true rfl trivial
  | .float x =>
    obtain ⟨_, -, h⟩ := bind_ok.mp h
    obtain ⟨_, -, h⟩ := bind_ok.mp h
    obtain rfl := Except.ok.inj h
    exact iff_of_true rfl trivial
  | .list items =>
    obtain ⟨_, -, h⟩ := bind_ok.mp h
    obtain ⟨_, -, h⟩ := bind_ok.mp h
    obtain ⟨vs, read, h⟩ := bind_ok.mp h
    obtain rfl := Except.ok.inj h
    exact keepsAll_iff items read
  | .dict items =>
    obtain ⟨_, -, h⟩ := bind_ok.mp h
    obtain ⟨_, -, h⟩ := bind_ok.mp h
    obtain ⟨members, read, h⟩ := bind_ok.mp h
    obtain rfl := Except.ok.inj h
    exact keeps_dict read (keepsMembers_iff items read)
  | .other n =>
    obtain ⟨_, -, h⟩ := bind_ok.mp h
    cases h

theorem keepsAll_iff (items : List Object) {depth : Nat} {vs : List Json}
    (h : jsonValues depth items = .ok vs) : KeepsAll items vs ↔ SeparateAll items := by
  match items with
  | [] =>
    obtain rfl := Except.ok.inj h
    exact Iff.rfl
  | item :: items =>
    obtain ⟨v, first, h⟩ := bind_ok.mp h
    obtain ⟨vs', later, h⟩ := bind_ok.mp h
    obtain rfl := Except.ok.inj h
    rw [KeepsAll, SeparateAll, keeps_iff item first, keepsAll_iff items later]

theorem keepsMembers_iff (items : List (Object × Object)) {depth : Nat} {members : List (Str × Json)}
    (h : jsonItems depth items = .ok members) : KeepsMembers items members ↔ SeparateMembers items := by
  match items with
  | [] =>
    obtain rfl := Except.ok.inj h
    exact Iff.rfl
  | (key, item) :: items =>
    obtain ⟨k, named, h⟩ := bind_ok.mp h
    obtain ⟨v, first, h⟩ := bind_ok.mp h
    obtain ⟨members', later, h⟩ := bind_ok.mp h
    obtain rfl := Except.ok.inj h
    rw [KeepsMembers, SeparateMembers, keeps_iff item first, keepsMembers_iff items later,
      jsonKey_ok named]
    exact and_iff_right rfl

end

/-- The body is kept exactly when its keys are separate. -/
theorem jsonBody_kept {value : Object} {body : Option (List (Str × Json))}
    (h : jsonBody value = .ok body) : BodyKept value body ↔ Separate value := by
  cases value with
  | none =>
    obtain rfl := Except.ok.inj h
    exact iff_of_true rfl trivial
  | dict items =>
    obtain ⟨_, found, h⟩ := bind_ok.mp h
    obtain rfl := Except.ok.inj found
    obtain ⟨_, -, h⟩ := bind_ok.mp h
    obtain ⟨members, read, h⟩ := bind_ok.mp h
    obtain rfl := Except.ok.inj h
    exact keeps_dict read (keepsMembers_iff items read)
  | bool | int | float | str | list | other => cases h

/-! ## Test cases -/

/-- The fields of a mapping, none for what is no mapping with text keys. -/
def fieldsOf (value : Object) : Fields := value.fields?.getD []

/-- `payload["request"]["json_body"]` -/
def bodyOf (payload : List (Object × Object)) : Object :=
  (fieldsOf ((fieldsOf (.dict payload)).get "request")).get "json_body"

theorem requireExactFields_ok {payload : List (Object × Object)} {expected : List Str} {label : String}
    {fields : Fields} (h : requireExactFields payload expected label = .ok fields) :
    fieldsOf (.dict payload) = fields := by
  unfold requireExactFields at h
  split at h
  · rename_i fields' read
    split_ifs at h
    · rw [fieldsOf, read, Option.getD_some, Except.ok.inj h]
    · cases h
  · cases h

theorem requestTemplate_body {value : Object} {request : RequestTemplate}
    (h : requestTemplate value = .ok request) :
    jsonBody ((fieldsOf value).get "json_body") = .ok request.jsonBody := by
  obtain ⟨payload, fields, rfl, exact', read⟩ := requestTemplate_ok.mp h
  rw [requireExactFields_ok exact']
  exact read.body

theorem accepted_body {decimal : CodePoint → Option Nat} {payload : List (Object × Object)}
    {test : GeneratedTestCase} (accepted : validateGeneratedTestCase decimal payload = .ok test) :
    jsonBody (bodyOf payload) = .ok test.request.jsonBody := by
  obtain ⟨fields, exact', read⟩ := validateGeneratedTestCase_ok.mp accepted
  rw [bodyOf, requireExactFields_ok exact']
  exact requestTemplate_body read.request

/-- The accepted test keeps the body of the payload exactly when its keys are separate. -/
theorem body_kept_iff {decimal : CodePoint → Option Nat} {payload : List (Object × Object)}
    {test : GeneratedTestCase} (accepted : validateGeneratedTestCase decimal payload = .ok test) :
    BodyKept (bodyOf payload) test.request.jsonBody ↔ Separate (bodyOf payload) :=
  jsonBody_kept (accepted_body accepted)

/-! ## Samples -/

/-- A test that posts this body. -/
def postingPayload (body : Object) : List (Object × Object) :=
  let entry (key : String) (v : Object) : Object × Object := (.str (lit key), v)
  let request := [entry "method" (.str (lit "POST")), entry "path" (.str (lit "/orders")),
    entry "query" (.list []), entry "headers" (.list []), entry "json_body" body]
  let assertion := [entry "target" (.str (lit "status_code")), entry "selector" .none,
    entry "operator" (.str (lit "equals")), entry "expected_value" (.int 201)]
  [entry "schema_version" (.str (lit "generated-test-case/v1")),
    entry "id" (.str (lit "00000000-0000-0000-0000-000000000601")),
    entry "title" (.str (lit "An order is created")),
    entry "kind" (.str (lit "positive")),
    entry "source_finding_id" (.str (lit "00000000-0000-0000-0000-000000000603")),
    entry "citation_ids" (.list [.str (lit "00000000-0000-0000-0000-000000000604")]),
    entry "request" (.dict request),
    entry "assertions" (.list [.dict assertion])]

def orderBody (first second : String) : Object :=
  .dict [(.str (lit first), .int 1), (.str (lit second), .int 2)]

def asciiDecimal (c : CodePoint) : Option Nat := if isDigit c then some (c.val - 48) else none

theorem body_kept_iff_sample : ∃ test,
    validateGeneratedTestCase asciiDecimal (postingPayload (orderBody "quantity" "priority")) = .ok test ∧
      BodyKept (orderBody "quantity" "priority") test.request.jsonBody := by
  have isOk : (validateGeneratedTestCase asciiDecimal
      (postingPayload (orderBody "quantity" "priority"))).toBool = true := by decide +kernel
  cases accepted : validateGeneratedTestCase asciiDecimal
      (postingPayload (orderBody "quantity" "priority")) with
  | error e =>
    rw [accepted] at isOk
    cases isOk
  | ok test =>
    have separate : Separate (orderBody "quantity" "priority") :=
      ⟨by decide +kernel, trivial, trivial, trivial⟩
    exact ⟨test, rfl, (body_kept_iff accepted).mpr separate⟩

/-- Two members of the body become one. -/
theorem members_merged : ∃ test,
    validateGeneratedTestCase asciiDecimal (postingPayload (orderBody "quantity" " quantity")) = .ok test ∧
      ¬ BodyKept (orderBody "quantity" " quantity") test.request.jsonBody := by
  have single : (match validateGeneratedTestCase asciiDecimal
      (postingPayload (orderBody "quantity" " quantity")) with
      | .ok test => decide (test.request.jsonBody.map List.length = some 1)
      | .error _ => false) = true := by decide +kernel
  cases accepted : validateGeneratedTestCase asciiDecimal
      (postingPayload (orderBody "quantity" " quantity")) with
  | error e =>
    rw [accepted] at single
    cases single
  | ok test =>
    rw [accepted] at single
    refine ⟨test, rfl, fun kept => ?_⟩
    obtain ⟨members, body, one⟩ := Option.map_eq_some_iff.mp (of_decide_eq_true single)
    rw [body] at kept
    have two := KeepsMembers.length kept
    rw [one] at two
    cases two

end QaCopilot.Execution
