import QaCopilot.Execution.AssertionSemantics

/-!
# JSON pointers

`_json_pointer` against RFC 6901. A path is rendered as a pointer with its keys escaped, and the
pointer finds the node that the path reaches. Every other pointer finds nothing, unless it has digits
of another script where it meets an array: Python takes them for an index.

* `reach_found`: the pointer of a path finds what the path reaches;
* `resolves_iff`: a pointer is resolved as in RFC 6901 exactly when it does not stray.
-/

namespace QaCopilot.Execution

open Python Results

/-! ## Paths -/

/-- A step to a node: the key of an object or the index of an array. -/
inductive PathStep where
  | key (k : Str)
  | index (n : Nat)
deriving DecidableEq

/-- The key or index as text. -/
def PathStep.text : PathStep → Str
  | .key k => k
  | .index n => digits n

def PathStep.follow (v : Json) : PathStep → Option Json
  | .key k =>
    match v with
    | .dict items => (items.find? (·.1 = k)).map (·.2)
    | _ => none
  | .index n =>
    match v with
    | .list xs => xs[n]?
    | _ => none

/-- The node that a path reaches. -/
def reach (v : Json) (path : List PathStep) : Option Json := path.foldlM PathStep.follow v

/-- `~0` for a tilde and `~1` for a slash. -/
def escape : Str → Str
  | [] => []
  | c :: s =>
    if c = tilde then tilde :: zero :: escape s
    else if c = slash then tilde :: one :: escape s
    else c :: escape s

/-- The pointer of a path. -/
def render (path : List PathStep) : Str := path.flatMap fun step => slash :: escape step.text

theorem unescaped_escape (s : Str) : unescaped (escape s) = s := by
  induction s with
  | nil => rfl
  | cons c s ih =>
    unfold escape
    by_cases isTilde : c = tilde
    · rw [if_pos isTilde, unescaped, if_pos ⟨rfl, rfl⟩, ih, isTilde]
    by_cases isSlash : c = slash
    · rw [if_neg isTilde, if_pos isSlash, unescaped, if_neg (by decide), if_pos ⟨rfl, rfl⟩, ih, isSlash]
    · rw [if_neg isTilde, if_neg isSlash]
      cases rest : escape s with
      | nil =>
        rw [rest] at ih
        rw [unescaped, ← ih]
        rfl
      | cons d s' =>
        rw [rest] at ih
        rw [unescaped, if_neg fun both => isTilde both.1, if_neg fun both => isTilde both.1, ih]

theorem slash_not_mem_escape (s : Str) : slash ∉ escape s := by
  induction s with
  | nil => exact List.not_mem_nil
  | cons c s ih =>
    unfold escape
    by_cases isTilde : c = tilde
    · rw [if_pos isTilde]
      simpa [ih] using (by decide : slash ≠ tilde ∧ slash ≠ zero)
    by_cases isSlash : c = slash
    · rw [if_neg isTilde, if_pos isSlash]
      simpa [ih] using (by decide : slash ≠ tilde ∧ slash ≠ one)
    · rw [if_neg isTilde, if_neg isSlash, List.mem_cons, not_or]
      exact ⟨Ne.symm isSlash, ih⟩

theorem render_eq {path : List PathStep} (some' : path ≠ []) :
    render path = slash :: [slash].intercalate (path.map fun step => escape step.text) := by
  induction path with
  | nil => exact absurd rfl some'
  | cons step path ih =>
    rw [render, List.flatMap_cons, ← render, List.map_cons]
    cases path with
    | nil => simp [render]
    | cons next path =>
      rw [ih (List.cons_ne_nil _ _), List.map_cons, List.intercalate_cons_cons]
      simp

/-- The reference tokens of the pointer of a path are its keys and indices. -/
theorem referenceTokens_render {path : List PathStep} (some' : path ≠ []) :
    referenceTokens (render path) = path.map PathStep.text := by
  have clean : ∀ token ∈ path.map fun step => escape step.text, slash ∉ token := by
    intro token ht
    obtain ⟨step, -, rfl⟩ := List.mem_map.mp ht
    exact slash_not_mem_escape _
  have tokens : path.map (fun step => escape step.text) ≠ [] := by simpa using some'
  rw [referenceTokens, pointerTokens, render_eq some', List.drop_one, List.tail_cons,
    List.splitOn_intercalate _ clean tokens, List.map_map]
  exact List.map_congr_left fun step _ => unescaped_escape step.text

theorem arrayIndex_digits (n : Nat) : arrayIndex (digits n) = some n := by
  unfold arrayIndex
  by_cases isZero : digits n = [zero]
  · have value := ofDigits_digits n
    rw [isZero] at value
    rw [if_pos isZero, ← value]
    rfl
  · have leading : (digits n).head? ≠ some zero := by
      intro starts
      obtain ⟨s, split⟩ := List.head?_eq_some_iff.mp starts
      obtain ⟨-, rfl⟩ := digits_head split rfl
      exact isZero split
    have all : (digits n).all isDigit = true := List.all_eq_true.mpr fun c hc => digits_isDigit hc
    rw [if_neg isZero, if_pos ⟨digits_ne_nil n, all, leading⟩, ofDigits_digits]

theorem child_follow {v w : Json} {step : PathStep} (h : step.follow v = some w) :
    child arrayIndex v step.text = some w := by
  cases step with
  | key k =>
    cases v with
    | dict items => exact h
    | null | bool | int | float | str | list => cases h
  | index n =>
    cases v with
    | list xs => exact Option.bind_eq_some_iff.mpr ⟨n, arrayIndex_digits n, h⟩
    | null | bool | int | float | str | dict => cases h

theorem resolve_reach {v w : Json} {path : List PathStep} (h : reach v path = some w) :
    resolve arrayIndex v (path.map PathStep.text) = some w := by
  induction path generalizing v with
  | nil => exact h
  | cons step path ih =>
    rw [reach, List.foldlM_cons] at h
    obtain ⟨v', follows, rest⟩ := Option.bind_eq_some_iff.mp h
    rw [List.map_cons, resolve, List.foldlM_cons]
    exact Option.bind_eq_some_iff.mpr ⟨v', child_follow follows, ih rest⟩

/-! ## Digits of other scripts -/

section
variable {u : Unicode} {v w : Json}

/-- The pointer meets an array with decimal digits that are no index by RFC 6901, and finds a node
from the item that Python takes them for. -/
structure StraysAt (u : Unicode) (v : Json) (before : List Str) (token : Str) (after : List Str) :
    Prop where
  foreign : isIndex u token = true ∧ arrayIndex token = none
  found : ∃ xs item, resolve arrayIndex v before = some (.list xs) ∧
    xs[decimalValue u token]? = some item ∧ (resolve (pythonIndex u) item after).isSome = true

/-- The tokens stray at one of them. -/
def Strays (u : Unicode) (v : Json) (tokens : List Str) : Prop :=
  ∃ before token after, tokens = before ++ token :: after ∧ StraysAt u v before token after

theorem resolve_append {index : Str → Option Nat} (v : Json) (before after : List Str) :
    resolve index v (before ++ after) = resolve index v before >>= fun w => resolve index w after := by
  rw [resolve, List.foldlM_append]
  rfl

theorem Strays.cons {token : Str} {tokens : List Str} (step : child arrayIndex v token = some w)
    (strays : Strays u w tokens) : Strays u v (token :: tokens) := by
  obtain ⟨before, stray, after, rfl, foreign, xs, item, reached, found⟩ := strays
  refine ⟨token :: before, stray, after, rfl, foreign, xs, item, ?_, found⟩
  rw [resolve, List.foldlM_cons, step]
  exact reached

/-- What Python finds beyond RFC 6901 it finds by a stray token. -/
theorem strays_of_found (ascii : AsciiDigits u) {tokens : List Str}
    (nothing : resolve arrayIndex v tokens = none)
    (found : resolve (pythonIndex u) v tokens = some w) : Strays u v tokens := by
  induction tokens generalizing v with
  | nil => cases nothing
  | cons token tokens ih =>
    rw [resolve, List.foldlM_cons] at nothing found
    obtain ⟨v', step, rest⟩ := Option.bind_eq_some_iff.mp found
    cases step' : child arrayIndex v token with
    | some v'' =>
      have same := child_mono (fun t n => pythonIndex_of_arrayIndex ascii) step'
      obtain rfl := Option.some.inj (same.symm.trans step)
      rw [step'] at nothing
      exact (ih nothing rest).cons step'
    | none =>
      cases v with
      | list xs =>
        obtain ⟨n, python, item⟩ := Option.bind_eq_some_iff.mp step
        have foreign : arrayIndex token = none := by
          cases index : arrayIndex token with
          | none => rfl
          | some m =>
            obtain rfl := Option.some.inj ((pythonIndex_of_arrayIndex ascii index).symm.trans python)
            have there : child arrayIndex (.list xs) token = some v' :=
              Option.bind_eq_some_iff.mpr ⟨m, index, item⟩
            cases step'.symm.trans there
        unfold pythonIndex at python
        split at python
        · rename_i isIndex
          obtain rfl := Option.some.inj python
          exact ⟨[], token, tokens, rfl, ⟨isIndex, foreign⟩, xs, v', rfl, item,
            Option.isSome_iff_exists.mpr ⟨w, rest⟩⟩
        · cases python
      | null | bool | int | float | str | dict => cases step'.symm.trans step

/-- A stray token finds a node that RFC 6901 does not name. -/
theorem found_of_strays (ascii : AsciiDigits u) {tokens : List Str} (strays : Strays u v tokens) :
    resolve arrayIndex v tokens = none ∧ (resolve (pythonIndex u) v tokens).isSome = true := by
  obtain ⟨before, token, after, rfl, ⟨isIndex, foreign⟩, xs, item, reached, there, found⟩ := strays
  have python : child (pythonIndex u) (.list xs) token = some item :=
    Option.bind_eq_some_iff.mpr ⟨_, if_pos isIndex, there⟩
  have rfc : child arrayIndex (.list xs) token = none := by
    rw [child, foreign]
    rfl
  constructor
  · rw [resolve_append, reached, Option.bind_eq_bind, Option.bind_some, resolve, List.foldlM_cons, rfc]
    rfl
  · rw [resolve_append, resolve_python ascii reached, Option.bind_eq_bind, Option.bind_some, resolve,
      List.foldlM_cons, python]
    exact found

theorem resolve_python_iff (ascii : AsciiDigits u) (v : Json) (tokens : List Str) :
    resolve (pythonIndex u) v tokens = resolve arrayIndex v tokens ↔ ¬ Strays u v tokens := by
  constructor
  · intro same strays
    obtain ⟨nothing, found⟩ := found_of_strays ascii strays
    rw [same, nothing] at found
    cases found
  · intro straight
    cases rfc : resolve arrayIndex v tokens with
    | some w => exact resolve_python ascii rfc
    | none =>
      cases python : resolve (pythonIndex u) v tokens with
      | none => rfl
      | some w => exact absurd (strays_of_found ascii rfc python) straight

end

/-! ## Selectors -/

/-- The validation accepts the pointer as the selector of an assertion about the body. -/
def AcceptedPointer (pointer : Str) : Prop :=
  ∃ item a, readAssertion item = .ok a ∧ a.target = .jsonBody ∧ a.selector = some pointer

theorem AcceptedPointer.starts {pointer : Str} (accepted : AcceptedPointer pointer) :
    pointer.head? = some slash ∧ pointer.length ≤ maxGeneratedTestTextLength := by
  obtain ⟨item, a, read, isBody, selector⟩ := accepted
  have valid := readAssertion_valid read
  have contract := jsonBody_contract valid isBody
  have short := valid.short
  rw [selector] at contract short
  exact ⟨contract.1, short⟩

/-- An object or an array. -/
def IsContainer : Json → Prop
  | .dict _ | .list _ => True
  | _ => False

theorem jsonPointer_accepted {u : Unicode} {pointer : Str} {v : Json} (container : IsContainer v)
    (accepted : AcceptedPointer pointer) :
    jsonPointer u (some v) pointer = .ok (resolve (pythonIndex u) v (referenceTokens pointer)) := by
  have own : searched v = some v := by
    cases v with
    | dict | list => rfl
    | null | bool | int | float | str => exact container.elim
  rw [← own]
  exact jsonPointer_eq accepted.starts.1 accepted.starts.2 v

/-- The pointer of a path finds what the path reaches, whatever its keys are. -/
theorem reach_found {u : Unicode} (ascii : AsciiDigits u) {v w : Json} {path : List PathStep}
    (some' : path ≠ []) (reached : reach v path = some w)
    (short : (render path).length ≤ maxGeneratedTestTextLength) :
    jsonPointer u (some v) (render path) = .ok (some w) := by
  have container : searched v = some v := by
    obtain ⟨step, path, rfl⟩ := List.exists_cons_of_ne_nil some'
    obtain ⟨v', follows, -⟩ := Option.bind_eq_some_iff.mp reached
    cases v with
    | dict | list => rfl
    | null | bool | int | float | str => cases step <;> cases follows
  have starts : (render path).head? = some slash := by
    rw [render_eq some', List.head?_cons]
  rw [← container, jsonPointer_eq starts short, referenceTokens_render some',
    resolve_python ascii (resolve_reach reached)]

/-- The pointer is resolved as in RFC 6901: it finds the node that it names, and that of every path
whose pointer it is; when it names none it finds none. -/
def ResolvesAsNamed (u : Unicode) (v : Json) (pointer : Str) : Prop :=
  jsonPointer u (some v) pointer = .ok (resolve arrayIndex v (referenceTokens pointer)) ∧
    ∀ path w, path ≠ [] → render path = pointer → reach v path = some w →
      jsonPointer u (some v) pointer = .ok (some w)

/-- A pointer is resolved as in RFC 6901 exactly when none of its tokens strays. -/
theorem resolves_iff {u : Unicode} (ascii : AsciiDigits u) {v : Json} (container : IsContainer v)
    {pointer : Str} (accepted : AcceptedPointer pointer) :
    ResolvesAsNamed u v pointer ↔ ¬ Strays u v (referenceTokens pointer) := by
  rw [← resolve_python_iff ascii, ResolvesAsNamed, jsonPointer_accepted container accepted]
  constructor
  · rintro ⟨same, -⟩
    exact Except.ok.inj same
  · intro same
    refine ⟨congrArg Except.ok same, ?_⟩
    rintro path w some' rfl reached
    rw [same, referenceTokens_render some', resolve_reach reached]

/-- The digits of ASCII and those of Arabic. -/
def arabicUnicode : Unicode where
  lower := sampleUnicode.lower
  decimal c :=
    if isDigit c then some (c.val - 48)
    else if 0x660 ≤ c.val ∧ c.val ≤ 0x669 then some (c.val - 0x660)
    else none

theorem arabicUnicode_ascii : AsciiDigits arabicUnicode := fun _ digit => if_pos digit

theorem accepted_of_read {selector : String}
    (read : readAssertion (samplePayloadItem "json_body" selector "exists" .none) =
      .ok ⟨.jsonBody, some (lit selector), .exists', .none⟩) : AcceptedPointer (lit selector) :=
  ⟨_, _, read, rfl, rfl⟩

theorem resolves_iff_sample :
    ResolvesAsNamed arabicUnicode (.list [.bool true]) (lit "/0") ↔
      ¬ Strays arabicUnicode (.list [.bool true]) (referenceTokens (lit "/0")) :=
  resolves_iff arabicUnicode_ascii (v := .list [.bool true]) trivial
    (accepted_of_read (by decide +kernel))

/-- An Arabic zero finds the first item of an array. -/
theorem arabic_zero_found :
    ¬ ∀ (u : Unicode) (v : Json) (pointer : Str), AsciiDigits u → IsContainer v →
      AcceptedPointer pointer → ResolvesAsNamed u v pointer := by
  intro all
  have named := (all arabicUnicode (.list [.bool true]) (lit "/٠") arabicUnicode_ascii trivial
    (accepted_of_read (by decide +kernel))).1
  have found : jsonPointer arabicUnicode (some (.list [.bool true])) (lit "/٠") =
      .ok (some (.bool true)) := by
    rfl
  have nothing : resolve arrayIndex (.list [.bool true]) (referenceTokens (lit "/٠")) = none := by
    decide +kernel
  rw [found, nothing] at named
  cases named

end QaCopilot.Execution
