import QaCopilot.Python.Numbers

/-!
# `==` of JSON values

Dicts are equal whatever the order of their items, and numbers by their value.
-/

namespace QaCopilot.Python

/-- The number that Python takes a value for in `==`: a bool is one. -/
def Json.number? : Json → Option IntOrFloat
  | .bool b => some (.bool b)
  | .int n => some (.int n)
  | .float x => some (.float x)
  | _ => none

mutual

/-- `v == w` -/
def Json.eq : Json → Json → Bool
  | .null, .null => true
  | .str s, .str t => s = t
  | .list xs, .list ys => Json.eqList xs ys
  | .dict items, .dict others => items.length = others.length && Json.eqItems items others
  | v, w =>
    match v.number?, w.number? with
    | some a, some b => a.eq b
    | _, _ => false

def Json.eqList : List Json → List Json → Bool
  | [], [] => true
  | v :: vs, w :: ws => v.eq w && Json.eqList vs ws
  | _, _ => false

/-- Every item has an equal one among the others. -/
def Json.eqItems : List (Str × Json) → List (Str × Json) → Bool
  | [], _ => true
  | (k, v) :: items, others =>
    (match others.find? (·.1 = k) with
      | some (_, w) => v.eq w
      | none => false) && Json.eqItems items others

end

end QaCopilot.Python
