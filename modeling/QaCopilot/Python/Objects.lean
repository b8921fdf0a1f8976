import QaCopilot.Python.Numbers

/-!
# Objects of unknown shape

What a YAML or JSON document holds before any of it is checked.
-/

namespace QaCopilot.Python

inductive Object where
  | none
  | bool (b : Bool)
  | int (n : Int)
  | float (x : PyFloat)
  | str (s : Str)
  | list (xs : List Object)
  | dict (items : List (Object × Object))
  /-- A date, bytes, a set, or any other object that a YAML tag makes. -/
  | other (n : Nat)

mutual

/-- The value that `json.loads` built. -/
def Json.toObject : Json → Object
  | .null => .none
  | .bool b => .bool b
  | .int n => .int n
  | .float x => .float x
  | .str s => .str s
  | .list xs => .list (Json.toObjects xs)
  | .dict items => .dict (Json.toItems items)

def Json.toObjects : List Json → List Object
  | [] => []
  | v :: vs => v.toObject :: Json.toObjects vs

def Json.toItems : List (Str × Json) → List (Object × Object)
  | [] => []
  | (k, v) :: items => (.str k, v.toObject) :: Json.toItems items

end

theorem toObjects_eq (vs : List Json) : Json.toObjects vs = vs.map Json.toObject := by
  induction vs with
  | nil => rfl
  | cons v vs ih => rw [Json.toObjects, ih, List.map_cons]

theorem toItems_eq (items : List (Str × Json)) :
    Json.toItems items = items.map fun i => (.str i.1, i.2.toObject) := by
  induction items with
  | nil => rfl
  | cons i items ih => rw [Json.toItems, ih, List.map_cons]

/-- A mapping whose keys are all text. -/
abbrev Fields := List (Str × Object)

namespace Object

def str? : Object → Option Str
  | .str s => some s
  | _ => Option.none

/-- An `int` that is no `bool`. -/
def int? : Object → Option Int
  | .int n => some n
  | _ => Option.none

/-- An `int`, a `bool` or a `float`. -/
def number? : Object → Option IntOrFloat
  | .bool b => some (.bool b)
  | .int n => some (.int n)
  | .float x => some (.float x)
  | _ => Option.none

/-- `isinstance(value, Mapping) and all(isinstance(key, str) for key in value)` -/
def fields? : Object → Option Fields
  | .dict items => items.mapM fun i => do return (← i.1.str?, i.2)
  | _ => Option.none

end Object

/-- `dict.get` -/
def Fields.get (fields : Fields) (key : String) : Object :=
  ((fields.find? (·.1 = lit key)).map (·.2)).getD .none

def Fields.keys (fields : Fields) : List Str := fields.map (·.1)

/-- `sorted` of a list of texts. -/
def sortedTexts (texts : List Str) : List Str := texts.insertionSort fun a b => Str.le a b

end QaCopilot.Python
