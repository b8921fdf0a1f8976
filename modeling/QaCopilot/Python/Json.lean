import Mathlib.Data.List.Sort
import QaCopilot.Python.Float

/-!
# JSON values and `json.dumps`

The values that `json.loads` builds and the text that `json.dumps` gives for them. A dict is
the list of its items in insertion order.
-/

namespace QaCopilot.Python

inductive Json where
  | null
  | bool (b : Bool)
  | int (n : Int)
  | float (x : PyFloat)
  | str (s : Str)
  | list (xs : List Json)
  | dict (items : List (Str × Json))

/-- The exceptions of `dumps`: `ValueError` and `RecursionError`. -/
inductive DumpsError where
  | value
  | recursion
deriving DecidableEq

structure DumpsOptions where
  ensureAscii : Bool
  allowNan : Bool
  itemSeparator : Str
  keySeparator : Str

/-- The defaults of `json.dumps`. -/
def DumpsOptions.default : DumpsOptions := ⟨true, true, lit ", ", lit ": "⟩

/-- `ensure_ascii=True, allow_nan=False, separators=(",", ":")`. -/
def DumpsOptions.compact : DumpsOptions := ⟨true, false, lit ",", lit ":"⟩

/-- `ensure_ascii=False, allow_nan=False, separators=(",", ":")`. -/
def DumpsOptions.compactUnicode : DumpsOptions := ⟨false, false, lit ",", lit ":"⟩

/-! ## Sorted keys -/

/-- The order of `str`: lexicographic by code point. -/
def Str.le : Str → Str → Bool
  | [], _ => true
  | _ :: _, [] => false
  | a :: s, b :: t => a.val < b.val || (a.val == b.val && Str.le s t)

def sortItems (items : List (Str × Json)) : List (Str × Json) :=
  items.insertionSort fun a b => Str.le a.1 b.1

mutual

/-- `sort_keys=True`, at every depth. -/
def Json.sorted : Json → Json
  | .list xs => .list (Json.sortedList xs)
  | .dict items => .dict (sortItems (Json.sortedItems items))
  | v => v

def Json.sortedList : List Json → List Json
  | [] => []
  | v :: vs => v.sorted :: Json.sortedList vs

def Json.sortedItems : List (Str × Json) → List (Str × Json)
  | [] => []
  | (k, v) :: items => (k, v.sorted) :: Json.sortedItems items

end

/-! ## Checks at every depth -/

/-- What is asked of the scalars of a value and of the keys of its dicts. -/
structure Check where
  int : Int → Bool := fun _ => true
  float : PyFloat → Bool := fun _ => true
  str : Str → Bool := fun _ => true
  keys : List Str → Bool := fun _ => true

mutual

def Json.check (c : Check) : Json → Bool
  | .null | .bool _ => true
  | .int n => c.int n
  | .float x => c.float x
  | .str s => c.str s
  | .list xs => Json.checkList c xs
  | .dict items => c.keys (items.map (·.1)) && Json.checkItems c items

def Json.checkList (c : Check) : List Json → Bool
  | [] => true
  | v :: vs => v.check c && Json.checkList c vs

def Json.checkItems (c : Check) : List (Str × Json) → Bool
  | [] => true
  | (_, v) :: items => v.check c && Json.checkItems c items

end

/-- Every dict has distinct keys, as every Python dict has. -/
def Check.distinctKeys : Check where
  keys := fun keys => keys.Nodup

mutual

/-- How deep the containers of a value nest. -/
def Json.depth : Json → Nat
  | .list xs => Json.depthList xs + 1
  | .dict items => Json.depthItems items + 1
  | _ => 0

def Json.depthList : List Json → Nat
  | [] => 0
  | v :: vs => max v.depth (Json.depthList vs)

def Json.depthItems : List (Str × Json) → Nat
  | [] => 0
  | (_, v) :: items => max v.depth (Json.depthItems items)

end

theorem checkItems_eq_true {c : Check} {items : List (Str × Json)} :
    Json.checkItems c items = true ↔ ∀ i ∈ items, i.2.check c = true := by
  induction items with
  | nil => simp [Json.checkItems]
  | cons i items ih => simp [Json.checkItems, ih]

theorem checkList_eq_true {c : Check} {xs : List Json} :
    Json.checkList c xs = true ↔ ∀ v ∈ xs, v.check c = true := by
  induction xs with
  | nil => simp [Json.checkList]
  | cons v vs ih => simp [Json.checkList, ih]

theorem depthItems_le {items : List (Str × Json)} {n : Nat} :
    Json.depthItems items ≤ n ↔ ∀ i ∈ items, i.2.depth ≤ n := by
  induction items with
  | nil => simp [Json.depthItems]
  | cons i items ih => simp [Json.depthItems, ih]

theorem depthList_le {xs : List Json} {n : Nat} :
    Json.depthList xs ≤ n ↔ ∀ v ∈ xs, v.depth ≤ n := by
  induction xs with
  | nil => simp [Json.depthList]
  | cons v vs ih => simp [Json.depthList, ih]

/-! ## Sorting keeps a value -/

theorem sortItems_perm (items : List (Str × Json)) : (sortItems items).Perm items :=
  List.perm_insertionSort _ _

theorem sortedList_eq (xs : List Json) : Json.sortedList xs = xs.map Json.sorted := by
  induction xs with
  | nil => rfl
  | cons v vs ih => rw [Json.sortedList, ih, List.map_cons]

theorem sortedItems_eq (items : List (Str × Json)) :
    Json.sortedItems items = items.map fun i => (i.1, i.2.sorted) := by
  induction items with
  | nil => rfl
  | cons i items ih => rw [Json.sortedItems, ih, List.map_cons]

theorem sortedItems_keys (items : List (Str × Json)) :
    (Json.sortedItems items).map (·.1) = items.map (·.1) := by
  rw [sortedItems_eq, List.map_map]
  rfl

/-- What is asked of the keys does not depend on their order. -/
def Check.Unordered (c : Check) : Prop := ∀ l l' : List Str, l.Perm l' → c.keys l = c.keys l'

theorem distinctKeys_unordered : Check.distinctKeys.Unordered := by
  intro l l' perm
  simp only [Check.distinctKeys, perm.nodup_iff]

mutual

theorem check_sorted {c : Check} (keys : c.Unordered) (v : Json) :
    v.sorted.check c = v.check c := by
  cases v with
  | list xs => exact check_sortedList keys xs
  | dict items =>
    have perm := sortItems_perm (Json.sortedItems items)
    have values : Json.checkItems c (sortItems (Json.sortedItems items)) =
        Json.checkItems c (Json.sortedItems items) := by
      rw [Bool.eq_iff_iff, checkItems_eq_true, checkItems_eq_true]
      simp only [perm.mem_iff]
    have same : c.keys ((sortItems (Json.sortedItems items)).map (·.1)) =
        c.keys (items.map (·.1)) := by
      rw [keys _ _ (perm.map _), sortedItems_keys]
    simp only [Json.sorted, Json.check, values, same, check_sortedItems keys items]
  | null | bool | int | float | str => rfl

theorem check_sortedList {c : Check} (keys : c.Unordered) (xs : List Json) :
    Json.checkList c (Json.sortedList xs) = Json.checkList c xs := by
  match xs with
  | [] => rfl
  | v :: vs => simp only [Json.sortedList, Json.checkList, check_sorted keys v, check_sortedList keys vs]

theorem check_sortedItems {c : Check} (keys : c.Unordered) (items : List (Str × Json)) :
    Json.checkItems c (Json.sortedItems items) = Json.checkItems c items := by
  match items with
  | [] => rfl
  | (k, v) :: items =>
    simp only [Json.sortedItems, Json.checkItems, check_sorted keys v, check_sortedItems keys items]

end

mutual

theorem depth_sorted (v : Json) : v.sorted.depth = v.depth := by
  cases v with
  | list xs => simp only [Json.sorted, Json.depth, depth_sortedList xs]
  | dict items =>
    have perm := sortItems_perm (Json.sortedItems items)
    have same : Json.depthItems (sortItems (Json.sortedItems items)) =
        Json.depthItems (Json.sortedItems items) := by
      apply eq_of_forall_ge_iff
      intro n
      rw [depthItems_le, depthItems_le]
      simp only [perm.mem_iff]
    simp only [Json.sorted, Json.depth, same, depth_sortedItems items]
  | null | bool | int | float | str => rfl

theorem depth_sortedList (xs : List Json) :
    Json.depthList (Json.sortedList xs) = Json.depthList xs := by
  match xs with
  | [] => rfl
  | v :: vs => simp only [Json.sortedList, Json.depthList, depth_sorted v, depth_sortedList vs]

theorem depth_sortedItems (items : List (Str × Json)) :
    Json.depthItems (Json.sortedItems items) = Json.depthItems items := by
  match items with
  | [] => rfl
  | (k, v) :: items =>
    simp only [Json.sortedItems, Json.depthItems, depth_sorted v, depth_sortedItems items]

end

/-! ## Scalars -/

/-- `\uXXXX` of a 16-bit code unit. -/
def escapeUnit (n : Nat) : Str :=
  lit "\\u" ++ [hexDigit (n / 0x1000 % 16), hexDigit (n / 0x100 % 16), hexDigit (n / 16 % 16),
    hexDigit (n % 16)]

def highUnit (c : CodePoint) : Nat := 0xD800 + (c.val - 0x10000) / 0x400

def lowUnit (c : CodePoint) : Nat := 0xDC00 + (c.val - 0x10000) % 0x400

/-- The two-character escapes: the character and the letter after the backslash. -/
def shortEscapes : List (Nat × Char) :=
  [(0x22, '"'), (0x5C, '\\'), (0x0A, 'n'), (0x0D, 'r'), (0x09, 't'), (0x0C, 'f'), (0x08, 'b')]

def escapeChar (ensureAscii : Bool) (c : CodePoint) : Str :=
  match shortEscapes.lookup c.val with
  | some letter => [CodePoint.ofChar '\\', CodePoint.ofChar letter]
  | none =>
    if 0x20 ≤ c.val ∧ (c.val < 0x7F ∨ ensureAscii = false) then [c]
    else if c.val < 0x10000 then escapeUnit c.val
    else escapeUnit (highUnit c) ++ escapeUnit (lowUnit c)

def dumpsStr (o : DumpsOptions) (s : Str) : Str :=
  lit "\"" ++ s.flatMap (escapeChar o.ensureAscii) ++ lit "\""

def intText (n : Int) : Str := (if n < 0 then lit "-" else []) ++ digits n.natAbs

/-- `int.__repr__` refuses a number of more than `maxStrDigits` digits. -/
def dumpsInt (n : Int) : Except DumpsError Str :=
  if (digits n.natAbs).length ≤ maxStrDigits then .ok (intText n) else .error .value

def dumpsFloat (o : DumpsOptions) : PyFloat → Except DumpsError Str
  | .finite x => .ok x.repr
  | .infinite negative =>
    if o.allowNan then .ok (if negative then lit "-Infinity" else lit "Infinity")
    else .error .value
  | .nan => if o.allowNan then .ok (lit "NaN") else .error .value

/-! ## Containers -/

mutual

/-- `json.dumps`, in order of the items. Every container takes one level of `depth`. -/
def dumps (o : DumpsOptions) : Nat → Json → Except DumpsError Str
  | _, .null => .ok (lit "null")
  | _, .bool b => .ok (if b then lit "true" else lit "false")
  | _, .int n => dumpsInt n
  | _, .float x => dumpsFloat o x
  | _, .str s => .ok (dumpsStr o s)
  | 0, .list _ => .error .recursion
  | depth + 1, .list xs => do
    return lit "[" ++ o.itemSeparator.intercalate (← dumpsList o depth xs) ++ lit "]"
  | 0, .dict _ => .error .recursion
  | depth + 1, .dict items => do
    return lit "\x7b" ++ o.itemSeparator.intercalate (← dumpsItems o depth items) ++ lit "\x7d"

def dumpsList (o : DumpsOptions) (depth : Nat) : List Json → Except DumpsError (List Str)
  | [] => .ok []
  | v :: vs => do return (← dumps o depth v) :: (← dumpsList o depth vs)

def dumpsItems (o : DumpsOptions) (depth : Nat) :
    List (Str × Json) → Except DumpsError (List Str)
  | [] => .ok []
  | (k, v) :: items => do
    let text ← dumps o depth v
    return (dumpsStr o k ++ o.keySeparator ++ text) :: (← dumpsItems o depth items)

end

/-- What `dumps` refuses besides the depth: an integer that has too many digits, and a float that
is no number where the option says so. -/
def DumpsOptions.accepts (o : DumpsOptions) : Check where
  int := fun n => (digits n.natAbs).length ≤ maxStrDigits
  float := fun x => o.allowNan || match x with
    | .finite _ => true
    | _ => false

theorem accepts_unordered (o : DumpsOptions) : o.accepts.Unordered := fun _ _ _ => rfl

mutual

/-- When `dumps` succeeds. -/
theorem dumps_isOk (o : DumpsOptions) (v : Json) (depth : Nat) :
    (∃ text, dumps o depth v = .ok text) ↔ v.check o.accepts = true ∧ v.depth ≤ depth := by
  cases v with
  | null => exact ⟨fun _ => ⟨rfl, Nat.zero_le depth⟩, fun _ => ⟨_, rfl⟩⟩
  | bool b => exact ⟨fun _ => ⟨rfl, Nat.zero_le depth⟩, fun _ => ⟨_, rfl⟩⟩
  | str s => exact ⟨fun _ => ⟨rfl, Nat.zero_le depth⟩, fun _ => ⟨_, rfl⟩⟩
  | int n =>
    simp only [dumps, dumpsInt, Json.check, DumpsOptions.accepts, Json.depth, Nat.zero_le, and_true,
      decide_eq_true_eq]
    split <;> simp [*]
  | float x =>
    simp only [dumps, Json.check, DumpsOptions.accepts, Json.depth, Nat.zero_le, and_true]
    cases x with
    | finite x => simp [dumpsFloat]
    | infinite negative => cases allow : o.allowNan <;> simp [dumpsFloat, allow]
    | nan => cases allow : o.allowNan <;> simp [dumpsFloat, allow]
  | list xs =>
    cases depth with
    | zero => simp [dumps, Json.depth]
    | succ depth =>
      have items := dumpsList_isOk o xs depth
      simp only [Json.check, Json.depth, Nat.add_le_add_iff_right, ← items, dumps]
      cases dumpsList o depth xs with
      | error e => simp [bind, Except.bind]
      | ok texts => simp [bind, Except.bind, pure, Except.pure]
  | dict items =>
    cases depth with
    | zero => simp [dumps, Json.depth]
    | succ depth =>
      have values := dumpsItems_isOk o items depth
      simp only [Json.check, DumpsOptions.accepts, Bool.true_and, Json.depth,
        Nat.add_le_add_iff_right, dumps]
      rw [DumpsOptions.accepts] at values
      rw [← values]
      cases dumpsItems o depth items with
      | error e => simp [bind, Except.bind]
      | ok texts => simp [bind, Except.bind, pure, Except.pure]

theorem dumpsList_isOk (o : DumpsOptions) (xs : List Json) (depth : Nat) :
    (∃ texts, dumpsList o depth xs = .ok texts) ↔
      Json.checkList o.accepts xs = true ∧ Json.depthList xs ≤ depth := by
  match xs with
  | [] => exact ⟨fun _ => ⟨rfl, Nat.zero_le depth⟩, fun _ => ⟨_, rfl⟩⟩
  | v :: vs =>
    have first := dumps_isOk o v depth
    have others := dumpsList_isOk o vs depth
    simp only [Json.checkList, Bool.and_eq_true, Json.depthList, Nat.max_le, dumpsList]
    rw [and_and_and_comm, ← first, ← others]
    cases dumps o depth v with
    | error e => simp [bind, Except.bind]
    | ok text =>
      cases dumpsList o depth vs with
      | error e => simp [bind, Except.bind]
      | ok texts => simp [bind, Except.bind, pure, Except.pure]

theorem dumpsItems_isOk (o : DumpsOptions) (items : List (Str × Json)) (depth : Nat) :
    (∃ texts, dumpsItems o depth items = .ok texts) ↔
      Json.checkItems o.accepts items = true ∧ Json.depthItems items ≤ depth := by
  match items with
  | [] => exact ⟨fun _ => ⟨rfl, Nat.zero_le depth⟩, fun _ => ⟨_, rfl⟩⟩
  | (k, v) :: items =>
    have first := dumps_isOk o v depth
    have others := dumpsItems_isOk o items depth
    simp only [Json.checkItems, Bool.and_eq_true, Json.depthItems, Nat.max_le, dumpsItems]
    rw [and_and_and_comm, ← first, ← others]
    cases dumps o depth v with
    | error e => simp [bind, Except.bind]
    | ok text =>
      cases dumpsItems o depth items with
      | error e => simp [bind, Except.bind]
      | ok texts => simp [bind, Except.bind, pure, Except.pure]

end

/-- `json.dumps(value, ensure_ascii=True, separators=(",", ":"), sort_keys=True,
allow_nan=False)`. -/
def canonicalDumps (depth : Nat) (v : Json) : Except DumpsError Str :=
  dumps .compact depth v.sorted

end QaCopilot.Python
