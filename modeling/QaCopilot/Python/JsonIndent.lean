import QaCopilot.Lib.Results
import QaCopilot.Python.Surrogates

/-!
# `json.dumps` with an indent

Every item stands on a line of its own, which `json.loads` skips over as blanks.
-/

namespace QaCopilot.Python

open Results

/-- The line break before an item that is nested `level` deep. -/
def newline (indent level : Nat) : Str :=
  lit "\n" ++ List.replicate (indent * level) (CodePoint.ofChar ' ')

/-- The options of a container whose items stand `level` deep. -/
def DumpsOptions.atLevel (o : DumpsOptions) (indent level : Nat) : DumpsOptions :=
  { o with itemSeparator := o.itemSeparator ++ newline indent level }

mutual

/-- `json.dumps(value, indent=indent)` of a value at `level`, in the order of the items. The
recursion limit is left out: the values that are printed so nest a few containers. -/
def dumpsIndent (o : DumpsOptions) (indent : Nat) : Nat → Json → Except DumpsError Str
  | _, .null => .ok (lit "null")
  | _, .bool b => .ok (if b then lit "true" else lit "false")
  | _, .int n => dumpsInt n
  | _, .float x => dumpsFloat o x
  | _, .str s => .ok (dumpsStr o s)
  | level, .list xs =>
    if xs.isEmpty then .ok (lit "[]")
    else do
      let texts ← dumpsIndentList o indent (level + 1) xs
      return lit "[" ++ newline indent (level + 1) ++
        (o.atLevel indent (level + 1)).itemSeparator.intercalate texts ++
        newline indent level ++ lit "]"
  | level, .dict items =>
    if items.isEmpty then .ok (lit "\x7b\x7d")
    else do
      let texts ← dumpsIndentItems o indent (level + 1) items
      return lit "\x7b" ++ newline indent (level + 1) ++
        (o.atLevel indent (level + 1)).itemSeparator.intercalate texts ++
        newline indent level ++ lit "\x7d"

def dumpsIndentList (o : DumpsOptions) (indent level : Nat) :
    List Json → Except DumpsError (List Str)
  | [] => .ok []
  | v :: vs => do
    let text ← dumpsIndent o indent level v
    return text :: (← dumpsIndentList o indent level vs)

def dumpsIndentItems (o : DumpsOptions) (indent level : Nat) :
    List (Str × Json) → Except DumpsError (List Str)
  | [] => .ok []
  | (k, v) :: items => do
    let text ← dumpsIndent o indent level v
    return (dumpsStr o k ++ o.keySeparator ++ text) :: (← dumpsIndentItems o indent level items)

end

/-! ## When it succeeds -/

mutual

theorem dumpsIndent_isOk (o : DumpsOptions) (indent : Nat) (v : Json) (level : Nat) :
    (∃ text, dumpsIndent o indent level v = .ok text) ↔ v.check o.accepts = true := by
  cases v with
  | null | bool b | str s => exact ⟨fun _ => rfl, fun _ => ⟨_, rfl⟩⟩
  | int n =>
    have scalar := dumps_isOk o (.int n) 0
    simp only [Json.depth, le_refl, and_true] at scalar
    exact scalar
  | float x =>
    have scalar := dumps_isOk o (.float x) 0
    simp only [Json.depth, le_refl, and_true] at scalar
    exact scalar
  | list xs =>
    have items := dumpsIndentList_isOk o indent xs (level + 1)
    rw [Json.check, ← items, dumpsIndent]
    cases xs with
    | nil => exact ⟨fun _ => ⟨_, rfl⟩, fun _ => ⟨_, rfl⟩⟩
    | cons v vs =>
      rw [List.isEmpty_cons, if_neg Bool.false_ne_true]
      cases dumpsIndentList o indent (level + 1) (v :: vs) with
      | error e => simp [bind, Except.bind]
      | ok texts => simp [bind, Except.bind, pure, Except.pure]
  | dict items =>
    have values := dumpsIndentItems_isOk o indent items (level + 1)
    have keys : o.accepts.keys (items.map (·.1)) = true := rfl
    rw [Json.check, keys, Bool.true_and, ← values, dumpsIndent]
    cases items with
    | nil => exact ⟨fun _ => ⟨_, rfl⟩, fun _ => ⟨_, rfl⟩⟩
    | cons i items =>
      rw [List.isEmpty_cons, if_neg Bool.false_ne_true]
      cases dumpsIndentItems o indent (level + 1) (i :: items) with
      | error e => simp [bind, Except.bind]
      | ok texts => simp [bind, Except.bind, pure, Except.pure]

theorem dumpsIndentList_isOk (o : DumpsOptions) (indent : Nat) (xs : List Json) (level : Nat) :
    (∃ texts, dumpsIndentList o indent level xs = .ok texts) ↔
      Json.checkList o.accepts xs = true := by
  match xs with
  | [] => exact ⟨fun _ => rfl, fun _ => ⟨_, rfl⟩⟩
  | v :: vs =>
    rw [Json.checkList, Bool.and_eq_true, ← dumpsIndent_isOk o indent v level,
      ← dumpsIndentList_isOk o indent vs level, dumpsIndentList]
    cases dumpsIndent o indent level v with
    | error e => simp [bind, Except.bind]
    | ok text =>
      cases dumpsIndentList o indent level vs with
      | error e => simp [bind, Except.bind]
      | ok texts => simp [bind, Except.bind, pure, Except.pure]

theorem dumpsIndentItems_isOk (o : DumpsOptions) (indent : Nat) (items : List (Str × Json))
    (level : Nat) : (∃ texts, dumpsIndentItems o indent level items = .ok texts) ↔
      Json.checkItems o.accepts items = true := by
  match items with
  | [] => exact ⟨fun _ => rfl, fun _ => ⟨_, rfl⟩⟩
  | (k, v) :: items =>
    rw [Json.checkItems, Bool.and_eq_true, ← dumpsIndent_isOk o indent v level,
      ← dumpsIndentItems_isOk o indent items level, dumpsIndentItems]
    cases dumpsIndent o indent level v with
    | error e => simp [bind, Except.bind]
    | ok text =>
      cases dumpsIndentItems o indent level items with
      | error e => simp [bind, Except.bind]
      | ok texts => simp [bind, Except.bind, pure, Except.pure]

end

/-! ## Its tokens -/

theorem lexFrom_newline (indent level : Nat) (s : Str) :
    lexFrom 0 (newline indent level ++ s) = lexFrom 0 s := by
  have blanks : ∀ n, lexFrom 0 (List.replicate n (CodePoint.ofChar ' ') ++ s) = lexFrom 0 s := by
    intro n
    induction n with
    | zero => rfl
    | succ n ih =>
      rw [List.replicate_succ, List.cons_append, lexFrom, if_pos (by decide), ih]
  change lexFrom 0 (CodePoint.ofChar '\n' :: (List.replicate _ _ ++ s)) = _
  rw [lexFrom, if_pos (by decide), blanks]

theorem numberEnd_newline (indent level : Nat) (s : Str) :
    NumberEnd (newline indent level ++ s) := numberEnd_mark _ (by decide)

theorem DumpsOptions.Separates.atLevel {o : DumpsOptions} (separates : o.Separates)
    (indent level : Nat) : (o.atLevel indent level).Separates where
  items s := by
    simp only [DumpsOptions.atLevel, List.append_assoc]
    rw [separates.items, lexFrom_newline]
  keys := separates.keys
  stop s := by
    simp only [DumpsOptions.atLevel, List.append_assoc]
    exact separates.stop _

theorem dumpsIndent_list {o : DumpsOptions} {indent level : Nat} {v : Json} {vs : List Json}
    {text : Str} (made : dumpsIndent o indent level (.list (v :: vs)) = .ok text) :
    ∃ texts, dumpsIndentList o indent (level + 1) (v :: vs) = .ok texts ∧
      text = lit "[" ++ newline indent (level + 1) ++
        (o.atLevel indent (level + 1)).itemSeparator.intercalate texts ++
        newline indent level ++ lit "]" := by
  rw [dumpsIndent, List.isEmpty_cons, if_neg Bool.false_ne_true] at made
  cases inside : dumpsIndentList o indent (level + 1) (v :: vs) with
  | error e =>
    rw [inside] at made
    cases made
  | ok texts =>
    rw [inside] at made
    exact ⟨texts, rfl, (Except.ok.inj made).symm⟩

theorem dumpsIndent_dict {o : DumpsOptions} {indent level : Nat} {i : Str × Json}
    {items : List (Str × Json)} {text : Str}
    (made : dumpsIndent o indent level (.dict (i :: items)) = .ok text) :
    ∃ texts, dumpsIndentItems o indent (level + 1) (i :: items) = .ok texts ∧
      text = lit "\x7b" ++ newline indent (level + 1) ++
        (o.atLevel indent (level + 1)).itemSeparator.intercalate texts ++
        newline indent level ++ lit "\x7d" := by
  rw [dumpsIndent, List.isEmpty_cons, if_neg Bool.false_ne_true] at made
  cases inside : dumpsIndentItems o indent (level + 1) (i :: items) with
  | error e =>
    rw [inside] at made
    cases made
  | ok texts =>
    rw [inside] at made
    exact ⟨texts, rfl, (Except.ok.inj made).symm⟩

/-- What stands between the brackets of a container. -/
theorem lexFrom_container (first : CodePoint) {last : CodePoint} {o c : Token} {inner s : Str}
    {ts : List Token} (indent level : Nat) (opens : isJsonSpace first = false ∧ punctuation.lookup first.val = some o)
    (closes : isJsonSpace last = false ∧ punctuation.lookup last.val = some c)
    (between : lexFrom 0 (inner ++ (newline indent level ++ (last :: s))) =
      ts ++ lexFrom 0 (newline indent level ++ (last :: s))) :
    lexFrom 0 (first :: (newline indent (level + 1) ++ (inner ++ (newline indent level ++
      (last :: s))))) = o :: (ts ++ c :: lexFrom 0 s) := by
  rw [lexFrom_mark opens.1 opens.2, lexFrom_newline, between, lexFrom_newline,
    lexFrom_mark closes.1 closes.2]

mutual

theorem lexFrom_dumpsIndent {o : DumpsOptions} (separates : o.Separates) {indent : Nat} (v : Json)
    {level : Nat} {text : Str} (made : dumpsIndent o indent level v = .ok text)
    (free : o.ensureAscii = true → v.check .pairFree = true) : Lexes text v := by
  cases v with
  | null | bool | int | float | str =>
    exact lexFrom_dumps separates _ (show dumps o 0 _ = .ok text from made) free
  | list xs =>
    intro s stop
    cases xs with
    | nil =>
      obtain rfl := Except.ok.inj made
      rfl
    | cons v vs =>
      obtain ⟨texts, inside, rfl⟩ := dumpsIndent_list made
      have items := lexFrom_values (separates.atLevel indent (level + 1))
        (lexFrom_dumpsIndentList separates (v :: vs) inside
          (fun ascii => by simpa only [Json.check, Check.pairFree] using free ascii))
        (numberEnd_newline indent level (CodePoint.ofChar ']' :: s))
      have whole := lexFrom_container (CodePoint.ofChar '[') indent level
        ⟨by decide, rfl⟩ ⟨by decide, rfl⟩ items
      simp only [List.append_assoc, tokens, List.cons_append, List.nil_append]
      exact whole
  | dict items =>
    intro s stop
    cases items with
    | nil =>
      obtain rfl := Except.ok.inj made
      rfl
    | cons i items =>
      obtain ⟨texts, inside, rfl⟩ := dumpsIndent_dict made
      have items := lexFrom_items (separates.atLevel indent (level + 1))
        (lexFrom_dumpsIndentItems separates (i :: items) inside free)
        (numberEnd_newline indent level (CodePoint.ofChar '\x7d' :: s))
      have whole := lexFrom_container (CodePoint.ofChar '\x7b') indent level
        ⟨by decide, rfl⟩ ⟨by decide, rfl⟩ items
      simp only [List.append_assoc, tokens, List.cons_append, List.nil_append]
      exact whole

theorem lexFrom_dumpsIndentList {o : DumpsOptions} (separates : o.Separates) {indent : Nat}
    (vs : List Json) {level : Nat} {texts : List Str}
    (made : dumpsIndentList o indent level vs = .ok texts)
    (free : o.ensureAscii = true → Json.checkList .pairFree vs = true) :
    List.Forall₂ Lexes texts vs := by
  match vs with
  | [] =>
    obtain rfl := Except.ok.inj made
    exact .nil
  | v :: vs =>
    obtain ⟨text, first, made⟩ := bind_ok.mp made
    obtain ⟨rest, later, made⟩ := bind_ok.mp made
    obtain rfl := Except.ok.inj made
    have both : o.ensureAscii = true →
        v.check .pairFree = true ∧ Json.checkList .pairFree vs = true := by
      intro ascii
      have := free ascii
      rw [Json.checkList, Bool.and_eq_true] at this
      exact this
    exact .cons (lexFrom_dumpsIndent separates v first fun ascii => (both ascii).1)
      (lexFrom_dumpsIndentList separates vs later fun ascii => (both ascii).2)

theorem lexFrom_dumpsIndentItems {o : DumpsOptions} (separates : o.Separates) {indent : Nat}
    (items : List (Str × Json)) {level : Nat} {texts : List Str}
    (made : dumpsIndentItems o indent level items = .ok texts)
    (free : o.ensureAscii = true → (Json.dict items).check .pairFree = true) :
    List.Forall₂ (LexesItem (o.atLevel indent level)) texts items := by
  match items with
  | [] =>
    obtain rfl := Except.ok.inj made
    exact .nil
  | (k, v) :: items =>
    obtain ⟨text, first, made⟩ := bind_ok.mp made
    obtain ⟨rest, later, made⟩ := bind_ok.mp made
    obtain rfl := Except.ok.inj made
    have all : o.ensureAscii = true → (pairFree k = true ∧ v.check .pairFree = true) ∧
        (Json.dict items).check .pairFree = true :=
      fun ascii => pairFree_cons.mp (free ascii)
    exact .cons ⟨text, rfl, lexFrom_dumpsIndent separates v first fun ascii => (all ascii).1.2,
      fun ascii => (all ascii).1.1⟩
      (lexFrom_dumpsIndentItems separates items later fun ascii => (all ascii).2)

end

/-! ## What `json.loads` reads -/

mutual

/-- Joining the pairs of the strings does not change the text. -/
theorem dumpsIndent_joinPairs {o : DumpsOptions} (ascii : o.ensureAscii = true) (indent level : Nat)
    (v : Json) : dumpsIndent o indent level (v.mapStr joinPairs) = dumpsIndent o indent level v := by
  cases v with
  | null | bool | int | float => rfl
  | str s => simp only [Json.mapStr, dumpsIndent, dumpsStr_joinPairs ascii]
  | list xs =>
    have items := dumpsIndentList_joinPairs ascii indent (level + 1) xs
    simp only [Json.mapStr, dumpsIndent, items]
    cases xs with
    | nil => rfl
    | cons v vs => rfl
  | dict items =>
    have values := dumpsIndentItems_joinPairs ascii indent (level + 1) items
    simp only [Json.mapStr, dumpsIndent, values]
    cases items with
    | nil => rfl
    | cons i items => rfl

theorem dumpsIndentList_joinPairs {o : DumpsOptions} (ascii : o.ensureAscii = true)
    (indent level : Nat) (vs : List Json) :
    dumpsIndentList o indent level (Json.mapStrList joinPairs vs) =
      dumpsIndentList o indent level vs := by
  match vs with
  | [] => rfl
  | v :: vs =>
    simp only [Json.mapStrList, dumpsIndentList, dumpsIndent_joinPairs ascii indent level v,
      dumpsIndentList_joinPairs ascii indent level vs]

theorem dumpsIndentItems_joinPairs {o : DumpsOptions} (ascii : o.ensureAscii = true)
    (indent level : Nat) (items : List (Str × Json)) :
    dumpsIndentItems o indent level (Json.mapStrItems joinPairs items) =
      dumpsIndentItems o indent level items := by
  match items with
  | [] => rfl
  | (k, v) :: items =>
    simp only [Json.mapStrItems, dumpsIndentItems, dumpsIndent_joinPairs ascii indent level v,
      dumpsIndentItems_joinPairs ascii indent level items]

end

/-- No key holds a high surrogate before a low one. -/
def Check.pairFreeKeys : Check where
  keys := fun keys => keys.all Python.pairFree

theorem pairFreeKeys_unordered : Check.pairFreeKeys.Unordered := pairFree_unordered

mutual

theorem check_mapStr {c d : Check} {f : Str → Str} (str : ∀ s, d.str (f s) = c.str s)
    (int : d.int = c.int) (float : d.float = c.float) (keys : d.keys = c.keys) (v : Json) :
    (v.mapStr f).check d = v.check c := by
  cases v with
  | null | bool => rfl
  | int n => exact congrFun int n
  | float x => exact congrFun float x
  | str s => exact str s
  | list xs => exact check_mapStrList str int float keys xs
  | dict items =>
    have same : (Json.mapStrItems f items).map (·.1) = items.map (·.1) := by
      rw [mapStrItems_eq, List.map_map]
      rfl
    simp only [Json.mapStr, Json.check, same, keys, check_mapStrItems str int float keys items]

theorem check_mapStrList {c d : Check} {f : Str → Str} (str : ∀ s, d.str (f s) = c.str s)
    (int : d.int = c.int) (float : d.float = c.float) (keys : d.keys = c.keys) (vs : List Json) :
    Json.checkList d (Json.mapStrList f vs) = Json.checkList c vs := by
  match vs with
  | [] => rfl
  | v :: vs =>
    simp only [Json.mapStrList, Json.checkList, check_mapStr str int float keys v,
      check_mapStrList str int float keys vs]

theorem check_mapStrItems {c d : Check} {f : Str → Str} (str : ∀ s, d.str (f s) = c.str s)
    (int : d.int = c.int) (float : d.float = c.float) (keys : d.keys = c.keys)
    (items : List (Str × Json)) :
    Json.checkItems d (Json.mapStrItems f items) = Json.checkItems c items := by
  match items with
  | [] => rfl
  | (k, v) :: items =>
    simp only [Json.mapStrItems, Json.checkItems, check_mapStr str int float keys v,
      check_mapStrItems str int float keys items]

end

mutual

theorem depth_mapStr (f : Str → Str) (v : Json) : (v.mapStr f).depth = v.depth := by
  cases v with
  | null | bool | int | float | str => rfl
  | list xs => simp only [Json.mapStr, Json.depth, depth_mapStrList f xs]
  | dict items => simp only [Json.mapStr, Json.depth, depth_mapStrItems f items]

theorem depth_mapStrList (f : Str → Str) (vs : List Json) :
    Json.depthList (Json.mapStrList f vs) = Json.depthList vs := by
  match vs with
  | [] => rfl
  | v :: vs => simp only [Json.mapStrList, Json.depthList, depth_mapStr f v, depth_mapStrList f vs]

theorem depth_mapStrItems (f : Str → Str) (items : List (Str × Json)) :
    Json.depthItems (Json.mapStrItems f items) = Json.depthItems items := by
  match items with
  | [] => rfl
  | (k, v) :: items =>
    simp only [Json.mapStrItems, Json.depthItems, depth_mapStr f v, depth_mapStrItems f items]

end

/-- The joined strings hold no pairs. -/
theorem pairFree_mapStr {v : Json} (keys : v.check .pairFreeKeys = true) :
    (v.mapStr joinPairs).check .pairFree = true :=
  (check_mapStr (c := .pairFreeKeys) (d := .pairFree) (f := joinPairs) pairFree_joinPairs rfl rfl
    rfl v).trans keys

/-- An indented text, with a line break behind it, is read as the value with its pairs joined. -/
theorem loads_dumpsIndent {o : DumpsOptions} (separates : o.Separates)
    (ascii : o.ensureAscii = true) {v : Json} {indent limit : Nat} {text : Str}
    (made : dumpsIndent o indent 0 v = .ok text) (distinct : v.check .distinctKeys = true)
    (keys : v.check .pairFreeKeys = true) (room : v.depth ≤ limit) :
    loads limit (text ++ lit "\n") = .ok (v.mapStr joinPairs) := by
  rw [← dumpsIndent_joinPairs ascii] at made
  have read := lexFrom_dumpsIndent separates _ made (fun _ => pairFree_mapStr keys) (lit "\n")
    (numberEnd_mark [] (by decide))
  have blank : lexFrom 0 (lit "\n") = [] := rfl
  rw [blank, List.append_nil] at read
  refine loads_of_tokens read ?_ (by rw [depth_mapStr]; exact room)
  exact (check_mapStr (c := .distinctKeys) (d := .distinctKeys) (f := joinPairs) (fun _ => rfl) rfl
    rfl rfl v).trans distinct

end QaCopilot.Python
