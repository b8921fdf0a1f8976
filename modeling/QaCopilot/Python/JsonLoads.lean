import QaCopilot.Python.Json

/-!
# `json.loads`

The text is cut into tokens, and a stack of open containers takes them one by one. Every
container takes one level of the recursion limit.
-/

namespace QaCopilot.Python

/-- `JSONDecodeError`, another `ValueError`, and `RecursionError`. -/
inductive LoadsError where
  | decode
  | value
  | recursion
deriving DecidableEq

inductive Token where
  | openList
  | closeList
  | openDict
  | closeDict
  | comma
  | colon
  | str (s : Str)
  | scalar (v : Json)
  /-- An integer of more digits than `int` takes. -/
  | tooLong
  | bad

/-! ## Strings -/

/-- The letter after a backslash. -/
def unescape (e : CodePoint) : Option CodePoint :=
  match [(0x22, 0x22), (0x5C, 0x5C), (0x2F, 0x2F), (0x62, 0x08), (0x66, 0x0C), (0x6E, 0x0A),
    (0x72, 0x0D), (0x74, 0x09)].lookup e.val with
  | some n => some (Fin.ofNat _ n)
  | none => none

def hexValue (c : CodePoint) : Option Nat :=
  if 0x30 ≤ c.val ∧ c.val ≤ 0x39 then some (c.val - 0x30)
  else if 0x41 ≤ c.val ∧ c.val ≤ 0x46 then some (c.val - 0x41 + 10)
  else if 0x61 ≤ c.val ∧ c.val ≤ 0x66 then some (c.val - 0x61 + 10)
  else none

def hexUnit (a b c d : CodePoint) : Option CodePoint := do
  return Fin.ofNat _ (0x1000 * (← hexValue a) + 0x100 * (← hexValue b) + 16 * (← hexValue c)
    + (← hexValue d))

/-- The characters up to the closing quote, which of them were escaped, and how much text they
take, the quote included. -/
def scanUnits : Str → Option (List (CodePoint × Bool) × Nat)
  | [] => none
  | c :: s =>
    if c.val = 0x22 then some ([], 1)
    else if c.val = 0x5C then
      match s with
      | [] => none
      | e :: s =>
        if e.val = 0x75 then
          match s with
          | a :: b :: c :: d :: s => do
            let unit ← hexUnit a b c d
            let (units, length) ← scanUnits s
            return ((unit, true) :: units, length + 6)
          | _ => none
        else do
          let unit ← unescape e
          let (units, length) ← scanUnits s
          return ((unit, true) :: units, length + 2)
    else if c.val < 0x20 then none
    else do
      let (units, length) ← scanUnits s
      return ((c, false) :: units, length + 1)

def joinPair (high low : CodePoint) : CodePoint :=
  Fin.ofNat _ (0x10000 + 0x400 * (high.val - 0xD800) + (low.val - 0xDC00))

/-- An escaped high surrogate and the escaped low one after it make one character. -/
def joinUnits : List (CodePoint × Bool) → Str
  | [] => []
  | [(c, _)] => [c]
  | (c, escaped) :: (d, escaped') :: units =>
    if escaped && escaped' && isHighSurrogate c && isLowSurrogate d then
      joinPair c d :: joinUnits units
    else c :: joinUnits ((d, escaped') :: units)

/-! ## Numbers -/

/-- The digits after a decimal point. -/
def scanFraction : Str → Str
  | [] => []
  | c :: s => if c.val = 0x2E then s.takeWhile isDigit else []

/-- An exponent and the text it takes. -/
def scanExponent : Str → Option ((Bool × Str) × Nat)
  | c :: d :: s =>
    if c.val = 0x65 ∨ c.val = 0x45 then
      if d.val = 0x2B ∨ d.val = 0x2D then
        if s.takeWhile isDigit = [] then none
        else some ((d.val = 0x2D, s.takeWhile isDigit), (s.takeWhile isDigit).length + 2)
      else if (d :: s).takeWhile isDigit = [] then none
      else some ((false, (d :: s).takeWhile isDigit), ((d :: s).takeWhile isDigit).length + 1)
    else none
  | _ => none

/-- `parse_int` and `parse_float`. -/
def numberToken (l : Literal) : Token :=
  if l.fraction = [] ∧ l.exponent = none then
    if maxStrDigits < l.whole.length then .tooLong
    else .scalar (.int (if l.negative then -(ofDigits l.whole) else ofDigits l.whole))
  else .scalar (.float l.value)

/-- The integer part: no digit follows a leading zero. -/
def scanWhole (s : Str) : Str :=
  match s with
  | [] => []
  | c :: _ => if c.val = 0x30 then [c] else s.takeWhile isDigit

/-- The number after the sign, as far as it goes, and the text it takes. -/
def scanUnsigned (negative : Bool) (s : Str) : Option (Token × Nat) :=
  let whole := scanWhole s
  let fraction := scanFraction (s.drop whole.length)
  let length := whole.length + (fractionLength fraction)
  if whole = [] then none
  else
    match scanExponent (s.drop length) with
    | some (exponent, more) =>
      some (numberToken ⟨negative, whole, fraction, some exponent⟩, length + more)
    | none => some (numberToken ⟨negative, whole, fraction, none⟩, length)
where
  fractionLength (fraction : Str) : Nat := if fraction = [] then 0 else fraction.length + 1

def scanNumber : Str → Option (Token × Nat)
  | [] => none
  | c :: s =>
    if c.val = 0x2D then (scanUnsigned true s).map fun (t, length) => (t, length + 1)
    else scanUnsigned false (c :: s)

/-! ## Tokens -/

/-- The constants, which Python extends by the values of a float that are no numbers. -/
def words : List (Str × Json) :=
  [(lit "null", .null), (lit "true", .bool true), (lit "false", .bool false),
    (lit "NaN", .float .nan), (lit "Infinity", .float (.infinite false)),
    (lit "-Infinity", .float (.infinite true))]

def punctuation : List (Nat × Token) :=
  [(0x5B, .openList), (0x5D, .closeList), (0x7B, .openDict), (0x7D, .closeDict), (0x2C, .comma),
    (0x3A, .colon)]

/-- The token that begins with `c`, and how much of `s` it takes. -/
def scanToken (c : CodePoint) (s : Str) : Option (Token × Nat) :=
  match punctuation.lookup c.val with
  | some t => some (t, 0)
  | none =>
    if c.val = 0x22 then (scanUnits s).map fun (units, length) => (.str (joinUnits units), length)
    else
      match words.find? fun w => w.1.isPrefixOf (c :: s) with
      | some (word, v) => some (.scalar v, word.length - 1)
      | none => (scanNumber (c :: s)).map fun (t, length) => (t, length - 1)

def isJsonSpace (c : CodePoint) : Bool :=
  c.val == 0x20 || c.val == 0x09 || c.val == 0x0A || c.val == 0x0D

/-- The tokens of a text after its first characters, which an earlier token took. -/
def lexFrom : Nat → Str → List Token
  | _, [] => []
  | taken + 1, _ :: s => lexFrom taken s
  | 0, c :: s =>
    if isJsonSpace c then lexFrom 0 s
    else
      match scanToken c s with
      | some (t, more) => t :: lexFrom more s
      | none => [.bad]

/-! ## Values -/

/-- An open container around the value that is read: a list with its items so far, or a dict with
its items so far and the key of the value. -/
inductive Frame where
  | list (items : List Json)
  | dict (items : List (Str × Json)) (key : Str)

/-- What the next token is taken for. -/
inductive Mode where
  | value
  | firstItem
  | firstKey
  | key (items : List (Str × Json))
  | colon (items : List (Str × Json)) (key : Str)
  | done (v : Json)

/-- `dict[key] = v`: an old key keeps its place. -/
def setItem (items : List (Str × Json)) (key : Str) (v : Json) : List (Str × Json) :=
  if items.any (·.1 == key) then items.map fun i => if i.1 == key then (key, v) else i
  else items ++ [(key, v)]

abbrev Parser := List Frame × Mode

/-- A token that must begin a value. -/
def beginValue (limit : Nat) (frames : List Frame) : Token → Except LoadsError Parser
  | .str s => .ok (frames, .done (.str s))
  | .scalar v => .ok (frames, .done v)
  | .tooLong => .error .value
  | .openList =>
    if frames.length < limit then .ok (.list [] :: frames, .firstItem) else .error .recursion
  | .openDict => if frames.length < limit then .ok (frames, .firstKey) else .error .recursion
  | _ => .error .decode

/-- A token after a value. -/
def endValue (frames : List Frame) (v : Json) (t : Token) : Except LoadsError Parser :=
  match frames, t with
  | .list items :: frames, .comma => .ok (.list (items ++ [v]) :: frames, .value)
  | .list items :: frames, .closeList => .ok (frames, .done (.list (items ++ [v])))
  | .dict items key :: frames, .comma => .ok (frames, .key (setItem items key v))
  | .dict items key :: frames, .closeDict => .ok (frames, .done (.dict (setItem items key v)))
  | _, _ => .error .decode

def parserStep (limit : Nat) : Parser → Token → Except LoadsError Parser
  | (frames, .value), t => beginValue limit frames t
  | (frames, .firstItem), t =>
    match frames, t with
    | .list _ :: outer, .closeList => .ok (outer, .done (.list []))
    | _, _ => beginValue limit frames t
  | (frames, .firstKey), t =>
    match t with
    | .closeDict => .ok (frames, .done (.dict []))
    | .str key => .ok (frames, .colon [] key)
    | _ => .error .decode
  | (frames, .key items), t =>
    match t with
    | .str key => .ok (frames, .colon items key)
    | _ => .error .decode
  | (frames, .colon items key), t =>
    match t with
    | .colon => .ok (.dict items key :: frames, .value)
    | _ => .error .decode
  | (frames, .done v), t => endValue frames v t

def parserResult : Parser → Except LoadsError Json
  | ([], .done v) => .ok v
  | _ => .error .decode

/-- `json.loads(s)` of a `str`; a byte order mark is refused. -/
def loads (limit : Nat) (s : Str) : Except LoadsError Json :=
  if s.head?.any (·.val = 0xFEFF) then .error .decode
  else do parserResult (← (lexFrom 0 s).foldlM (parserStep limit) ([], .value))

end QaCopilot.Python
