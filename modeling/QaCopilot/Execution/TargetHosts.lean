import QaCopilot.Lib.Results
import QaCopilot.Python.JsonLoads
import QaCopilot.Python.Words

/-!
# The hosts of targets

`target_registry.py` refuses a base URL whose host is an IP address. The C library reads more than
the dotted quads of `ipaddress`: an address of one to four parts, each in decimal, octal or
hexadecimal.

* `keptOut_iff`: which of these notations the registry refuses;
* `short_host_resolved`: `127.1` is not among them.
-/

namespace QaCopilot.Execution

open Python Results

def dot : CodePoint := CodePoint.ofChar '.'

def colon : CodePoint := CodePoint.ofChar ':'

/-! ## Literal addresses -/

/-- `IPv4Address._parse_octet` -/
def isOctet (s : Str) : Bool :=
  s ≠ [] && s.all isDigit && s.length ≤ 3 && (s = lit "0" || s.head? ≠ some (CodePoint.ofChar '0'))
    && ofDigits s ≤ 255

/-- `ipaddress.IPv4Address` -/
def isIpv4 (s : Str) : Bool :=
  let octets := s.splitOn dot
  octets.length = 4 && octets.all isOctet

/-- `IPv6Address._parse_hextet` -/
def isHextet (s : Str) : Bool := s ≠ [] && s.length ≤ 4 && s.all fun c => (hexValue c).isSome

/-- The parts of an address: eight, or fewer around one empty part that stands for the others. -/
def isIpv6Parts (parts : List Str) : Bool :=
  let last := parts.length - 1
  let empty := (List.range parts.length).filter fun i =>
    0 < i && i < last && parts[i]?.any (· = [])
  match empty with
  | [] => parts.length = 8 && parts.all isHextet
  | [skip] =>
    let hi := if parts.head? = some [] then skip - 1 else skip
    let lo := if parts.getLast? = some [] then last - skip - 1 else last - skip
    (parts.head? ≠ some [] || hi = 0) && (parts.getLast? ≠ some [] || lo = 0) && hi + lo ≤ 7
      && (parts.take hi).all isHextet && (parts.drop (parts.length - lo)).all isHextet
  | _ => false

/-- `ipaddress.IPv6Address` -/
def isIpv6 (s : Str) : Bool :=
  let percent := CodePoint.ofChar '%'
  let address := s.takeWhile (· ≠ percent)
  let scope := (s.dropWhile (· ≠ percent)).drop 1
  let parts := address.splitOn colon
  let quad := (parts.getLast?.getD []).any (· = dot)
  let parts' := if quad then parts.dropLast ++ [lit "0", lit "0"] else parts
  s.all (· ≠ CodePoint.ofChar '/')
    && (s.all (· ≠ percent) || (scope ≠ [] && scope.all (· ≠ percent)))
    && 3 ≤ parts.length && (!quad || isIpv4 (parts.getLast?.getD [])) && parts'.length ≤ 9
    && isIpv6Parts parts'

example : (["::1", "fe80::1%eth0", "1::2::3", "::ffff:10.0.0.1", "1:2:3:4:5:6:7:"].map fun s =>
    isIpv6 (lit s)) = [true, true, false, true, false] := by
  decide +kernel

/-- `_is_literal_ip` -/
def isLiteralIp (hostname : Str) : Bool := isIpv4 hostname || isIpv6 hostname

/-! ## Hosts -/

/-- `str.isdecimal` -/
def isDecimal (u : Unicode) (s : Str) : Bool := s ≠ [] && s.all fun c => (u.decimal c).isSome

/-- `_looks_like_alternate_ip_notation` -/
def looksLikeAlternateIpNotation (u : Unicode) (hostname : Str) : Bool :=
  if (lit "0x").isPrefixOf (u.lower hostname) then true
  else if isDecimal u hostname then true
  else
    let labels := hostname.splitOn dot
    labels.length = 4 && labels.all (isDecimal u)
      && labels.any fun label => 1 < label.length && label.head? = some (CodePoint.ofChar '0')

def metadataHosts : List Str :=
  [lit "instance-data", lit "instance-data.ec2.internal", lit "metadata.azure.internal",
    lit "metadata.google.internal"]

/-- `TargetValidationBoundary`, as far as a configuration can meet it. -/
inductive Boundary where
  | malformedUrl
  | httpsRequired
  | userinfoForbidden
  | nonstandardPort
  | pathForbidden
  | queryOrFragmentForbidden
  | redirectsEnabled
  | metadataTarget
  | literalIp
  | alternateIpNotation
deriving DecidableEq

/-- `TargetValidationError` -/
structure TargetValidationError where
  boundary : Boundary
  message : String
deriving DecidableEq

abbrev Registered := Except TargetValidationError

def deny {α : Type} (boundary : Boundary) (message : String) : Registered α :=
  .error ⟨boundary, message⟩

def denyWhen (c : Prop) [Decidable c] (boundary : Boundary) (message : String) : Registered Unit :=
  if c then deny boundary message else .ok ()

/-- `_validate_hostname` -/
def validateHostname (u : Unicode) (hostname : Str) : Registered Unit :=
  if hostname ∈ metadataHosts then deny .metadataTarget "Metadata targets are forbidden."
  else if isLiteralIp hostname then deny .literalIp "Literal IP target hosts are forbidden."
  else if looksLikeAlternateIpNotation u hostname then
    deny .alternateIpNotation "Alternate IP notation is forbidden."
  else .ok ()

/-- A `SplitResult` of `urlsplit`; its port may raise. -/
structure SplitResult where
  scheme : Str
  netloc : Str
  path : Str
  query : Str
  fragment : Str
  username : Option Str
  password : Option Str
  hostname : Option Str
  port : Option (Option Nat)

structure TargetConfiguration where
  baseUrl : Str
  redirectsAllowed : Bool
  schemaVersion : Str

structure TargetOrigin where
  hostname : Str
  port : Nat
  origin : Str

/-- `_parse_url` -/
def parseUrl (urlsplit : Str → Option SplitResult) (value : Str) : Registered SplitResult :=
  if value = [] ∨ value ≠ strip value ∨ value.any (·.val = 0) then
    deny .malformedUrl "Target URL is malformed."
  else
    match urlsplit value with
    | none => deny .malformedUrl "Target URL is malformed."
    | some parsed =>
      if parsed.port.isNone then deny .malformedUrl "Target URL is malformed."
      else if parsed.scheme = [] ∨ parsed.netloc = [] ∨ parsed.hostname = none then
        deny .malformedUrl "Target URL must include a scheme and hostname."
      else .ok parsed

/-- `hostname.lower().rstrip(".")` -/
def normalizedHostname (u : Unicode) (parsed : SplitResult) : Registered Str :=
  match parsed.hostname with
  | none => deny .malformedUrl "Target URL must include a hostname."
  | some hostname => .ok (rstripChars (lit ".") (u.lower hostname))

/-- `_parse_target_origin` -/
def parseTargetOrigin (u : Unicode) (urlsplit : Str → Option SplitResult)
    (target : TargetConfiguration) : Registered TargetOrigin := do
  denyWhen (target.schemaVersion ≠ lit "target-registry/v1") .malformedUrl
    "Target configuration has an unsupported schema version."
  denyWhen target.redirectsAllowed .redirectsEnabled "Target redirects must remain disabled."
  let parsed ← parseUrl urlsplit target.baseUrl
  denyWhen (parsed.scheme ≠ lit "https") .httpsRequired "Target URL must use HTTPS."
  denyWhen (parsed.username.isSome || parsed.password.isSome) .userinfoForbidden
    "Target URL must not include user information."
  denyWhen (parsed.query ≠ [] ∨ parsed.fragment ≠ []) .queryOrFragmentForbidden
    "Target URL must not include a query string or fragment."
  denyWhen (parsed.path ≠ [] ∧ parsed.path ≠ lit "/") .pathForbidden
    "Target URL must identify an origin, not a resource path."
  let hostname ← normalizedHostname u parsed
  validateHostname u hostname
  -- `parseUrl` has read the port once; a port of zero counts as none
  let port := match parsed.port with
    | some (some (n + 1)) => n + 1
    | _ => 443
  denyWhen (port ≠ 443) .nonstandardPort "Target URL must use the standard HTTPS port."
  return ⟨hostname, port, lit "https://" ++ hostname⟩

/-- `str.lower` of ASCII. -/
def lowerAscii (c : CodePoint) : CodePoint :=
  if 0x41 ≤ c.val ∧ c.val ≤ 0x5A then Fin.ofNat _ (c.val + 0x20) else c

/-! ## The notations of `inet_aton` -/

/-- The part is hexadecimal. -/
def isHexPart : Str → Bool
  | zero :: x :: _ =>
    zero = CodePoint.ofChar '0' && (x = CodePoint.ofChar 'x' || x = CodePoint.ofChar 'X')
  | _ => false

/-- The number that a part spells. -/
def partValue (s : Str) : Option Nat :=
  if isHexPart s then
    match s.drop 2 with
    | [] => none
    | digits =>
      (digits.mapM hexValue).map fun values => values.foldl (fun n d => 16 * n + d) 0
  else if s = [] ∨ !s.all isDigit then none
  else if s.head? = some (CodePoint.ofChar '0') then
    if s.all fun c => c.val < 0x38 then some (s.foldl (fun n c => 8 * n + (c.val - 48)) 0) else none
  else some (ofDigits s)

/-- `inet_aton`: the parts but the last are bytes, and the last fills the bytes that remain. -/
def inetAton (host : Str) : Option Nat := do
  let values ← (host.splitOn dot).mapM partValue
  let last := values.getLast?.getD 0
  if values.length ≤ 4 ∧ (∀ v ∈ values.dropLast, v ≤ 255) ∧ last < 256 ^ (5 - values.length) then
    some (values.dropLast.foldl (fun n v => 256 * n + v) 0 * 256 ^ (5 - values.length) + last)
  else none

example : (["127.0.0.1", "0177.1", "0x7f.1", "2130706433", "1.2.3.4.5", "08.1", "256.1.1.1",
    "127.0.0.0x1"].map fun s => inetAton (lit s)) =
    [some 0x7F000001, some 0x7F000001, some 0x7F000001, some 0x7F000001, none, none, none,
      some 0x7F000001] := by
  decide +kernel

/-! ## What is refused -/

/-- `str.lower` and `str.isdecimal` on ASCII. -/
structure AsciiTables (u : Unicode) : Prop where
  lower : ∀ s : Str, (∀ c ∈ s, c.val < 128) → u.lower s = s.map lowerAscii
  decimal : ∀ c : CodePoint, c.val < 128 → ((u.decimal c).isSome = true ↔ isDigit c = true)

theorem val_lt_of_hexValue {c : CodePoint} (h : (hexValue c).isSome = true) : c.val < 128 := by
  by_contra large
  rw [hexValue, if_neg (by omega), if_neg (by omega), if_neg (by omega)] at h
  cases h

theorem val_lt_of_isDigit {c : CodePoint} (h : isDigit c = true) : c.val < 128 := by
  simp only [isDigit, Bool.and_eq_true, decide_eq_true_eq] at h
  omega

/-- The two shapes of a part. -/
theorem partValue_shape {s : Str} (h : (partValue s).isSome = true) :
    (isHexPart s = true ∧ ∀ c ∈ s.drop 2, (hexValue c).isSome = true) ∨
      isHexPart s = false ∧ s ≠ [] ∧ s.all isDigit = true := by
  unfold partValue at h
  by_cases hex : isHexPart s = true
  · left
    rw [if_pos hex] at h
    split at h
    · cases h
    · rw [Option.isSome_map] at h
      obtain ⟨values, read⟩ := Option.isSome_iff_exists.mp h
      refine ⟨hex, fun c hc => ?_⟩
      obtain ⟨n, -, value⟩ := exists_of_mapM_some read hc
      rw [value]
      rfl
  · right
    rw [if_neg hex] at h
    split at h
    · cases h
    · rename_i shape
      simp only [not_or, Bool.not_eq_true', Bool.not_eq_false] at shape
      exact ⟨Bool.eq_false_iff.mpr hex, shape⟩

theorem isHexPart_cases {s : Str} (hex : isHexPart s = true) :
    ∃ x rest, s = CodePoint.ofChar '0' :: x :: rest ∧
      (x = CodePoint.ofChar 'x' ∨ x = CodePoint.ofChar 'X') := by
  unfold isHexPart at hex
  split at hex
  · rename_i zero x rest
    simp only [Bool.and_eq_true, Bool.or_eq_true, decide_eq_true_eq] at hex
    exact ⟨x, rest, by rw [hex.1], hex.2⟩
  · cases hex

theorem part_ascii {s : Str} (h : (partValue s).isSome = true) : s ≠ [] ∧ ∀ c ∈ s, c.val < 128 := by
  rcases partValue_shape h with ⟨hex, digits⟩ | ⟨-, some', all⟩
  · obtain ⟨x, rest, rfl, letter⟩ := isHexPart_cases hex
    refine ⟨List.cons_ne_nil _ _, fun c hc => ?_⟩
    rcases List.mem_cons.mp hc with rfl | hc
    · decide
    rcases List.mem_cons.mp hc with rfl | hc
    · rcases letter with rfl | rfl <;> decide
    · exact val_lt_of_hexValue (digits c hc)
  · exact ⟨some', fun c hc => val_lt_of_isDigit (List.all_eq_true.mp all c hc)⟩

/-! ## Joined parts -/

theorem intercalate_eq (a : CodePoint) (p : Str) (parts : List Str) :
    [a].intercalate (p :: parts) = p ++ parts.flatMap (a :: ·) := by
  induction parts generalizing p with
  | nil => simp
  | cons q parts ih =>
    rw [List.intercalate_cons_cons, ih, List.flatMap_cons]
    simp

/-- A host with its parts. -/
structure Notation (host part : Str) (parts : List Str) : Prop where
  split : host.splitOn dot = part :: parts
  joined : host = part ++ parts.flatMap (dot :: ·)
  spelled : ∀ p ∈ part :: parts, (partValue p).isSome = true
  bytes : (part :: parts).length = 4 → ∀ p ∈ part :: parts, ∃ v, partValue p = some v ∧ v ≤ 255

theorem exists_notation {host : Str} (address : (inetAton host).isSome = true) :
    ∃ part parts, Notation host part parts := by
  obtain ⟨part, parts, split⟩ := List.exists_cons_of_ne_nil (List.splitOn_ne_nil dot host)
  obtain ⟨n, read⟩ := Option.isSome_iff_exists.mp address
  obtain ⟨values, read, bounded⟩ := Option.bind_eq_some_iff.mp read
  rw [split] at read
  refine ⟨part, parts, split, ?_, fun p hp => ?_, fun four p hp => ?_⟩
  · rw [← intercalate_eq, ← split, List.intercalate_splitOn]
  · obtain ⟨v, -, value⟩ := exists_of_mapM_some read hp
    rw [value]
    rfl
  · obtain ⟨v, listed, value⟩ := exists_of_mapM_some read hp
    refine ⟨v, value, ?_⟩
    have length := (length_of_mapM_some read).trans four
    simp only [length, Option.ite_none_right_eq_some] at bounded
    obtain ⟨⟨-, first, last⟩, -⟩ := bounded
    have some' : values ≠ [] := List.ne_nil_of_mem listed
    rw [← List.dropLast_append_getLast some'] at listed
    rcases List.mem_append.mp listed with listed | listed
    · exact first v listed
    · obtain rfl := List.mem_singleton.mp listed
      rw [List.getLast?_eq_some_getLast some', Option.getD_some] at last
      omega

theorem lowerAscii_val (c : CodePoint) :
    (lowerAscii c).val = if 0x41 ≤ c.val ∧ c.val ≤ 0x5A then c.val + 0x20 else c.val := by
  unfold lowerAscii
  split
  · rename_i upper
    exact Nat.mod_eq_of_lt (by omega)
  · rfl

theorem lowerAscii_zero {c : CodePoint} :
    lowerAscii c = CodePoint.ofChar '0' ↔ c = CodePoint.ofChar '0' := by
  have val : (CodePoint.ofChar '0').val = 0x30 := rfl
  rw [Fin.ext_iff, Fin.ext_iff, lowerAscii_val, val]
  split <;> omega

theorem lowerAscii_x {c : CodePoint} :
    lowerAscii c = CodePoint.ofChar 'x' ↔ c = CodePoint.ofChar 'x' ∨ c = CodePoint.ofChar 'X' := by
  have low : (CodePoint.ofChar 'x').val = 0x78 := rfl
  have high : (CodePoint.ofChar 'X').val = 0x58 := rfl
  rw [Fin.ext_iff, Fin.ext_iff, Fin.ext_iff, lowerAscii_val, low, high]
  split <;> omega

namespace Notation

variable {u : Unicode} {host part : Str} {parts : List Str}

theorem ascii (h : Notation host part parts) : ∀ c ∈ host, c.val < 128 := by
  intro c hc
  rw [h.joined] at hc
  rcases List.mem_append.mp hc with hc | hc
  · exact (part_ascii (h.spelled part List.mem_cons_self)).2 c hc
  · obtain ⟨p, hp, hc⟩ := List.mem_flatMap.mp hc
    rcases List.mem_cons.mp hc with rfl | hc
    · decide
    · exact (part_ascii (h.spelled p (List.mem_cons_of_mem _ hp))).2 c hc

/-- A host starts with `0x` when its first part is hexadecimal. -/
theorem startsHex (tables : AsciiTables u) (h : Notation host part parts) :
    (lit "0x").isPrefixOf (u.lower host) = isHexPart part := by
  have marker : lit "0x" = [CodePoint.ofChar '0', CodePoint.ofChar 'x'] := rfl
  rw [tables.lower host h.ascii, h.joined, marker]
  obtain ⟨some', -⟩ := part_ascii (h.spelled part List.mem_cons_self)
  obtain ⟨c, rest, rfl⟩ := List.exists_cons_of_ne_nil some'
  cases rest with
  | cons d rest =>
    rw [Bool.eq_iff_iff]
    simp only [isHexPart, List.cons_append, List.map_cons, List.isPrefixOf, Bool.and_true,
      Bool.and_eq_true, Bool.or_eq_true, beq_iff_eq, decide_eq_true_eq]
    rw [eq_comm, lowerAscii_zero, eq_comm (a := CodePoint.ofChar 'x'), lowerAscii_x]
  | nil =>
    have other : (CodePoint.ofChar 'x' == lowerAscii dot) = false := by decide
    have short : isHexPart [c] = false := rfl
    rw [short]
    cases parts with
    | nil => exact Bool.and_false _
    | cons p parts =>
      simp only [List.flatMap_cons, List.cons_append, List.map_cons, List.isPrefixOf, other,
        Bool.false_and, Bool.and_false, List.nil_append]

theorem isDecimal_iff (tables : AsciiTables u) {s : Str} (ascii : ∀ c ∈ s, c.val < 128) :
    isDecimal u s = true ↔ s ≠ [] ∧ s.all isDigit = true := by
  simp only [isDecimal, Bool.and_eq_true, decide_eq_true_eq, List.all_eq_true]
  exact and_congr_right fun _ => forall₂_congr fun c hc => tables.decimal c (ascii c hc)

theorem hexPart_not_digits {s : Str} (hex : isHexPart s = true) : s.all isDigit = false := by
  obtain ⟨x, rest, rfl, letter⟩ := isHexPart_cases hex
  have notDigit : isDigit x = false := by rcases letter with rfl | rfl <;> decide
  simp only [List.all_cons, notDigit, Bool.false_and, Bool.and_false]

theorem decimal_part (tables : AsciiTables u) (h : Notation host part parts) {p : Str}
    (hp : p ∈ part :: parts) : isDecimal u p = !isHexPart p := by
  obtain ⟨some', ascii⟩ := part_ascii (h.spelled p hp)
  rw [Bool.eq_iff_iff, isDecimal_iff tables ascii, Bool.not_eq_true']
  rcases partValue_shape (h.spelled p hp) with ⟨hex, -⟩ | ⟨notHex, -, all⟩
  · simp only [hex, hexPart_not_digits hex, Bool.false_eq_true, and_false, Bool.true_eq_false]
  · simp only [notHex, all, some', ne_eq, not_false_eq_true, and_self]

/-- A host of decimal digits has one part. -/
theorem decimal_host (tables : AsciiTables u) (h : Notation host part parts) :
    isDecimal u host = true ↔ parts = [] ∧ isHexPart part = false := by
  rw [isDecimal_iff tables h.ascii, h.joined]
  cases parts with
  | nil =>
    have part' := h.decimal_part tables List.mem_cons_self
    have ascii := (part_ascii (h.spelled part List.mem_cons_self)).2
    rw [List.flatMap_nil, List.append_nil, ← isDecimal_iff tables ascii, part']
    simp
  | cons p parts =>
    have dot' : isDigit dot = false := by decide
    simp [dot']

end Notation

/-! ## Four parts -/

theorem colon_not_mem_part {s : Str} (h : (partValue s).isSome = true) : colon ∉ s := by
  rcases partValue_shape h with ⟨hex, digits⟩ | ⟨-, -, all⟩
  · obtain ⟨x, rest, rfl, letter⟩ := isHexPart_cases hex
    intro listed
    rcases List.mem_cons.mp listed with same | listed
    · exact absurd same (by decide)
    rcases List.mem_cons.mp listed with rfl | listed
    · revert letter
      decide
    · exact absurd (digits colon listed) (by decide)
  · exact fun listed => absurd (List.all_eq_true.mp all colon listed) (by decide)

theorem splitOn_absent {a : CodePoint} {s : Str} (absent : a ∉ s) : s.splitOn a = [s] := by
  have one : ([a].intercalate [s]).splitOn a = [s] :=
    List.splitOn_intercalate a (by simpa using absent) (List.cons_ne_nil _ _)
  rwa [List.intercalate_singleton] at one

theorem not_isIpv6 {s : Str} (absent : colon ∉ s) : isIpv6 s = false := by
  have one : (s.takeWhile (· ≠ CodePoint.ofChar '%')).splitOn colon =
      [s.takeWhile (· ≠ CodePoint.ofChar '%')] :=
    splitOn_absent fun listed => absent (List.takeWhile_sublist _ |>.mem listed)
  simp only [isIpv6, one, List.length_singleton, Nat.reduceLeDiff, decide_false, Bool.and_false,
    Bool.false_and]

/-- Digits without a leading zero are as many as their value needs. -/
theorem length_le_of_ofDigits {c : CodePoint} {t : Str} (digit : isDigit c = true)
    (leading : c ≠ CodePoint.ofChar '0') (small : ofDigits (c :: t) ≤ 255) :
    (c :: t).length ≤ 3 := by
  have zero' : (CodePoint.ofChar '0').val = 48 := rfl
  rw [Ne, Fin.ext_iff, zero'] at leading
  simp only [isDigit, Bool.and_eq_true, decide_eq_true_eq] at digit
  have value : ofDigits (c :: t) = (c.val - 48) * 10 ^ t.length + ofDigits t := by
    rw [← List.singleton_append, ofDigits_append]
    simp [ofDigits]
  by_contra long
  rw [List.length_cons] at long
  have power : 10 ^ 3 ≤ 10 ^ t.length := Nat.pow_le_pow_right (by decide) (by omega)
  have lead : 1 * 10 ^ t.length ≤ (c.val - 48) * 10 ^ t.length :=
    Nat.mul_le_mul_right _ (by omega)
  omega

/-- A byte that is neither hexadecimal nor has a leading zero. -/
theorem isOctet_of_partValue {s : Str} {v : Nat} (value : partValue s = some v) (small : v ≤ 255)
    (notHex : isHexPart s = false)
    (plain : (1 < s.length && s.head? = some (CodePoint.ofChar '0')) = false) :
    isOctet s = true := by
  rcases partValue_shape (by rw [value]; rfl) with ⟨hex, -⟩ | ⟨-, some', all⟩
  · cases notHex.symm.trans hex
  obtain ⟨c, t, rfl⟩ := List.exists_cons_of_ne_nil some'
  by_cases leading : c = CodePoint.ofChar '0'
  · subst leading
    have single : t = [] := by simpa using plain
    subst single
    decide +kernel
  · have decimal : ofDigits (c :: t) = v := by
      rw [partValue, notHex, if_neg Bool.false_ne_true, if_neg (by simp [all]),
        if_neg (by simpa using leading)] at value
      exact Option.some.inj value
    have digit : isDigit c = true := List.all_eq_true.mp all c List.mem_cons_self
    have short := length_le_of_ofDigits digit leading (decimal ▸ small)
    simpa [isOctet, all, leading, decimal, small] using short

/-! ## Hosts -/

namespace Notation

variable {u : Unicode} {host part : Str} {parts : List Str}

theorem colon_not_mem (h : Notation host part parts) : colon ∉ host := by
  intro listed
  rw [h.joined] at listed
  rcases List.mem_append.mp listed with listed | listed
  · exact colon_not_mem_part (h.spelled part List.mem_cons_self) listed
  · obtain ⟨p, hp, listed⟩ := List.mem_flatMap.mp listed
    rcases List.mem_cons.mp listed with same | listed
    · exact absurd same (by decide)
    · exact colon_not_mem_part (h.spelled p (List.mem_cons_of_mem _ hp)) listed

theorem isLiteralIp_eq (h : Notation host part parts) :
    isLiteralIp host = ((part :: parts).length = 4 && (part :: parts).all isOctet) := by
  simp only [isLiteralIp, not_isIpv6 h.colon_not_mem, Bool.or_false, isIpv4, h.split]

theorem alternate_iff (tables : AsciiTables u) (h : Notation host part parts) :
    looksLikeAlternateIpNotation u host = true ↔
      isHexPart part = true ∨ parts = [] ∨
        (part :: parts).length = 4 ∧ (part :: parts).any isHexPart = false ∧
          ((part :: parts).any fun p => 1 < p.length && p.head? = some (CodePoint.ofChar '0')) =
            true := by
  have decimal : (part :: parts).all (isDecimal u) = !(part :: parts).any isHexPart := by
    rw [List.not_any_eq_all_not]
    exact Bool.eq_iff_iff.mpr (by
      simp only [List.all_eq_true]
      exact forall₂_congr fun p hp => by rw [h.decimal_part tables hp])
  simp only [looksLikeAlternateIpNotation, h.startsHex tables, h.split, decimal]
  by_cases hex : isHexPart part = true
  · simp [hex]
  by_cases single : parts = []
  · have digits := (h.decimal_host tables).mpr ⟨single, Bool.eq_false_iff.mpr hex⟩
    simp [single, digits]
  · have notDigits : ¬ isDecimal u host = true := fun digits =>
      single ((h.decimal_host tables).mp digits).1
    rw [if_neg hex, if_neg notDigits, Bool.and_eq_true, Bool.and_eq_true, decide_eq_true_eq,
      Bool.not_eq_true', and_assoc]
    simp only [hex, single, Bool.false_eq_true, false_or]

/-- Four parts without a hexadecimal one are a literal address, or have a leading zero. -/
theorem literal_of_plain (h : Notation host part parts) (four : (part :: parts).length = 4)
    (notHex : (part :: parts).any isHexPart = false)
    (plain : ((part :: parts).any fun p => 1 < p.length && p.head? = some (CodePoint.ofChar '0')) =
      false) : isLiteralIp host = true := by
  rw [h.isLiteralIp_eq, decide_eq_true four, Bool.true_and, List.all_eq_true]
  intro p hp
  obtain ⟨v, value, small⟩ := h.bytes four p hp
  rw [List.any_eq_false] at notHex plain
  exact isOctet_of_partValue value small (Bool.eq_false_iff.mpr (notHex p hp))
    (Bool.eq_false_iff.mpr (plain p hp))

/-- A literal address has four parts without a hexadecimal one. -/
theorem plain_of_literal (h : Notation host part parts) (literal : isLiteralIp host = true) :
    (part :: parts).length = 4 ∧ (part :: parts).any isHexPart = false := by
  rw [h.isLiteralIp_eq, Bool.and_eq_true, decide_eq_true_eq] at literal
  refine ⟨literal.1, List.any_eq_false.mpr fun p hp hex => ?_⟩
  have octet := List.all_eq_true.mp literal.2 p hp
  simp [isOctet, hexPart_not_digits hex] at octet

end Notation

/-- What the registry refuses of the notations: a host of one part, a hexadecimal first part, and
four parts of which none is hexadecimal. -/
def Refusable (host : Str) : Prop :=
  let parts := host.splitOn dot
  parts.length = 1 ∨ parts.head?.any isHexPart = true ∨
    parts.length = 4 ∧ parts.any isHexPart = false

/-- The host is refused as an address, and no target gives it to the resolver. -/
structure KeptOut (u : Unicode) (host : Str) : Prop where
  refused : ∃ message, validateHostname u host = .error ⟨.literalIp, message⟩ ∨
    validateHostname u host = .error ⟨.alternateIpNotation, message⟩
  unresolved : ∀ urlsplit target origin, parseTargetOrigin u urlsplit target = .ok origin →
    origin.hostname ≠ host

/-- A target has a host that was validated. -/
theorem parseTargetOrigin_hostname {u : Unicode} {urlsplit : Str → Option SplitResult}
    {target : TargetConfiguration} {origin : TargetOrigin}
    (made : parseTargetOrigin u urlsplit target = .ok origin) :
    validateHostname u origin.hostname = .ok () := by
  obtain ⟨_, -, made⟩ := bind_ok.mp made
  obtain ⟨_, -, made⟩ := bind_ok.mp made
  obtain ⟨parsed, -, made⟩ := bind_ok.mp made
  obtain ⟨_, -, made⟩ := bind_ok.mp made
  obtain ⟨_, -, made⟩ := bind_ok.mp made
  obtain ⟨_, -, made⟩ := bind_ok.mp made
  obtain ⟨_, -, made⟩ := bind_ok.mp made
  obtain ⟨hostname, -, made⟩ := bind_ok.mp made
  obtain ⟨_, valid, made⟩ := bind_ok.mp made
  obtain ⟨_, -, made⟩ := bind_ok.mp made
  obtain rfl := Except.ok.inj made
  exact valid

/-- A host that `inet_aton` reads is kept out exactly when it is written in one of these ways. -/
theorem keptOut_iff {u : Unicode} (tables : AsciiTables u) {host : Str}
    (address : (inetAton host).isSome = true) : KeptOut u host ↔ Refusable host := by
  obtain ⟨part, parts, h⟩ := exists_notation address
  have known : host ∉ metadataHosts := by
    have none : ∀ m ∈ metadataHosts, (inetAton m).isSome = false := by decide +kernel
    intro listed
    rw [none host listed] at address
    cases address
  have shape : Refusable host ↔ isHexPart part = true ∨ parts = [] ∨
      (part :: parts).length = 4 ∧ (part :: parts).any isHexPart = false := by
    simp only [Refusable, h.split, List.head?_cons, Option.any_some, List.length_cons,
      Nat.add_eq_right, List.length_eq_zero_iff]
    rw [or_left_comm]
  rw [shape]
  constructor
  · rintro ⟨⟨message, refused⟩, -⟩
    by_contra other
    simp only [not_or] at other
    have notLiteral : isLiteralIp host = false :=
      Bool.eq_false_iff.mpr fun literal => other.2.2 (h.plain_of_literal literal)
    have notAlternate : looksLikeAlternateIpNotation u host = false := by
      refine Bool.eq_false_iff.mpr fun alternate => ?_
      rcases (h.alternate_iff tables).mp alternate with hex | single | ⟨four, plain, -⟩
      · exact other.1 hex
      · exact other.2.1 single
      · exact other.2.2 ⟨four, plain⟩
    simp [validateHostname, known, notLiteral, notAlternate] at refused
  · intro refusable
    have refused : ∃ message, validateHostname u host = .error ⟨.literalIp, message⟩ ∨
        validateHostname u host = .error ⟨.alternateIpNotation, message⟩ := by
      by_cases literal : isLiteralIp host = true
      · exact ⟨_, .inl (by rw [validateHostname, if_neg known, if_pos literal]; rfl)⟩
      · have alternate : looksLikeAlternateIpNotation u host = true := by
          refine (h.alternate_iff tables).mpr (refusable.imp_right (Or.imp_right ?_))
          rintro ⟨four, notHex⟩
          refine ⟨four, notHex, ?_⟩
          by_contra plain
          exact literal (h.literal_of_plain four notHex (Bool.eq_false_iff.mpr plain))
        exact ⟨_, .inr (by rw [validateHostname, if_neg known, if_neg literal, if_pos alternate]; rfl)⟩
    refine ⟨refused, ?_⟩
    rintro urlsplit target origin made rfl
    have valid := parseTargetOrigin_hostname made
    obtain ⟨message, refused | refused⟩ := refused
    · cases valid.symm.trans refused
    · cases valid.symm.trans refused

/-- The tables of ASCII. -/
def asciiUnicode : Unicode where
  lower s := s.map lowerAscii
  decimal c := if isDigit c then some (c.val - 48) else none

theorem asciiUnicode_tables : AsciiTables asciiUnicode where
  lower _ _ := rfl
  decimal c _ := by
    by_cases digit : isDigit c = true
    · simp [asciiUnicode, digit]
    · simp [asciiUnicode, digit]

theorem keptOut_iff_sample : KeptOut asciiUnicode (lit "0177.0.0.1") ↔ Refusable (lit "0177.0.0.1") :=
  keptOut_iff asciiUnicode_tables (by decide +kernel)

/-- What `urlsplit` makes of `https://127.1`. -/
def shortHost : SplitResult where
  scheme := lit "https"
  netloc := lit "127.1"
  path := []
  query := []
  fragment := []
  username := none
  password := none
  hostname := some (lit "127.1")
  port := some none

/-- `127.1` is given to the resolver. -/
theorem short_host_resolved :
    (¬ ∀ (u : Unicode) (host : Str), AsciiTables u → (inetAton host).isSome = true → KeptOut u host) ∧
      (parseTargetOrigin asciiUnicode (fun _ => some shortHost)
        ⟨lit "https://127.1", false, lit "target-registry/v1"⟩).map TargetOrigin.hostname =
          .ok (lit "127.1") := by
  refine ⟨fun all => ?_, by decide +kernel⟩
  have refused := (all asciiUnicode (lit "127.1") asciiUnicode_tables (by decide +kernel)).refused
  have accepted : validateHostname asciiUnicode (lit "127.1") = .ok () := by decide +kernel
  obtain ⟨message, refused | refused⟩ := refused
  · cases accepted.symm.trans refused
  · cases accepted.symm.trans refused

end QaCopilot.Execution
