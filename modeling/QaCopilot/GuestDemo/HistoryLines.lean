import QaCopilot.GuestDemo.History
import QaCopilot.Lib.Results
import QaCopilot.Python.JsonLines

/-!
# Lines of the publish history

* `parseLine_toBytes`: the parser reads the line of a well-formed entry back;
* `parseHistory_append`: a line at the end of a history adds its entry;
* `parseHistory_torn`: a line that is cut before its line feed is refused.
-/

namespace QaCopilot.GuestDemo

open Python Results

/-! ## Well-formed entries -/

theorem lineFeed_not_mem {s : Str} {data : Bytes} (printable : Printable s)
    (encoded : encodeAscii s = some data) : lineFeed ∉ data := by
  rw [encodeAscii] at encoded
  split at encoded
  · rename_i ascii
    obtain rfl := Option.some.inj encoded
    intro listed
    obtain ⟨c, hc, eq⟩ := List.mem_map.mp listed
    have low := printable c hc
    have high : c.val < 0x80 := of_decide_eq_true (List.all_eq_true.mp ascii c hc)
    have same := congrArg UInt8.toNat eq
    rw [UInt8.toNat_ofNat', Nat.mod_eq_of_lt (by omega)] at same
    have feed : lineFeed.toNat = 0x0A := rfl
    omega
  · cases encoded

/-- What the parser asks of the values of an entry. -/
structure HistoryEntry.WellFormed (e : HistoryEntry) : Prop where
  hash : isDigest e.contentHash = true
  day : isDay e.date = true
  previous : ∀ h, e.previousHash = some h → e.action = .publish ∧ isDigest h = true
  withdrawn : ∀ h, e.withdrawnHash = some h → e.action = .rollback ∧ isDigest h = true
  names : e.action = .rollback → e.withdrawnHash.isSome = true

/-- The payload as it is printed. -/
def HistoryEntry.sortedPayload (e : HistoryEntry) : Mapping :=
  match e.action with
  | .publish =>
    [(lit "action", .str e.action.text), (lit "content_hash", .str e.contentHash),
      (lit "date", .str e.date), (lit "owner_reviewed", .bool true),
      (lit "previous_hash", optionalText e.previousHash),
      (lit "schema_version", .str historySchemaVersion)]
  | .rollback =>
    [(lit "action", .str e.action.text), (lit "content_hash", .str e.contentHash),
      (lit "date", .str e.date), (lit "schema_version", .str historySchemaVersion),
      (lit "withdrawn_hash", optionalText e.withdrawnHash)]

/-- The keys of the line of each action, in their order. -/
def Action.sortedKeys : Action → List Str
  | .publish =>
    [lit "action", lit "content_hash", lit "date", lit "owner_reviewed", lit "previous_hash",
      lit "schema_version"]
  | .rollback =>
    [lit "action", lit "content_hash", lit "date", lit "schema_version", lit "withdrawn_hash"]

theorem keys_sortedPayload (e : HistoryEntry) : e.sortedPayload.map (·.1) = e.action.sortedKeys := by
  obtain ⟨action, contentHash, date, previousHash, withdrawnHash⟩ := e
  cases action <;> rfl

theorem sorted_payload (e : HistoryEntry) : (Json.dict e.payload).sorted = .dict e.sortedPayload := by
  obtain ⟨action, contentHash, date, previousHash, withdrawnHash⟩ := e
  cases action
  · cases previousHash <;> rfl
  · cases withdrawnHash <;> rfl

theorem sorted_sortedPayload (e : HistoryEntry) :
    (Json.dict e.sortedPayload).sorted = .dict e.sortedPayload := by
  obtain ⟨action, contentHash, date, previousHash, withdrawnHash⟩ := e
  cases action
  · cases previousHash <;> rfl
  · cases withdrawnHash <;> rfl

theorem wordy_optionalText (s : Option Str) : Wordy (optionalText s) := by
  cases s <;> trivial

theorem wordy_sortedPayload (e : HistoryEntry) : ∀ i ∈ e.sortedPayload, Wordy i.2 := by
  intro i hi
  rw [HistoryEntry.sortedPayload] at hi
  split at hi
  all_goals
    simp only [List.mem_cons, List.not_mem_nil, or_false] at hi
    rcases hi with rfl | rfl | rfl | rfl | rfl | rfl
    all_goals first
      | trivial
      | exact wordy_optionalText _

theorem low_of_isDigest {s : Str} (h : isDigest s = true) : ∀ c ∈ s, c.val < 0xD800 := by
  simp only [isDigest, Bool.and_eq_true, List.all_eq_true, Bool.or_eq_true, decide_eq_true_eq] at h
  intro c hc
  have := h.2 c hc
  omega

theorem low_of_isIsoDate {s : Str} (h : isIsoDate s = true) : ∀ c ∈ s, c.val < 0xD800 := by
  unfold isIsoDate at h
  split at h
  · simp only [Bool.and_eq_true, List.all_eq_true, decide_eq_true_eq] at h
    obtain ⟨⟨digits, rfl⟩, rfl⟩ := h
    have low : ∀ c, isDigit c = true → c.val < 0xD800 := by
      intro c hc
      simp only [isDigit, Bool.and_eq_true, decide_eq_true_eq] at hc
      omega
    have dash : (CodePoint.ofChar '-').val < 0xD800 := by decide
    simp only [List.forall_mem_cons] at digits ⊢
    obtain ⟨a, b, c, d, e, f, g, h, -⟩ := digits
    exact ⟨low _ a, low _ b, low _ c, low _ d, dash, low _ e, low _ f, dash, low _ g, low _ h,
      fun c hc => absurd hc List.not_mem_nil⟩
  · cases h

theorem check_optionalText {s : Option Str} (plain : ∀ h, s = some h → isDigest h = true) :
    (optionalText s).check .pairFree = true := by
  cases s with
  | none => rfl
  | some h => exact pairFree_of_low (low_of_isDigest (plain h rfl))

theorem pairFree_sortedPayload {e : HistoryEntry} (valid : e.WellFormed) :
    (Json.dict e.sortedPayload).check .pairFree = true := by
  have hash : pairFree e.contentHash = true := pairFree_of_low (low_of_isDigest valid.hash)
  have day : pairFree e.date = true :=
    pairFree_of_low (low_of_isIsoDate (Bool.and_eq_true_iff.mp valid.day).1)
  have previous := check_optionalText fun h hh => (valid.previous h hh).2
  have withdrawn := check_optionalText fun h hh => (valid.withdrawn h hh).2
  have version : pairFree historySchemaVersion = true := by decide +kernel
  have action : pairFree e.action.text = true := by
    cases e.action <;> decide
  rw [Json.check, Bool.and_eq_true, checkItems_eq_true, keys_sortedPayload]
  constructor
  · cases e.action <;> decide
  · rw [HistoryEntry.sortedPayload]
    split
    · simp only [List.forall_mem_cons]
      exact ⟨action, hash, day, rfl, previous, version, fun i hi => nomatch hi⟩
    · simp only [List.forall_mem_cons]
      exact ⟨action, hash, day, version, withdrawn, fun i hi => nomatch hi⟩

theorem distinct_sortedPayload (e : HistoryEntry) :
    (Json.dict e.sortedPayload).check .distinctKeys = true := by
  have scalar : ∀ v : Json, Wordy v → v.check .distinctKeys = true := by
    intro v wordy
    cases v with
    | null | bool | str => rfl
    | int | float | list | dict => cases wordy
  rw [Json.check, Bool.and_eq_true, checkItems_eq_true, keys_sortedPayload]
  refine ⟨?_, fun i hi => scalar _ (wordy_sortedPayload e i hi)⟩
  cases e.action <;> decide

/-! ## Reading a line back -/

/-- The line of an entry and the value it is the text of. -/
theorem toBytes_ok {p : Platform} {e : HistoryEntry} {data : Bytes} (made : e.toBytes p = .ok data) :
    ∃ text line, dumps .compact p.depth (.dict e.sortedPayload) = .ok text ∧
      encodeAscii text = some line ∧ data = line ++ [lineFeed] := by
  obtain ⟨line, printed, made⟩ := bind_ok.mp made
  obtain rfl := Except.ok.inj made
  obtain ⟨text, dumped, encoded⟩ := canonicalJsonBytes_ok.mp printed
  rw [canonicalDumps, sorted_payload] at dumped
  exact ⟨text, line, dumped, encoded, rfl⟩

theorem lineFeed_not_mem_line {p : Platform} {e : HistoryEntry} {line : Bytes}
    (made : e.toBytes p = .ok (line ++ [lineFeed])) : lineFeed ∉ line := by
  obtain ⟨text, line', dumped, encoded, same⟩ := toBytes_ok made
  obtain rfl := List.append_cancel_right same
  have separators : Printable DumpsOptions.compact.itemSeparator ∧
      Printable DumpsOptions.compact.keySeparator :=
    ⟨printable_of_all (by decide), printable_of_all (by decide)⟩
  exact lineFeed_not_mem (printable_dict separators (wordy_sortedPayload e) dumped) encoded

theorem canonicalObject_line {p : Platform} {e : HistoryEntry} {line : Bytes} (valid : e.WellFormed)
    (made : e.toBytes p = .ok (line ++ [lineFeed])) (label : String) :
    canonicalObject p line label = .ok e.sortedPayload := by
  obtain ⟨text, line', dumped, encoded, same⟩ := toBytes_ok made
  obtain rfl := List.append_cancel_right same
  have read : loads p.depth text = .ok (.dict e.sortedPayload) :=
    loads_dumps separates_compact dumped (distinct_sortedPayload e)
      (fun _ => pairFree_sortedPayload valid) (depth_of_dumps _ dumped)
  have again : canonicalJsonBytes p.depth (.dict e.sortedPayload) = .ok line := by
    refine canonicalJsonBytes_ok.mpr ⟨text, ?_, encoded⟩
    rw [canonicalDumps, sorted_sortedPayload]
    exact dumped
  simp only [canonicalObject, decodeAscii_encodeAscii encoded, read, again, ok_bind, if_pos]

theorem requireText_ok {accepts : Str → Bool} {message : String} {v : Json} {s : Str} :
    requireText accepts message v = .ok s ↔ v = .str s ∧ accepts s = true := by
  unfold requireText
  split
  · split
    · rename_i accepted
      constructor
      · intro h
        obtain rfl := Except.ok.inj h
        exact ⟨rfl, accepted⟩
      · rintro ⟨h, -⟩
        rw [Json.str.inj h]
    · rename_i other
      constructor
      · intro h
        cases h
      · rintro ⟨h, accepted⟩
        exact absurd (Json.str.inj h ▸ accepted) other
  · rename_i other
    constructor
    · intro h
      cases h
    · rintro ⟨rfl, -⟩
      exact absurd rfl (other s)

theorem optionalHash_ok {v : Json} {s : Option Str} :
    optionalHash v = .ok s ↔ v = optionalText s ∧ ∀ h, s = some h → isDigest h = true := by
  cases s with
  | none =>
    unfold optionalHash
    split
    · simp [optionalText]
    · rename_i other
      constructor
      · intro h
        obtain ⟨h, -, made⟩ := bind_ok.mp h
        cases made
      · rintro ⟨rfl, -⟩
        exact absurd rfl other
  | some h =>
    unfold optionalHash
    split
    · constructor
      · intro made
        cases made
      · rintro ⟨same, -⟩
        cases same
    · constructor
      · intro made
        obtain ⟨h', first, made⟩ := bind_ok.mp made
        obtain rfl := Option.some.inj (Except.ok.inj made)
        obtain ⟨rfl, digest⟩ := requireText_ok.mp first
        exact ⟨rfl, fun h eq => Option.some.inj eq ▸ digest⟩
      · rintro ⟨rfl, digest⟩
        exact bind_ok.mpr ⟨h, requireText_ok.mpr ⟨rfl, digest h rfl⟩, rfl⟩

theorem isText_iff {v : Json} {text : Str} : isText v text = true ↔ v = .str text := by
  cases v with
  | str s => simp [isText]
  | null | bool | int | float | list | dict => simp [isText]

theorem isTrue_iff {v : Json} : isTrue v = true ↔ v = .bool true := by
  cases v with
  | bool b => simp [isTrue]
  | null | int | float | str | list | dict => simp [isTrue]

theorem readAction_ok {v : Json} {a : Action} : readAction v = .ok a ↔ v = .str a.text := by
  unfold readAction
  split
  · rename_i publish
    rw [isText_iff] at publish
    subst publish
    cases a
    · simp [Action.text]
    · have other : ¬ lit "publish" = lit "rollback" := by decide
      simp [Action.text, other]
  · rename_i publish
    rw [isText_iff] at publish
    split
    · rename_i rollback
      rw [isText_iff] at rollback
      subst rollback
      cases a
      · simpa [Action.text] using publish
      · simp [Action.text]
    · rename_i rollback
      rw [isText_iff] at rollback
      cases a
      · simpa [Action.text, refuse] using publish
      · simpa [Action.text, refuse] using rollback

theorem refuseWhen_ok {c : Prop} [Decidable c] {message : Str} :
    refuseWhen c message = .ok () ↔ ¬ c := by
  by_cases h : c <;> simp [refuseWhen, refuse, h]

theorem get_absent {payload : Mapping} {keys : List Str} {k : Str}
    (has : hasKeys payload keys = true) (absent : k ∉ keys) : payload.get k = .null := by
  have none' : payload.find? (fun i => decide (i.1 = k)) = none := by
    refine List.find?_eq_none.mpr fun i hi own => absent ?_
    obtain ⟨all, -⟩ := Bool.and_eq_true_iff.mp has
    have listed := of_decide_eq_true (List.all_eq_true.mp all i hi)
    exact of_decide_eq_true own ▸ listed
  rw [Mapping.get, none']
  rfl

/-- An optional hash of a key that the line does not have. -/
theorem optionalHash_absent {payload : Mapping} {keys : List Str} {k : Str} {s : Option Str}
    (has : hasKeys payload keys = true) (absent : k ∉ keys)
    (read : optionalHash (payload.get k) = .ok s) : s = none := by
  rw [get_absent has absent] at read
  exact (Except.ok.inj read).symm

/-- A line that is read, and what was asked of it. -/
theorem parseLine_ok {p : Platform} {line : Bytes} {e : HistoryEntry}
    (read : parseLine p line = .ok e) : e.WellFormed ∧ e.toBytes p = .ok (line ++ [lineFeed]) := by
  obtain ⟨payload, object, read⟩ := bind_ok.mp read
  obtain ⟨action, acted, read⟩ := bind_ok.mp read
  obtain ⟨⟨⟩, keys, read⟩ := bind_ok.mp read
  obtain ⟨contentHash, hash, read⟩ := bind_ok.mp read
  obtain ⟨date, day, read⟩ := bind_ok.mp read
  obtain ⟨previousHash, previous, read⟩ := bind_ok.mp read
  obtain ⟨withdrawnHash, withdrawn, read⟩ := bind_ok.mp read
  obtain ⟨⟨⟩, reviewed, read⟩ := bind_ok.mp read
  obtain ⟨⟨⟩, names, read⟩ := bind_ok.mp read
  obtain ⟨data, made, read⟩ := bind_ok.mp read
  obtain ⟨⟨⟩, same, read⟩ := bind_ok.mp read
  obtain rfl := Except.ok.inj read
  obtain rfl := not_not.mp (refuseWhen_ok.mp same)
  have has : hasKeys payload action.keys = true := by
    have := (not_or.mp (refuseWhen_ok.mp keys)).1
    rwa [Bool.not_eq_false] at this
  refine ⟨⟨(requireText_ok.mp hash).2, (requireText_ok.mp day).2, ?_, ?_, ?_⟩, made⟩
  · rintro h (rfl : previousHash = some h)
    refine ⟨?_, (optionalHash_ok.mp previous).2 h rfl⟩
    cases action with
    | publish => rfl
    | rollback => cases optionalHash_absent has (by decide) previous
  · rintro h (rfl : withdrawnHash = some h)
    refine ⟨?_, (optionalHash_ok.mp withdrawn).2 h rfl⟩
    cases action with
    | publish => cases optionalHash_absent has (by decide) withdrawn
    | rollback => rfl
  · rintro (rfl : action = .rollback)
    have named := refuseWhen_ok.mp names
    rw [not_and] at named
    exact Option.isSome_iff_ne_none.mpr (named rfl)

theorem hasKeys_sortedPayload (e : HistoryEntry) : hasKeys e.sortedPayload e.action.keys = true := by
  have all : e.sortedPayload.all (·.1 ∈ e.action.keys) =
      e.action.sortedKeys.all (· ∈ e.action.keys) := by
    rw [← keys_sortedPayload, List.all_map]
    rfl
  rw [hasKeys, all, keys_sortedPayload]
  cases e.action <;> decide

/-- What the parser finds in the payload of a well-formed entry. -/
theorem get_sortedPayload {e : HistoryEntry} (valid : e.WellFormed) :
    e.sortedPayload.get (lit "action") = .str e.action.text ∧
      e.sortedPayload.get (lit "schema_version") = .str historySchemaVersion ∧
      e.sortedPayload.get (lit "content_hash") = .str e.contentHash ∧
      e.sortedPayload.get (lit "date") = .str e.date ∧
      e.sortedPayload.get (lit "previous_hash") = optionalText e.previousHash ∧
      e.sortedPayload.get (lit "withdrawn_hash") = optionalText e.withdrawnHash ∧
      (e.action = .publish → e.sortedPayload.get (lit "owner_reviewed") = .bool true) := by
  obtain ⟨action, contentHash, date, previousHash, withdrawnHash⟩ := e
  cases action with
  | publish =>
    cases withdrawnHash with
    | none => exact ⟨rfl, rfl, rfl, rfl, rfl, rfl, fun _ => rfl⟩
    | some h => cases (valid.withdrawn h rfl).1
  | rollback =>
    cases previousHash with
    | none => exact ⟨rfl, rfl, rfl, rfl, rfl, rfl, fun act => nomatch act⟩
    | some h => cases (valid.previous h rfl).1

/-- The parser reads the line of a well-formed entry back. -/
theorem parseLine_toBytes {p : Platform} {line : Bytes} {e : HistoryEntry} (valid : e.WellFormed)
    (made : e.toBytes p = .ok (line ++ [lineFeed])) : parseLine p line = .ok e := by
  obtain ⟨action, version, hash, day, previous, withdrawn, reviewed⟩ := get_sortedPayload valid
  refine bind_ok.mpr ⟨_, canonicalObject_line valid made _, ?_⟩
  refine bind_ok.mpr ⟨_, readAction_ok.mpr action, ?_⟩
  refine bind_ok.mpr ⟨(), refuseWhen_ok.mpr ?_, ?_⟩
  · rw [hasKeys_sortedPayload, isText_iff.mpr version]
    simp
  refine bind_ok.mpr ⟨_, requireText_ok.mpr ⟨hash, valid.hash⟩, ?_⟩
  refine bind_ok.mpr ⟨_, requireText_ok.mpr ⟨day, valid.day⟩, ?_⟩
  refine bind_ok.mpr ⟨_, optionalHash_ok.mpr ⟨previous, fun h hh => (valid.previous h hh).2⟩, ?_⟩
  refine bind_ok.mpr ⟨_, optionalHash_ok.mpr ⟨withdrawn, fun h hh => (valid.withdrawn h hh).2⟩, ?_⟩
  refine bind_ok.mpr ⟨(), refuseWhen_ok.mpr ?_, ?_⟩
  · rintro ⟨publish, unreviewed⟩
    rw [isTrue_iff.mpr (reviewed publish)] at unreviewed
    cases unreviewed
  refine bind_ok.mpr ⟨(), refuseWhen_ok.mpr ?_, ?_⟩
  · rintro ⟨rollback, unnamed⟩
    have named := valid.names rollback
    rw [unnamed] at named
    cases named
  exact bind_ok.mpr ⟨_, made, bind_ok.mpr ⟨(), refuseWhen_ok.mpr (not_not.mpr rfl), rfl⟩⟩

/-! ## The whole history -/

/-- The bytes are the lines of these entries, which replay. -/
structure Recorded (p : Platform) (data : Bytes) (entries : List HistoryEntry) : Prop where
  wellFormed : ∀ e ∈ entries, e.WellFormed
  lines : ∃ lines, entries.mapM (·.toBytes p) = .ok lines ∧ data = lines.flatten
  replays : ∃ r, replayHistory entries = .ok r

theorem recorded_nil (p : Platform) : Recorded p [] [] where
  wellFormed := fun _ he => nomatch he
  lines := ⟨[], rfl, rfl⟩
  replays := ⟨.start, rfl⟩

/-- Lines that end in their only line feed, cut apart. -/
theorem splitOn_lines {lines : List Bytes} (some' : lines ≠ []) (clean : ∀ l ∈ lines, lineFeed ∉ l) :
    (lines.map (· ++ [lineFeed])).flatten = [lineFeed].intercalate lines ++ [lineFeed] ∧
      ([lineFeed].intercalate lines).splitOn lineFeed = lines := by
  refine ⟨?_, List.splitOn_intercalate _ clean some'⟩
  clear clean
  induction lines with
  | nil => exact absurd rfl some'
  | cons l ls ih =>
    cases ls with
    | nil => simp [List.intercalate]
    | cons m ms =>
      have rest := ih (List.cons_ne_nil m ms)
      rw [List.map_cons, List.flatten_cons, rest]
      simp [List.intercalate, List.intersperse]

/-- Lines that are written end in a line feed. -/
theorem ends_of_toBytes {p : Platform} {entries : List HistoryEntry} {lines : List Bytes}
    (written : List.Forall₂ (fun e line => e.toBytes p = .ok line) entries lines) :
    ∃ bodies : List Bytes, lines = bodies.map (· ++ [lineFeed]) := by
  induction written with
  | nil => exact ⟨[], rfl⟩
  | cons first _ ih =>
    obtain ⟨bodies, rfl⟩ := ih
    obtain ⟨-, body, -, -, rfl⟩ := toBytes_ok first
    exact ⟨body :: bodies, rfl⟩

theorem parseHistory_nil (p : Platform) : parseHistory p [] = .ok [] := rfl

theorem getLast?_flatten {bodies : List Bytes} (some' : bodies ≠ []) :
    (bodies.map (· ++ [lineFeed])).flatten.getLast? = some lineFeed := by
  obtain ⟨init, last, rfl⟩ := List.eq_nil_or_concat bodies |>.resolve_left some'
  simp

/-- The parser accepts exactly what the entries write. -/
theorem parseHistory_ok {p : Platform} {data : Bytes} {entries : List HistoryEntry} :
    parseHistory p data = .ok entries ↔ Recorded p data entries := by
  constructor
  · intro read
    rw [parseHistory] at read
    split at read
    · rename_i empty
      obtain rfl := Except.ok.inj read
      exact empty ▸ recorded_nil p
    · rename_i some'
      obtain ⟨⟨⟩, ends, read⟩ := bind_ok.mp read
      obtain ⟨parsed, each, read⟩ := bind_ok.mp read
      obtain ⟨r, replayed, read⟩ := bind_ok.mp read
      obtain rfl := Except.ok.inj read
      have all := mapM_ok.mp each
      have feed := not_not.mp (refuseWhen_ok.mp ends)
      have written : List.Forall₂ (fun e line => e.toBytes p = .ok line) parsed
          ((data.dropLast.splitOn lineFeed).map (· ++ [lineFeed])) := by
        rw [List.forall₂_map_right_iff]
        exact all.flip.imp fun _ _ h => (parseLine_ok h).2
      refine ⟨?_, ⟨_, mapM_ok.mpr written, ?_⟩, r, replayed⟩
      · intro e he
        obtain ⟨line, -, read⟩ := forall₂_mem all he
        exact (parseLine_ok read).1
      · have clean : ∀ l ∈ data.dropLast.splitOn lineFeed, lineFeed ∉ l := by
          intro l hl
          obtain ⟨e, -, read⟩ := forall₂_mem all.flip hl
          exact lineFeed_not_mem_line (parseLine_ok read).2
        rw [(splitOn_lines (List.splitOn_ne_nil _ _) clean).1, List.intercalate_splitOn,
          List.dropLast_append_getLast? lineFeed feed]
  · rintro ⟨valid, ⟨lines, written, rfl⟩, r, replayed⟩
    have all := mapM_ok.mp written
    obtain ⟨bodies, rfl⟩ := ends_of_toBytes all
    rw [List.forall₂_map_right_iff] at all
    cases entries with
    | nil =>
      cases all
      rfl
    | cons e es =>
      have some' : bodies ≠ [] := by
        rintro rfl
        cases all
      have clean : ∀ l ∈ bodies, lineFeed ∉ l := by
        intro l hl
        obtain ⟨e, -, made⟩ := forall₂_mem all hl
        exact lineFeed_not_mem_line made
      obtain ⟨joined, cut⟩ := splitOn_lines some' clean
      have feed := getLast?_flatten some'
      have ne : (bodies.map (· ++ [lineFeed])).flatten ≠ [] := by
        intro empty
        rw [empty] at feed
        cases feed
      have each : bodies.mapM (parseLine p) = .ok (e :: es) := by
        refine mapM_ok.mpr (List.Forall₂.flip ?_)
        have both := (List.forall₂_and_left _ _).mpr ⟨valid, all⟩
        exact both.imp fun _ _ h => parseLine_toBytes h.1 h.2
      rw [parseHistory, if_neg ne, refuseWhen, if_neg (not_not.mpr feed), ok_bind, joined,
        List.dropLast_concat, cut, each, ok_bind, replayed]
      rfl

/-- A line at the end adds its entry. -/
theorem Recorded.append {p : Platform} {data line : Bytes} {entries : List HistoryEntry}
    {e : HistoryEntry} (recorded : Recorded p data entries) (valid : e.WellFormed)
    (made : e.toBytes p = .ok line) (replays : ∃ r, replayHistory (entries ++ [e]) = .ok r) :
    Recorded p (data ++ line) (entries ++ [e]) := by
  obtain ⟨lines, written, rfl⟩ := recorded.lines
  refine ⟨?_, ⟨lines ++ [line], ?_, ?_⟩, replays⟩
  · intro x hx
    rcases List.mem_append.mp hx with hx | hx
    · exact recorded.wellFormed x hx
    · exact List.mem_singleton.mp hx ▸ valid
  · rw [List.mapM_append, written]
    simp [made]
  · simp

/-- A line that is cut before its line feed is refused. -/
theorem parseHistory_torn {p : Platform} {data line part : Bytes} {e : HistoryEntry}
    (made : e.toBytes p = .ok line) (cut : part <+: line) (short : part ≠ line) (some' : part ≠ [])
    (entries : List HistoryEntry) : parseHistory p (data ++ part) ≠ .ok entries := by
  obtain ⟨-, body, -, -, rfl⟩ := toBytes_ok made
  have clean := lineFeed_not_mem_line made
  rcases List.prefix_concat_iff.mp cut with rfl | cut
  · exact absurd rfl short
  · intro read
    have ne : data ++ part ≠ [] := by simp [some']
    rw [parseHistory, if_neg ne] at read
    obtain ⟨⟨⟩, ends, -⟩ := bind_ok.mp read
    have feed := not_not.mp (refuseWhen_ok.mp ends)
    rw [List.getLast?_append_of_ne_nil _ some'] at feed
    exact clean (cut.subset (List.mem_of_getLast? feed))

end QaCopilot.GuestDemo
