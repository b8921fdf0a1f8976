import QaCopilot.GuestDemo.SnapshotSchema
import QaCopilot.Python.Datetime
import QaCopilot.Python.Dict

/-!
# The publish history

`publish-history.jsonl`: a line for each publish and each rollback, as canonical JSON. The parser
takes back only the lines that an entry writes, and replays them.
-/

namespace QaCopilot.GuestDemo

open Python

inductive Action where
  | publish
  | rollback
deriving DecidableEq

def Action.text : Action → Str
  | .publish => lit "publish"
  | .rollback => lit "rollback"

structure HistoryEntry where
  action : Action
  contentHash : Str
  date : Str
  previousHash : Option Str
  withdrawnHash : Option Str
deriving DecidableEq

def historySchemaVersion : Str := lit "guest-demo-publish-history/v1"

def refuse {α : Type} (message : Str) : Except Failure α := .error (.refused message)

def refuseWhen (c : Prop) [Decidable c] (message : Str) : Except Failure Unit :=
  if c then refuse message else .ok ()

def optionalText : Option Str → Json
  | none => .null
  | some s => .str s

/-! ## Lines -/

/-- The payload of `HistoryEntry.to_bytes`. -/
def HistoryEntry.payload (e : HistoryEntry) : Mapping :=
  [(lit "schema_version", .str historySchemaVersion), (lit "action", .str e.action.text),
    (lit "content_hash", .str e.contentHash), (lit "date", .str e.date)] ++
  match e.action with
  | .publish => [(lit "owner_reviewed", .bool true), (lit "previous_hash", optionalText e.previousHash)]
  | .rollback => [(lit "withdrawn_hash", optionalText e.withdrawnHash)]

def lineFeed : UInt8 := 0x0A

/-- `HistoryEntry.to_bytes` -/
def HistoryEntry.toBytes (p : Platform) (e : HistoryEntry) : Except Failure Bytes := do
  return (← canonicalJsonBytes p.depth (.dict e.payload)) ++ [lineFeed]

/-! ## Readers -/

/-- `_canonical_object`: a text that nests too deep, and a value that no JSON text stands for, raise
errors that are not caught. -/
def canonicalObject (p : Platform) (data : Bytes) (label : String) : Except Failure Mapping :=
  match decodeAscii data with
  | none => refuse (lit (label ++ " is not canonical JSON"))
  | some text =>
    match loads p.depth text with
    | .error .recursion => .error .recursion
    | .error _ => refuse (lit (label ++ " is not canonical JSON"))
    | .ok (.dict items) => do
      if (← canonicalJsonBytes p.depth (.dict items)) = data then .ok items
      else refuse (lit (label ++ " is not canonical JSON"))
    | .ok _ => refuse (lit (label ++ " is not canonical JSON"))

/-- A text that meets a condition. -/
def requireText (accepts : Str → Bool) (message : String) : Json → Except Failure Str
  | .str s => if accepts s then .ok s else refuse (lit message)
  | _ => refuse (lit message)

def requireHash : Json → Except Failure Str :=
  requireText isDigest "A publication hash must be 64 lowercase hex characters"

/-- `_optional_hash` -/
def optionalHash : Json → Except Failure (Option Str)
  | .null => .ok none
  | v => do return some (← requireHash v)

/-- `_ISO_DATE`, where `fromisoformat` refuses the digits that are not ASCII. -/
def isIsoDate : Str → Bool
  | [a, b, c, d, dash, e, f, dash', g, h] =>
    [a, b, c, d, e, f, g, h].all isDigit && dash = CodePoint.ofChar '-' &&
      dash' = CodePoint.ofChar '-'
  | _ => false

/-- A date that `date.fromisoformat` reads. -/
def isDay (s : Str) : Bool := isIsoDate s && (parseDate s).isSome

/-- `_require_date` -/
def requireDate : Json → Except Failure Str :=
  requireText isDay "A publish history date must be YYYY-MM-DD"

/-- The keys of the line of each action. -/
def Action.keys : Action → List Str
  | .publish =>
    [lit "schema_version", lit "action", lit "content_hash", lit "date", lit "owner_reviewed",
      lit "previous_hash"]
  | .rollback =>
    [lit "schema_version", lit "action", lit "content_hash", lit "date", lit "withdrawn_hash"]

def readAction (v : Json) : Except Failure Action :=
  if isText v (lit "publish") then .ok .publish
  else if isText v (lit "rollback") then .ok .rollback
  else refuse (lit "Unknown publish history action")

/-- A line of the history, without its line feed. -/
def parseLine (p : Platform) (line : Bytes) : Except Failure HistoryEntry := do
  let payload ← canonicalObject p line "publish history line"
  let action ← readAction (payload.get (lit "action"))
  refuseWhen (hasKeys payload action.keys = false ∨
    isText (payload.get (lit "schema_version")) historySchemaVersion = false)
    (lit "Malformed publish history line")
  let entry : HistoryEntry :=
    { action
      contentHash := ← requireHash (payload.get (lit "content_hash"))
      date := ← requireDate (payload.get (lit "date"))
      previousHash := ← optionalHash (payload.get (lit "previous_hash"))
      withdrawnHash := ← optionalHash (payload.get (lit "withdrawn_hash")) }
  refuseWhen (action = .publish ∧ isTrue (payload.get (lit "owner_reviewed")) = false)
    (lit "A publication lacks the owner review attestation")
  refuseWhen (action = .rollback ∧ entry.withdrawnHash = none)
    (lit "A rollback must name the withdrawn publication")
  refuseWhen ((← entry.toBytes p) ≠ line ++ [lineFeed]) (lit "Malformed publish history line")
  return entry

/-! ## Replay -/

/-- The variables of `replay_history`. -/
structure Replay where
  current : Option Str
  published : List Str
  withdrawn : List Str

def Replay.start : Replay := ⟨none, [], []⟩

def replayEntry (r : Replay) (e : HistoryEntry) : Except Failure Replay :=
  if e.contentHash ∈ r.withdrawn then refuse (e.contentHash ++ lit " is withdrawn")
  else
    match e.action with
    | .publish =>
      if e.previousHash ≠ r.current ∨ r.current = some e.contentHash then
        refuse (lit "The publish history is inconsistent")
      else .ok ⟨some e.contentHash, r.published ++ [e.contentHash], r.withdrawn⟩
    | .rollback =>
      match r.current with
      | none => refuse (lit "The publish history is inconsistent")
      | some current =>
        if e.withdrawnHash ≠ some current ∨ e.contentHash ∉ r.published ∨
            e.contentHash = current then
          refuse (lit "The publish history is inconsistent")
        else .ok ⟨some e.contentHash, r.published, r.withdrawn ++ [current]⟩

/-- `replay_history` -/
def replayHistory (entries : List HistoryEntry) : Except Failure Replay :=
  entries.foldlM replayEntry .start

/-- The members of `withdrawn_hashes`. -/
def withdrawnHashes (entries : List HistoryEntry) : List Str :=
  entries.filterMap fun e => if e.action = .rollback then e.withdrawnHash else none

/-- `parse_history` -/
def parseHistory (p : Platform) (data : Bytes) : Except Failure (List HistoryEntry) :=
  if data = [] then .ok []
  else do
    refuseWhen (data.getLast? ≠ some lineFeed) (lit "The publish history must end with a newline")
    let entries ← (data.dropLast.splitOn lineFeed).mapM (parseLine p)
    let _ ← replayHistory entries
    return entries

end QaCopilot.GuestDemo
