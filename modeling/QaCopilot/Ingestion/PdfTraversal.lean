import QaCopilot.Ingestion.PdfParser
import QaCopilot.Lib.Marking
import QaCopilot.Lib.Results

/-!
# The traversal of a PDF file

* `visit_ok`: a traversal that ends well has followed what it marked, and what it marked is fine;
* `visit_safe`: where everything is fine, the traversal ends well or runs out of stack;
* `visit_stack`: a traversal that runs out of stack has gone along a path as long as the stack.
-/

namespace QaCopilot.Ingestion

open Python Results Marking

/-! ## Containers -/

section
variable {ι : Type}

/-- The values of a container, under the names of a dictionary. -/
def PdfContainer.entries : PdfContainer ι → List (Option Str × PdfValue ι)
  | .array items => items.map fun v => (none, v)
  | .dictionary items | .stream items _ _ => items.map fun i => (some i.1, i.2)

/-- The decoded bytes of a stream that has any. -/
def PdfContainer.size : PdfContainer ι → Nat
  | .stream _ _ (.ok data) => data.length
  | _ => 0

/-- A stream decodes, within the limits of one stream. -/
def PdfContainer.streamFine (limits : PdfParserLimits) : PdfContainer ι → Prop
  | .stream _ encoded decoded => ∃ data, decoded = .ok data ∧
      data.length ≤ limits.maxDecodedStreamBytes ∧
        data.length ≤ encoded.length * limits.maxExpansionRatio
  | _ => True

/-- A name that is no key of an attachment or of active content. -/
def isInert (name : Str) : Prop := name ∉ attachmentKeys ∧ name ∉ activeContentKeys

instance (name : Str) : Decidable (isInert name) :=
  inferInstanceAs (Decidable (name ∉ attachmentKeys ∧ name ∉ activeContentKeys))

/-- The container has inert keys, and a stream keeps its limits. -/
structure PdfContainer.Fine (limits : PdfParserLimits) (c : PdfContainer ι) : Prop where
  keys : ∀ i ∈ c.entries, ∀ name ∈ i.1, isInert name
  stream : c.streamFine limits

theorem rejectPdf_ok {bad : Bool} {code : String} : rejectPdf bad code = .ok () ↔ bad = false := by
  cases bad <;> simp [rejectPdf]

theorem rejectPdf_error {bad : Bool} {code : String} {e : PdfFailure} (h : rejectPdf bad code = .error e) :
    e ≠ .stack := by
  cases bad with
  | true => exact Except.error.inj h ▸ nofun
  | false => cases h

theorem checkKey_ok {name : Str} : checkKey name = .ok () ↔ isInert name := by
  unfold checkKey isInert
  constructor
  · intro h
    obtain ⟨_, attachment, h⟩ := bind_ok.mp h
    exact ⟨by simpa using rejectPdf_ok.mp attachment, by simpa using rejectPdf_ok.mp h⟩
  · rintro ⟨attachment, active⟩
    exact bind_ok.mpr ⟨(), rejectPdf_ok.mpr (by simpa using attachment),
      rejectPdf_ok.mpr (by simpa using active)⟩

variable {limits : PdfParserLimits} {s s' : Seen ι} {encoded : Bytes} {decoded : Except PyError Bytes}

theorem checkStream_ok : checkStream limits s encoded decoded = .ok s' ↔ ∃ data, decoded = .ok data ∧
    data.length ≤ limits.maxDecodedStreamBytes ∧
      (s.total + data.length : Nat) ≤ limits.maxTotalDecodedStreamBytes ∧
        data.length ≤ encoded.length * limits.maxExpansionRatio ∧
          s' = { s with total := s.total + data.length } := by
  unfold checkStream
  constructor
  · intro h
    obtain ⟨data, read, h⟩ := bind_ok.mp h
    obtain ⟨_, large, h⟩ := bind_ok.mp h
    obtain ⟨_, total, h⟩ := bind_ok.mp h
    obtain ⟨_, ratio, h⟩ := bind_ok.mp h
    rw [rejectPdf_ok, decide_eq_false_iff_not, not_lt] at large total ratio
    exact ⟨data, mapError_ok.mp read, large, total, ratio, (Except.ok.inj h).symm⟩
  · rintro ⟨data, rfl, large, total, ratio, rfl⟩
    refine bind_ok.mpr ⟨data, rfl, bind_ok.mpr ⟨(), ?_, bind_ok.mpr ⟨(), ?_, bind_ok.mpr ⟨(), ?_, rfl⟩⟩⟩⟩
    all_goals rw [rejectPdf_ok, decide_eq_false_iff_not, not_lt]; assumption

/-- The check of a container when it is marked. -/
def admitContainer (limits : PdfParserLimits) (c : PdfContainer ι) (s : Seen ι) :
    Except PdfFailure (Seen ι) :=
  match c with
  | .stream _ encoded decoded => checkStream limits s encoded decoded
  | _ => .ok s

theorem admit_ok {c : PdfContainer ι} (h : admitContainer limits c s = .ok s') :
    s' = { s with total := s.total + c.size } ∧ c.streamFine limits ∧
      (s.total ≤ limits.maxTotalDecodedStreamBytes → s'.total ≤ limits.maxTotalDecodedStreamBytes) := by
  cases c with
  | array items | dictionary items =>
    obtain rfl := Except.ok.inj h
    exact ⟨rfl, trivial, id⟩
  | stream items encoded decoded =>
    obtain ⟨data, rfl, large, total, ratio, rfl⟩ := checkStream_ok.mp h
    exact ⟨rfl, ⟨data, rfl, large, ratio⟩, fun _ => total⟩

theorem admit_fine {c : PdfContainer ι} (fine : c.streamFine limits)
    (within : (s.total + c.size : Nat) ≤ limits.maxTotalDecodedStreamBytes) :
    admitContainer limits c s = .ok { s with total := s.total + c.size } := by
  cases c with
  | array items | dictionary items => rfl
  | stream items encoded decoded =>
    obtain ⟨data, rfl, large, ratio⟩ := fine
    exact checkStream_ok.mpr ⟨data, rfl, large, within, ratio, rfl⟩

theorem admit_error {c : PdfContainer ι} {e : PdfFailure}
    (h : admitContainer limits c s = .error e) : e ≠ .stack := by
  cases c with
  | array items | dictionary items => cases h
  | stream items encoded decoded =>
    rcases bind_error.mp h with read | ⟨data, -, h⟩
    · cases decoded with
      | error e' => exact Except.error.inj read ▸ nofun
      | ok data => cases read
    · rcases bind_error.mp h with h | ⟨_, -, h⟩
      · exact rejectPdf_error h
      · rcases bind_error.mp h with h | ⟨_, -, h⟩
        · exact rejectPdf_error h
        · rcases bind_error.mp h with h | ⟨_, -, h⟩
          · exact rejectPdf_error h
          · cases h

/-- The check of a name, where there is one. -/
def checkEntry (name : Option Str) : Except PdfFailure Unit :=
  match name with
  | some name => checkKey name
  | none => .ok ()

theorem checkEntry_ok {name : Option Str} : checkEntry name = .ok () ↔ ∀ n ∈ name, isInert n := by
  cases name with
  | none => simp [checkEntry]
  | some name => simp [checkEntry, checkKey_ok]

theorem checkEntry_error {name : Option Str} {e : PdfFailure} (h : checkEntry name = .error e) :
    e ≠ .stack := by
  cases name with
  | none => cases h
  | some name =>
    rcases bind_error.mp h with h | ⟨_, -, h⟩
    · exact rejectPdf_error h
    · exact rejectPdf_error h

end

/-! ## Marks -/

section
variable {ι : Type}

/-- From a reference to its object, from a container to its values. -/
def PdfReader.Child (r : PdfReader ι) : PdfValue ι → PdfValue ι → Prop
  | .indirect idnum generation, v => r.getObject idnum generation = .ok v
  | .direct id, v => ∃ i ∈ (r.heap id).entries, i.2 = v
  | .other, _ => False

/-- What needs no visit any more. -/
def Seen.marked (s : Seen ι) : Set (PdfValue ι) := fun
  | .indirect idnum generation => (idnum, generation) ∈ s.indirect
  | .direct id => id ∈ s.direct
  | .other => True

theorem marked_indirect (s : Seen ι) (idnum generation : Nat) :
    ({ s with indirect := (idnum, generation) :: s.indirect } : Seen ι).marked =
      insert (.indirect idnum generation) s.marked := by
  ext v
  cases v with
  | indirect n g => exact List.mem_cons.trans (or_congr_left (by simp))
  | direct id => exact (or_iff_right nofun).symm
  | other => exact (or_iff_right nofun).symm

/-- The object and its decoded bytes are counted. -/
def Seen.enter (s : Seen ι) (id : ι) (size : Nat) : Seen ι :=
  { s with direct := id :: s.direct, total := s.total + size }

theorem marked_enter (s : Seen ι) (id : ι) (size : Nat) :
    (s.enter id size).marked = insert (.direct id) s.marked := by
  ext v
  cases v with
  | indirect n g => exact (or_iff_right nofun).symm
  | direct id' => exact List.mem_cons.trans (or_congr_left (by simp))
  | other => exact (or_iff_right nofun).symm

/-- The decoded bytes of some objects. -/
def PdfReader.decodedSize (r : PdfReader ι) (ids : List ι) : Nat := (ids.map fun id => (r.heap id).size).sum

/-- The total counts each marked stream once, and is within its limit. -/
structure Tallied (r : PdfReader ι) (limits : PdfParserLimits) (s : Seen ι) : Prop where
  once : s.direct.Nodup
  total : s.total = r.decodedSize s.direct
  within : s.total ≤ limits.maxTotalDecodedStreamBytes

/-- What a traversal that ends well has done. -/
structure Visited (r : PdfReader ι) (limits : PdfParserLimits) (s s' : Seen ι) : Prop where
  expands : Expands r.Child s.marked s'.marked
  opens : ∀ p ∈ s'.indirect, p ∉ s.indirect → ∃ v, r.getObject p.1 p.2 = .ok v
  fine : ∀ id ∈ s'.direct, id ∉ s.direct → (r.heap id).Fine limits
  tallied : Tallied r limits s → Tallied r limits s'

variable {r : PdfReader ι} {limits : PdfParserLimits} {s s' s'' : Seen ι}

theorem Visited.refl (s : Seen ι) : Visited r limits s s :=
  ⟨Expands.refl _, fun _ h new => absurd h new, fun _ h new => absurd h new, id⟩

theorem Visited.trans (first : Visited r limits s s') (later : Visited r limits s' s'') :
    Visited r limits s s'' where
  expands := first.expands.trans later.expands
  opens p h new := by
    by_cases early : p ∈ s'.indirect
    · exact first.opens p early new
    · exact later.opens p h early
  fine id h new := by
    by_cases early : id ∈ s'.direct
    · exact first.fine id early new
    · exact later.fine id h early
  tallied start := later.tallied (first.tallied start)

/-- What the turns of a loop do, the loop does. -/
theorem loop_ok {α : Type} {turn : Seen ι → α → Except PdfFailure (Seen ι)} {Q : Set (PdfValue ι) → α → Prop}
    (grows : ∀ {M N a}, Q M a → M ⊆ N → Q N a)
    (each : ∀ u a u', turn u a = .ok u' → Visited r limits u u' ∧ Q u'.marked a) {as : List α}
    (run : as.foldlM turn s = .ok s') : Visited r limits s s' ∧ ∀ a ∈ as, Q s'.marked a := by
  refine foldlM_run (P := fun before u => Visited r limits s u ∧ ∀ a ∈ before, Q u.marked a)
    ⟨Visited.refl s, nofun⟩ ?_ run
  rintro before a u v ⟨visited, all⟩ next
  obtain ⟨later, own⟩ := each u a v next
  refine ⟨visited.trans later, fun b hb => ?_⟩
  rcases List.mem_append.mp hb with hb | hb
  · exact grows (all b hb) later.expands.grows
  · exact List.mem_singleton.mp hb ▸ own

/-- A reference whose object was visited. -/
theorem Visited.reference {idnum generation : Nat} {value : PdfValue ι}
    (found : r.getObject idnum generation = .ok value)
    (later : Visited r limits { s with indirect := (idnum, generation) :: s.indirect } s')
    (own : value ∈ s'.marked) : Visited r limits s s' where
  expands := by
    have expands := later.expands
    rw [marked_indirect] at expands
    exact expands.mark fun w next => Except.ok.inj (found.symm.trans next) ▸ own
  opens p h new := by
    by_cases same : p = (idnum, generation)
    · exact same ▸ ⟨value, found⟩
    · exact later.opens p h fun early => (List.mem_cons.mp early).elim same new
  fine := later.fine
  tallied start := later.tallied ⟨start.once, start.total, start.within⟩

/-- A container whose values were visited. -/
theorem Visited.container {id : ι} (new : id ∉ s.direct)
    (later : Visited r limits (s.enter id (r.heap id).size) s')
    (fine : (r.heap id).Fine limits)
    (within : s.total ≤ limits.maxTotalDecodedStreamBytes →
      (s.enter id (r.heap id).size).total ≤ limits.maxTotalDecodedStreamBytes)
    (values : ∀ i ∈ (r.heap id).entries, i.2 ∈ s'.marked) : Visited r limits s s' where
  expands := by
    have expands := later.expands
    rw [marked_enter] at expands
    refine expands.mark ?_
    rintro w ⟨entry, listed, rfl⟩
    exact values entry listed
  opens := later.opens
  fine other h fresh := by
    by_cases same : other = id
    · exact same ▸ fine
    · exact later.fine other h fun early => (List.mem_cons.mp early).elim same fresh
  tallied start := by
    refine later.tallied ⟨List.nodup_cons.mpr ⟨new, start.once⟩, ?_, within start.within⟩
    rw [Seen.enter, PdfReader.decodedSize, List.map_cons, List.sum_cons, Nat.add_comm, start.total]
    rfl

/-- Every container in a part of the file is fine, and so is what its streams come to. -/
structure Clean (r : PdfReader ι) (limits : PdfParserLimits) (R : Set (PdfValue ι)) : Prop where
  fine : ∀ id, .direct id ∈ R → (r.heap id).Fine limits
  total : ∀ ids : List ι, ids.Nodup → (∀ id ∈ ids, .direct id ∈ R) →
    r.decodedSize ids ≤ limits.maxTotalDecodedStreamBytes

/-- Every reference in a part of the file has an object. -/
def Resolves (r : PdfReader ι) (R : Set (PdfValue ι)) : Prop :=
  ∀ n g, .indirect n g ∈ R → ∃ v, r.getObject n g = .ok v

/-- A part of the file where every reference has an object and everything is fine. -/
structure Region (r : PdfReader ι) (limits : PdfParserLimits) (R : Set (PdfValue ι)) : Prop
    extends Clean r limits R where
  closed : Closed r.Child R
  resolves : Resolves r R

/-- The traversal has stayed in the region. -/
structure Inside (r : PdfReader ι) (limits : PdfParserLimits) (R : Set (PdfValue ι)) (s : Seen ι) :
    Prop extends Tallied r limits s where
  inside : ∀ id ∈ s.direct, .direct id ∈ R

variable {R : Set (PdfValue ι)}

theorem Inside.enter {id : ι} (region : Region r limits R) (held : .direct id ∈ R) (new : id ∉ s.direct)
    (inside : Inside r limits R s) : Inside r limits R (s.enter id (r.heap id).size) := by
  have once : (id :: s.direct).Nodup := List.nodup_cons.mpr ⟨new, inside.once⟩
  have all : ∀ other ∈ id :: s.direct, .direct other ∈ R := List.forall_mem_cons.mpr ⟨held, inside.inside⟩
  have total : s.total + (r.heap id).size = r.decodedSize (id :: s.direct) := by
    rw [PdfReader.decodedSize, List.map_cons, List.sum_cons, Nat.add_comm, inside.total]
    rfl
  exact ⟨⟨once, total, by rw [Seen.enter, total]; exact region.total _ once all⟩, all⟩

/-! ## Traversals that end well -/

variable [DecidableEq ι] {room : Nat}

/-- A named value of a container. -/
def visitEntry (r : PdfReader ι) (limits : PdfParserLimits) (room : Nat) (s : Seen ι)
    (entry : Option Str × PdfValue ι) : Except PdfFailure (Seen ι) := do
  checkEntry entry.1
  visit r limits room s entry.2

theorem visit_indirect {idnum generation : Nat} (new : (idnum, generation) ∉ s.indirect) :
    visit r limits (room + 1) s (.indirect idnum generation) =
      (r.getObject idnum generation).mapError .raised >>=
        visit r limits room { s with indirect := (idnum, generation) :: s.indirect } := by
  rw [visit, if_neg new]

/-- The three kinds of containers are visited alike. -/
theorem visit_direct {id : ι} (new : id ∉ s.direct) : visit r limits (room + 1) s (.direct id) =
    admitContainer limits (r.heap id) { s with direct := id :: s.direct } >>= fun s =>
      (r.heap id).entries.foldlM (visitEntry r limits room) s := by
  rw [visit, if_neg new]
  cases r.heap id with
  | array items | dictionary items | stream items encoded decoded =>
    simp only [PdfContainer.entries, List.foldlM_map]
    rfl

/-- A traversal that ends well has followed what it marked, and what it marked is fine. -/
theorem visit_ok {v : PdfValue ι} (run : visit r limits room s v = .ok s') :
    Visited r limits s s' ∧ v ∈ s'.marked := by
  induction room generalizing s v s' with
  | zero => cases run
  | succ room ih =>
    cases v with
    | other =>
      obtain rfl := Except.ok.inj run
      exact ⟨Visited.refl s, trivial⟩
    | indirect idnum generation =>
      by_cases seen : (idnum, generation) ∈ s.indirect
      · rw [visit, if_pos seen] at run
        obtain rfl := Except.ok.inj run
        exact ⟨Visited.refl s, seen⟩
      · rw [visit_indirect seen] at run
        obtain ⟨value, found, run⟩ := bind_ok.mp run
        obtain ⟨visited, own⟩ := ih run
        have self : PdfValue.indirect idnum generation ∈ s'.marked :=
          visited.expands.grows (marked_indirect s idnum generation ▸ Set.mem_insert _ _)
        exact ⟨.reference (mapError_ok.mp found) visited own, self⟩
    | direct id =>
      by_cases seen : id ∈ s.direct
      · rw [visit, if_pos seen] at run
        obtain rfl := Except.ok.inj run
        exact ⟨Visited.refl s, seen⟩
      · rw [visit_direct seen] at run
        obtain ⟨s₁, admitted, run⟩ := bind_ok.mp run
        obtain ⟨rfl, stream, within⟩ := admit_ok admitted
        have each : ∀ (u : Seen ι) (entry : Option Str × PdfValue ι) (u' : Seen ι),
            visitEntry r limits room u entry = .ok u' → Visited r limits u u' ∧
              (entry.2 ∈ u'.marked ∧ ∀ name ∈ entry.1, isInert name) := by
          intro u entry u' turn
          obtain ⟨_, inert, turn⟩ := bind_ok.mp turn
          obtain ⟨visited, own⟩ := ih turn
          exact ⟨visited, own, checkEntry_ok.mp inert⟩
        obtain ⟨visited, all⟩ := loop_ok (Q := fun M entry => entry.2 ∈ M ∧ ∀ name ∈ entry.1, isInert name)
          (fun h more => ⟨more h.1, h.2⟩) each run
        have self : PdfValue.direct id ∈ s'.marked :=
          visited.expands.grows (marked_enter s id _ ▸ Set.mem_insert _ _)
        exact ⟨.container seen visited ⟨fun i hi => (all i hi).2, stream⟩ within fun i hi => (all i hi).1, self⟩

/-! ## Traversals that fail -/

/-- In a region, the traversal ends well or runs out of stack. -/
theorem visit_safe (region : Region r limits R) {v : PdfValue ι} (held : v ∈ R)
    (inside : Inside r limits R s) :
    Yields (Inside r limits R) (· = .stack) (visit r limits room s v) := by
  induction room generalizing s v with
  | zero => rfl
  | succ room ih =>
    cases v with
    | other => exact inside
    | indirect idnum generation =>
      by_cases seen : (idnum, generation) ∈ s.indirect
      · rw [visit, if_pos seen]
        exact inside
      · obtain ⟨value, found⟩ := region.resolves idnum generation held
        rw [visit_indirect seen, found]
        exact ih (region.closed _ held value found)
          ⟨⟨inside.once, inside.total, inside.within⟩, inside.inside⟩
    | direct id =>
      by_cases seen : id ∈ s.direct
      · rw [visit, if_pos seen]
        exact inside
      · have fine := region.fine id held
        have entered := inside.enter region held seen
        have admitted : admitContainer limits (r.heap id) { s with direct := id :: s.direct } =
            .ok (s.enter id (r.heap id).size) := admit_fine fine.stream entered.within
        rw [visit_direct seen, admitted, ok_bind]
        refine Yields.foldlM (fun entry listed u kept => ?_) entered
        rw [visitEntry, checkEntry_ok.mpr (fine.keys entry listed), ok_bind]
        exact ih (region.closed _ held _ ⟨entry, listed, rfl⟩) kept

/-- A traversal that runs out of stack has gone along a path as long as the stack, over references
that have objects. -/
theorem visit_stack {v : PdfValue ι} (run : visit r limits room s v = .error .stack) :
    ∃ path, FreshPath r.Child s.marked path ∧ path.length = room ∧ (∀ u ∈ path.head?, u = v) ∧
      ∀ n g, .indirect n g ∈ path → ∃ w, r.getObject n g = .ok w := by
  induction room generalizing s v with
  | zero => exact ⟨[], FreshPath.nil _, rfl, nofun, nofun⟩
  | succ room ih =>
    cases v with
    | other => cases run
    | indirect idnum generation =>
      by_cases seen : (idnum, generation) ∈ s.indirect
      · rw [visit, if_pos seen] at run
        cases run
      · rw [visit_indirect seen] at run
        rcases bind_error.mp run with read | ⟨value, found, run⟩
        · cases found : r.getObject idnum generation with
          | error e =>
            rw [found] at read
            cases read
          | ok value =>
            rw [found] at read
            cases read
        · obtain ⟨path, fresh, long, first, opens⟩ := ih run
          have found := mapError_ok.mp found
          refine ⟨.indirect idnum generation :: path, fresh.cons seen (marked_indirect s _ _).ge ?_,
            congrArg _ long, fun u hu => (Option.mem_some.mp hu).symm, ?_⟩
          · intro w hw
            exact first w hw ▸ found
          · intro n g listed
            rcases List.mem_cons.mp listed with same | later
            · cases same
              exact ⟨value, found⟩
            · exact opens n g later
    | direct id =>
      by_cases seen : id ∈ s.direct
      · rw [visit, if_pos seen] at run
        cases run
      · rw [visit_direct seen] at run
        rcases bind_error.mp run with admitted | ⟨s₁, admitted, run⟩
        · exact absurd rfl (admit_error admitted)
        · obtain ⟨rfl, -, -⟩ := admit_ok admitted
          obtain ⟨before, entry, after, u, split, early, failed⟩ := foldlM_error run
          have listed : entry ∈ (r.heap id).entries := split ▸ by simp
          have visited : Visited r limits (s.enter id (r.heap id).size) u := by
            refine (loop_ok (Q := fun _ _ => True) (fun _ _ => trivial) ?_ early).1
            intro u entry u' turn
            obtain ⟨_, -, turn⟩ := bind_ok.mp turn
            exact ⟨(visit_ok turn).1, trivial⟩
          rcases bind_error.mp failed with named | ⟨_, -, failed⟩
          · exact absurd rfl (checkEntry_error named)
          · obtain ⟨path, fresh, long, first, opens⟩ := ih failed
            refine ⟨.direct id :: path, fresh.cons seen (marked_enter s _ _ ▸ visited.expands.grows) ?_,
              congrArg _ long, fun u hu => (Option.mem_some.mp hu).symm, ?_⟩
            · intro w hw
              exact ⟨entry, listed, (first w hw).symm⟩
            · intro n g listed
              rcases List.mem_cons.mp listed with same | later
              · cases same
              · exact opens n g later

end

end QaCopilot.Ingestion
