import Mathlib.Algebra.Order.Field.Basic
import Mathlib.Data.Prod.Lex
import Mathlib.Tactic.Linarith
import Mathlib.Tactic.Positivity
import QaCopilot.Lib.SortBy
import QaCopilot.Python.Dict
import QaCopilot.Python.Float

/-!
# Reciprocal-rank fusion

`_fuse_candidates` of `hybrid_retrieval.py`, with exact scores: the candidates of a lexical and of a
semantic list become one list, in the order of the sums of their reciprocal ranks.

* `fusion_laws`: every candidate comes once with both ranks, the result is the first candidates of
  that list, better ranks never come later, and the two lists may be exchanged.
-/

namespace QaCopilot.Retrieval

open QaCopilot.Python SortBy

/-! ## Candidates -/

structure HybridCandidate where
  chunkId : Uuid
  projectId : Uuid
  documentVersionId : Uuid
  sourceLocationId : Uuid
  documentType : Str
  chunkingVersion : Str
  ordinal : Int
  normalizedText : Str
  lexicalScore : Option PyFloat
  lexicalRank : Option Nat
  semanticDistance : Option PyFloat
  semanticRank : Option Nat
  fusionScore : Rat
  rank : Option Nat

/-- The columns of `_candidate_statement`. -/
structure CandidateRow where
  id : Uuid
  projectId : Uuid
  documentVersionId : Uuid
  sourceLocationId : Uuid
  documentType : Str
  chunkingVersion : Str
  ordinal : Int
  normalizedText : Str

/-- `_candidate_from_row` -/
def candidateFromRow (row : CandidateRow) (lexicalScore : Option PyFloat) (lexicalRank : Option Nat)
    (semanticDistance : Option PyFloat) (semanticRank : Option Nat) : HybridCandidate :=
  ⟨row.id, row.projectId, row.documentVersionId, row.sourceLocationId, row.documentType,
    row.chunkingVersion, row.ordinal, row.normalizedText, lexicalScore, lexicalRank,
    semanticDistance, semanticRank, 0, none⟩

/-- `_lexical_candidates` of the rows of its statement, with their scores. -/
def lexicalCandidates (rows : List (CandidateRow × PyFloat)) : List HybridCandidate :=
  rows.mapIdx fun index (row, score) => candidateFromRow row (some score) (some (index + 1)) none none

/-- `_semantic_candidates` of the rows of its statement, with their distances. -/
def semanticCandidates (rows : List (CandidateRow × PyFloat)) : List HybridCandidate :=
  rows.mapIdx fun index (row, distance) =>
    candidateFromRow row none none (some distance) (some (index + 1))

/-! ## Fusion -/

def reciprocalRankOffset : Nat := 60

/-- `_reciprocal_rank_score` -/
def reciprocalRankScore (candidate : HybridCandidate) : Rat :=
  (([candidate.lexicalRank, candidate.semanticRank].filterMap id).map fun rank =>
    1 / ((reciprocalRankOffset : Rat) + rank)).sum

/-- `replace` by what the semantic list says of the chunk. -/
def HybridCandidate.withSemantic (existing candidate : HybridCandidate) : HybridCandidate :=
  { existing with
    semanticDistance := candidate.semanticDistance
    semanticRank := candidate.semanticRank }

/-- `replace` by the score of the candidate. -/
def HybridCandidate.scored (candidate : HybridCandidate) : HybridCandidate :=
  { candidate with fusionScore := reciprocalRankScore candidate }

/-- One turn of the loop over the semantic candidates. -/
def mergeCandidate (candidates : Dict Uuid HybridCandidate) (candidate : HybridCandidate) :
    Dict Uuid HybridCandidate :=
  match candidates.get? candidate.chunkId with
  | none => candidates.set candidate.chunkId candidate
  | some existing => candidates.set candidate.chunkId (existing.withSemantic candidate)

/-- The candidates of both lists by their chunk. -/
def mergeCandidates (lexical semantic : List HybridCandidate) : Dict Uuid HybridCandidate :=
  semantic.foldl mergeCandidate (Dict.empty.update (lexical.map fun c => (c.chunkId, c)))

/-- The key of `sorted`; a UUID orders as its text. -/
def fusionKey (candidate : HybridCandidate) : ℚ ×ₗ ℤ ×ₗ ℕ :=
  toLex (-candidate.fusionScore, toLex (candidate.ordinal, candidate.chunkId.toNat))

/-- `ordered` -/
def orderCandidates (lexical semantic : List HybridCandidate) : List HybridCandidate :=
  sortBy fusionKey ((mergeCandidates lexical semantic).items.map fun item => item.2.scored)

/-- `_fuse_candidates`: all candidates, and those that are selected. -/
def fuseCandidates (lexical semantic : List HybridCandidate) (resultLimit : Nat) :
    List HybridCandidate × List HybridCandidate :=
  let ordered := orderCandidates lexical semantic
  let selectedIds := (ordered.take resultLimit).map (·.chunkId)
  let traced := ordered.mapIdx fun index candidate =>
    { candidate with rank := if candidate.chunkId ∈ selectedIds then some (index + 1) else none }
  (traced, traced.filter (·.rank.isSome))

/-! ## Lists -/

/-- The candidate but for what one of the two lists says of it. -/
def HybridCandidate.common (c : HybridCandidate) : HybridCandidate :=
  { c with lexicalScore := none, lexicalRank := none, semanticDistance := none, semanticRank := none }

/-- A lexical and a semantic list without duplicates, which agree on what both say of a chunk. -/
structure CandidateLists (lexical semantic : List HybridCandidate) : Prop where
  lexicalIds : (lexical.map (·.chunkId)).Nodup
  semanticIds : (semantic.map (·.chunkId)).Nodup
  lexicalOnly : ∀ c ∈ lexical, c.semanticDistance = none ∧ c.semanticRank = none
  semanticOnly : ∀ c ∈ semantic, c.lexicalScore = none ∧ c.lexicalRank = none
  agree : ∀ a ∈ lexical, ∀ b ∈ semantic, a.chunkId = b.chunkId → a.common = b.common

/-- The candidate of a chunk in one list. -/
def candidateOf (candidates : List HybridCandidate) (chunkId : Uuid) : Option HybridCandidate :=
  candidates.find? (·.chunkId = chunkId)

theorem candidateLists_of_rows {lexical semantic : List (CandidateRow × PyFloat)}
    (lexicalIds : (lexical.map (·.1.id)).Nodup) (semanticIds : (semantic.map (·.1.id)).Nodup)
    (agree : ∀ a ∈ lexical, ∀ b ∈ semantic, a.1.id = b.1.id → a.1 = b.1) :
    CandidateLists (lexicalCandidates lexical) (semanticCandidates semantic) where
  lexicalIds := by
    have same : (lexicalCandidates lexical).map (·.chunkId) = lexical.map (·.1.id) := by
      refine List.ext_getElem (by simp [lexicalCandidates]) fun i _ _ => ?_
      simp [lexicalCandidates, candidateFromRow]
    exact same ▸ lexicalIds
  semanticIds := by
    have same : (semanticCandidates semantic).map (·.chunkId) = semantic.map (·.1.id) := by
      refine List.ext_getElem (by simp [semanticCandidates]) fun i _ _ => ?_
      simp [semanticCandidates, candidateFromRow]
    exact same ▸ semanticIds
  lexicalOnly := by
    intro c hc
    obtain ⟨i, hi, rfl⟩ := List.mem_mapIdx.mp hc
    exact ⟨rfl, rfl⟩
  semanticOnly := by
    intro c hc
    obtain ⟨i, hi, rfl⟩ := List.mem_mapIdx.mp hc
    exact ⟨rfl, rfl⟩
  agree := by
    intro a ha b hb same
    obtain ⟨i, hi, rfl⟩ := List.mem_mapIdx.mp ha
    obtain ⟨j, hj, rfl⟩ := List.mem_mapIdx.mp hb
    have row := agree _ (List.getElem_mem hi) _ (List.getElem_mem hj) same
    simp only [HybridCandidate.common, candidateFromRow, row]

/-- What the two lists say of a chunk together. -/
def fused (lexical semantic : List HybridCandidate) (chunkId : Uuid) : Option HybridCandidate :=
  match candidateOf lexical chunkId, candidateOf semantic chunkId with
  | some l, some s => some (l.withSemantic s)
  | some l, none => some l
  | none, s => s

theorem candidateOf_some {candidates : List HybridCandidate} {id : Uuid} {c : HybridCandidate}
    (h : candidateOf candidates id = some c) : c ∈ candidates ∧ c.chunkId = id :=
  ⟨List.mem_of_find?_eq_some h, by simpa using List.find?_some h⟩

theorem candidateOf_none {candidates : List HybridCandidate} {id : Uuid} :
    candidateOf candidates id = none ↔ id ∉ candidates.map (·.chunkId) := by
  simp [candidateOf, List.find?_eq_none]

section
variable {lexical semantic : List HybridCandidate}

theorem get?_lexical (distinct : (lexical.map (·.chunkId)).Nodup) (id : Uuid) :
    (Dict.empty.update (lexical.map fun c => (c.chunkId, c))).get? id = candidateOf lexical id := by
  have keys : (lexical.map fun c => (c.chunkId, c)).map (·.1) = lexical.map (·.chunkId) := by
    rw [List.map_map]
    rfl
  cases found : candidateOf lexical id with
  | none => rw [Dict.get?_update_other (keys ▸ candidateOf_none.mp found), Dict.get?_empty]
  | some c =>
    obtain ⟨mem, rfl⟩ := candidateOf_some found
    refine Dict.get?_update_of (keys ▸ List.mem_map_of_mem mem) ?_
    intro i hi own
    obtain ⟨c', mem', rfl⟩ := List.mem_map.mp hi
    exact List.inj_on_of_nodup_map distinct mem' mem own

theorem get?_mergeCandidate (d : Dict Uuid HybridCandidate) (c : HybridCandidate) (id : Uuid) :
    (mergeCandidate d c).get? id =
      if id = c.chunkId then some (match d.get? id with
        | none => c
        | some existing => existing.withSemantic c)
      else d.get? id := by
  unfold mergeCandidate
  by_cases own : id = c.chunkId
  · subst own
    cases d.get? c.chunkId <;> simp [Dict.get?_set_self]
  · cases d.get? c.chunkId <;> simp [Dict.get?_set_other, own]

theorem get?_mergeCandidates (lexicalIds : (lexical.map (·.chunkId)).Nodup)
    (semanticIds : (semantic.map (·.chunkId)).Nodup) (id : Uuid) :
    (mergeCandidates lexical semantic).get? id = fused lexical semantic id := by
  unfold mergeCandidates fused
  rw [← get?_lexical lexicalIds]
  generalize Dict.empty.update (lexical.map fun c => (c.chunkId, c)) = d
  induction semantic generalizing d with
  | nil =>
    rw [List.foldl_nil]
    cases d.get? id <;> rfl
  | cons c semantic ih =>
    obtain ⟨new, distinct⟩ := List.nodup_cons.mp semanticIds
    rw [List.foldl_cons, ih distinct, get?_mergeCandidate]
    unfold candidateOf
    rw [List.find?_cons]
    by_cases own : c.chunkId = id
    · have later : semantic.find? (·.chunkId = id) = none := by
        rw [← own]
        exact candidateOf_none.mpr new
      simp only [own, if_true, later, decide_true]
      cases d.get? id <;> rfl
    · simp [own, Ne.symm own]

theorem fused_chunkId {id : Uuid} {c : HybridCandidate} (h : fused lexical semantic id = some c) :
    c.chunkId = id := by
  unfold fused at h
  cases l : candidateOf lexical id with
  | none =>
    rw [l] at h
    exact (candidateOf_some h).2
  | some c' =>
    rw [l] at h
    cases s : candidateOf semantic id <;> rw [s] at h <;> obtain rfl := Option.some.inj h
    · exact (candidateOf_some l).2
    · exact (candidateOf_some l).2

theorem fused_isSome {id : Uuid} : (fused lexical semantic id).isSome = true ↔
    id ∈ lexical.map (·.chunkId) ∨ id ∈ semantic.map (·.chunkId) := by
  rw [← not_iff_not, not_or, ← candidateOf_none, ← candidateOf_none]
  unfold fused
  cases candidateOf lexical id <;> cases candidateOf semantic id <;> simp

/-! ## The order -/

theorem mem_orderCandidates (lists : CandidateLists lexical semantic) {c : HybridCandidate} :
    c ∈ orderCandidates lexical semantic ↔
      ∃ c', fused lexical semantic c.chunkId = some c' ∧ c = c'.scored := by
  rw [orderCandidates, mem_sortBy, List.mem_map]
  constructor
  · rintro ⟨⟨id, c'⟩, listed, rfl⟩
    have found := (get?_mergeCandidates lists.lexicalIds lists.semanticIds id).symm.trans
      (Dict.get?_eq_some.mpr listed)
    obtain rfl := fused_chunkId found
    exact ⟨c', found, rfl⟩
  · rintro ⟨c', found, eq⟩
    refine ⟨(c.chunkId, c'), Dict.get?_eq_some.mp ?_, eq.symm⟩
    rw [get?_mergeCandidates lists.lexicalIds lists.semanticIds, found]

theorem nodup_orderCandidates (lists : CandidateLists lexical semantic) :
    ((orderCandidates lexical semantic).map (·.chunkId)).Nodup := by
  have perm := (sortBy_perm_self fusionKey ((mergeCandidates lexical semantic).items.map
    fun item => item.2.scored)).map (·.chunkId)
  refine perm.nodup_iff.mpr ?_
  have keys : ((mergeCandidates lexical semantic).items.map fun item => item.2.scored).map
      (·.chunkId) = (mergeCandidates lexical semantic).keys := by
    rw [List.map_map]
    refine List.map_congr_left fun item listed => ?_
    have found := (get?_mergeCandidates lists.lexicalIds lists.semanticIds item.1).symm.trans
      (Dict.get?_eq_some.mpr listed)
    have own := fused_chunkId found
    exact own
  rw [keys]
  exact Dict.nodup_keys _

end

/-! ## The selection -/

theorem filter_eq_take {α : Type} {p : α → Bool} {l : List α} {n : Nat}
    (h : ∀ (i : Nat) (hi : i < l.length), p l[i] = decide (i < n)) : l.filter p = l.take n := by
  rw [← List.take_append_drop n l, List.filter_append, List.take_append_drop]
  have selected : (l.take n).filter p = l.take n := by
    refine List.filter_eq_self.mpr fun a ha => ?_
    obtain ⟨i, hi, rfl⟩ := List.mem_take_iff_getElem.mp ha
    rw [h i (by omega)]
    exact decide_eq_true (by omega)
  have refused : (l.drop n).filter p = [] := by
    refine List.filter_eq_nil_iff.mpr fun a ha => ?_
    obtain ⟨i, hi, rfl⟩ := List.mem_drop_iff_getElem.mp ha
    rw [h (n + i) (by omega)]
    simp
  rw [selected, refused, List.append_nil]

section
variable {lexical semantic : List HybridCandidate}

/-- All candidates, of which the first ones are ranked. -/
def rankFirst (limit : Nat) (ordered : List HybridCandidate) : List HybridCandidate :=
  ordered.mapIdx fun index c => { c with rank := if index < limit then some (index + 1) else none }

theorem rankFirst_selected {limit : Nat} {ordered : List HybridCandidate} :
    (rankFirst limit ordered).filter (·.rank.isSome) = (rankFirst limit ordered).take limit := by
  refine filter_eq_take fun i hi => ?_
  simp only [rankFirst, List.getElem_mapIdx]
  by_cases first : i < limit <;> simp [first]

theorem mem_take_iff {limit i : Nat} {ordered : List HybridCandidate}
    (distinct : (ordered.map (·.chunkId)).Nodup) (hi : i < ordered.length) :
    ordered[i].chunkId ∈ (ordered.take limit).map (·.chunkId) ↔ i < limit := by
  rw [List.mem_map]
  constructor
  · rintro ⟨c, hc, same⟩
    obtain ⟨j, hj, rfl⟩ := List.mem_take_iff_getElem.mp hc
    have hj' : j < ordered.length := by omega
    have twice : (ordered.map (·.chunkId))[j]? = (ordered.map (·.chunkId))[i]? := by
      rw [List.getElem?_map, List.getElem?_map, List.getElem?_eq_getElem hj',
        List.getElem?_eq_getElem hi]
      exact congrArg some same
    have inj : j = i := (List.getElem?_inj (by simpa using hj') distinct).mp twice
    omega
  · intro first
    exact ⟨ordered[i], List.mem_take_iff_getElem.mpr ⟨i, by omega, rfl⟩, rfl⟩

theorem fuseCandidates_eq (lists : CandidateLists lexical semantic) (limit : Nat) :
    fuseCandidates lexical semantic limit =
      (rankFirst limit (orderCandidates lexical semantic),
        (rankFirst limit (orderCandidates lexical semantic)).take limit) := by
  have traced : (fuseCandidates lexical semantic limit).1 =
      rankFirst limit (orderCandidates lexical semantic) := by
    refine List.ext_getElem (by simp [fuseCandidates, rankFirst]) fun i hi _ => ?_
    simp only [fuseCandidates, List.length_mapIdx] at hi
    simp only [fuseCandidates, rankFirst, List.getElem_mapIdx,
      mem_take_iff (nodup_orderCandidates lists) hi]
  have selected : (fuseCandidates lexical semantic limit).2 =
      (fuseCandidates lexical semantic limit).1.filter (·.rank.isSome) := rfl
  rw [← rankFirst_selected, ← traced, ← selected]

/-! ## Better ranks -/

/-- A rank as a place in a list, the last one when the list does not hold the candidate. -/
def place : Option Nat → WithTop Nat
  | some rank => rank
  | none => ⊤

/-- Placed at least as well in both lists, and better in one. -/
def HybridCandidate.Dominates (a b : HybridCandidate) : Prop :=
  place a.lexicalRank ≤ place b.lexicalRank ∧ place a.semanticRank ≤ place b.semanticRank ∧
    (place a.lexicalRank < place b.lexicalRank ∨ place a.semanticRank < place b.semanticRank)

/-- What a list adds to the score. -/
def contribution : Option Nat → Rat
  | some rank => 1 / ((reciprocalRankOffset : Rat) + rank)
  | none => 0

theorem reciprocalRankScore_eq (c : HybridCandidate) :
    reciprocalRankScore c = contribution c.lexicalRank + contribution c.semanticRank := by
  unfold reciprocalRankScore
  cases c.lexicalRank <;> cases c.semanticRank <;> simp [contribution]

theorem contribution_lt {r s : Option Nat} (better : place r < place s) :
    contribution s < contribution r := by
  cases r with
  | none => exact absurd better (not_lt.mpr le_top)
  | some m =>
    have positive : (0 : Rat) < reciprocalRankOffset + m := by
      simp only [reciprocalRankOffset, Nat.cast_ofNat]
      positivity
    cases s with
    | none => exact one_div_pos.mpr positive
    | some n =>
      have less : m < n := WithTop.coe_lt_coe.mp better
      refine one_div_lt_one_div_of_lt positive ?_
      have : (m : Rat) < n := by exact_mod_cast less
      linarith

theorem contribution_le {r s : Option Nat} (better : place r ≤ place s) :
    contribution s ≤ contribution r := by
  rcases better.lt_or_eq with less | same
  · exact (contribution_lt less).le
  · have : r = s := by
      cases r <;> cases s
      · rfl
      · exact absurd same.symm WithTop.coe_ne_top
      · exact absurd same WithTop.coe_ne_top
      · exact congrArg some (WithTop.coe_injective same)
    rw [this]

theorem HybridCandidate.Dominates.score {a b : HybridCandidate} (h : a.Dominates b) :
    reciprocalRankScore b < reciprocalRankScore a := by
  rw [reciprocalRankScore_eq, reciprocalRankScore_eq]
  obtain ⟨lexical, semantic, better | better⟩ := h
  · exact add_lt_add_of_lt_of_le (contribution_lt better) (contribution_le semantic)
  · exact add_lt_add_of_le_of_lt (contribution_le lexical) (contribution_lt better)

/-! ## The other way round -/

/-- What the lexical list says of the candidate for what the semantic one does. -/
def HybridCandidate.exchanged (c : HybridCandidate) : HybridCandidate :=
  { c with
    lexicalScore := c.semanticDistance
    lexicalRank := c.semanticRank
    semanticDistance := c.lexicalScore
    semanticRank := c.lexicalRank }

theorem scored_exchanged (c : HybridCandidate) : c.exchanged.scored = c.scored.exchanged := by
  have same : reciprocalRankScore c.exchanged = reciprocalRankScore c := by
    rw [reciprocalRankScore_eq, reciprocalRankScore_eq]
    exact add_comm _ _
  simp only [HybridCandidate.scored, HybridCandidate.exchanged] at same ⊢
  rw [same]

theorem candidateOf_exchanged (candidates : List HybridCandidate) (id : Uuid) :
    candidateOf (candidates.map HybridCandidate.exchanged) id =
      (candidateOf candidates id).map HybridCandidate.exchanged := by
  unfold candidateOf
  rw [List.find?_map]
  rfl

theorem map_exchanged (candidates : List HybridCandidate) :
    (candidates.map HybridCandidate.exchanged).map (·.chunkId) = candidates.map (·.chunkId) := by
  rw [List.map_map]
  rfl

theorem CandidateLists.exchanged (lists : CandidateLists lexical semantic) : CandidateLists
    (semantic.map HybridCandidate.exchanged) (lexical.map HybridCandidate.exchanged) where
  lexicalIds := map_exchanged semantic ▸ lists.semanticIds
  semanticIds := map_exchanged lexical ▸ lists.lexicalIds
  lexicalOnly := by
    intro c hc
    obtain ⟨c', hc', rfl⟩ := List.mem_map.mp hc
    exact lists.semanticOnly c' hc'
  semanticOnly := by
    intro c hc
    obtain ⟨c', hc', rfl⟩ := List.mem_map.mp hc
    exact lists.lexicalOnly c' hc'
  agree := by
    intro a ha b hb same
    obtain ⟨a', ha', rfl⟩ := List.mem_map.mp ha
    obtain ⟨b', hb', rfl⟩ := List.mem_map.mp hb
    exact (lists.agree b' hb' a' ha' same.symm).symm

theorem fused_exchanged (lists : CandidateLists lexical semantic) (id : Uuid) :
    fused (semantic.map HybridCandidate.exchanged) (lexical.map HybridCandidate.exchanged) id =
      (fused lexical semantic id).map HybridCandidate.exchanged := by
  unfold fused
  rw [candidateOf_exchanged, candidateOf_exchanged]
  cases l : candidateOf lexical id with
  | none => cases candidateOf semantic id <;> rfl
  | some a =>
    cases s : candidateOf semantic id with
    | none => rfl
    | some b =>
      obtain ⟨ha, same⟩ := candidateOf_some l
      obtain ⟨hb, same'⟩ := candidateOf_some s
      have agree := lists.agree a ha b hb (same.trans same'.symm)
      cases a
      cases b
      simp only [HybridCandidate.common, HybridCandidate.mk.injEq] at agree
      simp [HybridCandidate.exchanged, HybridCandidate.withSemantic, agree]

theorem fusionKey_chunkId {a b : HybridCandidate} (h : fusionKey a = fusionKey b) :
    a.chunkId = b.chunkId := by
  simp only [fusionKey, toLex_inj, Prod.mk.injEq] at h
  exact BitVec.eq_of_toNat_eq h.2.2

theorem orderCandidates_exchanged (lists : CandidateLists lexical semantic) :
    orderCandidates (semantic.map HybridCandidate.exchanged)
        (lexical.map HybridCandidate.exchanged) =
      (orderCandidates lexical semantic).map HybridCandidate.exchanged := by
  have distinct := nodup_orderCandidates lists.exchanged
  refine sorted_unique fusionKey ?_ ?_ (sortBy_pairwise _ _) ?_
  · refine (List.perm_ext_iff_of_nodup distinct.of_map ?_).mpr fun c => ?_
    · refine List.Nodup.of_map (·.chunkId) ?_
      rw [map_exchanged]
      exact nodup_orderCandidates lists
    · rw [mem_orderCandidates lists.exchanged, List.mem_map, fused_exchanged lists]
      constructor
      · rintro ⟨c', found, rfl⟩
        obtain ⟨d, found, rfl⟩ := Option.map_eq_some_iff.mp found
        have own := fused_chunkId found
        exact ⟨d.scored, (mem_orderCandidates lists).mpr ⟨d, own ▸ found, rfl⟩,
          (scored_exchanged d).symm⟩
      · rintro ⟨a, ha, rfl⟩
        obtain ⟨d, found, rfl⟩ := (mem_orderCandidates lists).mp ha
        exact ⟨d.exchanged, Option.map_eq_some_iff.mpr ⟨d, found, rfl⟩, (scored_exchanged d).symm⟩
  · intro a ha b hb same
    exact List.inj_on_of_nodup_map distinct ha hb (fusionKey_chunkId same)
  · rw [List.pairwise_map]
    exact sortBy_pairwise fusionKey _

theorem rankFirst_exchanged (limit : Nat) (ordered : List HybridCandidate) :
    rankFirst limit (ordered.map HybridCandidate.exchanged) =
      (rankFirst limit ordered).map HybridCandidate.exchanged := by
  refine List.ext_getElem (by simp [rankFirst]) fun i _ _ => ?_
  simp [rankFirst, HybridCandidate.exchanged]

/-! ## The laws -/

/-- What a fusion of two lists gives. -/
structure FusionLaws (lexical semantic : List HybridCandidate) (limit : Nat)
    (traced selected : List HybridCandidate) : Prop where
  once : (traced.map (·.chunkId)).Nodup
  both : ∀ id, id ∈ traced.map (·.chunkId) ↔
    id ∈ lexical.map (·.chunkId) ∨ id ∈ semantic.map (·.chunkId)
  ranks : ∀ c ∈ traced, c.lexicalRank = (candidateOf lexical c.chunkId).bind (·.lexicalRank) ∧
    c.semanticRank = (candidateOf semantic c.chunkId).bind (·.semanticRank)
  first : selected <+: traced
  length : selected.length =
    min limit (lexical.map (·.chunkId) ++ semantic.map (·.chunkId)).dedup.length
  numbered : selected.map (·.rank) = (List.range' 1 selected.length).map some
  monotone : ∀ (i j : Nat) (a b : HybridCandidate),
    traced[i]? = some a → traced[j]? = some b → a.Dominates b → i < j

theorem mem_rankFirst {limit : Nat} {ordered : List HybridCandidate} {c : HybridCandidate}
    (h : c ∈ rankFirst limit ordered) : ∃ a ∈ ordered, ∃ rank, c = { a with rank } := by
  obtain ⟨i, hi, rfl⟩ := List.mem_mapIdx.mp h
  exact ⟨ordered[i], List.getElem_mem hi, _, rfl⟩

theorem rankFirst_chunkId (limit : Nat) (ordered : List HybridCandidate) :
    (rankFirst limit ordered).map (·.chunkId) = ordered.map (·.chunkId) := by
  refine List.ext_getElem (by simp [rankFirst]) fun i _ _ => ?_
  simp [rankFirst]

theorem orderCandidates_ids (lists : CandidateLists lexical semantic) (id : Uuid) :
    id ∈ (orderCandidates lexical semantic).map (·.chunkId) ↔
      id ∈ lexical.map (·.chunkId) ∨ id ∈ semantic.map (·.chunkId) := by
  rw [← fused_isSome, List.mem_map]
  constructor
  · rintro ⟨c, hc, rfl⟩
    obtain ⟨c', found, -⟩ := (mem_orderCandidates lists).mp hc
    rw [found]
    rfl
  · intro known
    obtain ⟨c, found⟩ := Option.isSome_iff_exists.mp known
    have own := fused_chunkId found
    exact ⟨c.scored, (mem_orderCandidates lists).mpr ⟨c, own ▸ found, rfl⟩, own⟩

theorem fused_ranks (lists : CandidateLists lexical semantic) {id : Uuid} {c : HybridCandidate}
    (h : fused lexical semantic id = some c) :
    c.lexicalRank = (candidateOf lexical id).bind (·.lexicalRank) ∧
      c.semanticRank = (candidateOf semantic id).bind (·.semanticRank) := by
  unfold fused at h
  cases l : candidateOf lexical id with
  | none =>
    rw [l] at h
    have found : candidateOf semantic id = some c := h
    rw [found]
    exact ⟨(lists.semanticOnly c (candidateOf_some found).1).2, rfl⟩
  | some a =>
    rw [l] at h
    cases s : candidateOf semantic id with
    | none =>
      rw [s] at h
      obtain rfl := Option.some.inj h
      exact ⟨rfl, (lists.lexicalOnly a (candidateOf_some l).1).2⟩
    | some b =>
      rw [s] at h
      obtain rfl := Option.some.inj h
      exact ⟨rfl, rfl⟩

theorem orderCandidates_score (lists : CandidateLists lexical semantic) {c : HybridCandidate}
    (h : c ∈ orderCandidates lexical semantic) : c.fusionScore = reciprocalRankScore c := by
  obtain ⟨c', -, rfl⟩ := (mem_orderCandidates lists).mp h
  rfl

theorem orderCandidates_before (lists : CandidateLists lexical semantic) {i j : Nat}
    {a b : HybridCandidate} (ha : (orderCandidates lexical semantic)[i]? = some a)
    (hb : (orderCandidates lexical semantic)[j]? = some b) (better : a.Dominates b) : i < j := by
  refine sortBy_before fusionKey ha hb ?_
  rw [fusionKey, fusionKey, Prod.Lex.toLex_lt_toLex]
  left
  rw [orderCandidates_score lists (List.mem_of_getElem? ha),
    orderCandidates_score lists (List.mem_of_getElem? hb)]
  exact neg_lt_neg better.score

/-- **Fusion.** Two lists give one order of all their candidates, each with both ranks, of which
the first ones are selected; better ranks never come later; and what the lists are called makes no
difference. -/
theorem fusion_laws (lexical semantic : List HybridCandidate)
    (lists : CandidateLists lexical semantic) (limit : Nat) :
    FusionLaws lexical semantic limit (fuseCandidates lexical semantic limit).1
        (fuseCandidates lexical semantic limit).2 ∧
      fuseCandidates (semantic.map HybridCandidate.exchanged)
          (lexical.map HybridCandidate.exchanged) limit =
        ((fuseCandidates lexical semantic limit).1.map HybridCandidate.exchanged,
          (fuseCandidates lexical semantic limit).2.map HybridCandidate.exchanged) := by
  have distinct := nodup_orderCandidates lists
  have known := orderCandidates_ids lists
  rw [fuseCandidates_eq lists, fuseCandidates_eq lists.exchanged]
  refine ⟨⟨?_, ?_, ?_, List.take_prefix _ _, ?_, ?_, ?_⟩, ?_⟩
  · rwa [rankFirst_chunkId]
  · rwa [rankFirst_chunkId]
  · intro c hc
    obtain ⟨a, ha, rank, rfl⟩ := mem_rankFirst hc
    obtain ⟨a', found, rfl⟩ := (mem_orderCandidates lists).mp ha
    have ranks := fused_ranks lists found
    exact ranks
  · have same : ((orderCandidates lexical semantic).map (·.chunkId)).Perm
        (lexical.map (·.chunkId) ++ semantic.map (·.chunkId)).dedup := by
      refine (List.perm_ext_iff_of_nodup distinct (List.nodup_dedup _)).mpr fun id => ?_
      rw [known, List.mem_dedup, List.mem_append]
    rw [← same.length_eq]
    simp [rankFirst]
  · refine List.ext_getElem (by simp) fun i hi _ => ?_
    have first : i < limit := by simp at hi; omega
    simp [rankFirst, first, Nat.add_comm]
  · intro i j a b ha hb better
    simp only [rankFirst, List.getElem?_mapIdx, Option.map_eq_some_iff] at ha hb
    obtain ⟨a', ha, rfl⟩ := ha
    obtain ⟨b', hb, rfl⟩ := hb
    exact orderCandidates_before lists ha hb better
  · rw [orderCandidates_exchanged lists, rankFirst_exchanged, List.map_take]

end

def sampleRow (id : Uuid) (ordinal : Int) : CandidateRow :=
  ⟨id, 1, 2, 3, lit "requirements", lit "v1", ordinal, lit "text"⟩

/-- Chunks 7 and 8. -/
def sampleLexical : List (CandidateRow × PyFloat) :=
  [(sampleRow 7 0, .infinite false), (sampleRow 8 1, .nan)]

/-- Chunks 9 and 7. -/
def sampleSemantic : List (CandidateRow × PyFloat) :=
  [(sampleRow 9 2, .nan), (sampleRow 7 0, .nan)]

example : (fuseCandidates (lexicalCandidates sampleLexical) (semanticCandidates sampleSemantic)
    2).2.map (fun c => (c.chunkId, c.rank)) = [(7, some 1), (9, some 2)] := by decide +kernel

theorem fusion_laws_sample :
    FusionLaws (lexicalCandidates sampleLexical) (semanticCandidates sampleSemantic) 2
        (fuseCandidates (lexicalCandidates sampleLexical) (semanticCandidates sampleSemantic) 2).1
        (fuseCandidates (lexicalCandidates sampleLexical) (semanticCandidates sampleSemantic) 2).2 ∧
      fuseCandidates ((semanticCandidates sampleSemantic).map HybridCandidate.exchanged)
          ((lexicalCandidates sampleLexical).map HybridCandidate.exchanged) 2 =
        ((fuseCandidates (lexicalCandidates sampleLexical)
            (semanticCandidates sampleSemantic) 2).1.map HybridCandidate.exchanged,
          (fuseCandidates (lexicalCandidates sampleLexical)
            (semanticCandidates sampleSemantic) 2).2.map HybridCandidate.exchanged) :=
  fusion_laws _ _ (candidateLists_of_rows (by decide) (by decide)
    (by simp [sampleLexical, sampleSemantic, sampleRow])) 2

end QaCopilot.Retrieval
