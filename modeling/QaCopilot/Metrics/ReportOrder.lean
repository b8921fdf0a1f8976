import QaCopilot.Lib.SortBy
import QaCopilot.Metrics.CostReport

/-!
# The report in another order of the measurements

* `build_ok`: a report is one summary a pricing, in the order of the sort keys;
* `percentile_perm`: a percentile keeps its value, `percentile_settled`: and is the same number, if
  durations of that value are;
* `report_orderFree_iff`: when the report depends on no order.
-/

namespace QaCopilot.Metrics

open Python Results SortBy

/-! ## Groups -/

def Item.measurement? : Item → Option ModelInvocationMeasurement
  | .measurement m => some m
  | .other => none

/-- The measurements of a collection. -/
def measurementsOf (items : List Item) : List ModelInvocationMeasurement :=
  items.filterMap Item.measurement?

/-- The measurements of a pricing. -/
def groupOf (pricing : ProviderPricing) (ms : List ModelInvocationMeasurement) :
    List ModelInvocationMeasurement :=
  ms.filter (·.pricing = pricing)

/-- The pricings in the order in which they first came. -/
def pricings (ms : List ModelInvocationMeasurement) : List ProviderPricing :=
  (Dict.empty.appends (ms.map fun m => (m.pricing, m))).keys

theorem measurementsOf_map (ms : List ModelInvocationMeasurement) :
    measurementsOf (ms.map .measurement) = ms := by
  rw [measurementsOf, List.filterMap_map]
  exact List.filterMap_some

theorem mem_pricings {ms : List ModelInvocationMeasurement} {p : ProviderPricing} :
    p ∈ pricings ms ↔ ∃ m ∈ ms, m.pricing = p := by
  rw [pricings, Dict.mem_keys_appends, List.map_map, Dict.keys_empty,
    or_iff_left List.not_mem_nil, List.mem_map]
  rfl

theorem pricings_perm {ms ms' : List ModelInvocationMeasurement} (same : ms.Perm ms') :
    (pricings ms).Perm (pricings ms') := by
  refine (List.perm_ext_iff_of_nodup (Dict.nodup_keys _) (Dict.nodup_keys _)).mpr fun p => ?_
  rw [← pricings, ← pricings, mem_pricings, mem_pricings]
  constructor <;> rintro ⟨m, hm, own⟩
  · exact ⟨m, same.mem_iff.mp hm, own⟩
  · exact ⟨m, same.mem_iff.mpr hm, own⟩

/-- The pricing of the first measurement comes first. -/
theorem pricings_head (m : ModelInvocationMeasurement) (ms : List ModelInvocationMeasurement) :
    ∃ rest, pricings (m :: ms) = m.pricing :: rest := by
  obtain ⟨rest, same⟩ := Dict.keys_prefix_appends (Dict.empty.append m.pricing m)
    (ms.map fun m => (m.pricing, m))
  exact ⟨rest, same.symm⟩

theorem foldlM_group {items : List Item} {d grouped : Dict ProviderPricing
    (List ModelInvocationMeasurement)} :
    items.foldlM group d = .ok grouped ↔ items = (measurementsOf items).map .measurement ∧
      grouped = d.appends ((measurementsOf items).map fun m => (m.pricing, m)) := by
  induction items generalizing d with
  | nil =>
    constructor
    · intro made
      exact ⟨rfl, (Except.ok.inj made).symm⟩
    · rintro ⟨-, rfl⟩
      rfl
  | cons item items ih =>
    rw [List.foldlM_cons]
    cases item with
    | measurement m =>
      rw [group, ok_bind, ih]
      constructor
      · rintro ⟨all, rfl⟩
        exact ⟨congrArg (Item.measurement m :: ·) all, rfl⟩
      · rintro ⟨all, rfl⟩
        exact ⟨(List.cons.inj all).2, rfl⟩
    | other =>
      constructor
      · intro made
        cases made
      · rintro ⟨all, -⟩
        have listed : Item.other ∈ (measurementsOf (.other :: items)).map .measurement :=
          all ▸ List.mem_cons_self
        obtain ⟨m, -, same⟩ := List.mem_map.mp listed
        cases same

/-- What a report is made of. -/
theorem build_ok {items : List Item} {report : CostSuccessReport} :
    buildCostSuccessReport items = .ok report ↔
      items = (measurementsOf items).map .measurement ∧
        report.schemaVersion = metricsSchemaVersion ∧
        (sortByTexts sortKey (pricings (measurementsOf items))).mapM
          (fun p => summaryForPricing p (groupOf p (measurementsOf items))) = .ok report.summaries := by
  have groups (p : ProviderPricing) : ((Dict.empty.appends ((measurementsOf items).map
      fun m => (m.pricing, m))).get? p).getD [] = groupOf p (measurementsOf items) := by
    rw [Dict.get?_appends, Dict.get?_empty, Option.getD_none, List.nil_append, List.filter_map,
      List.map_map]
    exact List.map_id _
  rw [buildCostSuccessReport, bind_ok]
  constructor
  · rintro ⟨grouped, made, built⟩
    obtain ⟨all, rfl⟩ := foldlM_group.mp made
    obtain ⟨summaries, each, built⟩ := bind_ok.mp built
    obtain rfl := Except.ok.inj built
    simp only [groups] at each
    exact ⟨all, rfl, each⟩
  · rintro ⟨all, version, each⟩
    obtain ⟨schemaVersion, summaries⟩ := report
    obtain rfl := version
    refine ⟨_, foldlM_group.mpr ⟨all, rfl⟩, bind_ok.mpr ⟨summaries, ?_, rfl⟩⟩
    simp only [groups]
    exact each

/-! ## Percentiles -/

/-- The exact value of a duration. -/
def Duration.units (d : Duration) : Int := d.val.units

def latencies (ms : List ModelInvocationMeasurement) : List Duration := ms.map (·.durationMs)

theorem durations_eq (ms : List ModelInvocationMeasurement) :
    durations ms = (latencies ms).map (·.val) :=
  (List.map_map ..).symm

theorem sorted_eq (ds : List Duration) :
    IntOrFloat.sorted (ds.map (·.val)) = (sortBy Duration.units ds).map (·.val) := by
  refine (List.map_insertionSort _ _ _ ds fun a _ b _ => ?_).symm
  rw [Bool.not_eq_true', ← Bool.not_eq_true, IntOrFloat.lt_iff_units b.2 a.2, not_lt]
  rfl

theorem percentile_ok {ds : List Duration} {q : PyFloat} {v : IntOrFloat} :
    nearestRankPercentile (ds.map (·.val)) q = .ok v ↔ ∃ rank, nearestRank q ds.length = .ok rank ∧
      ∃ d, (sortBy Duration.units ds)[rank - 1]? = some d ∧ d.val = v := by
  have length : ((sortBy Duration.units ds).map (·.val)).length = ds.length := by
    rw [List.length_map, (sortBy_perm_self _ ds).length_eq]
  rw [nearestRankPercentile, sorted_eq, length]
  by_cases empty : ds = []
  · subst empty
    constructor
    · intro found
      cases found
    · rintro ⟨rank, -, d, hd, -⟩
      cases hd
  have some' : ((sortBy Duration.units ds).map (·.val)).isEmpty = false := by
    rw [← Bool.not_eq_true, List.isEmpty_iff, ← List.length_eq_zero_iff, length,
      List.length_eq_zero_iff]
    exact empty
  simp only [some', Bool.false_eq_true, if_false]
  rw [bind_ok]
  refine exists_congr fun rank => and_congr_right fun _ => ?_
  rw [List.getElem?_map]
  cases (sortBy Duration.units ds)[rank - 1]? with
  | none => simp [throw, throwThe, MonadExceptOf.throw]
  | some d => simp [pure, Except.pure]

/-- A percentile keeps its value. -/
theorem percentile_perm {ds ds' : List Duration} (same : ds.Perm ds') {q : PyFloat} {v : IntOrFloat}
    (found : nearestRankPercentile (ds.map (·.val)) q = .ok v) :
    ∃ v', nearestRankPercentile (ds'.map (·.val)) q = .ok v' ∧ v.eq v' = true := by
  obtain ⟨rank, hr, d, hd, rfl⟩ := percentile_ok.mp found
  have value := congrArg (·[rank - 1]?) (keys_sortBy Duration.units same)
  simp only [List.getElem?_map, hd, Option.map_some] at value
  obtain ⟨d', hd', same'⟩ := Option.map_eq_some_iff.mp value.symm
  refine ⟨d'.val, percentile_ok.mpr ⟨rank, same.length_eq ▸ hr, d', hd', rfl⟩, ?_⟩
  exact (IntOrFloat.eq_iff_units d.2 d'.2).mpr same'.symm

/-- The durations that may be a percentile are one. -/
def Settled (ds : List Duration) (q : PyFloat) : Prop :=
  ∀ rank, nearestRank q ds.length = .ok rank → ∀ a b, AtRank Duration.units ds (rank - 1) a →
    AtRank Duration.units ds (rank - 1) b → a = b

theorem percentile_settled {ds ds' : List Duration} (same : ds.Perm ds') {q : PyFloat}
    (settled : Settled ds q) {v : IntOrFloat}
    (found : nearestRankPercentile (ds.map (·.val)) q = .ok v) :
    nearestRankPercentile (ds'.map (·.val)) q = .ok v := by
  obtain ⟨v', found', -⟩ := percentile_perm same found
  obtain ⟨rank, hr, d, hd, rfl⟩ := percentile_ok.mp found
  obtain ⟨rank', hr', d', hd', rfl⟩ := percentile_ok.mp found'
  rw [← same.length_eq, hr] at hr'
  obtain rfl := Except.ok.inj hr'
  have one := settled rank hr d d' (atRank_sortBy _ hd) ((atRank_perm _ same).mpr (atRank_sortBy _ hd'))
  rw [found', one]

/-- A duration that may be a percentile is, for some order of the measurements. -/
theorem percentile_reach {ms : List ModelInvocationMeasurement} {q : PyFloat} {rank : Nat}
    (hr : nearestRank q ms.length = .ok rank) {d : Duration}
    (atRank : AtRank Duration.units (latencies ms) (rank - 1) d) :
    ∃ ms', ms'.Perm ms ∧ nearestRankPercentile (durations ms') q = .ok d.val := by
  obtain ⟨listed, above, below⟩ := atRank
  obtain ⟨m, hm, rfl⟩ := List.mem_map.mp listed
  rw [latencies, List.countP_map] at above below
  rw [List.countP_map] at below
  obtain ⟨ms', same, found⟩ := sortBy_reach (fun m => m.durationMs.units) hm above below
  refine ⟨ms', same, ?_⟩
  rw [durations_eq]
  refine percentile_ok.mpr ⟨rank, ?_, m.durationMs, ?_, rfl⟩
  · rw [latencies, List.length_map, same.length_eq, hr]
  · rw [latencies, ← sortBy_map Duration.units ModelInvocationMeasurement.durationMs, List.getElem?_map, found,
      Option.map_some]

/-! ## Summaries -/

theorem summaryForPricing_ok {p : ProviderPricing} {values : List ModelInvocationMeasurement}
    {s : ModelCostSuccessSummary} :
    summaryForPricing p values = .ok s ↔ ∃ rate v50 v95,
      successRatePercent (values.filter (·.outcome = .succeeded)).length values.length = .ok rate ∧
        nearestRankPercentile (durations values) p50 = .ok v50 ∧
        nearestRankPercentile (durations values) p95 = .ok v95 ∧ s = summaryOf p values rate v50 v95 := by
  constructor
  · intro made
    obtain ⟨rate, hrate, made⟩ := bind_ok.mp made
    obtain ⟨v50, h50, made⟩ := bind_ok.mp made
    obtain ⟨v95, h95, made⟩ := bind_ok.mp made
    exact ⟨rate, v50, v95, hrate, h50, h95, (Except.ok.inj made).symm⟩
  · rintro ⟨rate, v50, v95, hrate, h50, h95, rfl⟩
    rw [summaryForPricing, hrate, h50, h95]
    rfl

theorem raised_ok {α : Type} {x : Except Overflow α} {a : α} : raised x = .ok a ↔ x = .ok a := by
  cases x with
  | ok b => exact ⟨fun h => congrArg Except.ok (Except.ok.inj h), fun h => congrArg Except.ok (Except.ok.inj h)⟩
  | error e => constructor <;> intro h <;> cases h

theorem floatOfInt_finite {n : Int} {x : PyFloat} (h : floatOfInt n = .ok x) : ∃ y, x = .finite y := by
  unfold floatOfInt at h
  split at h
  · exact ⟨_, (Except.ok.inj h).symm⟩
  · cases h

theorem ofRatio_ne_nan (negative : Bool) (n d : Nat) : PyFloat.ofRatio negative n d ≠ .nan := by
  unfold PyFloat.ofRatio
  split <;> exact PyFloat.noConfusion

theorem round_ne_nan {places : Nat} {x y : PyFloat} (number : x ≠ .nan)
    (h : x.round places = .ok y) : y ≠ .nan := by
  cases x with
  | finite x =>
    simp only [PyFloat.round] at h
    split at h
    · obtain rfl := Except.ok.inj h
      exact PyFloat.noConfusion
    · cases h
  | infinite b =>
    obtain rfl := Except.ok.inj h
    exact PyFloat.noConfusion
  | nan => exact absurd rfl number

theorem successRatePercent_ne_nan {k n : Nat} {rate : PyFloat} (h : successRatePercent k n = .ok rate) :
    rate ≠ .nan := by
  rw [successRatePercent] at h
  by_cases empty : n = 0
  · rw [if_pos empty] at h
    cases h
  rw [if_neg empty] at h
  split at h
  · cases h
  · obtain ⟨hundred, made, h⟩ := bind_ok.mp h
    obtain ⟨y, rfl⟩ := floatOfInt_finite (raised_ok.mp made)
    exact round_ne_nan (ofRatio_ne_nan _ _ _) (raised_ok.mp h)

theorem float_eq_self {x : PyFloat} (number : x ≠ .nan) : (IntOrFloat.float x).eq (.float x) = true := by
  cases x with
  | nan => exact absurd rfl number
  | finite | infinite => exact decide_eq_true rfl

theorem eq_symm {a b : IntOrFloat} (h : a.eq b = true) : b.eq a = true := by
  unfold IntOrFloat.eq at h ⊢
  cases ha : a.exact <;> cases hb : b.exact <;> simp_all

theorem usageTotal_perm (count : Usage → Nat) {ms ms' : List ModelInvocationMeasurement}
    (same : ms.Perm ms') : usageTotal count ms = usageTotal count ms' :=
  (same.map _).sum_nat

/-- What the order of the measurements of a pricing leaves of its summary. -/
theorem summaryOf_perm (p : ProviderPricing) {ms ms' : List ModelInvocationMeasurement}
    (same : ms.Perm ms') (rate : PyFloat) (v50 v95 : IntOrFloat) :
    summaryOf p ms rate v50 v95 = summaryOf p ms' rate v50 v95 := by
  have successful := same.filter (·.outcome = .succeeded)
  have retries := (same.map (·.retryCount)).sum_nat
  simp only [summaryOf, same.length_eq, successful.length_eq, usageTotal_perm _ successful, retries]

theorem summary_perm {p : ProviderPricing} {ms ms' : List ModelInvocationMeasurement}
    (same : ms.Perm ms') {s : ModelCostSuccessSummary} (made : summaryForPricing p ms = .ok s) :
    ∃ s', summaryForPricing p ms' = .ok s' ∧ s'.eq s = true := by
  obtain ⟨rate, v50, v95, hrate, h50, h95, rfl⟩ := summaryForPricing_ok.mp made
  rw [durations_eq] at h50 h95
  obtain ⟨w50, h50', same50⟩ := percentile_perm (same.map _) h50
  obtain ⟨w95, h95', same95⟩ := percentile_perm (same.map _) h95
  rw [(same.filter _).length_eq, same.length_eq] at hrate
  refine ⟨_, summaryForPricing_ok.mpr ⟨rate, w50, w95, hrate, ?_, ?_, rfl⟩, ?_⟩
  · rw [durations_eq]
    exact h50'
  · rw [durations_eq]
    exact h95'
  · rw [summaryOf_perm p same]
    simp [ModelCostSuccessSummary.eq, summaryOf, float_eq_self (successRatePercent_ne_nan hrate),
      eq_symm same50, eq_symm same95]

theorem summary_settled {p : ProviderPricing} {ms ms' : List ModelInvocationMeasurement}
    (same : ms.Perm ms') (settled50 : Settled (latencies ms) p50)
    (settled95 : Settled (latencies ms) p95)
    {s : ModelCostSuccessSummary} (made : summaryForPricing p ms = .ok s) :
    summaryForPricing p ms' = .ok s := by
  obtain ⟨rate, v50, v95, hrate, h50, h95, rfl⟩ := summaryForPricing_ok.mp made
  rw [(same.filter _).length_eq, same.length_eq] at hrate
  rw [durations_eq] at h50 h95
  refine summaryForPricing_ok.mpr ⟨rate, v50, v95, hrate, ?_, ?_, summaryOf_perm p same _ _ _⟩
  · rw [durations_eq]
    exact percentile_settled (same.map _) settled50 h50
  · rw [durations_eq]
    exact percentile_settled (same.map _) settled95 h95

/-! ## Reports -/

/-- Pricings of one sort key are one. -/
def KeyedApart (ms : List ModelInvocationMeasurement) : Prop :=
  ∀ m ∈ ms, ∀ m' ∈ ms, sortKey m.pricing = sortKey m'.pricing → m.pricing = m'.pricing

/-- The durations of a pricing that may be one of its percentiles are one. -/
def DurationsSettled (ms : List ModelInvocationMeasurement) : Prop :=
  ∀ p, Settled (latencies (groupOf p ms)) p50 ∧ Settled (latencies (groupOf p ms)) p95

/-- The pricings of a report, in its order. -/
def CostSuccessReport.pricings (r : CostSuccessReport) : List ProviderPricing := r.summaries.map (·.pricing)

theorem pricings_report {items : List Item} {report : CostSuccessReport}
    (built : buildCostSuccessReport items = .ok report) :
    report.pricings = sortByTexts sortKey (pricings (measurementsOf items)) := by
  obtain ⟨-, -, each⟩ := build_ok.mp built
  have own : List.Forall₂ (fun p s => p = s.pricing) _ report.summaries :=
    (mapM_ok.mp each).imp fun p s made => by
      obtain ⟨rate, v50, v95, -, -, -, rfl⟩ := summaryForPricing_ok.mp made
      rfl
  exact (List.forall₂_eq_eq_eq (α := ProviderPricing) ▸ List.forall₂_map_right_iff.mpr own).symm

theorem pricings_eq {a b : CostSuccessReport} (same : a.eq b = true) : a.pricings = b.pricings := by
  simp only [CostSuccessReport.eq, Bool.and_eq_true, decide_eq_true_eq, List.all_eq_true] at same
  refine List.ext_getElem ?_ fun i hi hj => ?_
  · rw [CostSuccessReport.pricings, CostSuccessReport.pricings, List.length_map, List.length_map,
      same.1.2]
  · rw [CostSuccessReport.pricings, List.length_map] at hi hj
    have pair := same.2 (a.summaries[i], b.summaries[i])
      (List.mem_iff_getElem.mpr ⟨i, by simp; omega, List.getElem_zip⟩)
    simp only [ModelCostSuccessSummary.eq, Bool.and_eq_true, decide_eq_true_eq] at pair
    simp only [CostSuccessReport.pricings, List.getElem_map]
    tauto

/-- Two pricings of one sort key come in the order of their first measurements. -/
theorem keyedApart_of_pricings {items : List Item} {report : CostSuccessReport}
    (built : buildCostSuccessReport items = .ok report)
    (same : ∀ items', items'.Perm items → ∃ report', buildCostSuccessReport items' = .ok report' ∧
      report'.pricings = report.pricings) : KeyedApart (measurementsOf items) := by
  obtain ⟨all, -, -⟩ := build_ok.mp built
  -- With a measurement first, its pricing is the first of its key in the report.
  have first (m) (hm : m ∈ measurementsOf items) :
      (report.pricings.filter (sortKey · = sortKey m.pricing)).head? = some m.pricing := by
    have moved := List.perm_cons_erase hm
    obtain ⟨report', built', listed⟩ := same
      ((m :: (measurementsOf items).erase m).map .measurement) (by
        conv_rhs => rw [all]
        exact moved.symm.map _)
    obtain ⟨rest, head⟩ := pricings_head m ((measurementsOf items).erase m)
    rw [← listed, pricings_report built', measurementsOf_map, sortByTexts_stable, head,
      List.filter_cons_of_pos (by simp), List.head?_cons]
  intro m hm m' hm' key
  have both := first m hm
  rw [key, first m' hm'] at both
  exact (Option.some.inj both).symm

theorem measurementsOf_perm {items items' : List Item} (same : items'.Perm items) :
    (measurementsOf items').Perm (measurementsOf items) :=
  same.filterMap _

/-- The report of another order, of summaries that are related. -/
theorem build_relates {items items' : List Item} {report : CostSuccessReport}
    (built : buildCostSuccessReport items = .ok report) (apart : KeyedApart (measurementsOf items))
    (same : items'.Perm items) (R : ModelCostSuccessSummary → ModelCostSuccessSummary → Prop)
    (step : ∀ p s, summaryForPricing p (groupOf p (measurementsOf items)) = .ok s →
      ∃ s', summaryForPricing p (groupOf p (measurementsOf items')) = .ok s' ∧ R s s') :
    ∃ report', buildCostSuccessReport items' = .ok report' ∧
      report'.schemaVersion = report.schemaVersion ∧
      List.Forall₂ R report.summaries report'.summaries := by
  obtain ⟨all, version, each⟩ := build_ok.mp built
  have only : items' = (measurementsOf items').map .measurement := by
    have none_other : ∀ i ∈ items', ∃ m, i = .measurement m := by
      intro i hi
      have listed := same.mem_iff.mp hi
      rw [all] at listed
      obtain ⟨m, -, rfl⟩ := List.mem_map.mp listed
      exact ⟨m, rfl⟩
    clear same step
    induction items' with
    | nil => rfl
    | cons i items' ih =>
      obtain ⟨m, rfl⟩ := none_other i List.mem_cons_self
      exact congrArg (Item.measurement m :: ·) (ih fun i hi => none_other i (List.mem_cons_of_mem _ hi))
  have sorted : sortByTexts sortKey (pricings (measurementsOf items)) =
      sortByTexts sortKey (pricings (measurementsOf items')) := by
    refine sortByTexts_eq (pricings_perm (measurementsOf_perm same)).symm ?_
    rintro p hp q hq key
    obtain ⟨m, hm, rfl⟩ := mem_pricings.mp hp
    obtain ⟨m', hm', rfl⟩ := mem_pricings.mp hq
    exact apart m hm m' hm' key
  obtain ⟨summaries, each', related⟩ := mapM_relates (R := R) (fun p _ s made => step p s made) each
  rw [sorted] at each'
  exact ⟨⟨report.schemaVersion, summaries⟩, build_ok.mpr ⟨only, version, each'⟩, rfl, related⟩

theorem report_perm {items items' : List Item} {report : CostSuccessReport}
    (built : buildCostSuccessReport items = .ok report) (apart : KeyedApart (measurementsOf items))
    (same : items'.Perm items) :
    ∃ report', buildCostSuccessReport items' = .ok report' ∧ report'.eq report = true := by
  obtain ⟨report', built', version, related⟩ := build_relates built apart same
    (fun s s' => s'.eq s = true) fun p s made =>
      summary_perm ((measurementsOf_perm same).symm.filter _) made
  refine ⟨report', built', ?_⟩
  simp only [CostSuccessReport.eq, version, related.length_eq, decide_true, Bool.true_and,
    List.all_eq_true]
  exact fun s hs => (List.forall₂_iff_zip.mp related.flip).2 hs

theorem report_settled {items items' : List Item} {report : CostSuccessReport}
    (built : buildCostSuccessReport items = .ok report) (apart : KeyedApart (measurementsOf items))
    (settled : DurationsSettled (measurementsOf items)) (same : items'.Perm items) :
    buildCostSuccessReport items' = .ok report := by
  obtain ⟨report', built', version, related⟩ := build_relates built apart same Eq fun p s made =>
    ⟨s, summary_settled ((measurementsOf_perm same).symm.filter _) (settled p).1 (settled p).2 made, rfl⟩
  rw [List.forall₂_eq_eq_eq] at related
  have one : report' = report := by
    cases report
    cases report'
    exact congrArg₂ CostSuccessReport.mk version related.symm
  rw [built', one]

/-- A duration that may be the percentile of a pricing is the one that the report has. -/
theorem reported_duration {items : List Item} {report : CostSuccessReport}
    (built : buildCostSuccessReport items = .ok report)
    (same : ∀ items', items'.Perm items → buildCostSuccessReport items' = .ok report)
    {q : PyFloat} {f : ModelCostSuccessSummary → IntOrFloat}
    (read : ∀ p ms s, summaryForPricing p ms = .ok s → nearestRankPercentile (durations ms) q = .ok (f s))
    {p : ProviderPricing} {rank : Nat}
    (hr : nearestRank q (latencies (groupOf p (measurementsOf items))).length = .ok rank) {d : Duration}
    (atRank : AtRank Duration.units (latencies (groupOf p (measurementsOf items))) (rank - 1) d) :
    ∃ s ∈ report.summaries, s.pricing = p ∧ f s = d.val := by
  obtain ⟨all, -, -⟩ := build_ok.mp built
  rw [latencies, List.length_map] at hr
  obtain ⟨ms, own, found⟩ := percentile_reach hr atRank
  let others := (measurementsOf items).filter fun m => !decide (m.pricing = p)
  have moved : (ms ++ others).Perm (measurementsOf items) :=
    (own.append_right others).trans (List.filter_append_perm _ _)
  have group : groupOf p (ms ++ others) = ms := by
    rw [groupOf, List.filter_append, List.filter_eq_self.mpr, List.filter_eq_nil_iff.mpr, List.append_nil]
    · intro m hm
      simpa using (List.mem_filter.mp hm).2
    · intro m hm
      exact (List.mem_filter.mp (own.mem_iff.mp hm)).2
  have built' := same ((ms ++ others).map .measurement) (by
    conv_rhs => rw [all]
    exact moved.map _)
  obtain ⟨-, -, each⟩ := build_ok.mp built'
  rw [measurementsOf_map] at each
  have listed : p ∈ sortByTexts sortKey (pricings (ms ++ others)) := by
    obtain ⟨m, hm, -⟩ := List.mem_map.mp atRank.1
    obtain ⟨known, priced⟩ := List.mem_filter.mp hm
    exact (sortByTexts_perm _ _).mem_iff.mpr
      (mem_pricings.mpr ⟨m, moved.mem_iff.mpr known, of_decide_eq_true priced⟩)
  obtain ⟨s, hs, made⟩ := forall₂_mem (mapM_ok.mp each).flip listed
  rw [group] at made
  obtain ⟨rate, v50, v95, -, -, -, shape⟩ := summaryForPricing_ok.mp made
  exact ⟨s, hs, congrArg (·.pricing) shape, Except.ok.inj ((read p ms s made).symm.trans found)⟩

theorem durationsSettled_of_same {items : List Item} {report : CostSuccessReport}
    (built : buildCostSuccessReport items = .ok report)
    (same : ∀ items', items'.Perm items → buildCostSuccessReport items' = .ok report) :
    DurationsSettled (measurementsOf items) := by
  have distinct : (report.summaries.map (·.pricing)).Nodup := by
    rw [← CostSuccessReport.pricings, pricings_report built, (sortByTexts_perm _ _).nodup_iff]
    exact Dict.nodup_keys _
  have settled (q : PyFloat) (f : ModelCostSuccessSummary → IntOrFloat)
      (read : ∀ p ms s, summaryForPricing p ms = .ok s →
        nearestRankPercentile (durations ms) q = .ok (f s)) (p : ProviderPricing) :
      Settled (latencies (groupOf p (measurementsOf items))) q := by
    intro rank hr a b ha hb
    obtain ⟨s, hs, rfl, one⟩ := reported_duration built same read hr ha
    obtain ⟨s', hs', priced, other⟩ := reported_duration built same read hr hb
    obtain rfl := List.inj_on_of_nodup_map distinct hs hs' priced.symm
    exact Subtype.ext (one.symm.trans other)
  intro p
  constructor
  · refine settled p50 (·.latencyP50Ms) (fun p ms s made => ?_) p
    obtain ⟨rate, v50, v95, -, h50, -, rfl⟩ := summaryForPricing_ok.mp made
    exact h50
  · refine settled p95 (·.latencyP95Ms) (fun p ms s made => ?_) p
    obtain ⟨rate, v50, v95, -, -, h95, rfl⟩ := summaryForPricing_ok.mp made
    exact h95

/-- Every order of accepted measurements has a report that is equal, exactly if no two pricings share
a sort key; it is the same report exactly if, besides, equal durations at a percentile are the same
number. -/
theorem report_orderFree_iff {items : List Item} {report : CostSuccessReport}
    (built : buildCostSuccessReport items = .ok report) :
    ((∀ items', items'.Perm items →
        ∃ report', buildCostSuccessReport items' = .ok report' ∧ report'.eq report = true) ↔
      KeyedApart (measurementsOf items)) ∧
    ((∀ items', items'.Perm items → buildCostSuccessReport items' = .ok report) ↔
      KeyedApart (measurementsOf items) ∧ DurationsSettled (measurementsOf items)) := by
  constructor
  · constructor
    · intro same
      refine keyedApart_of_pricings built fun items' perm => ?_
      obtain ⟨report', built', equal⟩ := same items' perm
      exact ⟨report', built', pricings_eq equal⟩
    · exact fun apart items' perm => report_perm built apart perm
  · constructor
    · intro same
      exact ⟨keyedApart_of_pricings built fun items' perm => ⟨report, same items' perm, rfl⟩,
        durationsSettled_of_same built same⟩
    · rintro ⟨apart, settled⟩ items' perm
      exact report_settled built apart settled perm

/-! ## Two measurements -/

def pricingText (s : String) (h : lit s ≠ [] ∧ lit s = strip (lit s) ∧ (lit s).length ≤ 256) : BoundedText :=
  ⟨lit s, h.1, h.2.1, h.2.2⟩

def oneMillisecond : Duration := ⟨.int 1, by decide +kernel⟩

/-- A price list of one of two sources. -/
def samplePricing (second : Bool) : ProviderPricing where
  provider := pricingText "provider" (by decide +kernel)
  modelId := pricingText "model" (by decide +kernel)
  pricingVersion := pricingText "v1" (by decide +kernel)
  sourceReference := if second then pricingText "invoice" (by decide +kernel)
    else pricingText "price list" (by decide +kernel)
  inputMicrousdPerMillionTokens := 1
  outputMicrousdPerMillionTokens := 2

theorem sample_correlation_ne : (1 : Uuid) ≠ 0 := by decide

theorem sample_trace_ne : (none : Option Uuid) ≠ some 0 := by decide

theorem sample_reported : (none : Option Usage).isSome = true ↔ Outcome.failed = .succeeded := by decide

def sampleMeasurement (second : Bool) (duration : Duration) : ModelInvocationMeasurement where
  correlationId := 1
  traceId := none
  pricing := samplePricing second
  outcome := .failed
  durationMs := duration
  retryCount := 0
  usage := none
  correlation_ne := sample_correlation_ne
  trace_ne := sample_trace_ne
  reported := sample_reported

def twoSources : List Item :=
  [.measurement (sampleMeasurement false oneMillisecond), .measurement (sampleMeasurement true oneMillisecond)]

/-- The same duration as an int and as a float. -/
def twoTypes : List Item :=
  [.measurement (sampleMeasurement false oneMillisecond),
    .measurement (sampleMeasurement false ⟨.float (.ofRatio false 1 1), by decide +kernel⟩)]

theorem twoReports_ok : (buildCostSuccessReport twoSources).isOk = true ∧
    (buildCostSuccessReport twoTypes).isOk = true := by decide +kernel

theorem nearestRank_two : nearestRank p50 2 = .ok 1 := by decide +kernel

/-- Two sources leave the order of the summaries open, two types the number that is reported. -/
theorem report_orderFree_sample :
    (∃ report, buildCostSuccessReport twoSources = .ok report ∧ ¬ ∀ items', items'.Perm twoSources →
        ∃ report', buildCostSuccessReport items' = .ok report' ∧ report'.eq report = true) ∧
      ∃ report, buildCostSuccessReport twoTypes = .ok report ∧
        (∀ items', items'.Perm twoTypes →
          ∃ report', buildCostSuccessReport items' = .ok report' ∧ report'.eq report = true) ∧
        ¬ ∀ items', items'.Perm twoTypes → buildCostSuccessReport items' = .ok report := by
  constructor
  · obtain ⟨report, built⟩ := exists_ok twoReports_ok.1
    refine ⟨report, built, fun same => ?_⟩
    have apart := (report_orderFree_iff built).1.mp same
    have one := apart (sampleMeasurement false oneMillisecond) (by simp [twoSources, measurementsOf, Item.measurement?])
      (sampleMeasurement true oneMillisecond) (by simp [twoSources, measurementsOf, Item.measurement?]) rfl
    revert one
    decide +kernel
  · obtain ⟨report, built⟩ := exists_ok twoReports_ok.2
    have priced : ∀ m ∈ measurementsOf twoTypes, m.pricing = samplePricing false := by
      simp [twoTypes, measurementsOf, Item.measurement?, sampleMeasurement]
    have apart : KeyedApart (measurementsOf twoTypes) := fun m hm m' hm' _ =>
      (priced m hm).trans (priced m' hm').symm
    refine ⟨report, built, (report_orderFree_iff built).1.mpr apart, fun same => ?_⟩
    have settled := ((report_orderFree_iff built).2.mp same).2 (samplePricing false)
    have group : latencies (groupOf (samplePricing false) (measurementsOf twoTypes)) =
        [oneMillisecond, ⟨.float (.ofRatio false 1 1), by decide +kernel⟩] := by decide +kernel
    rw [group] at settled
    have one := settled.1 1 nearestRank_two oneMillisecond ⟨.float (.ofRatio false 1 1), by decide +kernel⟩
      (by rw [AtRank]; decide +kernel) (by rw [AtRank]; decide +kernel)
    cases congrArg Subtype.val one

end QaCopilot.Metrics
