import Mathlib.Data.List.Sigma
import TraceExplorer.Proofs.Number.Monotone
import TraceExplorer.Proofs.Summary.Share

/-!
# The ranked list

A list has one row for each summary, the longest trace first, then by id and then in the order of
the summaries. Down the list the rows do not become wider, since rounding keeps the order of the
quotients. Only the share of a chosen service can be too large for a double, and then there is no
list.
-/

namespace TraceExplorer

open Number (Double Scalar ArithmeticError)

def TraceSummary.rankKey (s : TraceSummary) : Int × Text := (s.duration, s.traceId.getD "")

/-- A numbered summary stands before another one in a list: it is longer or has the smaller id, or
it has the smaller number if neither tells them apart. -/
def StandsBefore (a b : TraceSummary × Nat) : Prop :=
  longerFirst a.1.rankKey b.1.rankKey ∧ (a.1.rankKey = b.1.rankKey → a.2 < b.2)

/-- The services that have intervals, the longest first and then by name. -/
structure ServiceSummary.Lists (services : List ServiceSummary) (grouped : ServiceIntervals) :
    Prop where
  ranked : services.Pairwise fun a b =>
    longerFirst (a.maxSpanDuration, a.serviceName) (b.maxSpanDuration, b.serviceName)
  names : (services.map (·.serviceName)).Perm ((grouped.filter (!·.2.isEmpty)).map (·.1))
  counts : ∀ a ∈ services, ∃ intervals, (a.serviceName, intervals) ∈ grouped ∧
    a.spanCount = intervals.length ∧
    (intervals.map (·.duration)).max? = some a.maxSpanDuration

structure TraceListItem.Shows (item : TraceListItem) (s : TraceSummary) : Prop where
  traceId : item.traceId = s.traceId.getD ""
  timestamp : item.timestamp = s.timestamp
  spanCount : item.spanCount = s.spanCount
  duration : item.duration = s.duration
  width_eq_none_iff : item.width = none ↔ s.duration = 0
  width_bounds : ∀ width, item.width = some width → 0 ≤ width ∧ width ≤ 100
  services : ServiceSummary.Lists item.services s.grouped

structure IsRanking (summaries : List TraceSummary) (items : List TraceListItem) : Prop where
  rows : ∃ ranked, ranked.Perm summaries.zipIdx ∧ ranked.Pairwise StandsBefore ∧
    List.Forall₂ (fun item s => item.Shows s.1) items ranked
  widths : (items.filterMap (·.width)).Pairwise (· ≥ ·)
  widest : ∀ item ∈ items, 0 < item.duration → (∀ other ∈ items, other.duration ≤ item.duration) →
    item.width = some 100

structure TraceSummary.IsWritable (options : ListOptions) (s : TraceSummary) : Prop where
  start : ∃ text, Calendar.formatStamp s.timestamp options.utc options.zone = .ok text
  milliseconds : ∃ x, Double.ofQuotient s.duration 1000 = .ok x
  text : ∃ text, durationText (.whole s.duration) = .ok text

/-- The chosen service takes at most `10 ^ 300` times as long as the trace, if the trace lasts. -/
def TraceSummary.IsInRange (options : ListOptions) (s : TraceSummary) : Prop :=
  ∀ intervals, TraceListItem.chosenIntervals? options s = some intervals → s.duration ≠ 0 →
    0 ≤ Interval.totalDuration intervals ∧
      Interval.totalDuration intervals ≤ 10 ^ 300 * s.duration

/-! ## Widths -/

section

variable {part part' whole percent percent' : Int} {q q' v v' : Rat}

theorem value_ofResult_mono {negative negative' : Bool} (hq : 0 ≤ q) (h : q ≤ q')
    (hv : (Double.ofResult negative q).value? = some v)
    (hv' : (Double.ofResult negative' q').value? = some v') : v ≤ v' := by
  rcases hq.eq_or_lt with rfl | hpos
  · have hzero : v ≤ (0 : Nat) := (value_ofResult le_rfl hv).2 0 (by norm_num) (by simp)
    exact (hzero.trans_eq Nat.cast_zero).trans (value_ofResult h hv').1
  · have hpos' : 0 < q' := hpos.trans_le h
    rw [Double.ofResult, if_neg hpos.ne'] at hv
    rw [Double.ofResult, if_neg hpos'.ne'] at hv'
    rw [value_ofRat hpos hv, value_ofRat hpos' hv']
    exact Number.nearestMultiple_mono hpos h

/-- A larger part has no smaller percentage. -/
theorem percentage_mono (hpart : 0 ≤ part) (hle : part ≤ part') (hwhole : 0 < whole)
    (h : percentage part whole = .ok percent) (h' : percentage part' whole = .ok percent') :
    percent ≤ percent' := by
  obtain ⟨_, _, share, product, hshare, hproduct, rfl⟩ := percentage_eq_ok hwhole h
  obtain ⟨_, _, share', product', hshare', hproduct', rfl⟩ := percentage_eq_ok hwhole h'
  have hwhole' : (0 : Rat) < whole := by exact_mod_cast hwhole
  have hquotient : (0 : Rat) ≤ (part : Rat) / whole :=
    div_nonneg (by exact_mod_cast hpart) hwhole'.le
  have hquotients : (part : Rat) / whole ≤ (part' : Rat) / whole :=
    div_le_div_of_nonneg_right (by exact_mod_cast hle) hwhole'.le
  have hshare0 : 0 ≤ share * 100 :=
    mul_nonneg (value_ofResult hquotient hshare).1 (by norm_num)
  have hshares : share * 100 ≤ share' * 100 :=
    mul_le_mul_of_nonneg_right (value_ofResult_mono hquotient hquotients hshare hshare')
      (by norm_num)
  have hproduct0 : 0 ≤ product := (value_ofResult hshare0 hproduct).1
  have hproducts : product ≤ product' := value_ofResult_mono hshare0 hshares hproduct hproduct'
  rw [if_neg (not_lt.mpr hproduct0), if_neg (not_lt.mpr (hproduct0.trans hproducts))]
  exact Int.floor_mono hproducts

/-- A percentage of something other than zero can only be too large. -/
theorem overflow_of_percentage {e : ArithmeticError} (hwhole : whole ≠ 0)
    (h : percentage part whole = .error e) : e = .overflow := by
  rcases bind_eq_error_iff.mp h with hdiv | ⟨share, hdiv, h⟩
  · rw [Scalar.div, map_eq_error_iff, Double.ofQuotient, if_neg hwhole] at hdiv
    split at hdiv
    · exact (Except.error.inj hdiv).symm
    · cases hdiv
  · obtain ⟨x, -, rfl⟩ := map_eq_ok_iff.mp hdiv
    rw [scalar_mul_hundred] at h
    rcases bind_eq_error_iff.mp h with hmul | ⟨product, -, h⟩
    · cases hmul
    · split at h
      · cases h
      · exact (Except.error.inj h).symm

theorem percentage_self (hwhole : 0 < whole) : percentage whole whole = .ok 100 := by
  have hquotient : (whole : Rat) / whole = 1 := div_self (by exact_mod_cast hwhole.ne')
  have hdouble : Double.ofResult false 1 = .finite 1 := by decide +kernel
  have hproduct : Double.mul (.finite 1) (.finite 100) = .finite 100 := by decide +kernel
  have hone : Double.ofQuotient whole whole = .ok (.finite 1) := by
    rw [Double.ofQuotient, if_neg hwhole.ne', hquotient, bne_self_eq_false, hdouble]
  have hdiv : (Scalar.whole whole).div (.whole whole) = .ok (.real (.finite 1)) := by
    rw [Scalar.div, hone]
    rfl
  refine bind_eq_ok_iff.mpr ⟨_, hdiv, bind_eq_ok_iff.mpr ⟨_, scalar_mul_hundred _, ?_⟩⟩
  rw [hproduct]
  rfl

end

/-! ## Services -/

theorem ServiceSummary.names_filterMap (grouped : ServiceIntervals) :
    (grouped.filterMap ofIntervals?).map (·.serviceName) =
      (grouped.filter (!·.2.isEmpty)).map (·.1) := by
  induction grouped with
  | nil => rfl
  | cons service rest ih =>
      obtain ⟨name, intervals⟩ := service
      cases intervals with
      | nil => exact ih
      | cons i intervals => exact congrArg (name :: ·) ih

theorem ServiceSummary.lists_all (grouped : ServiceIntervals) :
    ServiceSummary.Lists (all grouped) grouped where
  ranked := pairwise_ranked (fun a : ServiceSummary => (a.maxSpanDuration, a.serviceName)) _
  names := by
    rw [← names_filterMap]
    exact (List.mergeSort_perm _ _).map _
  counts := by
    intro a ha
    obtain ⟨⟨name, intervals⟩, hmem, hsummary⟩ := List.mem_filterMap.mp (List.mem_mergeSort.mp ha)
    obtain ⟨longest, hlongest, rfl⟩ := Option.map_eq_some_iff.mp hsummary
    exact ⟨intervals, hmem, rfl, hlongest⟩

/-! ## Rows -/

namespace TraceListItem

section

variable {options : ListOptions} {longest : Int} {s : TraceSummary} {item : TraceListItem}

/-- Only a row of a duration has a width. -/
theorem width_of_ofSummary (h : ofSummary options longest s = .ok item) :
    item.duration = s.duration ∧
      (s.duration = 0 ∧ item.width = none ∨ s.duration ≠ 0 ∧ ∃ width, item.width = some width ∧
        percentage s.duration longest = .ok width) := by
  obtain ⟨startText, timed, share, -, htimed, -, rfl⟩ := ofSummary_eq_ok_iff.mp h
  by_cases hzero : s.duration = 0
  · rw [if_pos hzero] at htimed
    obtain rfl := Except.ok.inj htimed
    exact ⟨hzero.symm, .inl ⟨hzero, rfl⟩⟩
  · rw [if_neg hzero] at htimed
    obtain ⟨width, _, _, hwidth, -, -, rfl⟩ := withDuration_eq_ok_iff.mp htimed
    exact ⟨rfl, .inr ⟨hzero, width, rfl, hwidth⟩⟩

theorem percentage_of_width {width : Int} (h : ofSummary options longest s = .ok item)
    (hwidth : item.width = some width) :
    s.duration ≠ 0 ∧ percentage s.duration longest = .ok width := by
  obtain ⟨-, ⟨-, hnone⟩ | ⟨hne, _, hsome, hpercentage⟩⟩ := width_of_ofSummary h
  · rw [hnone] at hwidth
    cases hwidth
  · obtain rfl := Option.some.inj (hsome.symm.trans hwidth)
    exact ⟨hne, hpercentage⟩

theorem shows_of_ofSummary (hnonneg : 0 ≤ s.duration) (hle : s.duration ≤ longest)
    (h : ofSummary options longest s = .ok item) : item.Shows s := by
  obtain ⟨hduration, hwidth⟩ := width_of_ofSummary h
  obtain ⟨htraceId, htimestamp, hspanCount, hservices⟩ := copied_of_ofSummary h
  refine ⟨htraceId, htimestamp, hspanCount, hduration, ?_, fun width hsome => ?_,
    hservices ▸ ServiceSummary.lists_all _⟩
  · rcases hwidth with ⟨hzero, hnone⟩ | ⟨hne, width, hsome, -⟩
    · exact iff_of_true hnone hzero
    · exact iff_of_false (by simp [hsome]) hne
  · obtain ⟨hne, hpercentage⟩ := percentage_of_width h hsome
    exact (percentage_bounds hnonneg (by omega) hpercentage).imp_right (· hle)

/-- A longer trace has no narrower row. -/
theorem width_le_of_ofSummary {s' : TraceSummary} {item' : TraceListItem} {width width' : Int}
    (hnonneg : 0 ≤ s.duration) (hle : s.duration ≤ s'.duration) (hle' : s'.duration ≤ longest)
    (h : ofSummary options longest s = .ok item) (h' : ofSummary options longest s' = .ok item')
    (hwidth : item.width = some width) (hwidth' : item'.width = some width') : width ≤ width' := by
  obtain ⟨hne, hpercentage⟩ := percentage_of_width h hwidth
  obtain ⟨-, hpercentage'⟩ := percentage_of_width h' hwidth'
  exact percentage_mono hnonneg hle (by omega) hpercentage hpercentage'

theorem exists_timed (hnonneg : 0 ≤ s.duration) (hle : s.duration ≤ longest)
    (hwritable : s.IsWritable options) (item : TraceListItem) :
    ∃ timed, (if s.duration = 0 then .ok item else item.withDuration s.duration longest) =
      .ok timed := by
  by_cases hzero : s.duration = 0
  · exact ⟨item, if_pos hzero⟩
  · obtain ⟨width, hwidth⟩ := exists_percentage hnonneg hle (by omega)
    obtain ⟨milliseconds, hmilliseconds⟩ := hwritable.milliseconds
    obtain ⟨text, htext⟩ := hwritable.text
    exact ⟨_, (if_neg hzero).trans (withDuration_eq_ok_iff.mpr
      ⟨width, milliseconds, text, hwidth, hmilliseconds, htext, rfl⟩)⟩

theorem exists_ofSummary_iff (hnonneg : 0 ≤ s.duration)
    (hle : s.duration ≤ longest) (hwritable : s.IsWritable options) :
    (∃ item, ofSummary options longest s = .ok item) ↔
      ∃ share, shareOfService options s = .ok share := by
  constructor
  · rintro ⟨item, hitem⟩
    obtain ⟨_, _, share, -, -, hshare, -⟩ := ofSummary_eq_ok_iff.mp hitem
    exact ⟨share, hshare⟩
  · rintro ⟨share, hshare⟩
    obtain ⟨startText, hstart⟩ := hwritable.start
    obtain ⟨timed, htimed⟩ := exists_timed hnonneg hle hwritable (untimed s startText)
    exact ⟨_, ofSummary_eq_ok_iff.mpr ⟨startText, timed, share, hstart, htimed, hshare, rfl⟩⟩

/-! ## Shares -/

theorem overflow_of_shareOfService {e : ArithmeticError} (h : shareOfService options s = .error e) :
    e = .overflow := by
  rw [shareOfService] at h
  split at h
  · split at h
    · cases h
    · exact overflow_of_percentage ‹_› (map_eq_error_iff.mp h)
  · cases h

theorem exists_share_of_isInRange (hnonneg : 0 ≤ s.duration) (h : s.IsInRange options) :
    ∃ share, shareOfService options s = .ok share := by
  rw [shareOfService]
  split
  · next intervals hchosen =>
    split
    · exact ⟨_, rfl⟩
    · next hne =>
      have hfar : 400 * ((10 ^ 300 : Nat) : Rat) + 201 < Double.overflowBound := by decide +kernel
      obtain ⟨htotal, hle⟩ := h intervals hchosen hne
      obtain ⟨percent, hpercent⟩ :=
        exists_percentage_of_le htotal (by exact_mod_cast hle) (by omega) hfar
      exact ⟨some percent, by rw [hpercent]; rfl⟩
  · exact ⟨_, rfl⟩

/-- A summary that can be written has no row only if the share is too large. -/
theorem overflow_of_ofSummary {e : Failure} (hnonneg : 0 ≤ s.duration)
    (hle : s.duration ≤ longest) (hwritable : s.IsWritable options)
    (h : ofSummary options longest s = .error e) : e = .arithmetic .overflow := by
  cases hshare : shareOfService options s with
  | ok share =>
      obtain ⟨item, hitem⟩ := (exists_ofSummary_iff hnonneg hle hwritable).mpr ⟨share, hshare⟩
      rw [hitem] at h
      cases h
  | error cause =>
      obtain ⟨startText, hstart⟩ := hwritable.start
      obtain ⟨timed, htimed⟩ := exists_timed hnonneg hle hwritable (untimed s startText)
      have hfails : ofSummary options longest s = .error (.arithmetic cause) := by
        rw [ofSummary, hstart]
        change (liftArithmetic (if s.duration = 0 then .ok (untimed s startText) else
          (untimed s startText).withDuration s.duration longest) >>= _) = _
        rw [htimed, hshare]
        rfl
      rw [hfails, overflow_of_shareOfService hshare] at h
      exact (Except.error.inj h).symm

end

end TraceListItem

/-! ## Lists -/

namespace Batch

open TraceListItem

section

variable {options : ListOptions} {longest : Int} {summaries : List TraceSummary}
  {rows items : List TraceListItem} {item : TraceListItem}

/-- There is a list if the share of the chosen service can be told for every summary. -/
theorem exists_rank_iff_exists_share (hnonneg : ∀ s ∈ summaries, 0 ≤ s.duration)
    (hwritable : ∀ s ∈ summaries, s.IsWritable options) :
    (∃ items, rank options summaries = .ok items) ↔
      ∀ s ∈ summaries, ∃ share, shareOfService options s = .ok share := by
  rw [exists_rank_iff hnonneg]
  exact forall₂_congr fun s hs => exists_ofSummary_iff (hnonneg s hs) le_rfl (hwritable s hs)

theorem overflow_of_rank {e : Failure} (hnonneg : ∀ s ∈ summaries, 0 ≤ s.duration)
    (hwritable : ∀ s ∈ summaries, s.IsWritable options)
    (h : rank options summaries = .error e) : e = .arithmetic .overflow := by
  rcases bind_eq_error_iff.mp h with hrows | ⟨rows, -, h⟩
  · obtain ⟨before, s, after, hsplit, -, hrow⟩ := mapM_eq_error_iff.mp hrows
    have hs : s ∈ summaries := hsplit ▸ List.mem_append_right _ List.mem_cons_self
    exact overflow_of_ofSummary (hnonneg s hs) (duration_le_longest hs) (hwritable s hs) hrow
  · cases h

theorem exists_longest {s : TraceSummary} (hs : s ∈ summaries) :
    ∃ s' ∈ summaries, s'.duration = (summaries.map (·.duration)).max?.getD 0 := by
  cases hmax : (summaries.map (·.duration)).max? with
  | none =>
      rw [List.map_eq_nil_iff.mp (List.max?_eq_none_iff.mp hmax)] at hs
      cases hs
  | some longest => exact List.mem_map.mp (List.max?_eq_some_iff.mp hmax).1

theorem standsBefore_of_zipIdxLE {row row' : TraceListItem × Nat} {s s' : TraceSummary × Nat}
    (hkey : rankKey row.1 = s.1.rankKey) (hkey' : rankKey row'.1 = s'.1.rankKey)
    (hnumber : row.2 = s.2) (hnumber' : row'.2 = s'.2) (hne : row.2 ≠ row'.2)
    (h : List.zipIdxLE le row row') : StandsBefore s s' := by
  rw [StandsBefore, ← hkey, ← hkey', ← hnumber, ← hnumber']
  rw [List.zipIdxLE] at h
  split at h
  · next hle =>
    refine ⟨hle, fun hsame => ?_⟩
    have hback : le row'.1 row.1 := by
      show longerFirst (rankKey row'.1) (rankKey row.1)
      rw [← hsame]
      have hself := longerFirst_total (rankKey row.1) (rankKey row.1)
      rwa [Bool.or_self] at hself
    rw [if_pos hback] at h
    exact lt_of_le_of_ne (of_decide_eq_true h) hne
  · cases h

/-- Sorting rows sorts their summaries, each with its number. -/
theorem exists_ranked {R : TraceListItem → TraceSummary → Prop}
    (h : List.Forall₂ R rows summaries)
    (hkey : ∀ item s, R item s → rankKey item = s.rankKey) :
    ∃ ranked, ranked.Perm summaries.zipIdx ∧ ranked.Pairwise StandsBefore ∧
      List.Forall₂ (fun item s => R item s.1) (rows.mergeSort le) ranked := by
  have hsorted : (rows.zipIdx.mergeSort (List.zipIdxLE le)).Pairwise
      fun row row' => List.zipIdxLE le row row' :=
    List.pairwise_mergeSort
      (List.zipIdxLE_trans fun a b c =>
        @longerFirst_trans (rankKey a) (rankKey b) (rankKey c))
      (List.zipIdxLE_total fun a b => longerFirst_total (rankKey a) (rankKey b)) _
  have hperm := List.mergeSort_perm rows.zipIdx (List.zipIdxLE le)
  have hdistinct : (rows.zipIdx.mergeSort (List.zipIdxLE le)).Pairwise
      fun row row' => row.2 ≠ row'.2 :=
    List.pairwise_map.mp ((hperm.map _).nodup_iff.mpr (List.nodup_zipIdx_map_snd rows))
  obtain ⟨ranked, hranked, hranked'⟩ :=
    List.perm_comp_forall₂ hperm (Reordering.forall₂_zipIdx h 0)
  refine ⟨ranked, hranked', ?_, ?_⟩
  · refine Reordering.pairwise_of_forall₂ (fun row row' s s' hrow hrow' hboth => ?_) hranked
      (hsorted.and hdistinct)
    exact standsBefore_of_zipIdxLE (hkey _ _ hrow.1) (hkey _ _ hrow'.1) hrow.2 hrow'.2 hboth.2
      hboth.1
  · rw [← List.mergeSort_zipIdx, List.forall₂_map_left_iff]
    exact hranked.imp fun _ _ hrow => hrow.1

theorem exists_summary_of_row (hrows : summaries.mapM (ofSummary options longest) = .ok rows)
    (hitem : item ∈ rows.mergeSort le) :
    ∃ s ∈ summaries, item.duration = s.duration ∧ ofSummary options longest s = .ok item := by
  obtain ⟨s, hs, hrow⟩ := Reordering.exists_mem_of_mapM hrows (List.mem_mergeSort.mp hitem)
  exact ⟨s, hs, (width_of_ofSummary hrow).1, hrow⟩

theorem forall₂_shows (hnonneg : ∀ s ∈ summaries, 0 ≤ s.duration)
    (hle : ∀ s ∈ summaries, s.duration ≤ longest)
    (hrows : summaries.mapM (ofSummary options longest) = .ok rows) :
    List.Forall₂ (fun item s => TraceListItem.Shows item s) rows summaries := by
  have hbounded := (List.forall₂_and_left _ _).mpr
    ⟨fun s hs => And.intro (hnonneg s hs) (hle s hs), Reordering.mapM_eq_ok_iff.mp hrows⟩
  exact hbounded.flip.imp fun _ _ hitem => shows_of_ofSummary hitem.1.1 hitem.1.2 hitem.2

theorem pairwise_widths (hnonneg : ∀ s ∈ summaries, 0 ≤ s.duration)
    (hle : ∀ s ∈ summaries, s.duration ≤ longest)
    (hrows : summaries.mapM (ofSummary options longest) = .ok rows) :
    ((rows.mergeSort le).filterMap (·.width)).Pairwise (· ≥ ·) := by
  refine List.pairwise_filterMap.mpr ?_
  refine List.Pairwise.imp_of_mem (fun {a b} ha hb hab width hwidth width' hwidth' => ?_)
    (pairwise_ranked rankKey rows)
  obtain ⟨s, hs, hduration, hitem⟩ := exists_summary_of_row hrows ha
  obtain ⟨s', hs', hduration', hitem'⟩ := exists_summary_of_row hrows hb
  have hlonger : b.duration ≤ a.duration := by
    rcases longerFirst_iff.mp hab with hlt | ⟨heq, -⟩
    · exact Int.le_of_lt hlt
    · exact Int.le_of_eq heq.symm
  exact width_le_of_ofSummary (hnonneg s' hs') (by omega) (hle s hs) hitem' hitem hwidth' hwidth

/-- A row as long as the longest summary is as wide as the list. -/
theorem width_of_longest {s' : TraceSummary} (hle : ∀ s ∈ summaries, s.duration ≤ longest)
    (hs' : s' ∈ summaries) (hlongest : s'.duration = longest)
    (hrows : summaries.mapM (ofSummary options longest) = .ok rows)
    (hitem : item ∈ rows.mergeSort le) (hpos : 0 < item.duration)
    (hothers : ∀ other ∈ rows.mergeSort le, other.duration ≤ item.duration) :
    item.width = some 100 := by
  obtain ⟨s, hs, hduration, hrow⟩ := exists_summary_of_row hrows hitem
  obtain ⟨row', hrow', hitem'⟩ := Reordering.exists_result_of_mapM hrows hs'
  have hother := hothers row' (List.mem_mergeSort.mpr hrow')
  rw [(width_of_ofSummary hitem').1, hduration, hlongest] at hother
  have hsame : s.duration = longest := le_antisymm (hle s hs) hother
  obtain ⟨-, ⟨hzero, -⟩ | ⟨-, width, hwidth, hpercentage⟩⟩ := width_of_ofSummary hrow
  · omega
  · rw [hsame, percentage_self (by omega)] at hpercentage
    exact hwidth.trans (congrArg some (Except.ok.inj hpercentage).symm)

/-- Every list is a ranking of its summaries. -/
theorem isRanking_of_rank (hnonneg : ∀ s ∈ summaries, 0 ≤ s.duration)
    (h : rank options summaries = .ok items) : IsRanking summaries items := by
  obtain ⟨rows, hrows, rfl⟩ := rank_eq_ok_iff.mp h
  have hle : ∀ s ∈ summaries, s.duration ≤ (summaries.map (·.duration)).max?.getD 0 :=
    fun s hs => duration_le_longest hs
  refine ⟨?_, pairwise_widths hnonneg hle hrows, fun item hitem => ?_⟩
  · exact exists_ranked (forall₂_shows hnonneg hle hrows)
      fun item s hitem => Prod.ext hitem.duration hitem.traceId
  · obtain ⟨s, hs, -, -⟩ := exists_summary_of_row hrows hitem
    obtain ⟨s', hs', hlongest⟩ := exists_longest hs
    exact width_of_longest hle hs' hlongest hrows hitem

/-- Summaries that can be written have a list if the share of the chosen service can be told for
each of them, and it is too large for that only if the service takes far longer than the trace. The
list is their ranking. -/
theorem rank_of_writable (hnonneg : ∀ s ∈ summaries, 0 ≤ s.duration)
    (hwritable : ∀ s ∈ summaries, s.IsWritable options) :
    ((∃ items, rank options summaries = .ok items) ↔
        ∀ s ∈ summaries, ∃ share, shareOfService options s = .ok share) ∧
      ((∀ s ∈ summaries, s.IsInRange options) → ∃ items, rank options summaries = .ok items) ∧
      (∀ e, rank options summaries = .error e → e = .arithmetic .overflow) ∧
      ∀ items, rank options summaries = .ok items → IsRanking summaries items := by
  have hlisted := exists_rank_iff_exists_share hnonneg hwritable
  refine ⟨hlisted, fun hrange => ?_, fun e => overflow_of_rank hnonneg hwritable,
    fun items => isRanking_of_rank hnonneg⟩
  exact hlisted.mpr fun s hs => exists_share_of_isInRange (hnonneg s hs) (hrange s hs)

end

/-- Two traces of the same length in which a service is at work, and one without a duration and an
id. -/
theorem rank_of_writable_of_twins :
    let twin (id : Text) : TraceSummary := {
      traceId := some id, timestamp := 1000000, duration := 1000, spanCount := 2
      errorType := .none
      grouped := [("web", [⟨1000100, 700⟩]), ("db", [])] }
    let silent : TraceSummary := {
      traceId := none, timestamp := 0, duration := 0, spanCount := 1, errorType := .none }
    let options : ListOptions := { serviceName := some "web", utc := true }
    let summaries := [silent, twin "b", twin "a"]
    (∀ s ∈ summaries, 0 ≤ s.duration) ∧ (∀ s ∈ summaries, s.IsWritable options) ∧
      (∀ s ∈ summaries, s.IsInRange options) ∧
      ∃ items, rank options summaries = .ok items ∧ IsRanking summaries items := by
  intro twin silent options summaries
  have hnonneg : ∀ s ∈ summaries, 0 ≤ s.duration := by decide
  have hstart : Calendar.formatStamp 1000000 true .utc = .ok "01-01-1970T00:00:01.000+0000" := by
    decide +kernel
  have hmilliseconds : Double.ofQuotient 1000 1000 = .ok (.finite 1) := by decide +kernel
  have htext : durationText (.whole 1000) = .ok "1ms" := by decide +kernel
  have hwritable : ∀ s ∈ summaries, s.IsWritable options := by
    simp only [summaries, List.mem_cons, List.not_mem_nil, or_false]
    rintro s (rfl | rfl | rfl)
    · exact ⟨⟨"01-01-1970T00:00:00.000+0000", by decide +kernel⟩, ⟨.finite 0, by decide +kernel⟩,
        ⟨"", by decide +kernel⟩⟩
    · exact ⟨⟨_, hstart⟩, ⟨_, hmilliseconds⟩, ⟨_, htext⟩⟩
    · exact ⟨⟨_, hstart⟩, ⟨_, hmilliseconds⟩, ⟨_, htext⟩⟩
  have hrange : ∀ s ∈ summaries, s.IsInRange options := by
    simp only [summaries, List.mem_cons, List.not_mem_nil, or_false]
    rintro s (rfl | rfl | rfl) intervals hchosen hne
    · exact absurd rfl hne
    · obtain rfl := Option.some.inj hchosen
      decide +kernel
    · obtain rfl := Option.some.inj hchosen
      decide +kernel
  obtain ⟨-, hlisted, -, hranked⟩ := rank_of_writable hnonneg hwritable
  obtain ⟨items, hitems⟩ := hlisted hrange
  exact ⟨hnonneg, hwritable, hrange, items, hitems, hranked items hitems⟩

/-- A service that takes `10 ^ 309` times as long as the trace leaves a summary without a list,
although its start and its duration can be written. -/
theorem rank_error_of_long_service :
    let s : TraceSummary := {
      traceId := some "1", timestamp := 1000000, duration := 1000, spanCount := 1
      errorType := .none, grouped := [("web", [⟨1000000, 10 ^ 312⟩])] }
    let options : ListOptions := { serviceName := some "web", utc := true }
    0 ≤ s.duration ∧ s.IsWritable options ∧
      rank options [s] = .error (.arithmetic .overflow) := by
  intro s options
  refine ⟨by decide, ⟨?_, ?_, ?_⟩, ?_⟩
  · exact ⟨"01-01-1970T00:00:01.000+0000", by decide +kernel⟩
  · exact ⟨.finite 1, by decide +kernel⟩
  · exact ⟨"1ms", by decide +kernel⟩
  · decide +kernel

end Batch

end TraceExplorer
