import Mathlib.Data.Finset.Card
import Mathlib.Data.Finset.Dedup
import Mathlib.Data.Finset.Union
import Mathlib.Data.Int.Interval
import Mathlib.Data.Set.Card
import TraceExplorer.Summary.Service

/-!
# The time that intervals cover

The intervals are swept in the order of their timestamps. The time counted so far is the number of
microseconds covered so far, and behind the last start nothing is left open up to the reach.
-/

namespace TraceExplorer.Interval

def points (i : Interval) : Finset Int :=
  (Finset.range i.duration.toNat).image fun n : Nat => i.timestamp + n

def covered (intervals : List Interval) : Finset Int := intervals.toFinset.biUnion points

/-- The times that lie in at least one of some intervals, from its start on and before its end. -/
def union (intervals : List Interval) : Set Int :=
  {u | ∃ i ∈ intervals, i.timestamp ≤ u ∧ u < i.timestamp + i.duration}

/-- A sweep has counted some microseconds, all of them below its reach. From the last start on it
has counted every one. -/
structure Sweep (counted : Finset Int) (start : Int) (state : Int × Int) : Prop where
  total : state.1 = counted.card
  below : ∀ u ∈ counted, u < state.2
  solid : ∀ u, start ≤ u → u < state.2 → u ∈ counted

section

variable {i : Interval} {intervals intervals' : List Interval} {counted : Finset Int}
  {start u : Int} {state : Int × Int}

theorem mem_points : u ∈ i.points ↔ i.timestamp ≤ u ∧ u < i.timestamp + i.duration := by
  simp only [points, Finset.mem_image, Finset.mem_range]
  constructor
  · rintro ⟨n, hn, rfl⟩
    omega
  · rintro ⟨hlow, hhigh⟩
    exact ⟨(u - i.timestamp).toNat, by omega, by omega⟩

theorem card_points (h : 0 ≤ i.duration) : (i.points.card : Int) = i.duration := by
  have hinjective : Function.Injective fun n : Nat => i.timestamp + n := by
    intro m n hmn
    dsimp only at hmn
    omega
  rw [points, Finset.card_image_of_injective _ hinjective, Finset.card_range]
  omega

theorem mem_covered : u ∈ covered intervals ↔ ∃ i ∈ intervals, u ∈ i.points := by
  simp [covered]

theorem coe_covered : (covered intervals : Set Int) = union intervals := by
  ext u
  simp [union, mem_covered, mem_points]

@[simp] theorem covered_nil : covered [] = ∅ := rfl

theorem covered_cons : covered (i :: intervals) = i.points ∪ covered intervals := by
  ext u
  simp [mem_covered]

theorem covered_perm (h : intervals.Perm intervals') : covered intervals = covered intervals' := by
  ext u
  simp [mem_covered, h.mem_iff]

theorem covered_filter : covered (intervals.filter (·.duration != 0)) = covered intervals := by
  ext u
  simp only [mem_covered, List.mem_filter, bne_iff_ne]
  constructor
  · rintro ⟨i, ⟨hi, -⟩, hu⟩
    exact ⟨i, hi, hu⟩
  · rintro ⟨i, hi, hu⟩
    have hbounds := mem_points.mp hu
    exact ⟨i, ⟨hi, by omega⟩, hu⟩

/-! ## The sweep -/

theorem Sweep.first (h : 0 ≤ i.duration) : Sweep i.points i.timestamp (i.duration, i.finish) := by
  refine ⟨(card_points h).symm, fun u hu => ?_, fun u hstart hfinish => ?_⟩
  · exact (mem_points.mp hu).2
  · exact mem_points.mpr ⟨hstart, hfinish⟩

theorem Sweep.union {total : Int} (hbelow : ∀ u ∈ counted, u < i.finish)
    (htotal : total = (counted ∪ i.points).card) :
    Sweep (counted ∪ i.points) i.timestamp (total, i.finish) := by
  refine ⟨htotal, fun u hu => ?_, fun u hlow hhigh => ?_⟩
  · rcases Finset.mem_union.mp hu with hu | hu
    · exact hbelow u hu
    · exact (mem_points.mp hu).2
  · exact Finset.mem_union.mpr (.inr (mem_points.mpr ⟨hlow, hhigh⟩))

theorem disjoint_points {reach : Int} (hbelow : ∀ u ∈ counted, u < reach)
    (hreach : reach ≤ i.timestamp) : Disjoint counted i.points :=
  Finset.disjoint_left.mpr fun u hu hnew => by
    have hlow := hbelow u hu
    have hhigh := (mem_points.mp hnew).1
    omega

/-- Of an interval that begins in the solid part only what is behind the reach is new. -/
theorem Sweep.union_points (h : Sweep counted start state) (hstart : start ≤ i.timestamp)
    (hreach : i.timestamp ≤ state.2) :
    counted ∪ i.points = counted ∪ points ⟨state.2, i.finish - state.2⟩ := by
  ext u
  simp only [Finset.mem_union, mem_points, finish]
  by_cases hu : u ∈ counted
  · simp [hu]
  · have hopen : ¬ (start ≤ u ∧ u < state.2) := fun hbounds => hu (h.solid u hbounds.1 hbounds.2)
    simp only [hu, false_or]
    omega

theorem Sweep.extend (h : Sweep counted start state) (hstart : start ≤ i.timestamp)
    (hduration : 0 ≤ i.duration) :
    Sweep (counted ∪ i.points) i.timestamp (extend state i) := by
  simp only [Interval.extend]
  split
  · -- Nothing new is covered.
    rename_i hfinish
    have hsubset : i.points ⊆ counted := fun u hu => by
      have hu := mem_points.mp hu
      exact h.solid u (hstart.trans hu.1) (hu.2.trans_le hfinish)
    rw [Finset.union_eq_left.mpr hsubset]
    exact ⟨h.total, h.below, fun u hu => h.solid u (hstart.trans hu)⟩
  · rename_i hfinish
    have hbelow : ∀ u ∈ counted, u < i.finish :=
      fun u hu => (h.below u hu).trans (Int.not_le.mp hfinish)
    split
    · rename_i hreach
      have hnew : 0 ≤ i.finish - state.2 := by omega
      refine .union hbelow ?_
      rw [h.union_points hstart (by omega),
        Finset.card_union_of_disjoint (disjoint_points h.below (Int.le_refl _)),
        Int.natCast_add, h.total, card_points hnew]
    · -- All of it is new.
      rename_i hreach
      refine .union hbelow ?_
      rw [Finset.card_union_of_disjoint (disjoint_points h.below (by omega)), h.total,
        Int.natCast_add, card_points hduration]

theorem Sweep.foldl (h : Sweep counted start state)
    (hdurations : ∀ i ∈ intervals, 0 ≤ i.duration)
    (hstarts : ∀ i ∈ intervals, start ≤ i.timestamp)
    (hsorted : intervals.Pairwise fun a b => a.timestamp ≤ b.timestamp) :
    ∃ last, Sweep (counted ∪ covered intervals) last (intervals.foldl Interval.extend state) := by
  induction intervals generalizing counted start state with
  | nil => exact ⟨start, by simpa using h⟩
  | cons i rest ih =>
      obtain ⟨hfirst, hrest⟩ := List.pairwise_cons.mp hsorted
      rw [covered_cons, ← Finset.union_assoc]
      exact ih (h.extend (hstarts i (by simp)) (hdurations i (by simp)))
        (fun j hj => hdurations j (by simp [hj])) hfirst hrest

/-! ## The total -/

theorem pairwise_mergeSort (intervals : List Interval) :
    (intervals.mergeSort fun a b => a.timestamp ≤ b.timestamp).Pairwise
      fun a b => a.timestamp ≤ b.timestamp := by
  refine (List.pairwise_mergeSort ?_ ?_ intervals).imp of_decide_eq_true
  · intro a b c hab hbc
    exact decide_eq_true (Int.le_trans (of_decide_eq_true hab) (of_decide_eq_true hbc))
  · intro a b
    simpa using Int.le_total a.timestamp b.timestamp

/-- The total duration is the number of microseconds covered. -/
theorem totalDuration_eq_card (h : ∀ i ∈ intervals, 0 ≤ i.duration) :
    totalDuration intervals = (covered intervals).card := by
  have hperm := List.mergeSort_perm (intervals.filter (·.duration != 0))
    fun a b => a.timestamp ≤ b.timestamp
  have hsorted := pairwise_mergeSort (intervals.filter (·.duration != 0))
  rw [← covered_filter, ← covered_perm hperm, totalDuration]
  have hdurations : ∀ i ∈ (intervals.filter (·.duration != 0)).mergeSort
      fun a b => a.timestamp ≤ b.timestamp, 0 ≤ i.duration :=
    fun i hi => h i (List.mem_filter.mp (hperm.mem_iff.mp hi)).1
  split
  · rename_i hnil
    simp [hnil]
  · rename_i first rest hcons
    rw [hcons] at hsorted hdurations ⊢
    obtain ⟨hstarts, hrest⟩ := List.pairwise_cons.mp hsorted
    obtain ⟨_, hsweep⟩ := (Sweep.first (hdurations first (by simp))).foldl
      (fun i hi => hdurations i (by simp [hi])) hstarts hrest
    rw [covered_cons]
    exact hsweep.total

theorem totalDuration_perm (h : ∀ i ∈ intervals, 0 ≤ i.duration)
    (hperm : intervals.Perm intervals') : totalDuration intervals = totalDuration intervals' := by
  rw [totalDuration_eq_card h, covered_perm hperm,
    ← totalDuration_eq_card fun i hi => h i (hperm.mem_iff.mpr hi)]

/-- Intervals within a stretch of time cover no more than all of it. -/
theorem totalDuration_le {first last : Int} (h : ∀ i ∈ intervals, 0 ≤ i.duration)
    (hle : first ≤ last) (hwithin : ∀ i ∈ intervals, i.duration ≠ 0 →
      first ≤ i.timestamp ∧ i.finish ≤ last) : totalDuration intervals ≤ last - first := by
  have hsubset : covered intervals ⊆ Finset.Ico first last := by
    intro u hu
    obtain ⟨i, hi, hu⟩ := mem_covered.mp hu
    have hbounds := mem_points.mp hu
    obtain ⟨hfirst, hlast⟩ := hwithin i hi (by omega)
    rw [finish] at hlast
    exact Finset.mem_Ico.mpr ⟨by omega, by omega⟩
  have hcard := Finset.card_le_card hsubset
  rw [Int.card_Ico] at hcard
  rw [totalDuration_eq_card h]
  omega

theorem totalDuration_nonneg (h : ∀ i ∈ intervals, 0 ≤ i.duration) :
    0 ≤ totalDuration intervals := by
  rw [totalDuration_eq_card h]
  exact Int.natCast_nonneg _

end

/-- The total duration of intervals in any order is the measure of their union: the number of whole
times that lie in at least one of them. -/
theorem totalDuration_measures_union {intervals : List Interval}
    (h : ∀ i ∈ intervals, 0 ≤ i.duration) :
    (union intervals).Finite ∧ totalDuration intervals = (union intervals).ncard := by
  rw [← coe_covered, Set.ncard_coe_finset]
  exact ⟨(covered intervals).finite_toSet, totalDuration_eq_card h⟩

/-- Intervals that overlap, touch, contain one another, start together, are empty, or lie apart and
before time zero. -/
theorem totalDuration_measures_union_of_mixed :
    let intervals : List Interval :=
      [⟨5, 10⟩, ⟨1, 10⟩, ⟨-9, 4⟩, ⟨15, 2⟩, ⟨30, 0⟩, ⟨6, 1⟩, ⟨1, 3⟩]
    (∀ i ∈ intervals, 0 ≤ i.duration) ∧ (union intervals).Finite ∧
      totalDuration intervals = (union intervals).ncard ∧ totalDuration intervals = 20 := by
  intro intervals
  have durations : ∀ i ∈ intervals, 0 ≤ i.duration := by decide
  have twenty : (covered intervals).card = 20 := by decide
  have hcard : (union intervals).ncard = 20 := by
    rw [← coe_covered, Set.ncard_coe_finset, twenty]
  obtain ⟨hfinite, htotal⟩ := totalDuration_measures_union durations
  exact ⟨durations, hfinite, htotal, by rw [htotal, hcard]; rfl⟩

end TraceExplorer.Interval
