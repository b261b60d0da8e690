import Masterserver.App.Health
import Masterserver.Lib.OrderStatistic
import Mathlib.Algebra.Order.Floor.Ring
import Mathlib.Data.List.GetD
import Mathlib.Tactic.Linarith

/-!
# The quantile of the samples

`_quantile` reads the sorted samples at a place that is a fraction of their
number, rounded up. So what it returns is at most a bound if and only if the
samples within the bound make up the fraction, `quantileOf_le_iff`, and all
else follows from that: only how many samples lie where matters, and a larger
fraction or larger samples take a larger bound.
-/

namespace Masterserver

open Lib

variable {values values' : List ℚ} {q q' bound : ℚ}

/-- The place in the sorted samples, and what it takes for more samples to be
within a bound than come before it. -/
theorem exists_place (hvalues : values ≠ []) (hq : 0 < q) (hq1 : q ≤ 1) :
    ∃ i : Fin values.length, quantileOf values q = orderStatistic values i ∧
      ∀ count : Nat, i < count ↔ q * values.length ≤ count := by
  have hlength : 0 < values.length := List.length_pos_iff.mpr hvalues
  have hsize : (0 : ℚ) < values.length := by exact_mod_cast hlength
  have hpos : 0 < ⌈q * values.length⌉ := Int.ceil_pos.mpr (mul_pos hq hsize)
  have hle : ⌈q * values.length⌉ ≤ values.length := by
    rw [Int.ceil_le, Int.cast_natCast]
    exact mul_le_of_le_one_left hsize.le hq1
  obtain ⟨place, hplace⟩ : ∃ place : Nat, ⌈q * values.length⌉ = place + 1 :=
    ⟨(⌈q * values.length⌉ - 1).toNat, by omega⟩
  have hbound : place < values.length := by omega
  refine ⟨⟨place, hbound⟩, ?_, fun count => ?_⟩
  · have hindex : max 0 (min ((values.length : Int) - 1) (⌈q * values.length⌉ - 1)) = place := by
      omega
    unfold quantileOf
    simp only [List.length_insertionSort, hindex, Int.toNat_natCast]
    exact List.getD_eq_getElem _ _ (by rwa [List.length_insertionSort])
  · have hceil : ⌈q * values.length⌉ ≤ (count : Int) ↔ q * values.length ≤ count := by
      rw [Int.ceil_le, Int.cast_natCast]
    rw [← hceil, hplace]
    show place < count ↔ _
    omega

theorem quantileOf_le_iff (hvalues : values ≠ []) (hq : 0 < q) (hq1 : q ≤ 1) :
    quantileOf values q ≤ bound ↔ q * values.length ≤ countLe values bound := by
  obtain ⟨i, hquantile, hplace⟩ := exists_place hvalues hq hq1
  rw [hquantile, orderStatistic_le_iff, hplace]

theorem quantileOf_mem (hvalues : values ≠ []) (hq : 0 < q) (hq1 : q ≤ 1) :
    quantileOf values q ∈ values := by
  obtain ⟨i, hquantile, -⟩ := exists_place hvalues hq hq1
  rw [hquantile]
  exact orderStatistic_mem values i

theorem quantileOf_perm (hvalues : values ≠ []) (hq : 0 < q) (hq1 : q ≤ 1)
    (h : values'.Perm values) : quantileOf values' q = quantileOf values q := by
  have hvalues' : values' ≠ [] := by
    rintro rfl
    exact hvalues (List.nil_perm.mp h)
  refine eq_of_forall_ge_iff fun bound => ?_
  rw [quantileOf_le_iff hvalues' hq hq1, quantileOf_le_iff hvalues hq hq1, countLe_perm h,
    h.length_eq]

theorem quantileOf_mono (hvalues : values ≠ []) (hq : 0 < q) (hle : q ≤ q') (hq1 : q' ≤ 1) :
    quantileOf values q ≤ quantileOf values q' := by
  rw [quantileOf_le_iff hvalues hq (hle.trans hq1)]
  have hlater := (quantileOf_le_iff hvalues (hq.trans_le hle) hq1).mp le_rfl
  exact (mul_le_mul_of_nonneg_right hle (Nat.cast_nonneg _)).trans hlater

theorem quantileOf_le_of_forall₂ (hvalues : values ≠ []) (hq : 0 < q) (hq1 : q ≤ 1)
    (h : List.Forall₂ (· ≤ ·) values values') : quantileOf values q ≤ quantileOf values' q := by
  have hvalues' : values' ≠ [] := by
    rintro rfl
    exact hvalues (List.forall₂_nil_right_iff.mp h)
  rw [quantileOf_le_iff hvalues hq hq1, h.length_eq]
  have hlater := (quantileOf_le_iff hvalues' hq hq1).mp le_rfl
  refine hlater.trans ?_
  exact_mod_cast countLe_le_of_forall₂ h

/-- The quantile is the least sample within which the fraction of the samples
lies. The order of the samples does not matter, and it grows with the fraction
and with each sample. -/
theorem quantile_nearest_rank (hvalues : values ≠ []) (hq : 0 < q) (hq1 : q ≤ 1) :
    IsLeast {v | v ∈ values ∧ q * values.length ≤ countLe values v} (quantileOf values q) ∧
      (∀ values', values'.Perm values → quantileOf values' q = quantileOf values q) ∧
      (∀ q', q ≤ q' → q' ≤ 1 → quantileOf values q ≤ quantileOf values q') ∧
      ∀ values', List.Forall₂ (· ≤ ·) values values' →
        quantileOf values q ≤ quantileOf values' q := by
  refine ⟨⟨⟨quantileOf_mem hvalues hq hq1, (quantileOf_le_iff hvalues hq hq1).mp le_rfl⟩, ?_⟩,
    fun _ => quantileOf_perm hvalues hq hq1, fun _ => quantileOf_mono hvalues hq,
    fun _ => quantileOf_le_of_forall₂ hvalues hq hq1⟩
  intro v hv
  exact (quantileOf_le_iff hvalues hq hq1).mpr hv.2

/-- Of four samples the largest is the 99th percentile: three of them are not
ninety-nine in a hundred. -/
theorem quantile_nearest_rank_four :
    quantileOf [1 / 100, 2 / 100, 3 / 100, 1 / 2] (99 / 100) = 1 / 2 ∧
      IsLeast {v | v ∈ ([1 / 100, 2 / 100, 3 / 100, 1 / 2] : List ℚ) ∧
        (99 / 100 : ℚ) * ([1 / 100, 2 / 100, 3 / 100, 1 / 2] : List ℚ).length ≤
          countLe [1 / 100, 2 / 100, 3 / 100, 1 / 2] v} (1 / 2) := by
  have hvalue : quantileOf [1 / 100, 2 / 100, 3 / 100, 1 / 2] (99 / 100) = 1 / 2 := by
    decide +kernel
  have hvalues : ([1 / 100, 2 / 100, 3 / 100, 1 / 2] : List ℚ) ≠ [] := List.cons_ne_nil _ _
  have hq : (0 : ℚ) < 99 / 100 := by norm_num
  have hleast := (quantile_nearest_rank hvalues hq (by norm_num)).1
  rw [hvalue] at hleast
  exact ⟨hvalue, hleast⟩

/-! ## What readiness makes of it -/

namespace Health

variable {hub : Hub} {c : TurnConfig} {metrics : Metrics} {trust : Option NodeTrust}
  {mesh : Option NodeMesh} {now : Seconds} {reasons : List String}

theorem fraction_bounds : 0 < literal 99 100 ∧ literal 99 100 ≤ 1 := by decide +kernel

/-- Readiness fails for the event loop if and only if, of the lags that are
kept, fewer than ninety-nine in a hundred are within the limit. -/
theorem eventLoopLag_mem (h : readinessReasons hub c metrics trust mesh now = some reasons) :
    "event-loop-lag" ∈ reasons ↔
      countLe (metrics.samples.getD "event_loop_lag_seconds" []) c.readinessEventLoopP99Seconds <
        literal 99 100 * (metrics.samples.getD "event_loop_lag_seconds" []).length := by
  have hmem : "event-loop-lag" ∈ reasons ↔
      c.readinessEventLoopP99Seconds < metrics.quantile "event_loop_lag_seconds"
        (literal 99 100) := by
    unfold readinessReasons at h
    obtain ⟨rss, -, h⟩ := Option.bind_eq_some_iff.mp h
    obtain ⟨skewed, -, h⟩ := Option.bind_eq_some_iff.mp h
    cases h
    simp
  rw [hmem]
  unfold Metrics.quantile
  by_cases hlags : metrics.samples.getD "event_loop_lag_seconds" [] = []
  · have hlimit := c.positive_lt "readiness_event_loop_p99_seconds"
      c.readinessEventLoopP99Seconds (by simp [ConfigFields.positive])
    rw [hlags]
    refine iff_of_false (not_lt.mpr ?_) (not_lt.mpr ?_)
    · exact hlimit.le
    · simp
  · rw [← not_le, quantileOf_le_iff hlags fraction_bounds.1 fraction_bounds.2, not_le]

end Health

end Masterserver
