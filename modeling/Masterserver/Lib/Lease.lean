import Mathlib.Algebra.Order.Floor.Ring
import Mathlib.Tactic.Linarith
import Mathlib.Tactic.NormNum
import Mathlib.Tactic.Ring

/-!
# Expiries in whole seconds

A lease begins at a time `t` and is stamped with the whole second it ends in,
`⌊t + lease⌋`. Whoever reads the stamp at a time `r` by a clock that may be off
by `skew` takes its own time in whole seconds too and accepts what lies in a
window around it. Two roundings are compared, and with lengths that are no
whole numbers they need not agree: `inWindow_iff` says which lengths make every
stamp acceptable to every reader whose clock is no further off.
-/

namespace Lib

variable {K : Type*} [Field K] [LinearOrder K] [IsStrictOrderedRing K] [FloorRing K]

/-- The stamp of a lease is in a reader's window. -/
def InWindow (lease skew t r : K) : Prop :=
  ⌊r⌋ - skew < (⌊t + lease⌋ : K) ∧ (⌊t + lease⌋ : K) ≤ ⌊r⌋ + lease + skew

/-- A sum that is a whole number. -/
def Whole (x : K) : Prop := ∃ n : ℤ, x = n

variable {lease skew t r : K}

/-- The stamp does not lie too far ahead. -/
theorem stamp_le (hwhole : Whole (lease + skew)) (h : t ≤ r + skew) :
    (⌊t + lease⌋ : K) ≤ ⌊r⌋ + lease + skew := by
  obtain ⟨n, hn⟩ := hwhole
  have hle : ⌊t + lease⌋ ≤ ⌊r⌋ + n := by
    rw [← Int.floor_add_intCast]
    refine Int.floor_mono ?_
    linarith
  have hcast : (⌊t + lease⌋ : K) ≤ ⌊r⌋ + n := by exact_mod_cast hle
  linarith

/-- Twice half a second or more, rounded down, is longer than the lease. -/
theorem lt_floor_two_mul (h : 1 / 2 ≤ lease) : lease < (⌊2 * lease⌋ : K) := by
  by_cases hone : lease < 1
  · have hfloor : (1 : ℤ) ≤ ⌊2 * lease⌋ := by
      rw [Int.le_floor]
      push_cast
      linarith
    have hcast : (1 : K) ≤ (⌊2 * lease⌋ : K) := by exact_mod_cast hfloor
    linarith
  · have hfloor := Int.lt_floor_add_one (2 * lease)
    linarith

/-- It is still ahead of a reader's window. -/
theorem lt_stamp (hwhole : Whole (lease + skew)) (hhalf : 1 / 2 ≤ lease) (h : r ≤ t + skew) :
    ⌊r⌋ - skew < (⌊t + lease⌋ : K) := by
  obtain ⟨n, hn⟩ := hwhole
  -- Both sides are measured from the whole second of `t - lease`.
  have hreader : ⌊r⌋ ≤ ⌊t - lease⌋ + n := by
    rw [← Int.floor_add_intCast]
    refine Int.floor_mono ?_
    linarith
  have hstamp : ⌊t - lease⌋ + ⌊2 * lease⌋ ≤ ⌊t + lease⌋ := by
    rw [Int.le_floor]
    push_cast
    have hdown := Int.floor_le (t - lease)
    have htwice := Int.floor_le (2 * lease)
    linarith
  have hreader' : (⌊r⌋ : K) ≤ ⌊t - lease⌋ + n := by exact_mod_cast hreader
  have hstamp' : (⌊t - lease⌋ : K) + ⌊2 * lease⌋ ≤ ⌊t + lease⌋ := by exact_mod_cast hstamp
  have hlonger := lt_floor_two_mul hhalf
  linarith

/-- A reader just before a whole second finds the stamp of the fastest clock
too far ahead, unless the lengths add up to a whole number. -/
theorem whole_of_stamp_le (hskew : 0 ≤ skew)
    (h : ∀ t r, 0 ≤ t → t ≤ 1 + skew → 0 ≤ r → r ≤ 1 → |r - t| ≤ skew →
      (⌊t + lease⌋ : K) ≤ ⌊r⌋ + lease + skew) : Whole (lease + skew) := by
  have hceil := Int.le_ceil (lease + skew)
  have hlt := Int.ceil_lt_add_one (lease + skew)
  have hstamp := h (⌈lease + skew⌉ - lease) (⌈lease + skew⌉ - (lease + skew))
    (by linarith) (by linarith) (by linarith) (by linarith) (by
      rw [show (⌈lease + skew⌉ - (lease + skew) - (⌈lease + skew⌉ - lease) : K) = -skew by ring,
        abs_neg, abs_of_nonneg hskew])
  have hsum : (⌈lease + skew⌉ - lease + lease : K) = (⌈lease + skew⌉ : ℤ) := by ring
  have hzero : ⌊(⌈lease + skew⌉ - (lease + skew) : K)⌋ = 0 := by
    rw [Int.floor_eq_zero_iff]
    exact ⟨by linarith, by linarith⟩
  rw [hsum, Int.floor_intCast, hzero] at hstamp
  refine ⟨⌈lease + skew⌉, le_antisymm hceil ?_⟩
  push_cast at hstamp
  linarith

/-- With a lease of less than half a second the slowest clock's stamp has run
out for the fastest. -/
theorem half_le_of_lt_stamp (hlease : 0 < lease) (hskew : 0 ≤ skew)
    (hwhole : Whole (lease + skew))
    (h : ∀ t r, 0 ≤ t → t ≤ lease → 0 ≤ r → r ≤ lease + skew → |r - t| ≤ skew →
      ⌊r⌋ - skew < (⌊t + lease⌋ : K)) : 1 / 2 ≤ lease := by
  by_contra hshort
  rw [not_le] at hshort
  obtain ⟨n, hn⟩ := hwhole
  have hstamp := h lease (lease + skew) hlease.le le_rfl (by linarith) le_rfl (by
    rw [add_sub_cancel_left, abs_of_nonneg hskew])
  have hzero : ⌊lease + lease⌋ = 0 := by
    rw [Int.floor_eq_zero_iff]
    exact ⟨by linarith, by linarith⟩
  rw [hn, Int.floor_intCast, hzero] at hstamp
  push_cast at hstamp
  linarith

/-- Every stamp is in the window of every reader whose clock is off by the skew
at most if and only if lease and skew add up to whole seconds and the lease is
half a second or more. Clocks count from zero, up to any bound that leaves room
for both lengths. -/
theorem inWindow_iff {bound : K} (hlease : 0 < lease) (hskew : 0 ≤ skew)
    (hbound : 1 + lease + skew < bound) :
    (∀ t r, 0 ≤ t → t < bound → 0 ≤ r → r < bound → |r - t| ≤ skew → InWindow lease skew t r) ↔
      Whole (lease + skew) ∧ 1 / 2 ≤ lease := by
  constructor
  · intro h
    have hwhole := whole_of_stamp_le hskew fun t r ht ht' hr hr' hoff =>
      (h t r ht (by linarith) hr (by linarith) hoff).2
    exact ⟨hwhole, half_le_of_lt_stamp hlease hskew hwhole fun t r ht ht' hr hr' hoff =>
      (h t r ht (by linarith) hr (by linarith) hoff).1⟩
  · rintro ⟨hwhole, hhalf⟩ t r _ _ _ _ hoff
    obtain ⟨hslow, hfast⟩ := abs_le.mp hoff
    exact ⟨lt_stamp hwhole hhalf (by linarith), stamp_le hwhole (by linarith)⟩

end Lib
