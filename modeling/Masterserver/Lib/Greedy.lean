import Masterserver.Lib.Spending

/-!
# Spending all there is

`Budgeted` bounds what was spent. A level that rises by the whole rate, up to
the capacity, and falls by nothing but what is spent also says the converse:
some window that ends now leaves no more room than the level. So an amount can
be taken exactly when it fits into every window that ends now, and a bucket
that refuses only what its level cannot bear refuses as little as the bound
allows.
-/

namespace Lib

universe u

variable {K : Type u} [Field K] [LinearOrder K]

/-- A window that ends at this time has no room beyond the level. -/
def Tight (capacity rate : K) (spends : List (K × K)) (level time : K) : Prop :=
  ∃ a, a ≤ time ∧ spent a time spends + level = capacity + rate * (time - a)

namespace Tight

variable {capacity rate level time cost : K} {spends : List (K × K)}

theorem start (capacity rate time : K) : Tight capacity rate [] capacity time := by
  refine ⟨time, le_refl time, ?_⟩
  rw [spent_nil, sub_self, mul_zero, add_zero, zero_add]

variable [IsStrictOrderedRing K]

/-- Time goes by: the level rises by the rate until it is full. -/
theorem wait (h : Tight capacity rate spends level time)
    (hbudget : Budgeted capacity rate spends level time) {time' : K} (htime : time ≤ time') :
    Tight capacity rate spends (min capacity (level + rate * (time' - time))) time' := by
  obtain ⟨a, ha, heq⟩ := h
  rcases le_or_gt (level + rate * (time' - time)) capacity with hle | hgt
  · refine ⟨a, ha.trans htime, ?_⟩
    rw [min_eq_right hle, spent_of_past hbudget.past htime a]
    linarith
  · -- It was not full before, so time has gone by and nothing was spent since.
    have hlater : time < time' := by
      refine lt_of_le_of_ne htime fun hsame => ?_
      rw [hsame, sub_self, mul_zero, add_zero] at hgt
      exact absurd hbudget.le_capacity (not_le.mpr hgt)
    refine ⟨time', le_refl time', ?_⟩
    rw [min_eq_left hgt.le, spent_eq_zero hbudget.past hlater, sub_self, mul_zero, add_zero,
      zero_add]

theorem spend (h : Tight capacity rate spends level time) :
    Tight capacity rate (spends ++ [(time, cost)]) (level - cost) time := by
  obtain ⟨a, ha, heq⟩ := h
  refine ⟨a, ha, ?_⟩
  rw [spent_snoc, if_pos ⟨ha, le_refl time⟩]
  linarith

/-- What fits into the level is what fits into every window that ends now. -/
theorem le_level_iff (h : Tight capacity rate spends level time)
    (hbudget : Budgeted capacity rate spends level time) :
    cost ≤ level ↔
      ∀ a, a ≤ time → spent a time spends + cost ≤ capacity + rate * (time - a) := by
  constructor
  · intro hcost a ha
    have hreserve := hbudget.reserve a ha
    linarith
  · intro hfits
    obtain ⟨a, ha, heq⟩ := h
    have hfit := hfits a ha
    linarith

end Tight

end Lib
