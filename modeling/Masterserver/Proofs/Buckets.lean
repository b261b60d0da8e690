import Masterserver.App.RateLimits
import Masterserver.Lib.Metering

/-!
# What a token bucket grants

A bucket of the server is a metered one: its tokens are the level, the time
it was last looked at is the time of the level.
-/

namespace Masterserver

open Lib

namespace TokenBucket

variable {capacity rate : Rat} {b : TokenBucket} {now cost : Seconds}

/-- The bucket has this burst and rate, and this was taken from it. -/
structure Budgets (capacity rate : Rat) (spends : List (Seconds × Rat)) (b : TokenBucket) :
    Prop where
  capacity_eq : b.capacity = capacity
  refill_eq : b.refillPerSec = rate
  budgeted : Budgeted capacity rate spends b.tokens b.lastRefill

theorem Budgets.new (hcapacity : 0 ≤ capacity) (hrate : 0 ≤ rate) (now : Seconds) :
    Budgets capacity rate [] (.new capacity rate now) :=
  ⟨rfl, rfl, .start hcapacity hrate now⟩

theorem Budgets.refill {spends : List (Seconds × Rat)} (h : Budgets capacity rate spends b)
    (hrate : 0 ≤ rate) (hnow : b.lastRefill ≤ now) :
    Budgets capacity rate spends (b.refill now) := by
  have hspan : max 0 (now - b.lastRefill) = now - b.lastRefill :=
    max_eq_right (sub_nonneg.mpr hnow)
  have htokens : (b.refill now).tokens =
      min capacity (b.tokens + (now - b.lastRefill) * rate) := by
    rw [TokenBucket.refill, hspan, h.capacity_eq, h.refill_eq]
  have hgain : 0 ≤ (now - b.lastRefill) * rate :=
    mul_nonneg (sub_nonneg.mpr hnow) hrate
  refine ⟨h.capacity_eq, h.refill_eq, ?_⟩
  refine h.budgeted.wait hrate hnow ?_ ?_ ?_
  · rw [htokens]
    exact le_min (h.budgeted.nonneg.trans h.budgeted.le_capacity)
      (add_nonneg h.budgeted.nonneg hgain)
  · rw [htokens]
    exact min_le_left _ _
  · rw [htokens, mul_comm rate]
    exact min_le_right _ _

/-- A call that is granted takes its cost, one that is not takes nothing. -/
theorem Budgets.tryConsume {spends : List (Seconds × Rat)} (h : Budgets capacity rate spends b)
    (hrate : 0 ≤ rate) (hnow : b.lastRefill ≤ now) (hcost : 0 ≤ cost) :
    Budgets capacity rate (if (b.tryConsume now cost).1 then spends ++ [(now, cost)] else spends)
      (b.tryConsume now cost).2 := by
  have hrefilled := h.refill hrate hnow
  unfold TokenBucket.tryConsume
  simp only []
  split
  · exact hrefilled
  · next htokens =>
      exact ⟨hrefilled.capacity_eq, hrefilled.refill_eq,
        hrefilled.budgeted.spend hrate hcost (not_lt.mp htokens)⟩

theorem tryConsume_granted :
    (b.tryConsume now cost).1 = true ↔ cost ≤ (b.refill now).tokens := by
  unfold TokenBucket.tryConsume
  simp only []
  split
  · next h => simp [not_le.mpr h]
  · next h => simp [not_lt.mp h]

@[simp] theorem lastRefill_tryConsume (b : TokenBucket) (now : Seconds) (cost : Rat) :
    (b.tryConsume now cost).2.lastRefill = now := by
  unfold TokenBucket.tryConsume
  simp only []
  split <;> rfl

/-! ## Calls that cost one -/

/-- The bucket has this burst and rate and has made these grants. -/
structure Meters (capacity rate : Rat) (grants : List Seconds) (b : TokenBucket) : Prop where
  capacity_eq : b.capacity = capacity
  refill_eq : b.refillPerSec = rate
  metered : Metered capacity rate grants b.tokens b.lastRefill

variable {grants : List Seconds}

theorem meters_iff : Meters capacity rate grants b ↔ Budgets capacity rate (units grants) b :=
  ⟨fun h => ⟨h.capacity_eq, h.refill_eq, metered_iff.mp h.metered⟩,
    fun h => ⟨h.capacity_eq, h.refill_eq, metered_iff.mpr h.budgeted⟩⟩

theorem Meters.new (hcapacity : 0 ≤ capacity) (hrate : 0 ≤ rate) (now : Seconds) :
    Meters capacity rate [] (.new capacity rate now) :=
  meters_iff.mpr (.new hcapacity hrate now)

theorem Meters.refill (h : Meters capacity rate grants b) (hrate : 0 ≤ rate)
    (hnow : b.lastRefill ≤ now) : Meters capacity rate grants (b.refill now) :=
  meters_iff.mpr ((meters_iff.mp h).refill hrate hnow)

/-- A call that is granted is one more grant, one that is not is none. -/
theorem Meters.tryConsume (h : Meters capacity rate grants b) (hrate : 0 ≤ rate)
    (hnow : b.lastRefill ≤ now) :
    Meters capacity rate (if (b.tryConsume now 1).1 then grants ++ [now] else grants)
      (b.tryConsume now 1).2 := by
  have hconsumed := (meters_iff.mp h).tryConsume hrate hnow zero_le_one
  rw [← units_snoc, ← apply_ite units] at hconsumed
  exact meters_iff.mpr hconsumed

/-- What was drawn need not have been used. -/
theorem Meters.draw (h : Meters capacity rate grants b) (hrate : 0 ≤ rate)
    (hnow : b.lastRefill ≤ now) : Meters capacity rate grants (b.tryConsume now 1).2 := by
  have hrefilled := h.refill hrate hnow
  unfold TokenBucket.tryConsume
  simp only []
  split
  · exact hrefilled
  · next htokens =>
      have hone : 1 ≤ (b.refill now).tokens := not_lt.mp htokens
      have hcapacity := hrefilled.metered.le_capacity
      refine ⟨hrefilled.capacity_eq, hrefilled.refill_eq, ?_⟩
      refine hrefilled.metered.wait hrate (le_refl _) (sub_nonneg.mpr hone) ?_ ?_
      · linarith
      · rw [sub_self, mul_zero, add_zero]
        linarith

/-- A full bucket made now continues one that would be full by now. -/
theorem Meters.renew (h : Meters capacity rate grants b) (hrate : 0 ≤ rate)
    (hnow : b.lastRefill ≤ now) (hfull : (b.refill now).tokens = b.capacity) :
    Meters capacity rate grants (.new capacity rate now) := by
  have hrefilled := (h.refill hrate hnow).metered
  rw [hfull, h.capacity_eq] at hrefilled
  exact ⟨rfl, rfl, hrefilled⟩

end TokenBucket

end Masterserver
