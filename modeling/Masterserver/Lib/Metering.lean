import Masterserver.Lib.Spending
import Mathlib.Algebra.BigOperators.Group.List.Basic

/-!
# Metered grants

Spending where every amount is one: in every window of time the grants of a
bucket that fills at a constant rate number at most its capacity and the rate
for each unit of the window's length.

`Metered` is the invariant of one bucket, `start`, `wait` and `grant` are what
can happen to it.
-/

namespace Lib

universe u

variable {K : Type u} [Field K] [LinearOrder K]

/-- The grants from `a` to `b`, both ends included. -/
def within (a b : K) (grants : List K) : List K :=
  grants.filter fun t => a ≤ t ∧ t ≤ b

def RateBounded (capacity rate : K) (grants : List K) : Prop :=
  ∀ a b, a ≤ b → ((within a b grants).length : K) ≤ capacity + rate * (b - a)

/-- A bucket with this level at this time has made these grants. -/
structure Metered (capacity rate : K) (grants : List K) (level time : K) : Prop where
  nonneg : 0 ≤ level
  le_capacity : level ≤ capacity
  past : ∀ t ∈ grants, t ≤ time
  bounded : RateBounded capacity rate grants
  reserve : ∀ a, a ≤ time →
    ((within a time grants).length : K) + level ≤ capacity + rate * (time - a)

/-- A grant is an amount of one. -/
def units (grants : List K) : List (K × K) := grants.map fun t => (t, 1)

theorem spent_units (a b : K) (grants : List K) :
    spent a b (units grants) = ((within a b grants).length : K) := by
  unfold spent units within
  rw [List.filter_map, List.map_map]
  show ((List.filter _ grants).map fun _ => (1 : K)).sum = _
  rw [List.map_const', List.sum_replicate, nsmul_one]
  rfl

omit [LinearOrder K] in
theorem units_snoc (grants : List K) (time : K) :
    units (grants ++ [time]) = units grants ++ [(time, 1)] := List.map_append

theorem metered_iff {capacity rate level time : K} {grants : List K} :
    Metered capacity rate grants level time ↔
      Budgeted capacity rate (units grants) level time := by
  have hpast : (∀ t ∈ grants, t ≤ time) ↔ ∀ s ∈ units grants, s.1 ≤ time := by
    unfold units
    rw [List.forall_mem_map]
  constructor
  · intro h
    refine ⟨h.nonneg, h.le_capacity, hpast.mp h.past, ?_, ?_⟩
    · simpa only [spent_units, RateBounded] using h.bounded
    · simpa only [spent_units] using h.reserve
  · intro h
    refine ⟨h.nonneg, h.le_capacity, hpast.mpr h.past, ?_, ?_⟩
    · simpa only [spent_units, RateBounded] using h.bounded
    · simpa only [spent_units] using h.reserve

namespace Metered

variable [IsStrictOrderedRing K] {capacity rate level time : K} {grants : List K}

theorem start (hcapacity : 0 ≤ capacity) (hrate : 0 ≤ rate) (time : K) :
    Metered capacity rate [] capacity time :=
  metered_iff.mpr (.start hcapacity hrate time)

/-- Time goes by: the level rises by the rate at most. -/
theorem wait (h : Metered capacity rate grants level time) (hrate : 0 ≤ rate)
    {level' time' : K} (htime : time ≤ time') (hnonneg : 0 ≤ level')
    (hcapacity : level' ≤ capacity) (hlevel : level' ≤ level + rate * (time' - time)) :
    Metered capacity rate grants level' time' :=
  metered_iff.mpr ((metered_iff.mp h).wait hrate htime hnonneg hcapacity hlevel)

/-- One grant costs one unit of the level. -/
theorem grant (h : Metered capacity rate grants level time) (hrate : 0 ≤ rate)
    (hlevel : 1 ≤ level) :
    Metered capacity rate (grants ++ [time]) (level - 1) time := by
  have hspent := (metered_iff.mp h).spend hrate zero_le_one hlevel
  rw [← units_snoc] at hspent
  exact metered_iff.mpr hspent

end Metered

end Lib
