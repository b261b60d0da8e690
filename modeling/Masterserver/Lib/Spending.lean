import Mathlib.Algebra.Order.Field.Basic
import Mathlib.Tactic.Linarith

/-!
# Spending from a level that fills at a constant rate

What a bucket bounds: in every window of time the amounts taken from it come
to at most its capacity and the rate for each unit of the window's length. The
bound over all windows is kept together with a reserve: what the bucket still
holds could be spent at once, so it counts on top of what was spent in every
window that ends now.

`Budgeted` is the invariant of one bucket; `start`, `wait` and `spend` are what
can happen to it. Nothing is said about how the level is stored; a bucket that
was lost and is made afresh obeys the rules if the lost one was full.
-/

namespace Lib

universe u

variable {K : Type u} [Field K] [LinearOrder K]

/-- What was spent from `a` to `b`, both ends included. -/
def spent (a b : K) (spends : List (K × K)) : K :=
  ((spends.filter fun s => a ≤ s.1 ∧ s.1 ≤ b).map Prod.snd).sum

/-- A bucket with this level at this time has had these amounts taken from it,
each at its time. -/
structure Budgeted (capacity rate : K) (spends : List (K × K)) (level time : K) : Prop where
  nonneg : 0 ≤ level
  le_capacity : level ≤ capacity
  past : ∀ s ∈ spends, s.1 ≤ time
  bounded : ∀ a b, a ≤ b → spent a b spends ≤ capacity + rate * (b - a)
  reserve : ∀ a, a ≤ time → spent a time spends + level ≤ capacity + rate * (time - a)

theorem spent_nil (a b : K) : spent a b [] = 0 := rfl

/-- Nothing is spent after the last time. -/
theorem spent_of_past {spends : List (K × K)} {time b : K} (h : ∀ s ∈ spends, s.1 ≤ time)
    (hb : time ≤ b) (a : K) : spent a b spends = spent a time spends := by
  unfold spent
  rw [List.filter_congr fun s hs => ?_]
  have h1 : s.1 ≤ time := h s hs
  have h2 : s.1 ≤ b := le_trans h1 hb
  simp [h1, h2]

theorem spent_eq_zero {spends : List (K × K)} {time a : K} (h : ∀ s ∈ spends, s.1 ≤ time)
    (ha : time < a) (b : K) : spent a b spends = 0 := by
  have hnone : (spends.filter fun s => a ≤ s.1 ∧ s.1 ≤ b) = [] := by
    refine List.filter_eq_nil_iff.mpr fun s hs => ?_
    have h1 : ¬a ≤ s.1 := not_le.mpr (lt_of_le_of_lt (h s hs) ha)
    simp [h1]
  unfold spent
  rw [hnone]
  rfl

theorem spent_snoc (a b time cost : K) (spends : List (K × K)) :
    spent a b (spends ++ [(time, cost)]) =
      spent a b spends + if a ≤ time ∧ time ≤ b then cost else 0 := by
  by_cases h : a ≤ time ∧ time ≤ b <;> simp [spent, h]

namespace Budgeted

variable [IsStrictOrderedRing K] {capacity rate level time cost : K} {spends : List (K × K)}

theorem start (hcapacity : 0 ≤ capacity) (hrate : 0 ≤ rate) (time : K) :
    Budgeted capacity rate [] capacity time where
  nonneg := hcapacity
  le_capacity := le_refl _
  past := nofun
  bounded := by
    intro a b hab
    have hspan : 0 ≤ rate * (b - a) := mul_nonneg hrate (sub_nonneg.mpr hab)
    rw [spent_nil]
    linarith
  reserve := by
    intro a ha
    have hspan : 0 ≤ rate * (time - a) := mul_nonneg hrate (sub_nonneg.mpr ha)
    rw [spent_nil]
    linarith

/-- Time goes by: the level rises by the rate at most. -/
theorem wait (h : Budgeted capacity rate spends level time) (hrate : 0 ≤ rate)
    {level' time' : K} (htime : time ≤ time') (hnonneg : 0 ≤ level')
    (hcapacity : level' ≤ capacity) (hlevel : level' ≤ level + rate * (time' - time)) :
    Budgeted capacity rate spends level' time' where
  nonneg := hnonneg
  le_capacity := hcapacity
  past := fun s hs => le_trans (h.past s hs) htime
  bounded := h.bounded
  reserve := by
    intro a ha
    rcases le_or_gt a time with hle | hgt
    · have hreserve := h.reserve a hle
      rw [spent_of_past h.past htime a]
      linarith
    · have hspan : 0 ≤ rate * (time' - a) := mul_nonneg hrate (sub_nonneg.mpr ha)
      rw [spent_eq_zero h.past hgt time']
      linarith

/-- An amount is taken off the level. -/
theorem spend (h : Budgeted capacity rate spends level time) (hrate : 0 ≤ rate)
    (hcost : 0 ≤ cost) (hlevel : cost ≤ level) :
    Budgeted capacity rate (spends ++ [(time, cost)]) (level - cost) time where
  nonneg := sub_nonneg.mpr hlevel
  le_capacity := by linarith [h.le_capacity]
  past := by
    intro s hs
    rcases List.mem_append.mp hs with hold | hnew
    · exact h.past s hold
    · rw [List.mem_singleton.mp hnew]
  bounded := by
    intro a b hab
    have hbound := h.bounded a b hab
    rw [spent_snoc]
    split
    · next hin =>
        have hreserve := h.reserve a hin.1
        have hspan : rate * (time - a) ≤ rate * (b - a) :=
          mul_le_mul_of_nonneg_left (by linarith [hin.2]) hrate
        rw [spent_of_past h.past hin.2 a]
        linarith
    · linarith
  reserve := by
    intro a ha
    have hreserve := h.reserve a ha
    rw [spent_snoc, if_pos ⟨ha, le_refl time⟩]
    linarith

end Budgeted

end Lib
