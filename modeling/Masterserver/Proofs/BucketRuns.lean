import Masterserver.Lib.System
import Masterserver.Proofs.Buckets

/-!
# Every window of a bucket

A bucket under any calls of `try_consume`. The invariant of `Budgets` is a
potential: what the bucket holds counts on top of what was taken from it in
every window that ends now, so a refill that is cut off at the capacity only
ever loses.
-/

namespace Masterserver

open Lib

/-- A bucket, with the calls that returned `True`: when each was made and what
it cost. -/
structure BucketRun where
  bucket : TokenBucket
  granted : List (Seconds × Rat)

/-- A call of `try_consume`. -/
structure BucketCall where
  now : Seconds
  cost : Rat

namespace BucketRun

def after (s : BucketRun) (e : BucketCall) : BucketRun :=
  let (granted, bucket) := s.bucket.tryConsume e.now e.cost
  ⟨bucket, if granted then s.granted ++ [(e.now, e.cost)] else s.granted⟩

/-- The clock does not run backwards and no call has a negative cost. -/
def Allowed (s : BucketRun) (e : BucketCall) : Prop := s.bucket.lastRefill ≤ e.now ∧ 0 ≤ e.cost

instance (s : BucketRun) (e : BucketCall) : Decidable (s.Allowed e) :=
  inferInstanceAs (Decidable (_ ∧ _))

end BucketRun

def bucketSystem (capacity rate : Rat) : System BucketRun BucketCall :=
  (System.machine (fun s => ∃ now, s = ⟨.new capacity rate now, []⟩) BucketRun.after).restrict
    BucketRun.Allowed

namespace BucketRun

variable {capacity rate : Rat} {s : BucketRun}

theorem budgets_of_reachable (hcapacity : 0 ≤ capacity) (hrate : 0 ≤ rate)
    (h : (bucketSystem capacity rate).Reachable s) :
    s.bucket.Budgets capacity rate s.granted := by
  refine h.invariant (P := fun s => s.bucket.Budgets capacity rate s.granted) ?_ ?_
  · rintro s ⟨now, rfl⟩
    exact .new hcapacity hrate now
  · rintro s e s' hs ⟨⟨hnow, hcost⟩, rfl⟩
    exact hs.tryConsume hrate hnow hcost

/-- In every run: the tokens stay between none and the capacity, what was
granted in a window costs at most the capacity and what the window refills,
and a call is refused only where the refilled tokens are below its cost. -/
theorem windows_bounded (hcapacity : 0 ≤ capacity) (hrate : 0 ≤ rate)
    (h : (bucketSystem capacity rate).Reachable s) :
    (0 ≤ s.bucket.tokens ∧ s.bucket.tokens ≤ capacity) ∧
      (∀ t₀ t₁, t₀ ≤ t₁ → spent t₀ t₁ s.granted ≤ capacity + rate * (t₁ - t₀)) ∧
      ∀ now cost, (s.bucket.tryConsume now cost).1 = false →
        (s.bucket.refill now).tokens < cost := by
  have hbudgets := budgets_of_reachable hcapacity hrate h
  refine ⟨⟨hbudgets.budgeted.nonneg, hbudgets.budgeted.le_capacity⟩, hbudgets.budgeted.bounded, ?_⟩
  intro now cost hrefused
  by_contra hle
  rw [TokenBucket.tryConsume_granted.mpr (not_lt.mp hle)] at hrefused
  cases hrefused

/-- Two calls are granted, and a third is refused. -/
theorem windows_bounded_burst :
    ∃ s : BucketRun, s.granted = [(0, 1), (1 / 2, 3 / 2)] ∧ spent 0 1 s.granted ≤ 2 + 1 * (1 - 0) := by
  let s := List.foldl after ⟨.new 2 1 0, []⟩ [⟨0, 1⟩, ⟨1 / 2, 3 / 2⟩, ⟨1 / 2, 1⟩]
  have hs : (bucketSystem 2 1).Reachable s :=
    System.reachable_foldl (.start (S := bucketSystem 2 1) ⟨0, rfl⟩) _ (by decide +kernel)
  exact ⟨s, by decide +kernel,
    (windows_bounded (by decide) (by decide) hs).2.1 0 1 (by decide)⟩

end BucketRun

end Masterserver
