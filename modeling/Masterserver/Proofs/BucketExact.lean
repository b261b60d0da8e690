import Masterserver.Lib.Greedy
import Masterserver.Proofs.BucketRuns

/-!
# A bucket refuses only what it must

The tokens of a bucket are the room that the tightest window has left. So a
call is granted exactly when what was granted before leaves room for it in
every window that ends now, and calls that fit into all windows together are
all granted.

The registry keeps a bucket for each session and operation, made full at its
first call. What one session asks is answered from its own bucket alone,
whatever the others do meanwhile.
-/

namespace Masterserver

open Lib

namespace BucketRun

variable {capacity rate : Rat} {s : BucketRun}

def Tight (capacity rate : Rat) (s : BucketRun) : Prop :=
  Lib.Tight capacity rate s.granted s.bucket.tokens s.bucket.lastRefill

theorem tokens_refill {b : TokenBucket} {spends : List (Seconds × Rat)} {now : Seconds}
    (h : b.Budgets capacity rate spends) (hnow : b.lastRefill ≤ now) :
    (b.refill now).tokens = min capacity (b.tokens + rate * (now - b.lastRefill)) := by
  have hspan : max 0 (now - b.lastRefill) = now - b.lastRefill :=
    max_eq_right (sub_nonneg.mpr hnow)
  rw [TokenBucket.refill, hspan, h.capacity_eq, h.refill_eq, mul_comm]

theorem tight_refill (htight : s.Tight capacity rate)
    (h : s.bucket.Budgets capacity rate s.granted) {now : Seconds}
    (hnow : s.bucket.lastRefill ≤ now) :
    Lib.Tight capacity rate s.granted (s.bucket.refill now).tokens now := by
  rw [tokens_refill h hnow]
  exact htight.wait h.budgeted hnow

theorem tight_of_reachable (hcapacity : 0 ≤ capacity) (hrate : 0 ≤ rate)
    (h : (bucketSystem capacity rate).Reachable s) :
    s.bucket.Budgets capacity rate s.granted ∧ s.Tight capacity rate := by
  refine h.invariant
    (P := fun s => s.bucket.Budgets capacity rate s.granted ∧ s.Tight capacity rate) ?_ ?_
  · rintro s ⟨now, rfl⟩
    exact ⟨.new hcapacity hrate now, .start capacity rate now⟩
  · rintro s e s' ⟨hbudgets, htight⟩ ⟨⟨hnow, hcost⟩, rfl⟩
    refine ⟨hbudgets.tryConsume hrate hnow hcost, ?_⟩
    have hrefilled := tight_refill htight hbudgets hnow
    unfold Tight after TokenBucket.tryConsume
    simp only
    split
    · exact hrefilled
    · exact hrefilled.spend

/-- A call is granted exactly when it fits into every window that ends now. -/
theorem granted_iff_fits (hcapacity : 0 ≤ capacity) (hrate : 0 ≤ rate)
    (h : (bucketSystem capacity rate).Reachable s) {now : Seconds} {cost : Rat}
    (hnow : s.bucket.lastRefill ≤ now) :
    (s.bucket.tryConsume now cost).1 = true ↔
      ∀ t₀, t₀ ≤ now → spent t₀ now s.granted + cost ≤ capacity + rate * (now - t₀) := by
  obtain ⟨hbudgets, htight⟩ := tight_of_reachable hcapacity hrate h
  rw [TokenBucket.tryConsume_granted]
  exact (tight_refill htight hbudgets hnow).le_level_iff (hbudgets.refill hrate hnow).budgeted

/-- What a call asks for. -/
def asks (_ : BucketRun) (e : BucketCall) : Option (Seconds × Rat) := some (e.now, e.cost)

/-- What fits into every window. -/
def Fits (capacity rate : Rat) (asked : List (Seconds × Rat)) : Prop :=
  ∀ t₀ t₁, t₀ ≤ t₁ → spent t₀ t₁ asked ≤ capacity + rate * (t₁ - t₀)

theorem Fits.of_append {asked : List (Seconds × Rat)} {call : Seconds × Rat}
    (h : Fits capacity rate (asked ++ [call])) (hcost : 0 ≤ call.2) : Fits capacity rate asked := by
  intro t₀ t₁ hle
  have hall := h t₀ t₁ hle
  rw [spent_snoc] at hall
  split at hall <;> linarith

/-- All calls of a run are granted exactly when they fit into every window. -/
theorem granted_all_iff (hcapacity : 0 ≤ capacity) (hrate : 0 ≤ rate)
    {asked : List (Seconds × Rat)}
    (h : ((bucketSystem capacity rate).recorded asks).Reachable (s, asked)) :
    s.granted = asked ↔ Fits capacity rate asked := by
  constructor
  · intro heq
    rw [← heq]
    exact (budgets_of_reachable hcapacity hrate h.of_recorded).budgeted.bounded
  · obtain ⟨es, htrace⟩ := h
    generalize hp : (s, asked) = p at htrace
    induction htrace generalizing s asked with
    | start hi =>
        obtain ⟨⟨now, rfl⟩, rfl⟩ := hp ▸ hi
        exact fun _ => rfl
    | @snoc es q q' e htrace hstep ih =>
        subst hp
        intro hfits
        obtain ⟨⟨⟨hnow, hcost⟩, hs⟩, hasked⟩ := hstep
        obtain ⟨s', asked'⟩ := q
        simp only [asks, Option.toList_some] at hnow hcost hs hasked
        subst hasked
        have hold : s'.granted = asked' := ih rfl (hfits.of_append hcost)
        have hgranted : (s'.bucket.tryConsume e.now e.cost).1 = true := by
          rw [granted_iff_fits hcapacity hrate (System.Reachable.of_recorded ⟨es, htrace⟩) hnow]
          intro t₀ ht₀
          have hwindow := hfits t₀ e.now ht₀
          rw [spent_snoc, if_pos ⟨ht₀, le_refl e.now⟩] at hwindow
          rw [hold]
          exact hwindow
        rw [hs, after]
        simp only [hgranted, if_true, hold]

end BucketRun

/-! ## The registry -/

/-- A registry, when it was last asked, and for each session and operation the
calls since the session was last dropped and those of them that were granted. -/
structure RegistryRun where
  registry : RateLimiterRegistry
  now : Seconds
  asked : String × Operation → List Seconds
  granted : String × Operation → List Seconds

inductive RegistryCall
  | check (now : Seconds) (sessionId : String) (op : Operation)
  | dropSession (sessionId : String)

namespace RegistryRun

def after (s : RegistryRun) : RegistryCall → RegistryRun
  | .check now sid op =>
      let (allowed, registry) := s.registry.check now sid op
      let key := (sid, op)
      { registry := registry
        now := now
        asked := Function.update s.asked key (s.asked key ++ [now])
        granted :=
          if allowed then Function.update s.granted key (s.granted key ++ [now]) else s.granted }
  | .dropSession sid =>
      { s with
        registry := s.registry.dropSession sid
        asked := fun key => if key.1 = sid then [] else s.asked key
        granted := fun key => if key.1 = sid then [] else s.granted key }

/-- The clock does not run backwards. -/
def Allowed (s : RegistryRun) : RegistryCall → Prop
  | .check now _ _ => s.now ≤ now
  | .dropSession _ => True

instance (s : RegistryRun) : ∀ e, Decidable (s.Allowed e)
  | .check _ _ _ => inferInstanceAs (Decidable (_ ≤ _))
  | .dropSession _ => isTrue trivial

end RegistryRun

def registrySystem : System RegistryRun RegistryCall :=
  (System.machine (fun s => ∃ now, s = ⟨.empty, now, fun _ => [], fun _ => []⟩)
    RegistryRun.after).restrict RegistryRun.Allowed

namespace RegistryRun

variable {s : RegistryRun} {key : String × Operation}

theorem units_injective : Function.Injective (units : List Seconds → _) :=
  List.map_injective_iff.mpr fun _ _ h => congrArg Prod.fst h

theorem limits_nonneg (op : Operation) : 0 ≤ op.limits.1 ∧ 0 ≤ op.limits.2 := by
  cases op <;> norm_num [Operation.limits]

/-- The key's bucket has made the key's grants, in a run of its own. -/
def Tracks (s : RegistryRun) (key : String × Operation) (b : TokenBucket) : Prop :=
  ((bucketSystem key.2.limits.1 key.2.limits.2).recorded BucketRun.asks).Reachable
    (⟨b, units (s.granted key)⟩, units (s.asked key))

/-- A key that was asked for has its bucket, and one that was not has none. -/
structure Separate (s : RegistryRun) (key : String × Operation) : Prop where
  fresh : s.registry.buckets.get? key = none → s.asked key = [] ∧ s.granted key = []
  tracked : ∀ b, s.registry.buckets.get? key = some b → b.lastRefill ≤ s.now ∧ s.Tracks key b

/-- The bucket `check` consults, also where it is made on the spot. -/
theorem Separate.bucket {sid : String} {op : Operation} (h : s.Separate (sid, op))
    {now : Seconds} (hnow : s.now ≤ now) :
    (s.registry.bucket now sid op).lastRefill ≤ now ∧
      s.Tracks (sid, op) (s.registry.bucket now sid op) := by
  unfold RateLimiterRegistry.bucket
  cases hget : s.registry.buckets.get? (sid, op) with
  | none =>
      obtain ⟨hasked, hgranted⟩ := h.fresh hget
      refine ⟨le_refl now, ?_⟩
      unfold Tracks
      rw [hasked, hgranted]
      exact .start ⟨⟨now, rfl⟩, rfl⟩
  | some b =>
      obtain ⟨hlast, htracks⟩ := h.tracked b hget
      exact ⟨hlast.trans hnow, htracks⟩

theorem Separate.dropSession (h : s.Separate key) (sid : String) :
    (s.after (.dropSession sid)).Separate key := by
  by_cases hsid : key.1 = sid
  · constructor
    · intro _
      simp [RegistryRun.after, hsid]
    · intro b hb
      simp only [RegistryRun.after, RateLimiterRegistry.dropSession] at hb
      obtain ⟨-, hkeep⟩ := Dict.get?_filter_eq_some.mp hb
      simp [hsid] at hkeep
  · have hget : (s.registry.dropSession sid).buckets.get? key = s.registry.buckets.get? key := by
      simp only [RateLimiterRegistry.dropSession, Dict.get?_filter]
      cases s.registry.buckets.get? key with
      | none => rfl
      | some b => simp [hsid]
    constructor
    · intro hnone
      simp only [RegistryRun.after] at hnone ⊢
      rw [hget] at hnone
      simpa [hsid] using h.fresh hnone
    · intro b hb
      simp only [RegistryRun.after] at hb
      rw [hget] at hb
      have htracked := h.tracked b hb
      unfold Tracks at htracked ⊢
      simpa [RegistryRun.after, hsid] using htracked

theorem granted_check_self (s : RegistryRun) (now : Seconds) (sid : String) (op : Operation) :
    (s.after (.check now sid op)).granted (sid, op) =
      if (s.registry.check now sid op).1 then s.granted (sid, op) ++ [now]
      else s.granted (sid, op) := by
  simp only [RegistryRun.after]
  split
  · exact Function.update_self _ _ _
  · rfl

theorem asked_check_self (s : RegistryRun) (now : Seconds) (sid : String) (op : Operation) :
    (s.after (.check now sid op)).asked (sid, op) = s.asked (sid, op) ++ [now] :=
  Function.update_self _ _ _

/-- A call of the key is one of its bucket. -/
theorem Separate.check_self {sid : String} {op : Operation} (h : s.Separate (sid, op))
    {now : Seconds} (hnow : s.now ≤ now) : (s.after (.check now sid op)).Separate (sid, op) := by
  obtain ⟨hlast, htracks⟩ := h.bucket hnow
  have hstep : ((bucketSystem op.limits.1 op.limits.2).recorded BucketRun.asks).Reachable
      (BucketRun.after ⟨s.registry.bucket now sid op, units (s.granted (sid, op))⟩ ⟨now, 1⟩,
        units (s.asked (sid, op)) ++ [(now, 1)]) :=
    System.Reachable.next htracks ⟨⟨⟨hlast, zero_le_one⟩, rfl⟩, rfl⟩
  constructor
  · intro hnone
    simp [RegistryRun.after, RateLimiterRegistry.check] at hnone
  · intro b hb
    simp only [RegistryRun.after, RateLimiterRegistry.check, Dict.get?_set_self,
      Option.some.injEq] at hb
    subst hb
    refine ⟨le_of_eq (TokenBucket.lastRefill_tryConsume _ _ _), ?_⟩
    unfold Tracks
    rw [granted_check_self, asked_check_self, units_snoc, apply_ite units, units_snoc]
    exact hstep

/-- A call of another key leaves the bucket alone. -/
theorem Separate.check_other (h : s.Separate key) {now : Seconds} (hnow : s.now ≤ now)
    {sid : String} {op : Operation} (hkey : key ≠ (sid, op)) :
    (s.after (.check now sid op)).Separate key := by
  have hget : (s.after (.check now sid op)).registry.buckets.get? key =
      s.registry.buckets.get? key := by
    simp only [RegistryRun.after, RateLimiterRegistry.check]
    exact Dict.get?_set_of_ne _ _ hkey
  have hasked : (s.after (.check now sid op)).asked key = s.asked key :=
    Function.update_of_ne hkey _ _
  have hgranted : (s.after (.check now sid op)).granted key = s.granted key := by
    simp only [RegistryRun.after]
    split
    · exact Function.update_of_ne hkey _ _
    · rfl
  constructor
  · rw [hget, hasked, hgranted]
    exact h.fresh
  · intro b hb
    rw [hget] at hb
    obtain ⟨hlast, htracks⟩ := h.tracked b hb
    unfold Tracks at htracks ⊢
    rw [hasked, hgranted]
    exact ⟨hlast.trans hnow, htracks⟩

theorem separate_of_reachable (h : registrySystem.Reachable s) (key : String × Operation) :
    s.Separate key := by
  refine h.invariant (P := fun s => s.Separate key) ?_ ?_
  · rintro s ⟨now, rfl⟩
    exact ⟨fun _ => ⟨rfl, rfl⟩, nofun⟩
  · rintro s e s' hs ⟨hallowed, rfl⟩
    cases e with
    | check now sid op =>
        by_cases hkey : key = (sid, op)
        · subst hkey
          exact hs.check_self hallowed
        · exact hs.check_other hallowed hkey
    | dropSession sid => exact hs.dropSession sid

end RegistryRun

end Masterserver
