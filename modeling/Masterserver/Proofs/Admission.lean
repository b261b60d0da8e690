import Masterserver.Lib.Recency
import Masterserver.Runs.Admission
import Masterserver.Proofs.Buckets

/-!
# What the admission limiter grants

All calls together are bounded by the common bucket. The calls of one client
are bounded by its own bucket as long as it is not given a fresh one too
early: the limiter keeps the buckets of the clients that called last, and one
that was dropped half empty comes back full. A crowd of other addresses is
enough to make that happen.
-/

namespace Masterserver

open Lib

namespace AdmissionLimiter

variable (l : AdmissionLimiter) (now : Seconds) (clientKey : String)

theorem allow_granted :
    (l.allow now clientKey).1 =
      (((l.bucket now clientKey).tryConsume now 1).1 &&
        (l.globalBucket.tryConsume now 1).1) := by
  unfold allow
  cases h : ((l.bucket now clientKey).tryConsume now 1).1 <;> simp [h]

theorem allow_buckets :
    (l.allow now clientKey).2.buckets =
      ((l.buckets.erase clientKey).set clientKey
        (((l.bucket now clientKey).tryConsume now 1).2, now)).trim 4096 := by
  unfold allow
  cases h : ((l.bucket now clientKey).tryConsume now 1).1 <;> simp [h]

theorem allow_globalBucket :
    (l.allow now clientKey).2.globalBucket =
      if ((l.bucket now clientKey).tryConsume now 1).1 then
        (l.globalBucket.tryConsume now 1).2
      else l.globalBucket := by
  unfold allow
  cases h : ((l.bucket now clientKey).tryConsume now 1).1 <;> simp [h]

theorem allow_rates :
    (l.allow now clientKey).2.perClientBurst = l.perClientBurst ∧
      (l.allow now clientKey).2.perClientRefill = l.perClientRefill := by
  unfold allow
  cases h : ((l.bucket now clientKey).tryConsume now 1).1 <;> simp [h]

/-! ## Whom the limiter knows -/

variable {l} {clientKey}

/-- Its clients are the ones that called last, in the order of their last
calls. -/
theorem keys_after {uses : List String} (h : l.buckets.keys = lastOf 4096 uses.dedup)
    (calls : List (Seconds × String)) :
    (l.after calls).buckets.keys = lastOf 4096 (uses ++ calls.map Prod.snd).dedup := by
  induction calls generalizing l uses with
  | nil =>
      rw [List.map_nil, List.append_nil]
      exact h
  | cons e rest ih =>
      have hcall : (l.allow e.1 e.2).2.buckets.keys = lastOf 4096 (uses ++ [e.2]).dedup := by
        rw [allow_buckets]
        exact Dict.keys_recent h e.2 _
      have hrest := ih hcall
      rw [List.append_assoc] at hrest
      exact hrest

/-- What is kept for a client that did not call was there before. -/
theorem get?_of_after {calls : List (Seconds × String)} (hnot : clientKey ∉ calls.map Prod.snd)
    {existing : TokenBucket × Seconds}
    (h : (l.after calls).buckets.get? clientKey = some existing) :
    l.buckets.get? clientKey = some existing := by
  induction calls generalizing l with
  | nil => exact h
  | cons e rest ih =>
      rw [List.map_cons, List.mem_cons, not_or] at hnot
      have hcall := ih hnot.2 h
      rw [allow_buckets] at hcall
      have hset := Dict.get?_of_trim hcall
      rw [Dict.get?_set_of_ne _ _ hnot.1, Dict.get?_erase_of_ne _ hnot.1] at hset
      exact hset

theorem after_append (l : AdmissionLimiter) (calls later : List (Seconds × String)) :
    l.after (calls ++ later) = (l.after calls).after later := List.foldl_append

/-- After any calls, whatever the answers, the table lists the clients that
called last, at most 4096 of them and in the order of their last calls, and
has for each the bucket that its last call left behind. -/
theorem most_recent_kept (hempty : l.buckets = ∅) (calls : List (Seconds × String)) :
    (l.after calls).buckets.keys = lastOf 4096 (calls.map Prod.snd).dedup ∧
      (l.after calls).buckets.size = min 4096 (calls.map Prod.snd).toFinset.card ∧
      ∀ before now clientKey later, calls = before ++ (now, clientKey) :: later →
        clientKey ∉ later.map Prod.snd →
        (l.after calls).buckets.contains clientKey = true →
          (l.after calls).buckets.get? clientKey =
            some ((((l.after before).bucket now clientKey).tryConsume now 1).2, now) := by
  have hkeys : (l.after calls).buckets.keys = lastOf 4096 (calls.map Prod.snd).dedup := by
    have hnone : l.buckets.keys = lastOf 4096 ([] : List String).dedup := by
      rw [hempty]
      rfl
    exact keys_after hnone calls
  refine ⟨hkeys, ?_, ?_⟩
  · have hsize := Dict.size_keys (l.after calls).buckets
    rw [hkeys, lastOf, List.length_drop] at hsize
    rw [List.card_toFinset]
    omega
  · rintro before now clientKey later rfl hnot hkept
    obtain ⟨existing, hexisting⟩ := Dict.contains_iff.mp hkept
    rw [hexisting]
    rw [after_append] at hexisting
    have hcall := get?_of_after hnot hexisting
    rw [allow_buckets] at hcall
    have hset := Dict.get?_of_trim hcall
    rw [Dict.get?_set_self] at hset
    exact hset.symm

/-- Two clients, of which the first calls again. -/
theorem most_recent_kept_again :
    ((new (.admission .default) 0).after
      [(0, "a"), (0, "b"), (1, "a")]).buckets.keys = ["b", "a"] :=
  (most_recent_kept rfl _).1

end AdmissionLimiter

namespace AdmissionRun

variable {rates : AdmissionRates} {s : AdmissionRun} {e : Seconds × String}

theorem grants_call (s : AdmissionRun) (e : Seconds × String) :
    (s.call e).grants =
      if (s.limiter.allow e.1 e.2).1 then s.grants ++ [e.1] else s.grants := by
  cases h : (s.limiter.allow e.1 e.2).1 <;> simp [grants, call, h]

theorem grantsOf_call (s : AdmissionRun) (e : Seconds × String) (key : String) :
    (s.call e).grantsOf key =
      if (s.limiter.allow e.1 e.2).1 ∧ e.2 = key then s.grantsOf key ++ [e.1]
      else s.grantsOf key := by
  obtain ⟨now, clientKey⟩ := e
  by_cases hkey : clientKey = key
  · subst hkey
    cases h : (s.limiter.allow now clientKey).1 <;> simp [grantsOf, call, h]
  · simp [grantsOf, call, hkey]

/-- The common bucket meters all grants, and the bucket that is kept for a
client is the one its last call left behind. -/
structure Kept (rates : AdmissionRates) (s : AdmissionRun) : Prop where
  burst : s.limiter.perClientBurst = rates.perClientBurst
  refill : s.limiter.perClientRefill = rates.perClientRefill
  global : (s.limiter.globalBucket).Meters rates.globalBurst rates.globalRefill s.grants
  globalPast : s.limiter.globalBucket.lastRefill ≤ s.clock
  leftBehind : ∀ key existing, s.limiter.buckets.get? key = some existing →
    s.leftBehind key = some existing.1
  past : ∀ key bucket, s.leftBehind key = some bucket → bucket.lastRefill ≤ s.clock

theorem kept_new (rates : AdmissionRates) (now : Seconds) : Kept rates (.new rates now) where
  burst := rfl
  refill := rfl
  global := .new rates.globalBurst_nonneg rates.globalRefill_nonneg now
  globalPast := le_refl _
  leftBehind := nofun
  past := nofun

theorem Kept.call (h : Kept rates s) (hnow : s.clock ≤ e.1) : Kept rates (s.call e) where
  burst := (s.limiter.allow_rates e.1 e.2).1.trans h.burst
  refill := (s.limiter.allow_rates e.1 e.2).2.trans h.refill
  global := by
    have hpast : s.limiter.globalBucket.lastRefill ≤ e.1 := h.globalPast.trans hnow
    have hconsume := h.global.tryConsume rates.globalRefill_nonneg hpast
    rw [grants_call, AdmissionRun.call, AdmissionLimiter.allow_globalBucket,
      AdmissionLimiter.allow_granted]
    cases ((s.limiter.bucket e.1 e.2).tryConsume e.1 1).1 with
    | true => simpa using hconsume
    | false => simpa using h.global
  globalPast := by
    rw [AdmissionRun.call, AdmissionLimiter.allow_globalBucket]
    split
    · exact (TokenBucket.lastRefill_tryConsume _ _ _).le
    · exact h.globalPast.trans hnow
  leftBehind := by
    intro key existing hget
    have hset := Dict.get?_of_trim ((AdmissionLimiter.allow_buckets _ _ _) ▸ hget)
    rw [Dict.get?_set, Dict.get?_erase] at hset
    show (if key = e.2 then _ else s.leftBehind key) = some existing.1
    split at hset
    · next hkey =>
        rw [if_pos hkey, ← Option.some.inj hset]
    · next hkey =>
        rw [if_neg hkey]
        exact h.leftBehind key existing hset
  past := by
    intro key bucket hleft
    change (if key = e.2 then _ else s.leftBehind key) = some bucket at hleft
    split at hleft
    · rw [← Option.some.inj hleft]
      exact (TokenBucket.lastRefill_tryConsume _ _ _).le
    · exact (h.past key bucket hleft).trans hnow

theorem kept_of_reachable (h : (admissionSystem rates).Reachable s) : Kept rates s := by
  refine h.invariant ?_ ?_
  · rintro _ ⟨now, rfl⟩
    exact kept_new rates now
  · intro s e s' hs hstep
    obtain ⟨hnow, rfl⟩ := hstep
    exact hs.call hnow

/-! ## One client -/

/-- What the client's last call left behind meters its grants. -/
structure Metered (rates : AdmissionRates) (clientKey : String) (s : AdmissionRun) : Prop where
  unknown : s.leftBehind clientKey = none → s.grantsOf clientKey = []
  known : ∀ bucket, s.leftBehind clientKey = some bucket →
    bucket.Meters rates.perClientBurst rates.perClientRefill (s.grantsOf clientKey)

variable {clientKey : String}

/-- The bucket a call consults meters the grants so far. -/
theorem Metered.bucket (h : Metered rates clientKey s) (hk : Kept rates s)
    (hnow : s.clock ≤ e.1) (hrefilled : Refilled clientKey s e) (hkey : e.2 = clientKey) :
    (s.limiter.bucket e.1 clientKey).Meters rates.perClientBurst rates.perClientRefill
        (s.grantsOf clientKey) ∧
      (s.limiter.bucket e.1 clientKey).lastRefill ≤ e.1 := by
  unfold AdmissionLimiter.bucket
  cases hget : s.limiter.buckets.get? clientKey with
  | some existing =>
      have hleft := hk.leftBehind clientKey existing hget
      exact ⟨h.known _ hleft, (hk.past _ _ hleft).trans hnow⟩
  | none =>
      simp only [hk.burst, hk.refill]
      refine ⟨?_, le_refl _⟩
      cases hleft : s.leftBehind clientKey with
      | none =>
          rw [h.unknown hleft]
          exact .new rates.perClientBurst_nonneg rates.perClientRefill_nonneg e.1
      | some old =>
          exact (h.known old hleft).renew rates.perClientRefill_nonneg
            ((hk.past _ _ hleft).trans hnow) (hrefilled hkey hget old hleft)

theorem Metered.call (h : Metered rates clientKey s) (hk : Kept rates s)
    (hnow : s.clock ≤ e.1) (hrefilled : Refilled clientKey s e) :
    Metered rates clientKey (s.call e) := by
  by_cases hkey : e.2 = clientKey
  · obtain ⟨hmeters, hpast⟩ := h.bucket hk hnow hrefilled hkey
    have hleft : (s.call e).leftBehind clientKey =
        some ((s.limiter.bucket e.1 clientKey).tryConsume e.1 1).2 := by
      simp [AdmissionRun.call, hkey]
    refine ⟨fun hnone => ?_, fun bucket hbucket => ?_⟩
    · rw [hleft] at hnone
      cases hnone
    · rw [hleft] at hbucket
      rw [← Option.some.inj hbucket, grantsOf_call, AdmissionLimiter.allow_granted, hkey]
      have hrate := rates.perClientRefill_nonneg
      have hconsume := hmeters.tryConsume hrate hpast
      have hdraw := hmeters.draw hrate hpast
      -- What the common bucket turns down costs the client a token all the same.
      cases (s.limiter.globalBucket.tryConsume e.1 1).1 with
      | true => simpa using hconsume
      | false => simpa using hdraw
  · have hleft : (s.call e).leftBehind clientKey = s.leftBehind clientKey :=
      if_neg (Ne.symm hkey)
    have hgrants : (s.call e).grantsOf clientKey = s.grantsOf clientKey := by
      rw [grantsOf_call, if_neg (fun h => hkey h.2)]
    refine ⟨?_, ?_⟩
    · rw [hleft, hgrants]
      exact h.unknown
    · rw [hleft, hgrants]
      exact h.known

theorem metered_of_reachable
    (h : ((admissionSystem rates).restrict (Refilled clientKey)).Reachable s) :
    Metered rates clientKey s := by
  have hboth : Kept rates s ∧ Metered rates clientKey s := by
    refine h.invariant (P := fun s => Kept rates s ∧ Metered rates clientKey s) ?_ ?_
    · rintro _ ⟨now, rfl⟩
      exact ⟨kept_new rates now, fun _ => rfl, nofun⟩
    · intro s e s' hs hstep
      obtain ⟨hrefilled, hnow, rfl⟩ := hstep
      exact ⟨hs.1.call hnow, hs.2.call hs.1 hnow hrefilled⟩
  exact hboth.2

end AdmissionRun

/-- In every run the grants of all clients together stay within the common
rates, and the grants of a client within its own in every run in which the
client never calls, its bucket dropped, before that bucket would be full. -/
theorem admission_rateBounded (rates : AdmissionRates) :
    (∀ s, (admissionSystem rates).Reachable s →
        RateBounded rates.globalBurst rates.globalRefill s.grants) ∧
      ∀ clientKey s,
        ((admissionSystem rates).restrict (AdmissionRun.Refilled clientKey)).Reachable s →
        RateBounded rates.perClientBurst rates.perClientRefill (s.grantsOf clientKey) := by
  refine ⟨fun s h => (AdmissionRun.kept_of_reachable h).global.metered.bounded, ?_⟩
  intro clientKey s h
  have hmetered := AdmissionRun.metered_of_reachable h
  cases hleft : s.leftBehind clientKey with
  | none =>
      rw [hmetered.unknown hleft]
      exact (Lib.Metered.start rates.perClientBurst_nonneg rates.perClientRefill_nonneg
        0).bounded
  | some bucket => exact (hmetered.known bucket hleft).metered.bounded

/-! ## A crowd of addresses -/

namespace AdmissionRun

/-- One call each, at one time. -/
def crowdCalls (s : AdmissionRun) (now : Seconds) (crowd : List String) : AdmissionRun :=
  (crowd.map fun key => (now, key)).foldl call s

theorem limiter_foldl (es : List (Seconds × String)) (s : AdmissionRun) :
    (es.foldl call s).limiter = s.limiter.after es := by
  induction es generalizing s with
  | nil => rfl
  | cons e rest ih => exact ih (s.call e)

theorem grantsOf_crowdCalls (now : Seconds) (crowd : List String) (s : AdmissionRun)
    {key : String} (h : key ∉ crowd) :
    (s.crowdCalls now crowd).grantsOf key = s.grantsOf key := by
  induction crowd generalizing s with
  | nil => rfl
  | cons other rest ih =>
      have hne : other ≠ key := fun heq => h (heq ▸ List.mem_cons_self)
      have hrest := ih (s.call (now, other)) fun hmem => h (List.mem_cons_of_mem _ hmem)
      rw [grantsOf_call, if_neg (fun hboth => hne hboth.2)] at hrest
      exact hrest

theorem calls_foldl (es : List (Seconds × String)) (s : AdmissionRun) :
    (es.foldl call s).log.map (fun c => (c.now, c.clientKey)) =
      s.log.map (fun c => (c.now, c.clientKey)) ++ es := by
  induction es generalizing s with
  | nil => simp
  | cons e rest ih =>
      rw [List.foldl_cons, ih]
      simp [call]

theorem reachable_crowdCalls (now : Seconds) (crowd : List String) {s : AdmissionRun}
    (h : (admissionSystem rates).Reachable s) (hclock : s.clock ≤ now) :
    (admissionSystem rates).Reachable (s.crowdCalls now crowd) ∧
      (s.crowdCalls now crowd).clock ≤ now := by
  induction crowd generalizing s with
  | nil => exact ⟨h, hclock⟩
  | cons key rest ih =>
      exact ih (h.next (e := (now, key)) ⟨hclock, rfl⟩) (le_refl now)

/-- A client the limiter does not know is granted a call when the common
bucket has a token. -/
theorem granted_of_unknown {s : AdmissionRun} {now : Seconds} {key : String}
    (hnone : s.limiter.buckets.get? key = none) (hburst : 1 ≤ s.limiter.perClientBurst)
    (hglobal : 1 ≤ (s.limiter.globalBucket.refill now).tokens) :
    (s.limiter.allow now key).1 = true := by
  have hclient : 1 ≤ ((s.limiter.bucket now key).refill now).tokens := by
    rw [AdmissionLimiter.bucket, hnone]
    simpa [TokenBucket.refill, TokenBucket.new] using hburst
  rw [AdmissionLimiter.allow_granted, TokenBucket.tryConsume_granted.mpr hclient,
    TokenBucket.tryConsume_granted.mpr hglobal, Bool.and_self]

end AdmissionRun

/-- One call, and a million seconds for the next. -/
def oneCall : AdmissionRates where
  perClientBurst := 1
  perClientRefill := 1 / 1000000
  globalBurst := 10000
  globalRefill := 10000
  perClientBurst_nonneg := by norm_num
  perClientRefill_nonneg := by norm_num
  globalBurst_nonneg := by norm_num
  globalRefill_nonneg := by norm_num

/-- As many other addresses as the limiter keeps. -/
def crowd : List String :=
  (List.range 4096).map fun i => String.ofList (List.replicate i 'x')

/-- The client calls, then the crowd, and one second later the client again. -/
def crowdedCalls : List (Seconds × String) :=
  (0, "client") :: crowd.map (fun key => (0, key)) ++ [(1, "client")]

theorem crowd_nodup : ("client" :: crowd).Nodup := by
  refine List.nodup_cons.mpr ⟨?_, ?_⟩
  · intro hmem
    obtain ⟨i, -, hi⟩ := List.mem_map.mp hmem
    have hc : 'c' ∈ List.replicate i 'x' := by
      have hlist := congrArg String.toList hi
      rw [String.toList_ofList] at hlist
      rw [hlist]
      decide
    exact absurd (List.eq_of_mem_replicate hc) (by decide)
  · refine List.Nodup.map ?_ List.nodup_range
    intro i j hij
    simpa using congrArg List.length (String.ofList_injective hij)

/-- The client's second call is granted, though its bucket is empty. -/
theorem admission_eviction_grants :
    ∃ s, (admissionSystem oneCall).Reachable s ∧
      s.log.map (fun call => (call.now, call.clientKey)) = crowdedCalls ∧
      s.grantsOf "client" = [0, 1] ∧
      ¬RateBounded oneCall.perClientBurst oneCall.perClientRefill (s.grantsOf "client") := by
  have h0 : (admissionSystem oneCall).Reachable (.new oneCall 0) := .start ⟨0, rfl⟩
  obtain ⟨s₁, hs₁⟩ : ∃ s₁, s₁ = (AdmissionRun.new oneCall 0).call (0, "client") := ⟨_, rfl⟩
  obtain ⟨s₂, hs₂⟩ : ∃ s₂, s₂ = s₁.crowdCalls 0 crowd := ⟨_, rfl⟩
  have h1 : (admissionSystem oneCall).Reachable s₁ := hs₁ ▸ h0.next ⟨le_refl _, rfl⟩
  have hclock : s₁.clock ≤ 0 := by rw [hs₁]; exact le_refl _
  obtain ⟨h2, hclock2⟩ := AdmissionRun.reachable_crowdCalls 0 crowd h1 hclock
  rw [← hs₂] at h2 hclock2
  have hkept := AdmissionRun.kept_of_reachable h2
  -- The first call finds an empty table and a full common bucket.
  have hgrants₁ : s₁.grantsOf "client" = [0] := by
    rw [hs₁, AdmissionRun.grantsOf_call, if_pos]
    · rfl
    · refine ⟨AdmissionRun.granted_of_unknown rfl (le_refl _) ?_, rfl⟩
      norm_num [AdmissionRun.new, AdmissionLimiter.new, TokenBucket.refill, TokenBucket.new,
        oneCall]
  have hcrowd := List.nodup_cons.mp crowd_nodup
  have hkeys₂ : s₂.limiter.buckets.keys = crowd := by
    have hnone : (AdmissionRun.new oneCall 0).limiter.buckets.keys =
        lastOf 4096 ([] : List String).dedup := rfl
    have hkeys₁ : s₁.limiter.buckets.keys = lastOf 4096 ["client"].dedup := by
      rw [hs₁]
      exact AdmissionLimiter.keys_after hnone [(0, "client")]
    have hclients : (crowd.map fun key => ((0 : Seconds), key)).map Prod.snd = crowd := by
      rw [List.map_map]
      exact List.map_id _
    have hlength : ("client" :: crowd).length - 4096 = 1 := by
      rw [List.length_cons, crowd, List.length_map, List.length_range]
    rw [hs₂, AdmissionRun.crowdCalls, AdmissionRun.limiter_foldl,
      AdmissionLimiter.keys_after hkeys₁, hclients, List.singleton_append, crowd_nodup.dedup,
      lastOf, hlength, List.drop_one, List.tail_cons]
  have hgrants₂ : s₂.grantsOf "client" = [0] := by
    rw [hs₂, AdmissionRun.grantsOf_crowdCalls 0 crowd s₁ hcrowd.1, hgrants₁]
  have hgranted : (s₂.limiter.allow 1 "client").1 = true := by
    refine AdmissionRun.granted_of_unknown (Dict.get?_eq_none.mpr (hkeys₂ ▸ hcrowd.1)) ?_ ?_
    · rw [hkept.burst]
      exact le_refl _
    · have hpast : s₂.limiter.globalBucket.lastRefill ≤ 0 := hkept.globalPast.trans hclock2
      have htokens := hkept.global.metered.nonneg
      have hspan : 1 ≤ max 0 (1 - s₂.limiter.globalBucket.lastRefill) :=
        le_max_of_le_right (by linarith)
      simp only [TokenBucket.refill, hkept.global.capacity_eq, hkept.global.refill_eq, oneCall]
      refine le_min (by norm_num) ?_
      linarith
  have hgrants₃ : (s₂.call (1, "client")).grantsOf "client" = [0, 1] := by
    rw [AdmissionRun.grantsOf_call, if_pos ⟨hgranted, rfl⟩, hgrants₂]
    rfl
  refine ⟨s₂.call (1, "client"), h2.next ⟨hclock2.trans (by norm_num), rfl⟩, ?_, hgrants₃, ?_⟩
  · have hfold : crowdedCalls.foldl AdmissionRun.call (.new oneCall 0) =
        s₂.call (1, "client") := by
      rw [hs₂, hs₁, crowdedCalls, AdmissionRun.crowdCalls, List.foldl_append, List.foldl_cons,
        List.foldl_cons, List.foldl_nil]
    rw [← hfold, AdmissionRun.calls_foldl, AdmissionRun.new, List.map_nil, List.nil_append]
  · rw [hgrants₃]
    intro hbounded
    have hwindow := hbounded 0 1 (by norm_num)
    norm_num [Lib.within, oneCall] at hwindow

end Masterserver
