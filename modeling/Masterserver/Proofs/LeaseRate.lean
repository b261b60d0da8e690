import Masterserver.Proofs.HubMoves
import Masterserver.Proofs.Isolation
import Masterserver.Proofs.MessageRate
import Masterserver.Proofs.RouteAuthority

/-!
# How many routes a session can hold

No endpoint ever calls `heartbeat_route`: a lease lives on only by another
ATTACH_ROUTE, and each of these costs a token of a bucket of four that refills
one in fifteen seconds. So the leases a session has at one time were all
attached within one lease time, and the bucket bounds them, whatever the
configured number of routes for a session is.
-/

namespace Masterserver

open Lib

namespace Hub

/-- The lease of a session on a route, run out or not. -/
def leaseOf (hub : Hub) (rid sid : String) : Option Seconds :=
  (hub.routes.get? rid).bind fun route => route.get? sid

/-- The bucket a session's attachments are paid from. -/
def attachBucket (hub : Hub) (sid : String) : Option TokenBucket :=
  hub.rateLimiter.buckets.get? (sid, .attachRoute)

variable {c : Config} {now : Seconds} {hub hub' hub'' : Hub} {sid other rid r : String}

theorem leaseOf_congr (h : hub'.routes = hub.routes) : hub'.leaseOf r sid = hub.leaseOf r sid := by
  unfold leaseOf
  rw [h]

theorem leaseOf_storeRoute {route : Dict String Seconds} :
    (hub.storeRoute rid route).leaseOf r sid =
      if r = rid then route.get? sid else hub.leaseOf r sid := by
  unfold leaseOf storeRoute
  by_cases hsize : route.size = 0
  · have hempty := Dict.size_eq_zero.mp hsize
    subst hempty
    by_cases h : r = rid <;> simp [h, Dict.get?_erase]
  · by_cases h : r = rid <;> simp [hsize, h, Dict.get?_set]

/-- A session does not appear, and of its leases none is new or longer. Its
bucket is left alone or goes with it. -/
structure Retains (sid : String) (hub hub' : Hub) : Prop where
  present : hub'.sessions.contains sid = true → hub.sessions.contains sid = true
  bucket : hub'.attachBucket sid = hub.attachBucket sid ∨
    hub'.sessions.contains sid = false ∧ hub'.attachBucket sid = none
  leases : ∀ r expiresAt, hub'.leaseOf r sid = some expiresAt → hub.leaseOf r sid = some expiresAt

theorem Retains.refl : Retains sid hub hub := ⟨id, .inl rfl, fun _ _ => id⟩

theorem Retains.absent (h : Retains sid hub hub') (hnone : hub.sessions.contains sid = false) :
    hub'.sessions.contains sid = false := by
  rw [Bool.eq_false_iff]
  intro hpresent
  rw [h.present hpresent] at hnone
  cases hnone

theorem Retains.trans (h : Retains sid hub hub') (h' : Retains sid hub' hub'') :
    Retains sid hub hub'' where
  present hpresent := h.present (h'.present hpresent)
  bucket := by
    obtain heq' | hgone' := h'.bucket
    · obtain heq | ⟨hnone, hgone⟩ := h.bucket
      · exact .inl (heq'.trans heq)
      · exact .inr ⟨h'.absent hnone, heq'.trans hgone⟩
    · exact .inr hgone'
  leases r expiresAt hlease := h.leases r expiresAt (h'.leases r expiresAt hlease)

theorem Retains.bucket_eq (h : Retains sid hub hub') (hpresent : hub'.sessions.contains sid = true) :
    hub'.attachBucket sid = hub.attachBucket sid := by
  obtain heq | ⟨hnone, -⟩ := h.bucket
  · exact heq
  · rw [hpresent] at hnone
    cases hnone

theorem Retains.of_same (hs : ∀ s, hub'.sessions.contains s = hub.sessions.contains s)
    (hl : hub'.rateLimiter = hub.rateLimiter) (hr : hub'.routes = hub.routes) :
    Retains sid hub hub' where
  present hpresent := (hs sid).symm.trans hpresent
  bucket := .inl (by rw [attachBucket, hl, attachBucket])
  leases r expiresAt hlease := (leaseOf_congr hr).symm.trans hlease

theorem contains_updateSession (f : Session → Session) (s : String) :
    (hub.updateSession other f).sessions.contains s = hub.sessions.contains s := by
  rw [Bool.eq_iff_iff, Dict.contains_iff, Dict.contains_iff, get?_updateSession]
  split
  · cases hub.sessions.get? s <;> simp
  · rfl

theorem contains_set_session {sessions : Dict String Session} {sess sess' : Session}
    (hs : sessions.get? other = some sess) (s : String) :
    (sessions.set other sess').contains s = sessions.contains s := by
  rw [Dict.contains_set]
  by_cases h : s = other
  · subst h
    rw [Dict.contains_iff.mpr ⟨sess, hs⟩, Bool.or_true]
  · simp [h]

theorem retains_updateSession (f : Session → Session) :
    Retains sid hub (hub.updateSession other f) :=
  .of_same (contains_updateSession f) (rateLimiter_updateSession other f)
    (routes_updateSession other f)

theorem retains_checkRate {op : Operation} (h : (sid, Operation.attachRoute) ≠ (other, op)) :
    Retains sid hub (hub.checkRate now other op).1 where
  present := id
  bucket := .inl (Dict.get?_set_of_ne _ _ h)
  leases _ _ := id

/-- Another session attaches. -/
theorem retains_attachRoute (hne : sid ≠ other) (ttl : Option Seconds) (limit : Option Int) :
    Retains sid hub (hub.attachRoute c now other rid ttl limit).1 := by
  obtain ⟨e, heq⟩ | ⟨sess, hs, -, heq⟩ := attachRoute_cases hub c now other rid ttl limit
  · rw [heq]
    exact .refl
  · rw [heq]
    refine ⟨?_, .inl rfl, fun r expiresAt hlease => ?_⟩
    · rw [contains_set_session hs]
      exact id
    · simp only [leaseOf, Dict.get?_set] at hlease ⊢
      split at hlease
      · next h =>
          subst h
          rw [Option.bind_some, Dict.get?_set_of_ne _ _ hne] at hlease
          unfold Dict.getD at hlease
          cases hr : hub.routes.get? r with
          | none =>
              rw [hr] at hlease
              simp at hlease
          | some route =>
              rw [hr] at hlease
              exact hlease
      · exact hlease

theorem retains_detachRoute : Retains sid hub (hub.detachRoute other rid) := by
  have hdrop : Retains sid hub (hub.dropLease other rid) := by
    unfold dropLease
    split
    · exact .refl
    · next route hroute =>
        refine ⟨id, .inl rfl, fun r expiresAt hlease => ?_⟩
        rw [leaseOf_storeRoute] at hlease
        split at hlease
        · next h =>
            subst h
            rw [leaseOf, hroute]
            exact (Dict.get?_erase_eq_some.mp hlease).2
        · exact hlease
  exact hdrop.trans (retains_updateSession _)

theorem retains_checkAndMarkSeen (c : Config) (now : Seconds) (key : String) (ttl : Seconds) :
    Retains sid hub (hub.checkAndMarkSeen c now key ttl).1 := by
  obtain ⟨seen, heq⟩ := checkAndMarkSeen_hub hub c now key ttl
  rw [heq]
  exact .of_same (fun _ => rfl) rfl rfl

theorem retains_sendSession (c : Config) (target : String) (message : Json) :
    Retains sid hub (hub.sendSession c target message).1 := by
  obtain heq | ⟨sess, hs, -, -, heq⟩ := sendSession_cases hub c target message
  · rw [heq]
    exact .refl
  · rw [heq]
    exact .of_same (contains_set_session hs) rfl rfl

theorem retains_removeSession : Retains sid hub (hub.removeSession other) := by
  refine ⟨fun hpresent => ?_, ?_, fun r expiresAt hlease => ?_⟩
  · rw [removeSession, sessions_removeSessionBy, Dict.contains_erase] at hpresent
    exact (Bool.and_eq_true_iff.mp hpresent).2
  · by_cases hne : sid = other
    · subst hne
      cases hs : hub.sessions.get? sid with
      | none =>
          rw [removeSession, removeSessionBy_of_none clamp hs]
          exact .inl rfl
      | some sess =>
          refine .inr ⟨?_, bucket_removeSessionBy clamp hs .attachRoute⟩
          rw [removeSession, sessions_removeSessionBy, Dict.contains_erase]
          simp
    · exact .inl (rateLimiter_removeSessionBy clamp .attachRoute hne)
  · cases hs : hub.sessions.get? other with
    | none =>
        rw [removeSession, removeSessionBy_of_none clamp hs] at hlease
        exact hlease
    | some sess =>
        rw [removeSession, removeSessionBy_of_some clamp hs] at hlease
        have hall : ∀ (rids : List String) (h : Hub),
            (h.detachAll other rids).leaseOf r sid = some expiresAt →
              h.leaseOf r sid = some expiresAt := fun rids h =>
          foldl_invariant (P := fun h' : Hub => h'.leaseOf r sid = some expiresAt →
              h.leaseOf r sid = some expiresAt) rids id
            fun h' rid _ ih hlease => ih (retains_detachRoute.leases r expiresAt hlease)
        exact hall (sorted sess.routes)
          { hub with
            sessions := hub.sessions.erase other
            outboundQueuedBytes := clamp (hub.outboundQueuedBytes - sess.outboundBytes) } hlease

theorem retains_pruneStaleSessions (c : Config) (now : Seconds) :
    Retains sid hub (hub.pruneStaleSessions c now) :=
  foldl_invariant (P := fun h => Retains sid hub h) (hub.staleSessions c now) .refl
    fun _ _ _ h => h.trans retains_removeSession

theorem retains_pruneRoute : Retains sid hub (hub.pruneRoute now rid) := by
  unfold pruneRoute
  split
  · exact .refl
  · next route hroute =>
      have hstore : Retains sid hub
          (hub.storeRoute rid (route.filter fun _ expiresAt => now < expiresAt)) := by
        refine ⟨id, .inl rfl, fun r expiresAt hlease => ?_⟩
        rw [leaseOf_storeRoute] at hlease
        split at hlease
        · next h =>
            subst h
            rw [leaseOf, hroute]
            exact (Dict.get?_filter_eq_some.mp hlease).1
        · exact hlease
      exact foldl_invariant (P := fun h => Retains sid hub h) _ hstore
        fun _ holder _ h => h.trans (retains_updateSession _)

theorem retains_pruneRoutes : Retains sid hub (hub.pruneRoutes now) :=
  foldl_invariant (P := fun h => Retains sid hub h) hub.routes.keys .refl
    fun _ _ _ h => h.trans retains_pruneRoute

theorem retains_writerDequeue : Retains sid hub (hub.writerDequeue other) := by
  obtain heq | ⟨sess, frame, rest, -, hs, -, heq⟩ := writerDequeue_cases hub other
  · rw [heq]
    exact .refl
  · rw [heq]
    exact .of_same (contains_set_session hs) rfl rfl

theorem retains_releaseFrame (frame : Frame) (next : Writer) :
    Retains sid hub { hub.releaseFrameBy clamp other frame with
      writers := hub.writers.set other next } := by
  cases hs : hub.sessions.get? other with
  | none =>
      rw [releaseFrameBy_of_none clamp frame hs]
      exact .of_same (fun _ => rfl) rfl rfl
  | some sess =>
      rw [releaseFrameBy_of_some clamp frame hs]
      exact .of_same (contains_set_session hs) rfl rfl

theorem retains_writerSent : Retains sid hub (hub.writerSent other) := by
  unfold writerSent
  obtain heq | ⟨frame, next, -, -, heq⟩ := writerSentBy_cases hub clamp other
  · rw [heq]
    exact .refl
  · rw [heq]
    exact retains_releaseFrame frame next

theorem retains_writerFailed : Retains sid hub (hub.writerFailed other) := by
  unfold writerFailed
  obtain heq | ⟨w, -, -, heq⟩ | ⟨frame, -, heq⟩ := writerFailedBy_cases hub clamp other
  · rw [heq]
    exact .refl
  · rw [heq]
    exact .of_same (fun _ => rfl) rfl rfl
  · rw [heq]
    exact retains_releaseFrame frame .done

/-! ## What is paid for -/

/-- The leases of a session were attached at these times, each paid from the
session's bucket. -/
structure Funded (c : Config) (hub : Hub) (sid : String) (time : Seconds)
    (grants : List (String × Seconds)) : Prop where
  leases : ∀ r expiresAt, hub.leaseOf r sid = some expiresAt →
    ∃ t, (r, t) ∈ grants ∧ expiresAt = t + c.routeLeaseSeconds
  unpaid : hub.attachBucket sid = none → grants = []
  metered : ∀ bucket, hub.attachBucket sid = some bucket →
    bucket.Meters 4 (4 / 60) (grants.map Prod.snd) ∧ bucket.lastRefill ≤ time

variable {time : Seconds} {grants : List (String × Seconds)}

theorem Funded.retain (h : Funded c hub sid time grants) (hr : Retains sid hub hub')
    (hpresent : hub'.sessions.contains sid = true) : Funded c hub' sid time grants where
  leases r expiresAt hlease := h.leases r expiresAt (hr.leases r expiresAt hlease)
  unpaid := by
    rw [hr.bucket_eq hpresent]
    exact h.unpaid
  metered := by
    rw [hr.bucket_eq hpresent]
    exact h.metered

theorem Funded.later (h : Funded c hub sid time grants) (hnow : time ≤ now) :
    Funded c hub sid now grants :=
  ⟨h.leases, h.unpaid, fun bucket hbucket =>
    ⟨(h.metered bucket hbucket).1, (h.metered bucket hbucket).2.trans hnow⟩⟩

/-- The bucket the next attachment is paid from, stored or made on the spot. -/
theorem Funded.bucket (h : Funded c hub sid now grants) :
    (hub.rateLimiter.bucket now sid .attachRoute).Meters 4 (4 / 60) (grants.map Prod.snd) ∧
      (hub.rateLimiter.bucket now sid .attachRoute).lastRefill ≤ now := by
  unfold RateLimiterRegistry.bucket
  cases hbucket : hub.rateLimiter.buckets.get? (sid, .attachRoute) with
  | none =>
      rw [h.unpaid hbucket]
      exact ⟨.new (by norm_num) (by norm_num) now, le_refl now⟩
  | some bucket => exact h.metered bucket hbucket

theorem attachBucket_checkRate :
    (hub.checkRate now sid .attachRoute).1.attachBucket sid =
      some ((hub.rateLimiter.bucket now sid .attachRoute).tryConsume now 1).2 :=
  Dict.get?_set_self _ _ _

/-- A check that is refused, or whose token is not used. -/
theorem Funded.check (h : Funded c hub sid now grants) :
    Funded c (hub.checkRate now sid .attachRoute).1 sid now grants where
  leases := h.leases
  unpaid hnone := by
    rw [attachBucket_checkRate] at hnone
    cases hnone
  metered bucket hbucket := by
    rw [attachBucket_checkRate] at hbucket
    obtain rfl := Option.some.inj hbucket
    obtain ⟨hmeters, hlast⟩ := h.bucket
    exact ⟨hmeters.draw (by norm_num) hlast, (TokenBucket.lastRefill_tryConsume _ _ _).le⟩

theorem attachBucket_attachRoute (ttl : Option Seconds) (limit : Option Int) :
    (hub.attachRoute c now other rid ttl limit).1.attachBucket sid = hub.attachBucket sid := by
  obtain ⟨e, heq⟩ | ⟨sess, -, -, heq⟩ := attachRoute_cases hub c now other rid ttl limit
  · rw [heq]
  · rw [heq]
    rfl

/-- A route is attached with the token of a check. -/
theorem Funded.attach (h : Funded c hub sid now grants) (rid : String) (limit : Option Int)
    (hallowed : (hub.checkRate now sid .attachRoute).2 = true) :
    ∃ grants', Funded c ((hub.checkRate now sid .attachRoute).1.attachRoute c now sid rid none
      limit).1 sid now grants' := by
  obtain ⟨e, heq⟩ | ⟨sess, hs, -, heq⟩ := attachRoute_cases
    (hub.checkRate now sid .attachRoute).1 c now sid rid none limit
  · exact ⟨grants, by rw [heq]; exact h.check⟩
  · have hbucket : ((hub.checkRate now sid .attachRoute).1.attachRoute c now sid rid none
        limit).1.attachBucket sid =
          some ((hub.rateLimiter.bucket now sid .attachRoute).tryConsume now 1).2 :=
      (attachBucket_attachRoute none limit).trans attachBucket_checkRate
    refine ⟨grants ++ [(rid, now)], fun r expiresAt hlease => ?_, fun hnone => ?_,
      fun bucket hsome => ?_⟩
    · rw [heq] at hlease
      simp only [leaseOf, Dict.get?_set, Option.getD_none] at hlease
      split at hlease
      · next hr =>
          subst hr
          rw [Option.bind_some, Dict.get?_set_self] at hlease
          exact ⟨now, List.mem_append_right _ (List.mem_singleton.mpr rfl),
            (Option.some.inj hlease).symm⟩
      · obtain ⟨t, hmem, heq⟩ := h.leases r expiresAt hlease
        exact ⟨t, List.mem_append_left _ hmem, heq⟩
    · rw [hbucket] at hnone
      cases hnone
    · rw [hbucket] at hsome
      obtain rfl := Option.some.inj hsome
      obtain ⟨hmeters, hlast⟩ := h.bucket
      have hgranted : ((hub.rateLimiter.bucket now sid .attachRoute).tryConsume now 1).1 = true :=
        hallowed
      have hnext := hmeters.tryConsume (by norm_num) hlast
      rw [hgranted, if_pos rfl] at hnext
      rw [List.map_append, List.map_cons, List.map_nil]
      exact ⟨hnext, (TokenBucket.lastRefill_tryConsume _ _ _).le⟩

theorem contains_attached (s : String) (ttl : Option Seconds) (limit : Option Int) :
    (hub.attachRoute c now other rid ttl limit).1.sessions.contains s =
      hub.sessions.contains s := by
  obtain ⟨e, heq⟩ | ⟨sess, hs, -, heq⟩ := attachRoute_cases hub c now other rid ttl limit
  · rw [heq]
  · rw [heq]
    exact contains_set_session hs s

/-- The leases of a session that is there are paid for. -/
def Pays (c : Config) (hub : Hub) (sid : String) (time : Seconds) : Prop :=
  hub.sessions.contains sid = true → ∃ grants, Funded c hub sid time grants

theorem Pays.retain (h : Pays c hub sid time) (hr : Retains sid hub hub') :
    Pays c hub' sid time := by
  intro hpresent
  obtain ⟨grants, hfunded⟩ := h (hr.present hpresent)
  exact ⟨grants, hfunded.retain hr hpresent⟩

theorem Pays.later (h : Pays c hub sid time) (hnow : time ≤ now) : Pays c hub sid now := by
  intro hpresent
  obtain ⟨grants, hfunded⟩ := h hpresent
  exact ⟨grants, hfunded.later hnow⟩

/-- What another session's handler asks of the hub. -/
theorem retains_calls (hne : sid ≠ other) {calls : List Hub.Call}
    (hcalls : Calls c now other hub calls hub') : Retains sid hub hub' := by
  have hkey : ∀ op, (sid, Operation.attachRoute) ≠ (other, op) := fun op h =>
    hne (congrArg Prod.fst h)
  induction hcalls with
  | nil => exact .refl
  | check _ op _ ih => exact ih.trans (retains_checkRate (hkey op))
  | consume _ ih => exact ih.trans (.of_same (fun _ => rfl) rfl rfl)
  | rewrite _ _ ih => exact ih.trans (retains_updateSession _)
  | heartbeat _ ih => exact ih.trans (retains_updateSession _)
  | attach _ routeId limit _ ih =>
      exact (ih.trans (retains_checkRate (hkey .attachRoute))).trans
        (retains_attachRoute hne none limit)
  | detach _ routeId ih => exact ih.trans retains_detachRoute
  | mark _ key ttl ih => exact ih.trans (retains_checkAndMarkSeen c now key ttl)
  | send _ target message ih => exact ih.trans (retains_sendSession c target message)

/-- What its own handler asks of the hub leaves a session's leases paid for. -/
theorem Pays.calls (h : Pays c hub sid now) {calls : List Hub.Call}
    (hcalls : Calls c now sid hub calls hub') : Pays c hub' sid now := by
  induction hcalls with
  | nil => exact h
  | check _ op hop ih =>
      by_cases heq : op = .attachRoute
      · subst heq
        intro hpresent
        obtain ⟨grants, hfunded⟩ := ih hpresent
        exact ⟨grants, hfunded.check⟩
      · exact ih.retain (retains_checkRate fun h => heq (congrArg Prod.snd h).symm)
  | consume _ ih => exact ih.retain (.of_same (fun _ => rfl) rfl rfl)
  | rewrite _ hf ih => exact ih.retain (retains_updateSession _)
  | heartbeat _ ih => exact ih.retain (retains_updateSession _)
  | attach _ routeId limit hallowed ih =>
      intro hpresent
      rw [contains_attached] at hpresent
      obtain ⟨grants, hfunded⟩ := ih hpresent
      exact hfunded.attach routeId limit hallowed
  | detach _ routeId ih => exact ih.retain retains_detachRoute
  | mark _ key ttl ih => exact ih.retain (retains_checkAndMarkSeen c now key ttl)
  | send _ target message ih => exact ih.retain (retains_sendSession c target message)

/-- A session's routes with a lease attached since a time are no more than the
bucket gave since. -/
theorem Funded.length_le (h : Funded c hub sid time grants) {rids : List String}
    (hnodup : rids.Nodup) {since : Seconds} (hsince : since ≤ time)
    (hleased : ∀ r ∈ rids, ∃ expiresAt, hub.leaseOf r sid = some expiresAt ∧
      since + c.routeLeaseSeconds ≤ expiresAt) :
    (rids.length : ℚ) ≤ 4 + 4 / 60 * (time - since) := by
  have hpaid : ∀ r ∈ rids, ∃ t, (r, t) ∈ grants ∧ since ≤ t := by
    intro r hr
    obtain ⟨expiresAt, hlease, hlong⟩ := hleased r hr
    obtain ⟨t, hmem, rfl⟩ := h.leases r expiresAt hlease
    exact ⟨t, hmem, le_of_add_le_add_right hlong⟩
  cases hbucket : hub.attachBucket sid with
  | none =>
      have hnone : rids = [] := List.eq_nil_iff_forall_not_mem.mpr fun r hr => by
        obtain ⟨t, hmem, -⟩ := hpaid r hr
        rw [h.unpaid hbucket] at hmem
        cases hmem
      have hspan : 0 ≤ 4 / 60 * (time - since) := mul_nonneg (by norm_num) (sub_nonneg.mpr hsince)
      rw [hnone, List.length_nil, Nat.cast_zero]
      linarith
  | some bucket =>
      obtain ⟨hmeters, hlast⟩ := h.metered bucket hbucket
      have hpast : ∀ r t, (r, t) ∈ grants → t ≤ time := fun r t hmem =>
        (hmeters.metered.past t (List.mem_map_of_mem hmem)).trans hlast
      have hsub : rids ⊆ (grants.filter fun g => since ≤ g.2 ∧ g.2 ≤ time).map Prod.fst := by
        intro r hr
        obtain ⟨t, hmem, hle⟩ := hpaid r hr
        refine List.mem_map.mpr ⟨(r, t), List.mem_filter.mpr ⟨hmem, ?_⟩, rfl⟩
        exact decide_eq_true ⟨hle, hpast r t hmem⟩
      have hcount : rids.length ≤ (Lib.within since time (grants.map Prod.snd)).length := by
        refine (List.subperm_of_subset hnodup hsub).length_le.trans (le_of_eq ?_)
        unfold Lib.within
        rw [List.length_map, List.filter_map, List.length_map]
        rfl
      calc (rids.length : ℚ) ≤ ((Lib.within since time (grants.map Prod.snd)).length : ℚ) :=
            Nat.cast_le.mpr hcount
        _ ≤ 4 + 4 / 60 * (time - since) := hmeters.metered.bounded since time hsince

end Hub

/-! ## Runs -/

namespace ServerRun

open Hub

variable {m : MeshConfig} {cr : Crypto} {trust : NodeTrust} {s : ServerRun} {sid : String}

/-- The leases of a session that is there are paid for, and a session that was
never let in has neither a bucket nor a lease. -/
structure LeasesPaid (m : MeshConfig) (sid : String) (s : ServerRun) : Prop where
  pays : s.server.hub.Pays m.toConfig sid s.clocks.monotonic
  fresh : sid ∉ s.issued → s.server.hub.sessions.contains sid = false ∧
    s.server.hub.attachBucket sid = none ∧ ∀ r, s.server.hub.leaseOf r sid = none

variable {s' : ServerRun}

theorem LeasesPaid.retain (h : LeasesPaid m sid s) (hr : Retains sid s.server.hub s'.server.hub)
    (hclock : s.clocks.monotonic ≤ s'.clocks.monotonic)
    (hissued : sid ∈ s.issued → sid ∈ s'.issued) : LeasesPaid m sid s' where
  pays := (h.pays.later hclock).retain hr
  fresh hnot := by
    obtain ⟨habsent, hbucket, hleases⟩ := h.fresh fun hmem => hnot (hissued hmem)
    refine ⟨hr.absent habsent, ?_, fun r => ?_⟩
    · obtain heq | ⟨-, hnone⟩ := hr.bucket
      · exact heq.trans hbucket
      · exact hnone
    · rw [Option.eq_none_iff_forall_ne_some]
      intro expiresAt hlease
      have hold := hr.leases r expiresAt hlease
      rw [hleases r] at hold
      cases hold

/-- A session that is let in has neither a bucket nor a lease. -/
theorem LeasesPaid.connect (h : LeasesPaid m sid s) (hfresh : sid ∉ s.issued) (now : Clocks)
    (hclock : s.clocks.monotonic ≤ now.monotonic) (endpoint : Endpoint) :
    LeasesPaid m sid { s.connect m now endpoint sid with clocks := now } := by
  obtain ⟨-, hbucket, hleases⟩ := h.fresh hfresh
  unfold ServerRun.connect
  split
  · exact h.retain .refl hclock id
  · refine ⟨fun _ => ⟨[], fun r expiresAt hlease => ?_, fun _ => rfl, fun bucket hsome => ?_⟩,
      fun hnot => absurd (Finset.mem_insert_self _ _) hnot⟩
    · exact absurd ((hleases r).symm.trans hlease) fun h => by cases h
    · exact absurd (hbucket.symm.trans hsome) fun h => by cases h

theorem retains_createSession {other : String} (hne : sid ≠ other) (hub : Hub) (now : Seconds) :
    Retains sid hub (hub.createSession now other) := by
  refine ⟨fun hpresent => ?_, .inl rfl, fun _ _ => id⟩
  unfold createSession at hpresent
  rw [Dict.contains_set] at hpresent
  simpa [hne] using hpresent

theorem LeasesPaid.after (h : LeasesPaid m sid s) (hsound : Sound m cr trust s) {e : ServerEvent}
    (hclock : s.clocks.before e.now) (hallowed : s.allowed m e.op) :
    LeasesPaid m sid (s.after m cr trust e) := by
  by_cases hconnect : ∃ endpoint, e.op = .connect endpoint sid
  · obtain ⟨endpoint, hop⟩ := hconnect
    have hafter : s.after m cr trust e =
        { s.connect m e.now endpoint sid with clocks := e.now } := by
      unfold ServerRun.after ServerRun.apply
      rw [hop]
      rfl
    rw [hop] at hallowed
    rw [hafter]
    exact h.connect hallowed e.now hclock.2 endpoint
  obtain ⟨entries, -, hmove⟩ := hubMove_after m cr trust s e
  have hkeeps : Retains sid s.server.hub (s.after m cr trust e).server.hub →
      LeasesPaid m sid (s.after m cr trust e) := fun hr =>
    h.retain hr hclock.2 fun hmem => issued_after hmem
  have hpays : sid ∈ s.issued →
      (s.after m cr trust e).server.hub.Pays m.toConfig sid e.now.monotonic →
      LeasesPaid m sid (s.after m cr trust e) := fun hissued hpays =>
    ⟨hpays, fun hnot => absurd (issued_after hissued) hnot⟩
  generalize (s.after m cr trust e).server.hub = hub' at hmove hkeeps hpays
  cases hmove with
  | @calls other calls _ _ _ hcaller hcalls _ =>
      by_cases hne : sid = other
      · subst hne
        obtain ⟨conn, hconn⟩ | hall := hcaller
        · have hissued : sid ∈ s.issued := by
            by_contra hnot
            rw [(hsound.fresh sid hnot).1] at hconn
            cases hconn
          exact hpays hissued ((h.pays.later hclock.2).calls hcalls)
        · have hother : sid ≠ sid.push 'x' := by
            intro heq
            have hlength := congrArg String.length heq
            rw [String.length_push] at hlength
            omega
          exact hkeeps (retains_calls hother (hall _))
      · exact hkeeps (retains_calls hne hcalls)
  | @create endpoint other hop =>
      refine hkeeps (retains_createSession ?_ _ _)
      rintro rfl
      exact hconnect ⟨endpoint, hop⟩
  | remove _ => exact hkeeps retains_removeSession
  | pruneRoutes _ => exact hkeeps retains_pruneRoutes
  | pruneStaleSessions _ => exact hkeeps (retains_pruneStaleSessions _ _)
  | pruneDedupe _ => exact hkeeps (.of_same (fun _ => rfl) rfl rfl)
  | dequeue _ => exact hkeeps retains_writerDequeue
  | sent _ => exact hkeeps retains_writerSent
  | failed _ => exact hkeeps retains_writerFailed

theorem leasesPaid_of_reachable (h : (serverSystem m cr trust).Reachable s) (sid : String) :
    LeasesPaid m sid s := by
  obtain ⟨es, htrace⟩ := h
  induction htrace with
  | start hi =>
      obtain ⟨incarnation, clocks, rfl⟩ := hi
      refine ⟨fun hpresent => ?_, fun _ => ⟨rfl, rfl, fun _ => rfl⟩⟩
      cases hpresent
  | snoc htrace hstep ih =>
      obtain ⟨⟨hclock, hallowed⟩, rfl⟩ := hstep
      exact ih.after (sound_of_reachable htrace.reachable) hclock hallowed

/-- The routes a session has a lease on that has not run out. -/
def routesOf (s : ServerRun) (now : Seconds) (sid : String) : List String :=
  s.server.hub.routes.keys.filter fun rid => sid ∈ s.server.hub.routeSubscribers now rid none

/-- In every reachable state and at every time, a session is subscribed to at
most four routes and one more for every fifteen seconds of a lease. -/
theorem subscriptions_bounded (h : (serverSystem m cr trust).Reachable s) {now : Seconds}
    (hnow : s.clocks.monotonic ≤ now) (sid : String) :
    ((s.routesOf now sid).length : ℚ) ≤ 4 + m.routeLeaseSeconds / 15 := by
  have hlease : ∀ rid ∈ s.routesOf now sid, ∃ expiresAt,
      s.server.hub.leaseOf rid sid = some expiresAt ∧ now < expiresAt := by
    intro rid hrid
    have hmem := of_decide_eq_true (List.mem_filter.mp hrid).2
    exact leased_iff.mp (mem_routeSubscribers.mp hmem).1
  have hnodup : (s.routesOf now sid).Nodup := s.server.hub.routes.nodup_keys.filter _
  have hlong := m.routeLeaseSeconds_bounds.1
  cases hpresent : s.server.hub.sessions.contains sid with
  | true =>
      obtain ⟨grants, hfunded⟩ := ((leasesPaid_of_reachable h sid).pays.later hnow) hpresent
      have hsince : now - m.routeLeaseSeconds ≤ now := by linarith
      have hcount := hfunded.length_le hnodup hsince fun rid hrid => by
        obtain ⟨expiresAt, hlive, hlater⟩ := hlease rid hrid
        refine ⟨expiresAt, hlive, ?_⟩
        rw [sub_add_cancel]
        exact hlater.le
      linarith
  | false =>
      have hnone : s.routesOf now sid = [] := List.eq_nil_iff_forall_not_mem.mpr fun rid hrid => by
        obtain ⟨expiresAt, hlive, -⟩ := hlease rid hrid
        obtain ⟨route, hroute, hholder⟩ := Option.bind_eq_some_iff.mp hlive
        have hsubscribed := subscribed_iff.mpr ⟨route, expiresAt, hroute, hholder⟩
        have hattached := ((sound_of_reachable h).consistent.subscribed_iff_attached rid sid).mp
          hsubscribed
        obtain ⟨sess, hs, -⟩ := hattached
        rw [Dict.contains_iff.mpr ⟨sess, hs⟩] at hpresent
        cases hpresent
      rw [hnone, List.length_nil, Nat.cast_zero]
      linarith

/-- A client that attached one route is subscribed to no more than ten. -/
theorem subscriptions_bounded_attached :
    ∃ s : ServerRun, s.leaseOf Sample.zeroRoute "s" = some 90 ∧
      ((s.routesOf s.clocks.monotonic "s").length : ℚ) ≤ 10 := by
  obtain ⟨s, -, hreach, -, -, hlease, -⟩ := Sample.attached_until
  refine ⟨s, hlease, (subscriptions_bounded hreach (le_refl _) "s").trans (le_of_eq ?_)⟩
  have hdefault : MeshConfig.alone.routeLeaseSeconds = 90 := rfl
  rw [hdefault]
  norm_num

end ServerRun

end Masterserver
