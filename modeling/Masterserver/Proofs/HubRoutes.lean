import Masterserver.Proofs.HubOps
import Masterserver.Runs.Hub

/-!
# Routes and sessions tell the same story

An attachment is recorded twice: as a lease in the route table and as a
member of the session's route set. `Consistent` says that the two records
agree and that no route is kept without subscribers. Three methods are worth a
word. `attachRoute` and `detachRoute` write both records; `pruneRoutes`
deletes while it walks, one route at a time, and what it drops from the table
it discards from the sessions in the same round; and a removed session is
already gone when its routes are detached, so there the consistency before the
call is what makes the loop reach every lease.

The bounds come from `Shrinks`: every method other than `createSession` and
`attachRoute` leaves fewer or equally many sessions, each with a subset of the
routes it had.
-/

namespace Masterserver

open Lib

namespace Hub

variable {hub hub' : Hub}

/-- `rid` is in the route set of the live session `sid`. -/
def Attached (hub : Hub) (rid sid : String) : Prop :=
  ∃ sess, hub.sessions.get? sid = some sess ∧ rid ∈ sess.routes

structure Consistent (hub : Hub) : Prop where
  subscribed_iff_attached : ∀ rid sid, hub.Subscribed rid sid ↔ hub.Attached rid sid
  noEmptyRoute : hub.NoEmptyRoute

theorem attached_set {sid : String} {sess : Session} (sess' : Session) (r s : String)
    (h : hub'.sessions = hub.sessions.set sid sess')
    (hs : hub.sessions.get? sid = some sess) :
    hub'.Attached r s ↔ if s = sid then r ∈ sess'.routes else hub.Attached r s := by
  unfold Attached
  rw [h]
  by_cases hsid : s = sid
  · subst hsid; simp
  · simp [Dict.get?_set, hsid]

theorem attached_discardRoute (rid sid r s : String) :
    (hub.discardRoute rid sid).Attached r s ↔
      hub.Attached r s ∧ ¬ (r = rid ∧ s = sid) := by
  unfold Attached discardRoute
  rw [get?_updateSession]
  by_cases h : s = sid
  · subst h
    cases hub.sessions.get? s with
    | none => simp
    | some sess => simp [Finset.mem_erase, and_comm]
  · simp [h]

/-- A rewriting that touches neither record of any attachment. -/
theorem Consistent.of_unchanged (h : hub.Consistent) (hr : hub'.routes = hub.routes)
    (ha : ∀ r s, hub'.Attached r s ↔ hub.Attached r s) : hub'.Consistent where
  subscribed_iff_attached r s := by
    rw [subscribed_congr hr, h.subscribed_iff_attached, ha]
  noEmptyRoute := (noEmptyRoute_congr hr).mpr h.noEmptyRoute

theorem Consistent.of_set (h : hub.Consistent) (hr : hub'.routes = hub.routes) {sid : String}
    {sess sess' : Session} (hset : hub'.sessions = hub.sessions.set sid sess')
    (hs : hub.sessions.get? sid = some sess) (hroutes : sess'.routes = sess.routes) :
    hub'.Consistent := by
  refine h.of_unchanged hr fun r s => ?_
  rw [attached_set sess' r s hset hs]
  split
  · next heq => subst heq; simp [Attached, hs, hroutes]
  · rfl

theorem Consistent.of_sessions (h : hub.Consistent) (hr : hub'.routes = hub.routes)
    (hs : hub'.sessions = hub.sessions) : hub'.Consistent :=
  h.of_unchanged hr fun r s => by unfold Attached; rw [hs]

theorem consistent_new (c : Config) (now : Seconds) : (Hub.new c now).Consistent where
  subscribed_iff_attached rid sid := by
    simp [Subscribed, Attached, Hub.new, Dict.getD]
  noEmptyRoute rid route h := by cases h

/-- A fresh identifier has no leases, because it has no record. -/
theorem consistent_createSession (h : hub.Consistent) (now : Seconds) {sid : String}
    (hfresh : hub.sessions.get? sid = none) : (hub.createSession now sid).Consistent := by
  refine h.of_unchanged rfl fun r s => ?_
  unfold Attached createSession
  rw [Dict.get?_set]
  by_cases hsid : s = sid
  · subst hsid; simp [hfresh]
  · simp [hsid]

theorem consistent_updateSession (h : hub.Consistent) (sid : String) {f : Session → Session}
    (hf : ∀ sess, (f sess).routes = sess.routes) : (hub.updateSession sid f).Consistent := by
  refine h.of_unchanged (routes_updateSession _ _) fun r s => ?_
  unfold Attached
  rw [get?_updateSession]
  by_cases hsid : s = sid
  · subst hsid
    cases hub.sessions.get? s with
    | none => simp
    | some sess => simp [hf]
  · simp [hsid]

theorem consistent_attachRoute (h : hub.Consistent) (c : Config) (now : Seconds)
    (sid rid : String) (ttl : Option Seconds) (limit : Option Int) :
    (hub.attachRoute c now sid rid ttl limit).1.Consistent := by
  obtain ⟨e, he⟩ | ⟨sess, hs, -, heq⟩ := attachRoute_cases hub c now sid rid ttl limit
  · rw [he]; exact h
  · rw [heq]
    constructor
    · intro r s
      rw [attached_set { sess with routes := insert rid sess.routes } r s rfl hs]
      by_cases hr : r = rid
      · subst hr
        -- The new lease and the new member of the set, at the same key.
        have hsub : ∀ s', (hub.routes.getD r ∅).contains s' = true ↔ hub.Attached r s' :=
          fun s' => h.subscribed_iff_attached r s'
        by_cases hsid : s = sid <;>
          simp [Subscribed, Dict.getD, Dict.contains_set, hsid, ← hsub s]
      · have hsub := h.subscribed_iff_attached r s
        by_cases hsid : s = sid
        · subst hsid
          simp only [Attached, hs, Option.some.injEq, exists_eq_left'] at hsub
          simpa [Subscribed, Dict.getD, Dict.get?_set, hr] using hsub
        · simpa [Subscribed, Dict.getD, Dict.get?_set, hr, hsid] using hsub
    · intro r route hr
      rw [Dict.get?_set] at hr
      split at hr
      · cases hr
        exact Dict.ne_empty_of_get? (Dict.get?_set_self _ sid _)
      · exact h.noEmptyRoute r route hr

theorem consistent_heartbeatRoute (h : hub.Consistent) (c : Config) (now : Seconds)
    (sid rid : String) (ttl : Option Seconds) :
    (hub.heartbeatRoute c now sid rid ttl).1.Consistent := by
  obtain he | ⟨route, hroute, hc, heq⟩ :=
    heartbeatRoute_cases hub c now sid rid ttl
  · rw [he]; exact h
  · rw [heq]
    constructor
    · intro r s
      refine Iff.trans ?_ (h.subscribed_iff_attached r s)
      by_cases hr : r = rid
      · subst hr
        simp only [Subscribed, Dict.getD, Dict.get?_set_self, Option.getD_some, hroute,
          Dict.contains_set]
        by_cases hsid : s = sid <;> simp [hsid, hc]
      · simp [Subscribed, Dict.getD, Dict.get?_set, hr]
    · intro r route' hr
      rw [Dict.get?_set] at hr
      split at hr
      · cases hr
        exact Dict.ne_empty_of_get? (Dict.get?_set_self _ sid _)
      · exact h.noEmptyRoute r route' hr

theorem consistent_detachRoute (h : hub.Consistent) (sid rid : String) :
    (hub.detachRoute sid rid).Consistent where
  subscribed_iff_attached r s := by
    rw [subscribed_detachRoute, detachRoute_eq, attached_discardRoute,
      h.subscribed_iff_attached]
    unfold Attached
    rw [sessions_dropLease]
  noEmptyRoute := noEmptyRoute_detachRoute h.noEmptyRoute sid rid

theorem consistent_removeSessionBy (clamp : Int → Int) (h : hub.Consistent) (sid : String) :
    (hub.removeSessionBy clamp sid).Consistent := by
  cases hs : hub.sessions.get? sid with
  | none => rw [removeSessionBy_of_none clamp hs]; exact h
  | some sess =>
      refine ⟨fun r s => ?_, noEmptyRoute_removeSessionBy clamp h.noEmptyRoute sid⟩
      rw [subscribed_removeSessionBy clamp hs, h.subscribed_iff_attached]
      unfold Attached
      rw [sessions_removeSessionBy, Dict.get?_erase]
      by_cases hsid : s = sid
      · subst hsid; simp [hs]
      · simp [hsid]

/-! ## Pruning expired leases -/

theorem attached_discardAll (rid : String) (sids : List String) (r s : String) :
    (sids.foldl (fun hub sid => hub.discardRoute rid sid) hub).Attached r s ↔
      hub.Attached r s ∧ ¬ (r = rid ∧ s ∈ sids) := by
  induction sids generalizing hub with
  | nil => simp
  | cons sid rest ih =>
      rw [List.foldl_cons, ih, attached_discardRoute, List.mem_cons]
      tauto

theorem routes_discardAll (rid : String) (sids : List String) :
    (sids.foldl (fun hub sid => hub.discardRoute rid sid) hub).routes = hub.routes :=
  foldl_invariant (P := fun h : Hub => h.routes = hub.routes) sids rfl
    fun h sid _ heq => by rw [discardRoute, routes_updateSession, heq]

theorem consistent_pruneRoute (h : hub.Consistent) (now : Seconds) (rid : String) :
    (hub.pruneRoute now rid).Consistent := by
  unfold pruneRoute
  cases hroute : hub.routes.get? rid with
  | none => exact h
  | some route =>
      constructor
      · intro r s
        rw [subscribed_congr (routes_discardAll _ _), subscribed_storeRoute,
          attached_discardAll]
        have hold := h.subscribed_iff_attached r s
        by_cases hr : r = rid
        · subst hr
          have hsame : (hub.storeRoute r (route.filter fun _ e => now < e)).Attached r s ↔
              hub.Attached r s := by rfl
          simp only [Subscribed, Dict.getD, hroute, Option.getD_some] at hold
          rw [if_pos rfl, hsame, ← hold, Dict.mem_keys, Dict.contains_iff, Dict.contains_iff]
          simp only [Dict.get?_filter_eq_some, decide_eq_true_eq, true_and]
          -- A lease is live or expired, and a session has one lease at most.
          constructor
          · rintro ⟨e, he, hlt⟩
            refine ⟨⟨e, he⟩, ?_⟩
            rintro ⟨e', he', hle⟩
            rw [he] at he'
            cases he'
            exact absurd hlt (not_lt.mpr hle)
          · rintro ⟨⟨e, he⟩, hno⟩
            exact ⟨e, he, lt_of_not_ge fun hle => hno ⟨e, he, hle⟩⟩
        · simpa [hr, Attached] using hold
      · rw [noEmptyRoute_congr (routes_discardAll _ _)]
        exact noEmptyRoute_storeRoute h.noEmptyRoute _ _

theorem consistent_pruneRoutes (h : hub.Consistent) (now : Seconds) :
    (hub.pruneRoutes now).Consistent :=
  foldl_invariant hub.routes.keys h fun _ rid _ hb => consistent_pruneRoute hb now rid

theorem consistent_pruneStaleSessionsBy (clamp : Int → Int) (h : hub.Consistent) (c : Config)
    (now : Seconds) : (hub.pruneStaleSessionsBy clamp c now).Consistent :=
  foldl_invariant (hub.staleSessions c now) h
    fun _ sid _ hb => consistent_removeSessionBy clamp hb sid

/-! ## The outbound queue leaves attachments alone -/

theorem consistent_sendSession (h : hub.Consistent) (c : Config) (sid : String) (data : Json) :
    (hub.sendSession c sid data).1.Consistent := by
  obtain he | ⟨sess, hs, -, -, heq⟩ := sendSession_cases hub c sid data
  · rw [he]; exact h
  · rw [heq]
    exact h.of_set rfl rfl hs rfl

theorem consistent_writerDequeue (h : hub.Consistent) (sid : String) :
    (hub.writerDequeue sid).Consistent := by
  obtain he | ⟨sess, frame, rest, -, hs, -, heq⟩ := writerDequeue_cases hub sid
  · rw [he]; exact h
  · rw [heq]
    exact h.of_set rfl rfl hs rfl

theorem consistent_releaseFrameBy (clamp : Int → Int) (h : hub.Consistent) (sid : String)
    (frame : Frame) : (hub.releaseFrameBy clamp sid frame).Consistent := by
  cases hs : hub.sessions.get? sid with
  | none => rw [releaseFrameBy_of_none clamp frame hs]; exact h
  | some sess =>
      rw [releaseFrameBy_of_some clamp frame hs]
      exact h.of_set rfl rfl hs rfl

theorem consistent_writerSentBy (clamp : Int → Int) (h : hub.Consistent) (sid : String) :
    (hub.writerSentBy clamp sid).Consistent := by
  obtain he | ⟨frame, next, -, -, heq⟩ := writerSentBy_cases hub clamp sid
  · rw [he]; exact h
  · rw [heq]
    exact (consistent_releaseFrameBy clamp h sid frame).of_sessions rfl rfl

theorem consistent_writerFailedBy (clamp : Int → Int) (h : hub.Consistent) (sid : String) :
    (hub.writerFailedBy clamp sid).Consistent := by
  obtain he | ⟨w, -, -, heq⟩ | ⟨frame, -, heq⟩ := writerFailedBy_cases hub clamp sid
  · rw [he]; exact h
  · rw [heq]; exact h.of_sessions rfl rfl
  · rw [heq]
    exact (consistent_releaseFrameBy clamp h sid frame).of_sessions rfl rfl

/-! ## Nothing but an attach adds a route to a session -/

structure Shrinks (hub hub' : Hub) : Prop where
  routes : ∀ sid sess', hub'.sessions.get? sid = some sess' →
    ∃ sess, hub.sessions.get? sid = some sess ∧ sess'.routes ⊆ sess.routes
  count : hub'.sessions.size ≤ hub.sessions.size

theorem Shrinks.refl (hub : Hub) : hub.Shrinks hub :=
  ⟨fun _ sess h => ⟨sess, h, Finset.Subset.refl _⟩, le_refl _⟩

theorem Shrinks.trans {hub'' : Hub} (h : hub.Shrinks hub') (h' : hub'.Shrinks hub'') :
    hub.Shrinks hub'' where
  routes sid sess'' hs'' := by
    obtain ⟨sess', hs', hsub'⟩ := h'.routes sid sess'' hs''
    obtain ⟨sess, hs, hsub⟩ := h.routes sid sess' hs'
    exact ⟨sess, hs, hsub'.trans hsub⟩
  count := h'.count.trans h.count

theorem Shrinks.of_set {sid : String} {sess sess' : Session}
    (hset : hub'.sessions = hub.sessions.set sid sess')
    (hs : hub.sessions.get? sid = some sess) (hsub : sess'.routes ⊆ sess.routes) :
    hub.Shrinks hub' where
  routes s t ht := by
    rw [hset, Dict.get?_set] at ht
    split at ht
    · next heq => subst heq; cases ht; exact ⟨sess, hs, hsub⟩
    · exact ⟨t, ht, Finset.Subset.refl _⟩
  count := by
    rw [hset, Dict.size_set, if_pos (Dict.contains_iff.mpr ⟨sess, hs⟩)]

theorem Shrinks.of_sessions (hs : hub'.sessions = hub.sessions) : hub.Shrinks hub' := by
  refine ⟨fun sid sess h => ⟨sess, ?_, Finset.Subset.refl _⟩, by rw [hs]⟩
  rwa [hs] at h

theorem shrinks_updateSession (sid : String) {f : Session → Session}
    (hf : ∀ sess, (f sess).routes ⊆ sess.routes) : hub.Shrinks (hub.updateSession sid f) := by
  unfold updateSession
  cases hs : hub.sessions.get? sid with
  | none => exact .refl hub
  | some sess => exact .of_set rfl hs (hf sess)

theorem shrinks_detachRoute (sid rid : String) : hub.Shrinks (hub.detachRoute sid rid) := by
  rw [detachRoute_eq]
  exact (Shrinks.of_sessions (sessions_dropLease sid rid)).trans
    (shrinks_updateSession sid fun _ => Finset.erase_subset _ _)

theorem shrinks_removeSessionBy (clamp : Int → Int) (sid : String) :
    hub.Shrinks (hub.removeSessionBy clamp sid) where
  routes s sess h := by
    rw [sessions_removeSessionBy] at h
    exact ⟨sess, (Dict.get?_erase_eq_some.mp h).2, Finset.Subset.refl _⟩
  count := by
    rw [sessions_removeSessionBy]
    exact Dict.size_erase_le _ _

theorem shrinks_pruneRoute (now : Seconds) (rid : String) :
    hub.Shrinks (hub.pruneRoute now rid) := by
  unfold pruneRoute
  split
  · exact .refl hub
  · refine foldl_invariant (P := fun h => hub.Shrinks h) _ (.of_sessions rfl) ?_
    intro h sid _ hshr
    exact hshr.trans (shrinks_updateSession sid fun _ => Finset.erase_subset _ _)

theorem shrinks_writerStep {writers : Dict String Writer} (clamp : Int → Int) (sid : String)
    (frame : Frame) :
    hub.Shrinks { hub.releaseFrameBy clamp sid frame with writers := writers } := by
  cases hs : hub.sessions.get? sid with
  | none => rw [releaseFrameBy_of_none clamp frame hs]; exact .of_sessions rfl
  | some sess =>
      rw [releaseFrameBy_of_some clamp frame hs]
      exact .of_set rfl hs (Finset.Subset.refl _)

theorem shrinks_sendSession (c : Config) (sid : String) (data : Json) :
    hub.Shrinks (hub.sendSession c sid data).1 := by
  obtain he | ⟨sess, hs, -, -, heq⟩ := sendSession_cases hub c sid data
  · rw [he]; exact .refl hub
  · rw [heq]
    exact .of_set rfl hs (Finset.Subset.refl _)

theorem shrinks_writerDequeue (sid : String) : hub.Shrinks (hub.writerDequeue sid) := by
  obtain he | ⟨sess, frame, rest, -, hs, -, heq⟩ := writerDequeue_cases hub sid
  · rw [he]; exact .refl hub
  · rw [heq]
    exact .of_set rfl hs (Finset.Subset.refl _)

/-- The two operations that add something. -/
def Grows : HubOp → Prop
  | .createSession _ | .attachRoute _ _ _ _ => True
  | _ => False

theorem shrinks_apply (hub : Hub) (c : Config) (now : Seconds) {op : HubOp} (hop : ¬ Grows op) :
    hub.Shrinks (op.apply c now hub) := by
  cases op with
  | createSession sid => exact absurd trivial hop
  | attachRoute sid rid ttl limit => exact absurd trivial hop
  | touchHeartbeat sid => exact shrinks_updateSession sid fun _ => Finset.Subset.refl _
  | heartbeatRoute sid rid ttl =>
      refine .of_sessions ?_
      obtain he | ⟨route, -, -, heq⟩ := heartbeatRoute_cases hub c now sid rid ttl
      · exact congrArg (fun r => r.1.sessions) he
      · exact congrArg (fun r => r.1.sessions) heq
  | detachRoute sid rid => exact shrinks_detachRoute sid rid
  | pruneRoutes =>
      exact foldl_invariant (P := fun h => hub.Shrinks h) hub.routes.keys (.refl hub)
        fun _ rid _ h => h.trans (shrinks_pruneRoute now rid)
  | pruneStaleSessions =>
      exact foldl_invariant (P := fun h => hub.Shrinks h) (hub.staleSessions c now) (.refl hub)
        fun _ sid _ h => h.trans (shrinks_removeSessionBy clamp sid)
  | removeSession sid => exact shrinks_removeSessionBy clamp sid
  | sendSession sid data => exact shrinks_sendSession c sid data
  | writerDequeue sid => exact shrinks_writerDequeue sid
  | writerSent sid =>
      simp only [HubOp.apply, HubOp.applyBy]
      obtain he | ⟨frame, next, -, -, heq⟩ := writerSentBy_cases hub clamp sid
      · rw [he]; exact .refl hub
      · rw [heq]; exact shrinks_writerStep clamp sid frame
  | writerFailed sid =>
      simp only [HubOp.apply, HubOp.applyBy]
      obtain he | ⟨w, -, -, heq⟩ | ⟨frame, -, heq⟩ := writerFailedBy_cases hub clamp sid
      · rw [he]; exact .refl hub
      · rw [heq]; exact .of_sessions rfl
      · rw [heq]; exact shrinks_writerStep clamp sid frame
  | checkAndMarkSeen key ttl =>
      refine .of_sessions ?_
      obtain ⟨seen, heq⟩ := checkAndMarkSeen_hub hub c now key ttl
      simp only [HubOp.apply, HubOp.applyBy, heq]
  | pruneDedupe => exact .of_sessions rfl

/-- Every operation keeps the two records of the attachments in agreement. -/
theorem consistent_apply (h : hub.Consistent) (c : Config) (now : Seconds) {op : HubOp}
    (hfresh : ∀ sid, op = .createSession sid → hub.sessions.get? sid = none) :
    (op.apply c now hub).Consistent := by
  cases op with
  | createSession sid => exact consistent_createSession h now (hfresh sid rfl)
  | touchHeartbeat sid => exact consistent_updateSession h sid fun _ => rfl
  | attachRoute sid rid ttl limit => exact consistent_attachRoute h c now sid rid ttl limit
  | heartbeatRoute sid rid ttl => exact consistent_heartbeatRoute h c now sid rid ttl
  | detachRoute sid rid => exact consistent_detachRoute h sid rid
  | pruneRoutes => exact consistent_pruneRoutes h now
  | pruneStaleSessions => exact consistent_pruneStaleSessionsBy clamp h c now
  | removeSession sid => exact consistent_removeSessionBy clamp h sid
  | sendSession sid data => exact consistent_sendSession h c sid data
  | writerDequeue sid => exact consistent_writerDequeue h sid
  | writerSent sid => exact consistent_writerSentBy clamp h sid
  | writerFailed sid => exact consistent_writerFailedBy clamp h sid
  | checkAndMarkSeen key ttl =>
      obtain ⟨seen, heq⟩ := checkAndMarkSeen_hub hub c now key ttl
      simp only [HubOp.apply, HubOp.applyBy, heq]
      exact h.of_sessions rfl rfl
  | pruneDedupe => exact h.of_sessions rfl rfl

end Hub

/-! ## Over a whole run -/

namespace HubRun

variable {c : Config} {s : HubRun}

structure RouteInvariant (c : Config) (s : HubRun) : Prop where
  consistent : s.hub.Consistent
  issued : ∀ sid sess, s.hub.sessions.get? sid = some sess → sid ∈ s.issued
  limit_nonneg : ∀ sid, 0 ≤ s.largestLimit sid
  withinLimit : ∀ sid sess, s.hub.sessions.get? sid = some sess →
    (sess.routes.card : Int) ≤ s.largestLimit sid
  count : s.hub.sessions.size ≤ c.maxConcurrency

theorem routeInvariant_init {s : HubRun} (h : (hubSystem c).init s) : RouteInvariant c s := by
  obtain ⟨now, rfl⟩ := h
  exact {
    consistent := Hub.consistent_new c now
    issued := fun _ _ h => by cases h
    limit_nonneg := fun _ => le_refl _
    withinLimit := fun _ _ h => by cases h
    count := Nat.zero_le _ }

/-- An identifier that was never issued names no session. -/
theorem RouteInvariant.fresh (h : RouteInvariant c s) {sid : String} (hsid : sid ∉ s.issued) :
    s.hub.sessions.get? sid = none := by
  cases hs : s.hub.sessions.get? sid with
  | none => rfl
  | some sess => exact absurd (h.issued sid sess hs) hsid

theorem RouteInvariant.createSession (h : RouteInvariant c s) (now : Seconds) {sid : String}
    (hfresh : sid ∉ s.issued) (hcount : s.hub.sessionCount < c.maxConcurrency) :
    RouteInvariant c
      ⟨s.hub.createSession now sid, now, insert sid s.issued, s.largestLimit⟩ where
  consistent := Hub.consistent_createSession h.consistent now (h.fresh hfresh)
  issued sid' sess hs := by
    rw [Finset.mem_insert]
    simp only [Hub.createSession, Dict.get?_set] at hs
    split at hs
    · next heq => exact .inl heq
    · exact .inr (h.issued sid' sess hs)
  limit_nonneg := h.limit_nonneg
  withinLimit sid' sess hs := by
    simp only [Hub.createSession, Dict.get?_set] at hs
    split at hs
    · cases hs; simpa using h.limit_nonneg sid'
    · exact h.withinLimit sid' sess hs
  count := by
    simp only [Hub.createSession, Dict.size_set]
    rw [if_neg (by rw [Dict.not_contains_iff.mpr (h.fresh hfresh)]; exact Bool.false_ne_true)]
    exact hcount

/-- A recorded limit is only ever raised. -/
theorem le_raised (limits : String → Int) (sid sid' : String) (limit : Int) :
    limits sid' ≤ Function.update limits sid (max (limits sid) limit) sid' := by
  by_cases h : sid' = sid
  · subst h
    rw [Function.update_self]
    exact le_max_left _ _
  · rw [Function.update_of_ne h]

theorem RouteInvariant.attachRoute (h : RouteInvariant c s) (now : Seconds) (sid rid : String)
    (ttl : Option Seconds) (limit : Option Int) :
    RouteInvariant c
      ⟨(s.hub.attachRoute c now sid rid ttl limit).1, now, s.issued,
        s.largestLimitAfter c now (.attachRoute sid rid ttl limit)⟩ := by
  have hcons := Hub.consistent_attachRoute h.consistent c now sid rid ttl limit
  obtain ⟨e, he⟩ | ⟨sess, hs, hlim, heq⟩ :=
    Hub.attachRoute_cases s.hub c now sid rid ttl limit
  · simp only [largestLimitAfter, he, reduceCtorEq, if_false]
    exact ⟨h.consistent, h.issued, h.limit_nonneg, h.withinLimit, h.count⟩
  · rw [heq] at hcons
    simp only [largestLimitAfter, heq, if_true]
    refine ⟨hcons, ?_, ?_, ?_, ?_⟩
    · intro sid' sess' hs'
      rw [Dict.get?_set] at hs'
      split at hs'
      · next hsid => subst hsid; exact h.issued sid' sess hs
      · exact h.issued sid' sess' hs'
    · exact fun sid' => (h.limit_nonneg sid').trans (le_raised s.largestLimit sid sid' _)
    · intro sid' sess' hs'
      have hraise := le_raised s.largestLimit sid sid' (limit.getD c.maxRoutesPerSession)
      rw [Dict.get?_set] at hs'
      split at hs'
      · next hsid =>
          subst hsid
          cases hs'
          -- The set grows by one at most, and only below the limit of this call.
          obtain hmem | hlt := hlim
          · simp only [Finset.insert_eq_self.mpr hmem]
            exact (h.withinLimit sid' sess hs).trans hraise
          · have hcard := Finset.card_insert_le rid sess.routes
            simp only [Function.update_self]
            refine le_max_of_le_right ?_
            omega
      · exact (h.withinLimit sid' sess' hs').trans hraise
    · rw [Dict.size_set, if_pos (Dict.contains_iff.mpr ⟨sess, hs⟩)]
      exact h.count

theorem RouteInvariant.shrink (h : RouteInvariant c s) (now : Seconds) {op : HubOp}
    (hop : ¬ Hub.Grows op) :
    RouteInvariant c ⟨op.apply c now s.hub, now, s.issued, s.largestLimit⟩ := by
  have hshr := Hub.shrinks_apply s.hub c now hop
  refine ⟨Hub.consistent_apply h.consistent c now ?_, ?_, h.limit_nonneg, ?_,
    hshr.count.trans h.count⟩
  · rintro sid rfl
    exact absurd trivial hop
  · intro sid sess' hs'
    obtain ⟨sess, hs, -⟩ := hshr.routes sid sess' hs'
    exact h.issued sid sess hs
  · intro sid sess' hs'
    obtain ⟨sess, hs, hsub⟩ := hshr.routes sid sess' hs'
    have hcard := Finset.card_le_card hsub
    have hle := h.withinLimit sid sess hs
    simp only
    omega

theorem RouteInvariant.next (h : RouteInvariant c s) {e : Seconds × HubOp} {s' : HubRun}
    (hstep : (hubSystem c).step s e s') : RouteInvariant c s' := by
  obtain ⟨now, op⟩ := e
  obtain ⟨⟨-, hallowed⟩, rfl⟩ := hstep
  cases op with
  | createSession sid => exact h.createSession now hallowed.1 hallowed.2
  | attachRoute sid rid ttl limit => exact h.attachRoute now sid rid ttl limit
  | _ => exact h.shrink now id

theorem routeInvariant_of_reachable (h : (hubSystem c).Reachable s) : RouteInvariant c s :=
  h.invariant (fun _ => routeInvariant_init) fun _ _ _ hs => hs.next

/-- In every state of every run the route table and the sessions' route sets
agree, no route is empty, no session exceeds the largest limit it was attached
with, the sessions stay within capacity, and an attach that raises leaves the
hub as it was. -/
theorem hub_routes_consistent (h : (hubSystem c).Reachable s) :
    (∀ rid sid, s.hub.Subscribed rid sid ↔ s.hub.Attached rid sid) ∧
    (∀ rid route, s.hub.routes.get? rid = some route → route.size ≠ 0) ∧
    (∀ sid sess, s.hub.sessions.get? sid = some sess →
      (sess.routes.card : Int) ≤ s.largestLimit sid) ∧
    s.hub.sessions.size ≤ c.maxConcurrency ∧
    ∀ now sid rid ttl limit, (s.hub.attachRoute c now sid rid ttl limit).2 ≠ none →
      (s.hub.attachRoute c now sid rid ttl limit).1 = s.hub := by
  have hinv := routeInvariant_of_reachable h
  refine ⟨hinv.consistent.subscribed_iff_attached, hinv.consistent.noEmptyRoute,
    hinv.withinLimit, hinv.count, ?_⟩
  intro now sid rid ttl limit hraise
  obtain ⟨e, he⟩ | ⟨sess, -, -, heq⟩ :=
    Hub.attachRoute_cases s.hub c now sid rid ttl limit
  · rw [he]
  · rw [heq] at hraise
    exact absurd rfl hraise

/-- The run that creates one session and attaches it. -/
theorem hub_routes_consistent_attached :
    ∃ s : HubRun, (hubSystem .default).Reachable s ∧ s.hub.Attached "r" "a" := by
  have h0 : (hubSystem .default).Reachable ⟨.new .default 0, 0, ∅, fun _ => 0⟩ :=
    .start ⟨0, rfl⟩
  have h2 := System.reachable_foldl h0
    [(1, .createSession "a"), (2, .attachRoute "a" "r" none none)] (by decide +kernel)
  exact ⟨_, h2, ((hub_routes_consistent h2).1 "r" "a").mp (by decide)⟩

end HubRun

end Masterserver
