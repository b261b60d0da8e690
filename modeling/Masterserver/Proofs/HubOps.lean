import Masterserver.App.Hub
import Masterserver.Lib.System

/-!
# What each hub method does to the tables

One description per method, in terms of lookups: which session records change
and how, and which leases. The invariants of the hub are derived from these
and never unfold a method again.

Most methods rewrite one session record in place; `updateSession` is that
rewriting, and `sessions_detachRoute`, `sessions_removeSession` and the rest
say which rewriting it is. A route is described by its subscribers: a route
that is missing has none, so dropping an empty one changes nothing.
-/

namespace Masterserver.Hub

open Lib

variable {hub : Hub}

/-! ## One record rewritten -/

theorem get?_updateSession (sid s : String) (f : Session → Session) :
    (hub.updateSession sid f).sessions.get? s =
      if s = sid then (hub.sessions.get? s).map f else hub.sessions.get? s := by
  unfold updateSession
  cases hs : hub.sessions.get? sid with
  | none =>
      by_cases h : s = sid
      · subst h; simp [hs]
      · simp [h]
  | some sess =>
      by_cases h : s = sid
      · subst h; simp [hs]
      · simp [Dict.get?_set, h]

@[simp] theorem routes_updateSession (sid : String) (f : Session → Session) :
    (hub.updateSession sid f).routes = hub.routes := by
  unfold updateSession; split <;> rfl

@[simp] theorem writers_updateSession (sid : String) (f : Session → Session) :
    (hub.updateSession sid f).writers = hub.writers := by
  unfold updateSession; split <;> rfl

@[simp] theorem outboundQueuedBytes_updateSession (sid : String) (f : Session → Session) :
    (hub.updateSession sid f).outboundQueuedBytes = hub.outboundQueuedBytes := by
  unfold updateSession; split <;> rfl

@[simp] theorem rateLimiter_updateSession (sid : String) (f : Session → Session) :
    (hub.updateSession sid f).rateLimiter = hub.rateLimiter := by
  unfold updateSession; split <;> rfl

@[simp] theorem seen_updateSession (sid : String) (f : Session → Session) :
    (hub.updateSession sid f).seen = hub.seen := by
  unfold updateSession; split <;> rfl

/-! ## Leases -/

/-- `sid` has an entry in the lease table of `rid`, expired or not. -/
def Subscribed (hub : Hub) (rid sid : String) : Prop :=
  (hub.routes.getD rid ∅).contains sid = true

instance (hub : Hub) (rid sid : String) : Decidable (hub.Subscribed rid sid) :=
  inferInstanceAs (Decidable (_ = true))

theorem subscribed_iff {rid sid : String} :
    hub.Subscribed rid sid ↔
      ∃ route expiresAt, hub.routes.get? rid = some route ∧ route.get? sid = some expiresAt := by
  unfold Subscribed Dict.getD
  cases hub.routes.get? rid with
  | none => simp
  | some route => simp [Dict.contains_iff]

/-- No route without subscribers is kept. -/
def NoEmptyRoute (hub : Hub) : Prop :=
  ∀ rid route, hub.routes.get? rid = some route → route.size ≠ 0

theorem subscribed_storeRoute (rid : String) (route : Dict String Seconds) (r s : String) :
    (hub.storeRoute rid route).Subscribed r s ↔
      if r = rid then route.contains s = true else hub.Subscribed r s := by
  unfold storeRoute Subscribed Dict.getD
  by_cases hsize : route.size = 0
  · have hempty := Dict.size_eq_zero.mp hsize
    subst hempty
    by_cases h : r = rid <;> simp [h, Dict.get?_erase]
  · by_cases h : r = rid <;> simp [hsize, h, Dict.get?_set]

theorem noEmptyRoute_storeRoute (h : hub.NoEmptyRoute) (rid : String)
    (route : Dict String Seconds) : (hub.storeRoute rid route).NoEmptyRoute := by
  intro r route' hr
  unfold storeRoute at hr
  simp only at hr
  split at hr
  · exact h r route' (Dict.get?_erase_eq_some.mp hr).2
  · next hsize =>
      rw [Dict.get?_set] at hr
      split at hr
      · cases hr; exact hsize
      · exact h r route' hr

@[simp] theorem sessions_storeRoute (rid : String) (route : Dict String Seconds) :
    (hub.storeRoute rid route).sessions = hub.sessions := rfl

@[simp] theorem writers_storeRoute (rid : String) (route : Dict String Seconds) :
    (hub.storeRoute rid route).writers = hub.writers := rfl

@[simp] theorem outboundQueuedBytes_storeRoute (rid : String) (route : Dict String Seconds) :
    (hub.storeRoute rid route).outboundQueuedBytes = hub.outboundQueuedBytes := rfl

theorem subscribed_congr {hub' : Hub} (h : hub'.routes = hub.routes) (r s : String) :
    hub'.Subscribed r s ↔ hub.Subscribed r s := by
  unfold Subscribed; rw [h]

theorem noEmptyRoute_congr {hub' : Hub} (h : hub'.routes = hub.routes) :
    hub'.NoEmptyRoute ↔ hub.NoEmptyRoute := by
  unfold NoEmptyRoute; rw [h]

/-! ## Detaching -/

/-- The route table half of `detachRoute`. -/
def dropLease (hub : Hub) (sid rid : String) : Hub :=
  match hub.routes.get? rid with
  | none => hub
  | some route => hub.storeRoute rid (route.erase sid)

theorem detachRoute_eq (sid rid : String) :
    hub.detachRoute sid rid = (hub.dropLease sid rid).discardRoute rid sid := rfl

@[simp] theorem sessions_dropLease (sid rid : String) :
    (hub.dropLease sid rid).sessions = hub.sessions := by
  unfold dropLease; split <;> rfl

@[simp] theorem writers_dropLease (sid rid : String) :
    (hub.dropLease sid rid).writers = hub.writers := by
  unfold dropLease; split <;> rfl

@[simp] theorem outboundQueuedBytes_dropLease (sid rid : String) :
    (hub.dropLease sid rid).outboundQueuedBytes = hub.outboundQueuedBytes := by
  unfold dropLease; split <;> rfl

@[simp] theorem rateLimiter_dropLease (sid rid : String) :
    (hub.dropLease sid rid).rateLimiter = hub.rateLimiter := by
  unfold dropLease; split <;> rfl

theorem subscribed_detachRoute (sid rid r s : String) :
    (hub.detachRoute sid rid).Subscribed r s ↔
      hub.Subscribed r s ∧ ¬ (r = rid ∧ s = sid) := by
  rw [detachRoute_eq, discardRoute, subscribed_congr (routes_updateSession _ _)]
  unfold dropLease
  cases hr : hub.routes.get? rid with
  | none =>
      refine ⟨fun h => ⟨h, ?_⟩, And.left⟩
      rintro ⟨rfl, -⟩
      unfold Subscribed Dict.getD at h
      simp [hr] at h
  | some route =>
      simp only [subscribed_storeRoute]
      by_cases h : r = rid
      · subst h
        simp [Subscribed, Dict.getD, hr, Dict.contains_erase, and_comm]
      · simp [h]

theorem noEmptyRoute_detachRoute (h : hub.NoEmptyRoute) (sid rid : String) :
    (hub.detachRoute sid rid).NoEmptyRoute := by
  rw [detachRoute_eq, discardRoute, noEmptyRoute_congr (routes_updateSession _ _)]
  unfold dropLease
  split
  · exact h
  · exact noEmptyRoute_storeRoute h _ _

/-! ## Removing a session

The session is gone before its routes are detached, so the loop only touches
the route table. -/

/-- `remove_session` after the pop: the detach loop. -/
def detachAll (hub : Hub) (sid : String) (rids : List String) : Hub :=
  rids.foldl (fun hub rid => hub.detachRoute sid rid) hub

theorem sessions_detachAll {sid : String} (hgone : hub.sessions.get? sid = none)
    (rids : List String) : (hub.detachAll sid rids).sessions = hub.sessions := by
  have hstep : ∀ (h : Hub) (rid : String), h.sessions.get? sid = none →
      (h.detachRoute sid rid).sessions = h.sessions := by
    intro h rid hnone
    rw [detachRoute_eq, discardRoute, updateSession, sessions_dropLease, hnone]
    exact sessions_dropLease sid rid
  refine foldl_invariant (P := fun h : Hub => h.sessions = hub.sessions) rids rfl ?_
  intro h rid _ heq
  rw [hstep h rid (by rw [heq]; exact hgone), heq]

theorem subscribed_detachAll (sid : String) (rids : List String) (r s : String) :
    (hub.detachAll sid rids).Subscribed r s ↔
      hub.Subscribed r s ∧ ¬ (s = sid ∧ r ∈ rids) := by
  induction rids generalizing hub with
  | nil => simp [detachAll]
  | cons rid rest ih =>
      have hcons : hub.detachAll sid (rid :: rest) =
          (hub.detachRoute sid rid).detachAll sid rest := rfl
      rw [hcons, ih, subscribed_detachRoute, List.mem_cons]
      tauto

theorem noEmptyRoute_detachAll (h : hub.NoEmptyRoute) (sid : String) (rids : List String) :
    (hub.detachAll sid rids).NoEmptyRoute :=
  foldl_invariant rids h fun _ rid _ hb => noEmptyRoute_detachRoute hb sid rid

theorem writers_detachAll (sid : String) (rids : List String) :
    (hub.detachAll sid rids).writers = hub.writers :=
  foldl_invariant (P := fun h : Hub => h.writers = hub.writers) rids rfl fun h rid _ heq => by
    rw [detachRoute_eq, discardRoute, writers_updateSession, writers_dropLease, heq]

theorem removeSessionBy_of_none (clamp : Int → Int) {sid : String}
    (h : hub.sessions.get? sid = none) : hub.removeSessionBy clamp sid = hub := by
  unfold removeSessionBy; rw [h]

theorem removeSessionBy_of_some (clamp : Int → Int) {sid : String} {sess : Session}
    (h : hub.sessions.get? sid = some sess) :
    hub.removeSessionBy clamp sid =
      let hub' := detachAll { hub with
        sessions := hub.sessions.erase sid
        outboundQueuedBytes := clamp (hub.outboundQueuedBytes - sess.outboundBytes) }
        sid (sorted sess.routes)
      { hub' with rateLimiter := hub'.rateLimiter.dropSession sid } := by
  unfold removeSessionBy; rw [h]; rfl

theorem sessions_removeSessionBy (clamp : Int → Int) (sid : String) :
    (hub.removeSessionBy clamp sid).sessions = hub.sessions.erase sid := by
  cases hs : hub.sessions.get? sid with
  | none => rw [removeSessionBy_of_none clamp hs, Dict.erase_of_get?_eq_none hs]
  | some sess =>
      rw [removeSessionBy_of_some clamp hs]
      exact sessions_detachAll (Dict.get?_erase_self _ _) _

theorem writers_removeSessionBy (clamp : Int → Int) (sid : String) :
    (hub.removeSessionBy clamp sid).writers = hub.writers := by
  cases hs : hub.sessions.get? sid with
  | none => rw [removeSessionBy_of_none clamp hs]
  | some sess =>
      rw [removeSessionBy_of_some clamp hs]
      exact writers_detachAll _ _

theorem subscribed_removeSessionBy (clamp : Int → Int) {sid : String} {sess : Session}
    (hs : hub.sessions.get? sid = some sess) (r s : String) :
    (hub.removeSessionBy clamp sid).Subscribed r s ↔
      hub.Subscribed r s ∧ ¬ (s = sid ∧ r ∈ sess.routes) := by
  rw [removeSessionBy_of_some clamp hs]
  refine (subscribed_detachAll sid _ r s).trans ?_
  rw [mem_sorted]
  rfl

theorem noEmptyRoute_removeSessionBy (clamp : Int → Int) (h : hub.NoEmptyRoute) (sid : String) :
    (hub.removeSessionBy clamp sid).NoEmptyRoute := by
  cases hs : hub.sessions.get? sid with
  | none => rw [removeSessionBy_of_none clamp hs]; exact h
  | some sess =>
      rw [removeSessionBy_of_some clamp hs]
      have hrest : { hub with
          sessions := hub.sessions.erase sid
          outboundQueuedBytes := clamp (hub.outboundQueuedBytes - sess.outboundBytes) :
        Hub }.NoEmptyRoute := h
      exact noEmptyRoute_detachAll hrest _ _

theorem writers_pruneStaleSessionsBy (clamp : Int → Int) (c : Config) (now : Seconds) :
    (hub.pruneStaleSessionsBy clamp c now).writers = hub.writers :=
  foldl_invariant (P := fun h : Hub => h.writers = hub.writers) (hub.staleSessions c now) rfl
    fun h sid _ heq => by rw [writers_removeSessionBy, heq]

theorem writers_pruneRoute (now : Seconds) (rid : String) :
    (hub.pruneRoute now rid).writers = hub.writers := by
  unfold pruneRoute
  split
  · rfl
  · exact foldl_invariant (P := fun h : Hub => h.writers = hub.writers) _ rfl
      fun h sid _ heq => by rw [discardRoute, writers_updateSession, heq]

theorem writers_pruneRoutes (now : Seconds) : (hub.pruneRoutes now).writers = hub.writers :=
  foldl_invariant (P := fun h : Hub => h.writers = hub.writers) hub.routes.keys rfl
    fun h rid _ heq => by rw [writers_pruneRoute, heq]

/-! ## Attaching and heartbeats -/

theorem attachRoute_cases (hub : Hub) (c : Config) (now : Seconds) (sid rid : String)
    (ttl : Option Seconds) (limit : Option Int) :
    (∃ e, hub.attachRoute c now sid rid ttl limit = (hub, some e)) ∨
    ∃ sess, hub.sessions.get? sid = some sess ∧
      (rid ∈ sess.routes ∨ (sess.routes.card : Int) < limit.getD c.maxRoutesPerSession) ∧
      hub.attachRoute c now sid rid ttl limit =
        ({ hub with
            routes := hub.routes.set rid
              ((hub.routes.getD rid ∅).set sid (now + ttl.getD c.routeLeaseSeconds))
            sessions := hub.sessions.set sid
              { sess with routes := insert rid sess.routes } }, none) := by
  unfold attachRoute
  cases hs : hub.sessions.get? sid with
  | none => exact .inl ⟨_, rfl⟩
  | some sess =>
      simp only
      split
      · exact .inl ⟨_, rfl⟩
      · next hlim =>
          refine .inr ⟨sess, rfl, ?_, rfl⟩
          rw [not_and_or, not_not, not_le] at hlim
          exact hlim

theorem heartbeatRoute_cases (hub : Hub) (c : Config) (now : Seconds) (sid rid : String)
    (ttl : Option Seconds) :
    hub.heartbeatRoute c now sid rid ttl = (hub, false) ∨
    ∃ route, hub.routes.get? rid = some route ∧ route.contains sid = true ∧
      hub.heartbeatRoute c now sid rid ttl =
        ({ hub with
            routes := hub.routes.set rid
              (route.set sid (now + ttl.getD c.routeLeaseSeconds)) }, true) := by
  unfold heartbeatRoute
  cases hr : hub.routes.get? rid with
  | none => exact .inl rfl
  | some route =>
      simp only
      split
      · next hc => exact .inr ⟨route, rfl, hc, rfl⟩
      · exact .inl rfl

/-! ## The outbound queue -/

theorem sendSession_cases (hub : Hub) (c : Config) (sid : String) (data : Json) :
    hub.sendSession c sid data = (hub, false) ∨
    ∃ sess, hub.sessions.get? sid = some sess ∧
      sess.outboundQueue.length < c.outboundQueueFrames ∧
      sess.outboundBytes + encodedBytes data ≤ c.outboundQueueBytes ∧
      hub.sendSession c sid data =
        ({ hub with
            sessions := hub.sessions.set sid
              { sess with
                outboundQueue := sess.outboundQueue ++ [⟨data, encodedBytes data, rfl⟩]
                outboundBytes := sess.outboundBytes + encodedBytes data }
            outboundQueuedBytes := hub.outboundQueuedBytes + encodedBytes data
            writers := startWriter hub.writers sid }, true) := by
  unfold sendSession
  cases hs : hub.sessions.get? sid with
  | none => exact .inl rfl
  | some sess =>
      simp only
      split
      · exact .inl rfl
      · next hfull =>
          rw [not_or, not_le, not_lt] at hfull
          exact .inr ⟨sess, rfl, hfull.1, hfull.2, rfl⟩

theorem writerDequeue_cases (hub : Hub) (sid : String) :
    hub.writerDequeue sid = hub ∨
    ∃ sess frame rest, hub.writers.get? sid = some .waiting ∧
      hub.sessions.get? sid = some sess ∧ sess.outboundQueue = frame :: rest ∧
      hub.writerDequeue sid =
        { hub with
          sessions := hub.sessions.set sid { sess with outboundQueue := rest }
          writers := hub.writers.set sid (.sending frame) } := by
  unfold writerDequeue
  split
  · next sess hw hs =>
      split
      · exact .inl rfl
      · next frame rest hq => exact .inr ⟨sess, frame, rest, hw, hs, hq, rfl⟩
  · exact .inl rfl

theorem writerSentBy_cases (hub : Hub) (clamp : Int → Int) (sid : String) :
    hub.writerSentBy clamp sid = hub ∨
    ∃ frame next, hub.writers.get? sid = some (.sending frame) ∧
      (∀ f, next ≠ .sending f) ∧
      hub.writerSentBy clamp sid =
        { hub.releaseFrameBy clamp sid frame with writers := hub.writers.set sid next } := by
  unfold writerSentBy
  split
  · next frame hw =>
      refine .inr ⟨frame, _, hw, ?_, rfl⟩
      intro f
      split <;> exact Writer.noConfusion
  · exact .inl rfl

theorem writerFailedBy_cases (hub : Hub) (clamp : Int → Int) (sid : String) :
    hub.writerFailedBy clamp sid = hub ∨
    (∃ w, hub.writers.get? sid = some w ∧ hub.sessions.contains sid = false ∧
      hub.writerFailedBy clamp sid = { hub with writers := hub.writers.set sid .done }) ∨
    ∃ frame, hub.writers.get? sid = some (.sending frame) ∧
      hub.writerFailedBy clamp sid =
        { hub.releaseFrameBy clamp sid frame with writers := hub.writers.set sid .done } := by
  unfold writerFailedBy
  split
  · next frame hw => exact .inr (.inr ⟨frame, hw, rfl⟩)
  · next hw =>
      split
      · exact .inl rfl
      · next hc => exact .inr (.inl ⟨_, hw, by simpa using hc, rfl⟩)
  · exact .inl rfl

theorem releaseFrameBy_of_none (clamp : Int → Int) {sid : String} (frame : Frame)
    (h : hub.sessions.get? sid = none) : hub.releaseFrameBy clamp sid frame = hub := by
  unfold releaseFrameBy; rw [h]

theorem releaseFrameBy_of_some (clamp : Int → Int) {sid : String} (frame : Frame)
    {sess : Session} (h : hub.sessions.get? sid = some sess) :
    hub.releaseFrameBy clamp sid frame =
      { hub with
        sessions := hub.sessions.set sid
          { sess with outboundBytes := clamp (sess.outboundBytes - frame.size) }
        outboundQueuedBytes := clamp (hub.outboundQueuedBytes - frame.size) } := by
  unfold releaseFrameBy; rw [h]

/-! ## Dedupe -/

theorem checkAndMarkSeen_hub (hub : Hub) (c : Config) (now : Seconds) (key : String) (ttl : Seconds) :
    ∃ seen, (hub.checkAndMarkSeen c now key ttl).1 = { hub with seen := seen } := by
  unfold checkAndMarkSeen
  split
  · split
    · exact ⟨_, rfl⟩
    · exact ⟨_, rfl⟩
  · by_cases hcap : c.maxDedupeEntries ≤ hub.seen.size
    · simp only [if_pos hcap]
      split <;> exact ⟨_, rfl⟩
    · simp only [if_neg hcap]
      exact ⟨_, rfl⟩

/-- A `HELLO` that is accepted writes the record of its session, and the routes
stay what they were. -/
theorem setV2Identity_eq_some {cr : Crypto} {hub' : Hub}
    {sid identityKeyHex encryptionKeyHex : String}
    (h : hub.setV2Identity cr sid identityKeyHex encryptionKeyHex = some hub') :
    ∃ sess sess' : Session, hub.sessions.get? sid = some sess ∧ sess'.routes = sess.routes ∧
      hub' = { hub with sessions := hub.sessions.set sid sess' } := by
  unfold setV2Identity at h
  simp only [Option.bind_eq_bind, Option.bind_eq_some_iff] at h
  obtain ⟨sess, hs, _, -, _, -, heq⟩ := h
  refine ⟨sess, _, hs, ?_, (Option.some.inj heq).symm⟩
  rfl

end Masterserver.Hub
