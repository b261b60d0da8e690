import Masterserver.Proofs.Lookups

/-!
# Buckets and their sessions

A bucket is made when an operation is first checked and goes when its session
is removed. While the session is there nothing is left over: handlers only
check their own session's operations, and whoever removes the session takes its
buckets along.

But a frame is charged before the loop asks for the session. If the session was
pruned while its loop waited, the frame makes a bucket for a session that is
gone, and the loop's own removal finds nothing to remove. So the law holds in
the runs in which every frame that is charged finds its session.
-/

namespace Masterserver

open Lib Protocol Hub

variable {m : MeshConfig} {cr : Crypto} {trust : NodeTrust}

namespace Hub

variable {hub hub' hub'' : Hub} {sid : String} {c : Config} {now : Seconds}

/-- Every bucket is that of a session. -/
def Tidy (hub : Hub) : Prop :=
  ∀ sid op bucket, hub.rateLimiter.buckets.get? (sid, op) = some bucket →
    hub.sessions.contains sid = true

/-- Every bucket was there before or is the session's, and no session is gone. -/
structure Adds (sid : String) (hub hub' : Hub) : Prop where
  buckets : ∀ other op bucket', hub'.rateLimiter.buckets.get? (other, op) = some bucket' →
    other = sid ∨ ∃ bucket, hub.rateLimiter.buckets.get? (other, op) = some bucket
  holds : ∀ other, Holds other hub hub'

theorem Adds.of_rateLimiter (hl : hub'.rateLimiter = hub.rateLimiter)
    (h : ∀ other, Holds other hub hub') : Adds sid hub hub' := by
  refine ⟨fun other op bucket' hbucket => .inr ⟨bucket', ?_⟩, h⟩
  rw [← hl]
  exact hbucket

theorem Adds.refl (sid : String) (hub : Hub) : Adds sid hub hub :=
  .of_rateLimiter rfl fun _ => .refl

theorem Adds.trans (h : Adds sid hub hub') (h' : Adds sid hub' hub'') : Adds sid hub hub'' where
  buckets other op bucket'' hbucket'' := by
    obtain hsid | ⟨bucket', hbucket'⟩ := h'.buckets other op bucket'' hbucket''
    · exact .inl hsid
    · exact h.buckets other op bucket' hbucket'
  holds other := (h.holds other).trans (h'.holds other)

theorem adds_checkRate (now : Seconds) (sid : String) (op : Operation) :
    Adds sid hub (hub.checkRate now sid op).1 := by
  refine ⟨fun other op' bucket' hbucket => ?_, fun _ => .of_sessions rfl⟩
  by_cases hkey : (other, op') = (sid, op)
  · exact .inl (congrArg Prod.fst hkey)
  · refine .inr ⟨bucket', ?_⟩
    rw [← hbucket]
    exact (Dict.get?_set_of_ne _ _ hkey).symm

theorem Admits.adds (h : hub.Admits now sid hub') : Adds sid hub hub' := by
  cases h with
  | free => exact .refl sid hub
  | rated => exact adds_checkRate now sid .message
  | counted =>
      exact (adds_checkRate now sid .message).trans (.of_rateLimiter rfl fun _ => .of_sessions rfl)

theorem Acts.adds (h : Acts c now sid hub hub') : Adds sid hub hub' := by
  induction h with
  | refl => exact .refl sid hub
  | rate _ _ ih => exact ih.trans (adds_checkRate now sid _)
  | record _ _ ih =>
      exact ih.trans (.of_rateLimiter (rateLimiter_updateSession _ _)
        fun _ => holds_updateSession sid _)
  | @attach hub₁ _ rid ttl limit ih =>
      have hattach : Acts c now sid hub₁ (hub₁.attachRoute c now sid rid ttl limit).1 :=
        Acts.refl.attach rid ttl limit
      refine ih.trans (.of_rateLimiter ?_ fun _ => hattach.holds)
      obtain ⟨error, heq⟩ | ⟨sess, -, -, heq⟩ := attachRoute_cases hub₁ c now sid rid ttl limit
      · rw [heq]
      · rw [heq]
  | detach _ rid ih =>
      refine ih.trans (.of_rateLimiter ?_ fun _ => holds_detachRoute sid rid)
      rw [detachRoute_eq, discardRoute, rateLimiter_updateSession, rateLimiter_dropLease]
  | @seen hub₁ _ key ttl ih =>
      obtain ⟨seen, heq⟩ := checkAndMarkSeen_hub hub₁ c now key ttl
      rw [heq]
      exact ih.trans (.of_rateLimiter rfl fun _ => .of_sessions rfl)
  | @send hub₁ _ target data ih =>
      have hsend : Acts c now sid hub₁ (hub₁.sendSession c target data).1 :=
        Acts.refl.send target data
      refine ih.trans (.of_rateLimiter ?_ fun _ => hsend.holds)
      obtain heq | ⟨sess, -, -, -, heq⟩ := sendSession_cases hub₁ c target data
      · rw [heq]
      · rw [heq]

theorem Tidy.adds (h : hub.Tidy) (ha : Adds sid hub hub')
    (hpresent : hub.sessions.contains sid = true) : hub'.Tidy := by
  intro other op bucket' hbucket'
  obtain rfl | ⟨bucket, hbucket⟩ := ha.buckets other op bucket' hbucket'
  · exact ha.holds other hpresent
  · exact ha.holds other (h other op bucket hbucket)

/-- What could have been done for any session was done for none. -/
theorem Tidy.adds_all (h : hub.Tidy) (ha : ∀ sid, Adds sid hub hub') : hub'.Tidy := by
  intro other op bucket' hbucket'
  have hne : other ≠ other.push 'x' := by
    intro heq
    have hlength := congrArg String.length heq
    rw [String.length_push] at hlength
    omega
  obtain heq | ⟨bucket, hbucket⟩ := (ha (other.push 'x')).buckets other op bucket' hbucket'
  · exact absurd heq hne
  · exact (ha other).holds other (h other op bucket hbucket)

theorem Tidy.of_rateLimiter (h : hub.Tidy) (hl : hub'.rateLimiter = hub.rateLimiter)
    (hholds : ∀ other, Holds other hub hub') : hub'.Tidy :=
  h.adds_all fun _ => .of_rateLimiter hl hholds

theorem tidy_removeSession (h : hub.Tidy) (sid : String) : (hub.removeSession sid).Tidy := by
  intro other op bucket hbucket
  by_cases hsid : other = sid
  · subst hsid
    cases hs : hub.sessions.get? other with
    | none =>
        rw [removeSession, removeSessionBy_of_none clamp hs] at hbucket ⊢
        exact h other op bucket hbucket
    | some sess =>
        rw [removeSession, bucket_removeSessionBy clamp hs op] at hbucket
        cases hbucket
  · rw [removeSession, rateLimiter_removeSessionBy clamp op hsid] at hbucket
    exact holds_removeSession hsid (h other op bucket hbucket)

/-- The operations there are buckets for. -/
def operations : List Operation :=
  [.message, .attachRoute, .signal, .signalV2, .forward, .discover, .heartbeat, .prove]

theorem mem_operations (op : Operation) : op ∈ operations := by
  cases op <;> decide

theorem Tidy.size_le (h : hub.Tidy) :
    hub.rateLimiter.buckets.size ≤ 8 * hub.sessions.size := by
  have hkeys : hub.rateLimiter.buckets.keys ⊆ hub.sessions.keys ×ˢ operations := by
    rintro ⟨sid, op⟩ hkey
    obtain ⟨bucket, hbucket⟩ := Dict.mem_keys.mp hkey
    exact List.mem_product.mpr
      ⟨Dict.mem_keys.mpr (Dict.contains_iff.mp (h sid op bucket hbucket)), mem_operations op⟩
  have hsize := Dict.size_le_of_keys_subset hkeys
  rw [List.length_product, Dict.size_keys, show operations.length = 8 from rfl] at hsize
  omega

theorem tidy_pruneStaleSessions (h : hub.Tidy) (c : Config) (now : Seconds) :
    (hub.pruneStaleSessions c now).Tidy :=
  foldl_invariant (P := Tidy) (hub.staleSessions c now) h
    fun _ sid _ h' => tidy_removeSession h' sid

end Hub

/-! ## Runs -/

namespace ServerRun

variable {s : ServerRun} {e : ServerEvent} {sid : String}

/-- A frame that comes to a waiting loop and is charged finds its session. -/
def FindsSession (m : MeshConfig) (s : ServerRun) (e : ServerEvent) : Prop :=
  match e.op with
  | .frame sid raw _ => ∀ conn, s.connections.get? sid = some conn →
      isReceiving conn.phase = true → String.utf8Len raw ≤ m.maxFrameBytes →
        s.server.hub.sessions.contains sid = true
  | _ => True

instance : Decidable (FindsSession m s e) :=
  match e with
  | ⟨_, .frame sid raw _⟩ => inferInstanceAs <| Decidable <|
      ∀ conn ∈ s.connections.get? sid, isReceiving conn.phase = true →
        String.utf8Len raw ≤ m.maxFrameBytes → s.server.hub.sessions.contains sid = true
  | ⟨_, .connect _ _⟩ | ⟨_, .loop _⟩ | ⟨_, .timeout _⟩ | ⟨_, .disconnect _⟩ | ⟨_, .ask _ _⟩
  | ⟨_, .answered _ _ _⟩ | ⟨_, .resume _ _⟩ | ⟨_, .finish _⟩ | ⟨_, .pruneRoutes⟩
  | ⟨_, .pruneStaleSessions⟩ | ⟨_, .pruneDedupe⟩ | ⟨_, .writerDequeue _⟩ | ⟨_, .writerSent _⟩
  | ⟨_, .writerFailed _⟩ | ⟨_, .linkUp _ _⟩ | ⟨_, .linkDown _⟩ | ⟨_, .nodeFrame _ _⟩
  | ⟨_, .rebalance _⟩ | ⟨_, .membershipTick⟩ => isTrue trivial

/-- An oversized frame is answered, and that is all. -/
theorem hub_received_oversized (conn : Connection) {raw : List Char} (draws : Draws) (now : Clocks)
    (hsize : m.maxFrameBytes < String.utf8Len raw) :
    (s.received m cr trust now sid conn raw draws).server.hub = s.server.hub := by
  unfold received
  cases conn.endpoint with
  | v1 =>
      simp only [V1.receiveFrame, Server.admitFrame, if_pos hsize]
      rfl
  | v2 =>
      simp only [V2.receiveFrame, Server.admitFrame, if_pos hsize]
      rfl

theorem tidy_received (h : s.server.hub.Tidy) (conn : Connection) (raw : List Char) (draws : Draws)
    (now : Clocks) (hpresent : String.utf8Len raw ≤ m.maxFrameBytes →
      s.server.hub.sessions.contains sid = true) :
    (s.received m cr trust now sid conn raw draws).server.hub.Tidy := by
  rcases Nat.lt_or_ge m.maxFrameBytes (String.utf8Len raw) with hsize | hsize
  · rw [hub_received_oversized conn draws now hsize]
    exact h
  · obtain ⟨hub, hadmits, hacts⟩ := acts_received m cr trust s now sid conn raw draws
    exact h.adds (hadmits.adds.trans hacts.adds) (hpresent hsize)

theorem tidy_clientEvent (h : s.server.hub.Tidy) {conn : Connection} {op : ServerOp} {now : Clocks}
    (hconn : s.connections.get? sid = some conn) (hclient : op.client? = some sid)
    (hfinds : FindsSession m s ⟨now, op⟩) :
    (s.clientEvent m cr trust now sid conn op).server.hub.Tidy := by
  by_cases hframe : ∃ raw draws, op = .frame sid raw draws
  · obtain ⟨raw, draws, rfl⟩ := hframe
    simp only [clientEvent]
    split
    · next hphase => exact tidy_received h conn raw draws now (hfinds conn hconn hphase)
    · exact h
  · obtain hacts | hgone := acts_clientEvent m cr trust s conn now
      (fun raw draws heq => hframe ⟨raw, draws, heq⟩) hclient
    · exact h.adds_all fun other => (hacts other).adds
    · rw [hgone]
      exact tidy_removeSession h sid

theorem tidy_serverEvent (h : s.server.hub.Tidy) (now : Clocks) (op : ServerOp) :
    (s.serverEvent m cr now op).server.hub.Tidy := by
  cases op with
  | connect endpoint other =>
      refine h.of_rateLimiter ?_ fun _ => holds_serverEvent now nofun
      simp only [serverEvent, connect]
      split <;> rfl
  | pruneStaleSessions => exact tidy_pruneStaleSessions h m.toConfig now.monotonic
  | pruneRoutes => exact h.of_rateLimiter (rateLimiter_pruneRoutes _ _) fun _ => holds_pruneRoutes _
  | writerDequeue other =>
      exact h.of_rateLimiter (rateLimiter_writerDequeue _ _) fun _ => holds_writerDequeue other
  | writerSent other =>
      exact h.of_rateLimiter (rateLimiter_writerSent _ _) fun _ => holds_writerSent other
  | writerFailed other =>
      exact h.of_rateLimiter (rateLimiter_writerFailed _ _) fun _ => holds_writerFailed other
  | nodeFrame socket raw =>
      simp only [serverEvent, nodeFrame]
      split
      · exact h
      next link _ =>
      have htidy := h.adds_all fun other =>
        (Server.acts_receiveNodeFrame m cr now link.nodeId socket link.bucket raw s.server
          other).adds
      split
      · exact htidy
      · rw [hub_linkDown]
        exact htidy
  | linkUp nodeId socket =>
      simp only [serverEvent, linkUp]
      split <;> exact h
  | linkDown socket =>
      rw [serverEvent, hub_linkDown]
      exact h
  | rebalance index =>
      rw [serverEvent, hub_rebalance]
      exact h
  | _ => exact h.of_rateLimiter rfl fun _ => .of_sessions rfl

theorem tidy_after (h : s.server.hub.Tidy) (hfinds : FindsSession m s e) :
    (s.after m cr trust e).server.hub.Tidy := by
  obtain ⟨now, op⟩ := e
  unfold ServerRun.after ServerRun.apply
  cases hclient : op.client? with
  | none => exact tidy_serverEvent h now op
  | some sid =>
      simp only
      cases hconn : s.connections.get? sid with
      | none => exact h
      | some conn => exact tidy_clientEvent h hconn hclient hfinds

theorem tidy_of_reachable (h : ((serverSystem m cr trust).restrict (FindsSession m)).Reachable s) :
    s.server.hub.Tidy := by
  refine h.invariant (P := fun s => s.server.hub.Tidy) ?_ fun s e s' hs hstep => ?_
  · rintro s ⟨incarnation, clocks, rfl⟩ sid op bucket hbucket
    cases hbucket
  · obtain ⟨hfinds, -, rfl⟩ := hstep
    exact tidy_after hs hfinds

/-- In every run in which a frame that is charged finds its session, no bucket
is left over when the session's handler has finished, and there are at most
eight buckets to a session. -/
theorem no_bucket_left_over
    (h : ((serverSystem m cr trust).restrict (FindsSession m)).Reachable s) :
    (∀ sid op, s.connections.get? sid = none →
      s.server.hub.rateLimiter.buckets.get? (sid, op) = none) ∧
      s.server.hub.rateLimiter.buckets.size ≤ 8 * s.server.hub.sessionCount := by
  have htidy := tidy_of_reachable h
  have hsound : Sound m cr trust s := sound_of_reachable h.of_restrict
  refine ⟨fun sid op hfinished => ?_, htidy.size_le⟩
  cases hbucket : s.server.hub.rateLimiter.buckets.get? (sid, op) with
  | none => rfl
  | some bucket =>
      obtain ⟨sess, hs⟩ := Dict.contains_iff.mp (htidy sid op bucket hbucket)
      obtain ⟨conn, hconn⟩ := hsound.connected sid sess hs
      rw [hfinished] at hconn
      cases hconn

end ServerRun

namespace Sample

/-- A client sends something, and leaves. -/
def shortVisit : List ServerEvent :=
  [event 0 (.connect .v1 "s"), event 0 (.loop "s"), event 1 (.frame "s" ['x'] draws),
    event 1 (.disconnect "s"), event 1 (.finish "s"), event 1 (.finish "s")]

/-- A client is silent until it is pruned. Then it sends something, and the
loop finds its session gone. -/
def lateFrame (endpoint : Endpoint) : List ServerEvent :=
  [event 0 (.connect endpoint "s"), event 0 (.loop "s"), event 100 .pruneStaleSessions,
    event 100 (.frame "s" ['x'] draws), event 100 (.loop "s"), event 100 (.finish "s"),
    event 100 (.finish "s")]

/-- Whether the handler has finished, and whether there is a bucket for its
session's frames. -/
def leftOver (s : ServerRun) : Bool × Bool :=
  ((s.connections.get? "s").isNone, (s.server.hub.messageBucket "s").isSome)

end Sample

namespace ServerRun

/-- The session's handler has finished, and there is no bucket. -/
theorem no_bucket_left_over_visit :
    (Sample.run .alone Sample.shortVisit).connections.get? "s" = none ∧
      (Sample.run .alone Sample.shortVisit).server.hub.rateLimiter.buckets.get?
        ("s", .message) = none := by
  have hrun : System.Meets (fun s e => (s.clocks.before e.now ∧ s.allowed .alone e.op) ∧
          FindsSession .alone s e)
        (ServerRun.after .alone Sample.crypto Sample.trust) (Sample.start .alone)
        Sample.shortVisit ∧
      ((Sample.run .alone Sample.shortVisit).connections.get? "s").isNone = true := by
    decide +kernel
  obtain ⟨hmeets, hfinished⟩ := hrun
  have hreach : ((serverSystem .alone Sample.crypto Sample.trust).restrict
      (FindsSession .alone)).Reachable (Sample.run .alone Sample.shortVisit) := by
    refine System.Reachable.restrict_restrict (System.reachable_foldl (.start ?_) _ hmeets)
    exact ⟨"", ⟨0, 0⟩, rfl⟩
  have hnone := Option.isNone_iff_eq_none.mp hfinished
  exact ⟨hnone, (no_bucket_left_over hreach).1 "s" .message hnone⟩

/-- At the end of a run the handler has finished, and there is a bucket for its
session's frames. -/
def LeavesBucket (events : List ServerEvent) : Prop :=
  (serverSystem .alone Sample.crypto Sample.trust).Reachable (Sample.run .alone events) ∧
    "s" ∈ (Sample.run .alone events).issued ∧
    (Sample.run .alone events).connections.get? "s" = none ∧
    ∃ bucket, (Sample.run .alone events).server.hub.rateLimiter.buckets.get? ("s", .message) =
      some bucket

theorem leavesBucket_of_meets {events : List ServerEvent}
    (hmeets : System.Meets (fun s e => s.clocks.before e.now ∧ s.allowed .alone e.op)
      (ServerRun.after .alone Sample.crypto Sample.trust) (Sample.start .alone) events)
    (hissued : "s" ∈ (Sample.run .alone events).issued)
    (hleft : Sample.leftOver (Sample.run .alone events) = (true, true)) : LeavesBucket events := by
  obtain ⟨hfinished, hbucket⟩ := Prod.mk.inj hleft
  exact ⟨Sample.reachable_run .alone _ hmeets, hissued, Option.isNone_iff_eq_none.mp hfinished,
    Option.isSome_iff_exists.mp hbucket⟩

/-- On either endpoint, a frame that comes after the pruning leaves a bucket. -/
theorem late_frame_leaves_bucket :
    LeavesBucket (Sample.lateFrame .v1) ∧ LeavesBucket (Sample.lateFrame .v2) := by
  constructor
  · exact leavesBucket_of_meets (by decide +kernel) (by decide +kernel) (by decide +kernel)
  · exact leavesBucket_of_meets (by decide +kernel) (by decide +kernel) (by decide +kernel)

end ServerRun

end Masterserver
