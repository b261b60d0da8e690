import Masterserver.Proofs.Buckets
import Masterserver.Proofs.HubActions
import Masterserver.Proofs.ProofSafety

/-!
# How many frames a connection is served

Every frame that fits is paid for with a token of its session's own bucket
before it is looked at, and nothing else draws from that bucket. So the frames
that are answered or handled, without the connection being closed, stay within
the bucket's rate in every window of time.

Two kinds of frame are served without paying. A frame that is too large is
answered before the bucket is consulted, and when a session was removed while
its loop waited, the bucket went with it and the next frame finds a full one.
-/

namespace Masterserver

open Lib Protocol

namespace Hub

variable {c : Config} {now : Seconds} {hub hub' hub'' : Hub} {sid : String}

/-- The bucket the frames of a session are admitted with. -/
def messageBucket (hub : Hub) (sid : String) : Option TokenBucket :=
  hub.rateLimiter.buckets.get? (sid, .message)

/-- A session does not appear, and what becomes of the bucket of its frames is
that it goes with the session. -/
structure Paced (sid : String) (hub hub' : Hub) : Prop where
  present : ∀ sess', hub'.sessions.get? sid = some sess' →
    ∃ sess, hub.sessions.get? sid = some sess
  bucket : hub'.messageBucket sid = hub.messageBucket sid ∨
    hub'.sessions.get? sid = none ∧ hub'.messageBucket sid = none

theorem Paced.refl (sid : String) (hub : Hub) : Paced sid hub hub :=
  ⟨fun sess h => ⟨sess, h⟩, .inl rfl⟩

theorem Paced.absent (h : Paced sid hub hub') (hnone : hub.sessions.get? sid = none) :
    hub'.sessions.get? sid = none := by
  rw [Option.eq_none_iff_forall_ne_some]
  intro sess' hs'
  obtain ⟨sess, hs⟩ := h.present sess' hs'
  rw [hnone] at hs
  cases hs

theorem Paced.trans (h : Paced sid hub hub') (h' : Paced sid hub' hub'') :
    Paced sid hub hub'' where
  present sess'' hs'' := by
    obtain ⟨sess', hs'⟩ := h'.present sess'' hs''
    exact h.present sess' hs'
  bucket := by
    obtain heq' | hgone' := h'.bucket
    · obtain heq | ⟨hnone, hgone⟩ := h.bucket
      · exact .inl (heq'.trans heq)
      · exact .inr ⟨h'.absent hnone, heq'.trans hgone⟩
    · exact .inr hgone'

theorem Paced.of_quiet (h : hub.Quiet hub') (hl : hub'.rateLimiter = hub.rateLimiter)
    (sid : String) : Paced sid hub hub' where
  present sess' hs' := by
    obtain ⟨sess, hs, -⟩ := (h.quietAt sid).session sess' hs'
    exact ⟨sess, hs⟩
  bucket := .inl (by rw [messageBucket, hl, messageBucket])

theorem paced_updateSession (sid s : String) (f : Session → Session) :
    Paced s hub (hub.updateSession sid f) where
  present sess' hs' := by
    rw [get?_updateSession] at hs'
    split at hs'
    · obtain ⟨sess, hs, -⟩ := Option.map_eq_some_iff.mp hs'
      exact ⟨sess, hs⟩
    · exact ⟨sess', hs'⟩
  bucket := .inl (by rw [messageBucket, rateLimiter_updateSession, messageBucket])

theorem paced_attachRoute (rid s : String) (ttl : Option Seconds) (limit : Option Int) :
    Paced s hub (hub.attachRoute c now sid rid ttl limit).1 := by
  obtain ⟨e, heq⟩ | ⟨sess, hs, -, heq⟩ := attachRoute_cases hub c now sid rid ttl limit
  · rw [heq]
    exact .refl s hub
  · rw [heq]
    refine ⟨?_, .inl rfl⟩
    intro sess' hs'
    rw [Dict.get?_set] at hs'
    split at hs'
    · next h => exact ⟨sess, h ▸ hs⟩
    · exact ⟨sess', hs'⟩

/-- The bucket of an operation on its own. -/
theorem paced_checkRate {op : Operation} {s : String} (h : (s, Operation.message) ≠ (sid, op)) :
    Paced s hub (hub.checkRate now sid op).1 :=
  ⟨fun sess hs => ⟨sess, hs⟩, .inl (Dict.get?_set_of_ne _ _ h)⟩

/-- What a handler does leaves the buckets of all frames alone. -/
theorem Acts.paced (h : Acts c now sid hub hub') (s : String) : Paced s hub hub' := by
  induction h with
  | refl => exact .refl s hub
  | rate _ hop ih =>
      exact ih.trans (paced_checkRate fun heq => hop (congrArg Prod.snd heq).symm)
  | record _ _ ih => exact ih.trans (paced_updateSession sid s _)
  | attach _ rid ttl limit ih => exact ih.trans (paced_attachRoute rid s ttl limit)
  | detach _ rid ih =>
      refine ih.trans (.of_quiet (quiet_detachRoute sid rid) ?_ s)
      rw [detachRoute_eq, discardRoute, rateLimiter_updateSession, rateLimiter_dropLease]
  | seen _ key ttl ih =>
      refine ih.trans (.of_quiet (quiet_checkAndMarkSeen c now key ttl) ?_ s)
      obtain ⟨seen, heq⟩ := checkAndMarkSeen_hub _ c now key ttl
      rw [heq]
  | send _ target data ih =>
      refine ih.trans (.of_quiet (quiet_sendSession c target data) ?_ s)
      obtain heq | ⟨sess, -, -, -, heq⟩ := sendSession_cases _ c target data
      · rw [heq]
      · rw [heq]

theorem paced_removeSession (sid s : String) : Paced s hub (hub.removeSession sid) where
  present sess' hs' := by
    rw [removeSession, sessions_removeSessionBy] at hs'
    exact ⟨sess', (Dict.get?_erase_eq_some.mp hs').2⟩
  bucket := by
    by_cases hne : s = sid
    · subst hne
      cases hs : hub.sessions.get? s with
      | none =>
          rw [removeSession, removeSessionBy_of_none clamp hs]
          exact .inl rfl
      | some sess =>
          refine .inr ⟨?_, bucket_removeSessionBy clamp hs .message⟩
          rw [removeSession, sessions_removeSessionBy, Dict.get?_erase_self]
    · exact .inl (rateLimiter_removeSessionBy clamp .message hne)

theorem paced_pruneStaleSessions (c : Config) (now : Seconds) (s : String) :
    Paced s hub (hub.pruneStaleSessions c now) :=
  foldl_invariant (P := fun h => Paced s hub h) (hub.staleSessions c now) (.refl s hub)
    fun _ sid _ h => h.trans (paced_removeSession sid s)

theorem rateLimiter_pruneRoutes (hub : Hub) (now : Seconds) :
    (hub.pruneRoutes now).rateLimiter = hub.rateLimiter := by
  refine foldl_invariant (P := fun h : Hub => h.rateLimiter = hub.rateLimiter) hub.routes.keys
    rfl fun h rid _ heq => ?_
  unfold pruneRoute
  split
  · exact heq
  · refine foldl_invariant (P := fun h : Hub => h.rateLimiter = hub.rateLimiter) _ heq ?_
    intro h' sid _ heq'
    rw [discardRoute, rateLimiter_updateSession, heq']

theorem rateLimiter_releaseFrameBy (hub : Hub) (clamp : Int → Int) (sid : String)
    (frame : Frame) : (hub.releaseFrameBy clamp sid frame).rateLimiter = hub.rateLimiter := by
  unfold releaseFrameBy
  split <;> rfl

theorem rateLimiter_writerDequeue (hub : Hub) (sid : String) :
    (hub.writerDequeue sid).rateLimiter = hub.rateLimiter := by
  obtain heq | ⟨sess, frame, rest, -, -, -, heq⟩ := writerDequeue_cases hub sid
  · rw [heq]
  · rw [heq]

theorem rateLimiter_writerSent (hub : Hub) (sid : String) :
    (hub.writerSent sid).rateLimiter = hub.rateLimiter := by
  unfold writerSent
  obtain heq | ⟨frame, next, -, -, heq⟩ := writerSentBy_cases hub clamp sid
  · rw [heq]
  · rw [heq]
    exact rateLimiter_releaseFrameBy hub clamp sid frame

theorem rateLimiter_writerFailed (hub : Hub) (sid : String) :
    (hub.writerFailed sid).rateLimiter = hub.rateLimiter := by
  unfold writerFailed
  obtain heq | ⟨w, -, -, heq⟩ | ⟨frame, -, heq⟩ := writerFailedBy_cases hub clamp sid
  · rw [heq]
  · rw [heq]
  · rw [heq]
    exact rateLimiter_releaseFrameBy hub clamp sid frame

end Hub

open Hub

/-! ## One frame -/

section Admission

variable {c : Config} {error : String → String → Json} {now : Seconds} {sid : String}
variable {raw : List Char} {server : Server}

/-- What the bucket of a session's frames has after the next draw. -/
def drawn (hub : Hub) (now : Seconds) (sid : String) : Bool × TokenBucket :=
  (hub.rateLimiter.bucket now sid .message).tryConsume now 1

/-- A frame was paid for: the session's bucket is drawn from, and if it was
empty the loop ends. -/
structure Paid (now : Seconds) (sid : String) (server : Server) (step : Step) : Prop where
  bucket : ∃ hub, hub.sessions = server.hub.sessions ∧
    hub.messageBucket sid = some (drawn server.hub now sid).2 ∧ Paced sid hub step.server.hub
  ended : (drawn server.hub now sid).1 = false → step.next = .ended

theorem messageBucket_checkRate (hub : Hub) (now : Seconds) (sid : String) :
    (hub.checkRate now sid .message).1.messageBucket sid = some (drawn hub now sid).2 :=
  Dict.get?_set_self _ _ _

/-- Only the limits are charged before a frame is decoded. -/
theorem admitFrame_paid (error : String → String → Json) (now : Seconds) (sid : String)
    (server : Server) (hsize : ¬c.maxFrameBytes < String.utf8Len raw) :
    match server.admitFrame c error now sid raw with
    | .error step => Paid now sid server step
    | .ok (server', _) => server'.hub.sessions = server.hub.sessions ∧
        server'.hub.messageBucket sid = some (drawn server.hub now sid).2 ∧
        (drawn server.hub now sid).1 = true := by
  have hbucket := messageBucket_checkRate server.hub now sid
  have hrate : (server.hub.checkRate now sid .message).2 = (drawn server.hub now sid).1 := rfl
  unfold Server.admitFrame
  rw [if_neg hsize]
  have hconsume : Paced sid (server.hub.checkRate now sid .message).1
      ((server.hub.checkRate now sid .message).1.consumeMessage now).1 :=
    .of_quiet (quiet_consumeMessage now) rfl sid
  cases hdrawn : (drawn server.hub now sid).1 with
  | false =>
      rw [hdrawn] at hrate
      simp only [hrate, Bool.not_false, if_true]
      exact ⟨⟨(server.hub.checkRate now sid .message).1, rfl, hbucket, .refl _ _⟩, fun _ => rfl⟩
  | true =>
      rw [hdrawn] at hrate
      have hpaid : ∀ step : Step,
          step.server.hub = ((server.hub.checkRate now sid .message).1.consumeMessage now).1 →
          Paid now sid server step := by
        intro step hhub
        refine ⟨⟨(server.hub.checkRate now sid .message).1, rfl, hbucket, hhub ▸ hconsume⟩, ?_⟩
        rw [hdrawn]
        exact nofun
      simp only [hrate, Bool.not_true, Bool.false_eq_true, if_false]
      cases ((server.hub.checkRate now sid .message).1.consumeMessage now).2 with
      | false => exact hpaid _ rfl
      | true =>
          simp only [Bool.not_true, Bool.false_eq_true, if_false]
          cases loadsStrict c.jsonLimits raw with
          | error e =>
              cases e with
              | strict => exact hpaid _ rfl
              | unicodeEncode => exact hpaid _ rfl
          | ok data => exact ⟨rfl, hbucket, trivial⟩

/-- The buckets of other sessions' frames are left alone. -/
theorem admitFrame_paced (c : Config) (error : String → String → Json) (now : Seconds)
    (raw : List Char) (server : Server) {s : String} (hne : s ≠ sid) :
    match server.admitFrame c error now sid raw with
    | .error step => Paced s server.hub step.server.hub
    | .ok (server', _) => Paced s server.hub server'.hub := by
  have hrate : Paced s server.hub (server.hub.checkRate now sid .message).1 :=
    paced_checkRate fun heq => hne (congrArg Prod.fst heq)
  have hboth : Paced s server.hub ((server.hub.checkRate now sid .message).1.consumeMessage now).1 :=
    hrate.trans (.of_quiet (quiet_consumeMessage now) rfl s)
  unfold Server.admitFrame
  split
  · next step h =>
      split at h
      · cases h
        exact .refl s _
      simp only at h
      split at h
      · cases h
        exact hrate
      split at h
      · cases h
        exact hboth
      split at h
      · cases h
        exact hboth
      · cases h
        exact hboth
      · cases h
  · next server' data h =>
      split at h
      · cases h
      simp only at h
      split at h
      · cases h
      split at h
      · cases h
      split at h
      · cases h
      · cases h
      · cases h
        exact hboth

/-- What is done after a frame was admitted does not change what was paid. -/
theorem Paid.of_ok {server' : Server} {step : Step}
    (h : server'.hub.sessions = server.hub.sessions ∧
      server'.hub.messageBucket sid = some (drawn server.hub now sid).2 ∧
      (drawn server.hub now sid).1 = true) (hp : Paced sid server'.hub step.server.hub) :
    Paid now sid server step := by
  refine ⟨⟨server'.hub, h.1, h.2.1, hp⟩, ?_⟩
  rw [h.2.2]
  exact nofun

end Admission

namespace V1

variable {c : Config} {cr : Crypto} {now : Seconds} {sid : String} {raw : List Char}
variable {server : Server}

theorem paid_receiveFrame (draws : Draws) (hsize : ¬c.maxFrameBytes < String.utf8Len raw) :
    Paid now sid server (receiveFrame c cr now sid draws raw server) := by
  have hadmitted := admitFrame_paid sendError now sid server hsize
  unfold receiveFrame
  split
  · next step heq =>
      rw [heq] at hadmitted
      exact hadmitted
  · next server' data heq =>
      rw [heq] at hadmitted
      split
      · exact .of_ok hadmitted (.refl _ _)
      · exact .of_ok hadmitted (.refl _ _)
      · split
        · exact .of_ok hadmitted (.refl _ _)
        · exact .of_ok hadmitted ((acts_handle (c := c) draws _ _ server').paced sid)

theorem paced_receiveFrame (draws : Draws) {s : String} (hne : s ≠ sid) :
    Paced s server.hub (receiveFrame c cr now sid draws raw server).server.hub := by
  have hadmitted := admitFrame_paced c sendError now raw server hne
  unfold receiveFrame
  split
  · next step heq =>
      rw [heq] at hadmitted
      exact hadmitted
  · next server' data heq =>
      rw [heq] at hadmitted
      split
      · exact hadmitted
      · exact hadmitted
      · split
        · exact hadmitted
        · exact hadmitted.trans ((acts_handle (c := c) draws _ _ server').paced s)

end V1

namespace V2

variable {m : MeshConfig} {cr : Crypto} {trust : NodeTrust} {now : Clocks} {sid : String}
variable {raw : List Char} {server : Server}

theorem paid_receiveFrame (draws : Draws) (hsize : ¬m.maxFrameBytes < String.utf8Len raw) :
    Paid now.monotonic sid server (receiveFrame m cr trust now sid draws raw server) := by
  have hadmitted := admitFrame_paid (fun code message => v2Error code message .null)
    now.monotonic sid server hsize
  unfold receiveFrame
  split
  · next step heq =>
      rw [heq] at hadmitted
      exact hadmitted
  · next server' data heq =>
      rw [heq] at hadmitted
      split
      · exact .of_ok hadmitted (.refl _ _)
      · exact .of_ok hadmitted (.refl _ _)
      · split
        · exact .of_ok hadmitted (.refl _ _)
        · exact .of_ok hadmitted ((acts_handle draws _ _ server').paced sid)

theorem paced_receiveFrame (draws : Draws) {s : String} (hne : s ≠ sid) :
    Paced s server.hub (receiveFrame m cr trust now sid draws raw server).server.hub := by
  have hadmitted := admitFrame_paced m.toConfig (fun code message => v2Error code message .null)
    now.monotonic raw server hne
  unfold receiveFrame
  split
  · next step heq =>
      rw [heq] at hadmitted
      exact hadmitted
  · next server' data heq =>
      rw [heq] at hadmitted
      split
      · exact hadmitted
      · exact hadmitted
      · split
        · exact hadmitted
        · exact hadmitted.trans ((acts_handle draws _ _ server').paced s)

end V2

/-! ## Runs -/

namespace ServerRun

variable {m : MeshConfig} {cr : Crypto} {trust : NodeTrust} {s : ServerRun} {sid : String}
variable {e : ServerEvent} {times : List Seconds}

/-- What a connection's endpoint makes of a frame. -/
def received (m : MeshConfig) (cr : Crypto) (trust : NodeTrust) (now : Clocks) (s : ServerRun)
    (sid : String) (conn : Connection) (raw : List Char) (draws : Draws) : Step :=
  match conn.endpoint with
  | .v1 => V1.receiveFrame m.toConfig cr now.monotonic sid draws raw s.server
  | .v2 => V2.receiveFrame m cr trust now sid draws raw s.server

/-- When the connection was served a frame: it was answered or handled, and
the loop goes on. -/
def served (m : MeshConfig) (cr : Crypto) (trust : NodeTrust) (sid : String) (s : ServerRun)
    (e : ServerEvent) : Option Seconds :=
  match e.op, s.connections.get? sid with
  | .frame other raw draws, some conn =>
      if other = sid ∧ isReceiving conn.phase = true then
        match (s.received m cr trust e.now sid conn raw draws).next with
        | .ended => none
        | _ => some e.now.monotonic
      else none
  | _, _ => none

/-- If a frame arrives on the connection, it fits and the session is there. -/
def Fits (m : MeshConfig) (sid : String) (s : ServerRun) (e : ServerEvent) : Prop :=
  match e.op with
  | .frame other raw _ => other = sid →
      String.utf8Len raw ≤ m.maxFrameBytes ∧ s.server.hub.sessions.contains sid = true
  | _ => True

instance : Decidable (Fits m sid s e) := by
  unfold Fits
  split <;> infer_instance

theorem paid_received (m : MeshConfig) (cr : Crypto) (trust : NodeTrust) (s : ServerRun)
    (sid : String) (conn : Connection) {raw : List Char} (draws : Draws) (now : Clocks)
    (hsize : ¬m.maxFrameBytes < String.utf8Len raw) :
    Paid now.monotonic sid s.server (s.received m cr trust now sid conn raw draws) := by
  unfold received
  cases conn.endpoint with
  | v1 => exact V1.paid_receiveFrame draws hsize
  | v2 => exact V2.paid_receiveFrame draws hsize

theorem paced_received (m : MeshConfig) (conn : Connection) (raw : List Char) (draws : Draws)
    (now : Clocks) {other : String} (hne : other ≠ sid) :
    Paced other s.server.hub (s.received m cr trust now sid conn raw draws).server.hub := by
  unfold received
  cases conn.endpoint with
  | v1 => exact V1.paced_receiveFrame draws hne
  | v2 => exact V2.paced_receiveFrame draws hne

/-- The frames served so far are metered by the session's bucket while the
session is there. -/
structure Inbound (sid : String) (s : ServerRun) (times : List Seconds) : Prop where
  bounded : RateBounded 128 64 times
  unpaid : ∀ sess, s.server.hub.sessions.get? sid = some sess →
    s.server.hub.messageBucket sid = none → times = []
  metered : ∀ sess bucket, s.server.hub.sessions.get? sid = some sess →
    s.server.hub.messageBucket sid = some bucket →
    bucket.Meters 128 64 times ∧ bucket.lastRefill ≤ s.clocks.monotonic
  fresh : sid ∉ s.issued → times = [] ∧ s.server.hub.messageBucket sid = none

/-- Nothing is served, and the bucket is left alone. -/
theorem Inbound.paced {s' : ServerRun} (h : Inbound sid s times)
    (hp : Paced sid s.server.hub s'.server.hub)
    (hclock : s.clocks.monotonic ≤ s'.clocks.monotonic) (hissued : s.issued ⊆ s'.issued) :
    Inbound sid s' times where
  bounded := h.bounded
  unpaid sess' hs' hnone := by
    obtain ⟨sess, hs⟩ := hp.present sess' hs'
    obtain heq | ⟨hgone, -⟩ := hp.bucket
    · exact h.unpaid sess hs (heq ▸ hnone)
    · rw [hgone] at hs'
      cases hs'
  metered sess' bucket hs' hbucket := by
    obtain ⟨sess, hs⟩ := hp.present sess' hs'
    obtain heq | ⟨hgone, -⟩ := hp.bucket
    · obtain ⟨hmeters, hpast⟩ := h.metered sess bucket hs (heq ▸ hbucket)
      exact ⟨hmeters, hpast.trans hclock⟩
    · rw [hgone] at hs'
      cases hs'
  fresh hnot := by
    obtain ⟨htimes, hnone⟩ := h.fresh fun hmem => hnot (hissued hmem)
    obtain heq | ⟨-, hgone⟩ := hp.bucket
    · exact ⟨htimes, heq.trans hnone⟩
    · exact ⟨htimes, hgone⟩

/-- The bucket a frame draws from meters the frames served so far. -/
theorem Inbound.bucket (h : Inbound sid s times) {now : Seconds}
    (hnow : s.clocks.monotonic ≤ now) {sess : Session}
    (hs : s.server.hub.sessions.get? sid = some sess) :
    (s.server.hub.rateLimiter.bucket now sid .message).Meters 128 64 times ∧
      (s.server.hub.rateLimiter.bucket now sid .message).lastRefill ≤ now := by
  unfold RateLimiterRegistry.bucket
  cases hbucket : s.server.hub.messageBucket sid with
  | none =>
      have hnone : s.server.hub.rateLimiter.buckets.get? (sid, .message) = none := hbucket
      rw [hnone, h.unpaid sess hs hbucket]
      exact ⟨.new (by norm_num) (by norm_num) now, le_refl now⟩
  | some bucket =>
      have hsome : s.server.hub.rateLimiter.buckets.get? (sid, .message) = some bucket := hbucket
      obtain ⟨hmeters, hpast⟩ := h.metered sess bucket hs hbucket
      rw [hsome]
      exact ⟨hmeters, hpast.trans hnow⟩

/-- A frame arrives, and whatever is made of it was paid for. -/
theorem Inbound.frame (h : Inbound sid s times) {now : Clocks} {conn : Connection} {step : Step}
    (hs : Sound m cr trust s) (hconn : s.connections.get? sid = some conn)
    (hclock : s.clocks.monotonic ≤ now.monotonic)
    (hpresent : s.server.hub.sessions.contains sid = true)
    (hpaid : Paid now.monotonic sid s.server step) {note : Option Seconds}
    (hnote : note = none ∨ step.next ≠ .ended ∧ note = some now.monotonic) :
    Inbound sid { s.applyStep sid conn step with clocks := now } (times ++ note.toList) := by
  obtain ⟨sess, hsess⟩ := Dict.contains_iff.mp hpresent
  obtain ⟨hmeters, hpast⟩ := h.bucket hclock hsess
  have hrate : (0 : ℚ) ≤ 64 := by norm_num
  have hmeters' : (drawn s.server.hub now.monotonic sid).2.Meters 128 64
      (times ++ note.toList) := by
    obtain rfl | ⟨hnext, rfl⟩ := hnote
    · rw [Option.toList_none, List.append_nil]
      exact hmeters.draw hrate hpast
    · have hdrawn : (drawn s.server.hub now.monotonic sid).1 = true := by
        rw [← Bool.not_eq_false]
        exact fun hfalse => hnext (hpaid.ended hfalse)
      have hgrant : (drawn s.server.hub now.monotonic sid).2.Meters 128 64
          (if (drawn s.server.hub now.monotonic sid).1 then times ++ [now.monotonic] else times) :=
        hmeters.tryConsume hrate hpast
      rw [if_pos hdrawn] at hgrant
      exact hgrant
  obtain ⟨hub, hsessions, hbucket, hpaced⟩ := hpaid.bucket
  have hmid : Inbound sid { s with server := { s.server with hub := hub }, clocks := now }
      (times ++ note.toList) := by
    refine ⟨hmeters'.metered.bounded, ?_, ?_, ?_⟩
    · intro _ _ hnone
      rw [hbucket] at hnone
      cases hnone
    · intro _ bucket _ hsome
      rw [hbucket] at hsome
      rw [← Option.some.inj hsome]
      exact ⟨hmeters', (TokenBucket.lastRefill_tryConsume _ _ _).le⟩
    · intro hnot
      rw [(hs.fresh sid hnot).1] at hconn
      cases hconn
  exact hmid.paced hpaced (le_refl _) (Finset.Subset.refl _)

/-- Every event of a connection but a frame acts for no session in particular,
or removes its own. -/
theorem acts_clientEvent (m : MeshConfig) (cr : Crypto) (trust : NodeTrust) (s : ServerRun)
    (conn : Connection) {op : ServerOp} (now : Clocks)
    (hop : ∀ raw draws, op ≠ .frame sid raw draws) (hclient : op.client? = some sid) :
    (∀ other, Acts m.toConfig now.monotonic other s.server.hub
        (s.clientEvent m cr trust now sid conn op).server.hub) ∨
      (s.clientEvent m cr trust now sid conn op).server.hub = s.server.hub.removeSession sid := by
  have hrefl (other : String) : Acts m.toConfig now.monotonic other s.server.hub s.server.hub :=
    .refl
  cases op with
  | frame sid' raw draws =>
      cases hclient
      exact absurd rfl (hop raw draws)
  | loop _ =>
      simp only [clientEvent]
      split
      · unfold ServerRun.loop
        split
        · exact .inl hrefl
        · split
          · exact .inl hrefl
          · split <;> exact .inl hrefl
      · exact .inl hrefl
  | timeout _ =>
      simp only [clientEvent]
      split
      · split <;> exact .inl hrefl
      · exact .inl hrefl
  | disconnect _ =>
      simp only [clientEvent]
      split <;> exact .inl hrefl
  | ask _ queryIds =>
      simp only [clientEvent, ServerRun.ask]
      split <;> exact .inl hrefl
  | answered _ queryId arrived =>
      simp only [clientEvent, ServerRun.answered]
      split
      · split <;> exact .inl hrefl
      · exact .inl hrefl
  | resume _ arrived =>
      simp only [clientEvent, ServerRun.resume]
      split
      · next subscribers outgoing _ =>
          exact .inl fun _ => V1.acts_relayTo outgoing subscribers s.server
      · split <;> exact .inl hrefl
      · exact .inl hrefl
      · exact .inl hrefl
  | finish _ =>
      simp only [clientEvent, ServerRun.finish]
      split
      · exact .inl hrefl
      · exact .inl hrefl
      · exact .inl hrefl
      · exact .inr rfl
      · exact .inl hrefl
  | _ => exact .inl hrefl

/-- Such an event leaves the buckets alone. -/
theorem paced_clientEvent {conn : Connection} {op : ServerOp} {now : Clocks}
    (hop : ∀ raw draws, op ≠ .frame sid raw draws) (hclient : op.client? = some sid)
    (other : String) :
    Paced other s.server.hub (s.clientEvent m cr trust now sid conn op).server.hub := by
  obtain hacts | hgone := acts_clientEvent m cr trust s conn now hop hclient
  · exact (hacts sid).paced other
  · rw [hgone]
    exact paced_removeSession sid other

theorem hub_linkDown (s : ServerRun) (now : Clocks) (socket : Nat) :
    (s.linkDown m cr now socket).server.hub = s.server.hub := by
  unfold linkDown
  split
  · rfl
  · simp only
    split <;> rfl

theorem hub_rebalance (s : ServerRun) (now : Clocks) (index : Nat) :
    (s.rebalance m cr now index).server.hub = s.server.hub := by
  unfold rebalance
  split
  · rfl
  · unfold rebalanceStep
    split <;> rfl

theorem paced_nodeFrame (s : ServerRun) (now : Clocks) (socket : Nat) (raw : List Char) :
    Paced sid s.server.hub (s.nodeFrame m cr now socket raw).server.hub := by
  unfold nodeFrame
  split
  · exact .refl _ _
  · next link _ =>
      have hframe := (Server.acts_receiveNodeFrame m cr now link.nodeId socket link.bucket raw
        s.server sid).paced sid
      simp only
      split
      · exact hframe
      · rw [hub_linkDown]
        exact hframe

/-- So does every event that is no connection's and opens none. -/
theorem paced_serverEvent (s : ServerRun) (now : Clocks) {op : ServerOp}
    (hop : ∀ endpoint sid, op ≠ .connect endpoint sid) (sid : String) :
    Paced sid s.server.hub (s.serverEvent m cr now op).server.hub := by
  have hcalm := calm_serverEvent m cr s now hop
  cases op with
  | connect endpoint other => exact absurd rfl (hop endpoint other)
  | pruneStaleSessions => exact paced_pruneStaleSessions m.toConfig now.monotonic sid
  | pruneRoutes => exact .of_quiet hcalm.quiet (rateLimiter_pruneRoutes _ _) sid
  | writerDequeue other => exact .of_quiet hcalm.quiet (rateLimiter_writerDequeue _ _) sid
  | writerSent other => exact .of_quiet hcalm.quiet (rateLimiter_writerSent _ _) sid
  | writerFailed other => exact .of_quiet hcalm.quiet (rateLimiter_writerFailed _ _) sid
  | nodeFrame socket raw => exact paced_nodeFrame s now socket raw
  | linkUp nodeId socket =>
      simp only [ServerRun.serverEvent, ServerRun.linkUp]
      split <;> exact .refl _ _
  | linkDown socket =>
      simp only [ServerRun.serverEvent, hub_linkDown]
      exact .refl _ _
  | rebalance index =>
      simp only [ServerRun.serverEvent, hub_rebalance]
      exact .refl _ _
  | _ => exact .of_quiet hcalm.quiet rfl sid

theorem issued_clientEvent {conn : Connection} (hconn : s.connections.get? sid = some conn)
    (now : Clocks) (op : ServerOp) :
    (s.clientEvent m cr trust now sid conn op).issued = s.issued := by
  obtain ⟨effects, hmoved⟩ := moved_clientEvent m cr trust now hconn op
  exact hmoved.issued

theorem Inbound.connect (h : Inbound sid s times) (now : Clocks) (endpoint : Endpoint)
    {other : String} (hfresh : other ∉ s.issued)
    (hclock : s.clocks.monotonic ≤ now.monotonic) :
    Inbound sid { s.connect m now endpoint other with clocks := now } times := by
  unfold ServerRun.connect
  split
  · exact h.paced (.refl _ _) hclock (Finset.Subset.refl _)
  · by_cases hne : sid = other
    · subst hne
      obtain ⟨htimes, hnone⟩ := h.fresh hfresh
      refine ⟨h.bounded, fun _ _ _ => htimes, ?_, ?_⟩
      · intro _ bucket _ hsome
        have hnone' : s.server.hub.messageBucket sid = some bucket := hsome
        rw [hnone] at hnone'
        cases hnone'
      · intro hnot
        exact absurd (Finset.mem_insert_self sid s.issued) hnot
    · refine h.paced ⟨?_, .inl rfl⟩ hclock (Finset.subset_insert _ _)
      intro sess' hs'
      simp only [createSession, Dict.get?_set_of_ne _ _ hne] at hs'
      exact ⟨sess', hs'⟩

theorem served_eq_none (hop : ∀ raw draws, e.op ≠ .frame sid raw draws) :
    served m cr trust sid s e = none := by
  obtain ⟨now, op⟩ := e
  unfold served
  cases op with
  | frame other raw draws =>
      have hne : other ≠ sid := by
        rintro rfl
        exact hop raw draws rfl
      simp only
      split
      · next heq _ =>
          cases heq
          rw [if_neg fun h => hne h.1]
      · rfl
  | _ => rfl

/-- An event that is no frame of the connection serves it nothing. -/
theorem Inbound.other (h : Inbound sid s times) (hclock : s.clocks.before e.now) (hallowed : s.allowed m e.op)
    (hop : ∀ raw draws, e.op ≠ .frame sid raw draws) :
    Inbound sid (s.after m cr trust e) times := by
  obtain ⟨now, op⟩ := e
  unfold ServerRun.after ServerRun.apply
  cases hclient : op.client? with
  | none =>
      by_cases hconnect : ∃ endpoint other, op = .connect endpoint other
      · obtain ⟨endpoint, other, rfl⟩ := hconnect
        exact h.connect now endpoint hallowed hclock.2
      · have hcalm := calm_serverEvent m cr s now fun endpoint other heq =>
          hconnect ⟨endpoint, other, heq⟩
        refine h.paced ?_ hclock.2 hcalm.issued.symm.subset
        exact paced_serverEvent s now (fun endpoint other heq => hconnect ⟨endpoint, other, heq⟩) sid
  | some other =>
      cases hconn : s.connections.get? other with
      | none =>
          simp only [hconn]
          exact h.paced (.refl _ _) hclock.2 (Finset.Subset.refl _)
      | some conn =>
          simp only [hconn]
          refine h.paced ?_ hclock.2 (issued_clientEvent hconn now op).symm.subset
          by_cases hframe : ∃ raw draws, op = .frame other raw draws
          · obtain ⟨raw, draws, rfl⟩ := hframe
            have hne : sid ≠ other := by
              rintro rfl
              exact hop raw draws rfl
            simp only [clientEvent]
            split
            · exact paced_received m conn raw draws now hne
            · exact .refl _ _
          · exact paced_clientEvent (fun raw draws heq => hframe ⟨raw, draws, heq⟩) hclient sid

theorem Inbound.after (h : Inbound sid s times) (hs : Sound m cr trust s)
    (hclock : s.clocks.before e.now) (hallowed : s.allowed m e.op) (hfits : Fits m sid s e) :
    Inbound sid (s.after m cr trust e) (times ++ (served m cr trust sid s e).toList) := by
  by_cases hop : ∃ raw draws, e.op = .frame sid raw draws
  · obtain ⟨now, op⟩ := e
    obtain ⟨raw, draws, rfl⟩ := hop
    obtain ⟨hsize, hpresent⟩ := hfits rfl
    simp only [ServerRun.after, ServerRun.apply, ServerOp.client?, served]
    cases hconn : s.connections.get? sid with
    | none =>
        simp only [Option.toList_none, List.append_nil]
        exact h.paced (.refl _ _) hclock.2 (Finset.Subset.refl _)
    | some conn =>
        simp only [clientEvent, true_and]
        split
        · have hpaid := paid_received m cr trust s sid conn draws now (not_lt.mpr hsize)
          refine h.frame hs hconn hclock.2 hpresent hpaid ?_
          split
          · exact .inl rfl
          · next hnext => exact .inr ⟨hnext, rfl⟩
        · simp only [Option.toList_none, List.append_nil]
          exact h.paced (.refl _ _) hclock.2 (Finset.Subset.refl _)
  · rw [served_eq_none fun raw draws heq => hop ⟨raw, draws, heq⟩, Option.toList_none,
      List.append_nil]
    exact h.other hclock hallowed fun raw draws heq => hop ⟨raw, draws, heq⟩

theorem inbound_of_reachable
    (h : (((serverSystem m cr trust).restrict (Fits m sid)).recorded
      (served m cr trust sid)).Reachable (s, times)) :
    Sound m cr trust s ∧ Inbound sid s times := by
  refine h.invariant (P := fun p => Sound m cr trust p.1 ∧ Inbound sid p.1 p.2) ?_ ?_
  · intro p hp
    obtain ⟨⟨incarnation, clocks, hs⟩, htimes⟩ := hp
    rw [hs, htimes]
    refine ⟨sound_new incarnation clocks, ?_, fun _ _ _ => rfl, ?_, fun _ => ⟨rfl, rfl⟩⟩
    · exact (Metered.start (by norm_num) (by norm_num) 0).bounded
    · intro sess bucket hs
      cases hs
  · intro p e p' hp hstep
    obtain ⟨⟨hfits, ⟨hclock, hallowed⟩, heq⟩, htimes⟩ := hstep
    rw [heq, htimes]
    exact ⟨hp.1.after hallowed, hp.2.after hp.1 hclock hallowed hfits⟩

/-- In every run in which each frame of the connection fits and finds its
session still there, the frames served stay within the rate. -/
theorem inbound_rateBounded
    (h : (((serverSystem m cr trust).restrict (Fits m sid)).recorded
      (served m cr trust sid)).Reachable (s, times)) : RateBounded 128 64 times :=
  (inbound_of_reachable h).2.bounded

end ServerRun

/-! ## Frames that are too large -/

namespace Sample

open ServerRun

/-- A client sends a brace that is not closed. -/
def brace : List ServerEvent :=
  [event 0 (.connect .v2 "s"), event 0 (.loop "s"), event 0 (.frame "s" ['\x7b'] draws)]

/-- It is answered. -/
theorem inbound_rateBounded_brace : RateBounded 128 64 [(0 : Seconds)] := by
  have hrun : System.Meets (fun s e => ServerRun.Fits .alone "s" s e ∧ s.clocks.before e.now ∧
      s.allowed .alone e.op) (ServerRun.after .alone crypto trust) (start .alone) brace := by
    decide +kernel
  have hstart : (((serverSystem .alone crypto trust).restrict (ServerRun.Fits .alone "s")).recorded
      (served .alone crypto trust "s")).Reachable (start .alone, []) :=
    .start ⟨⟨"", ⟨0, 0⟩, rfl⟩, rfl⟩
  have hstep : ∀ s e, (ServerRun.Fits .alone "s" s e ∧ s.clocks.before e.now ∧ s.allowed .alone e.op) →
      ((serverSystem .alone crypto trust).restrict (ServerRun.Fits .alone "s")).step s e
        (s.after .alone crypto trust e) := fun s e h => ⟨h.1, h.2, rfl⟩
  have hreach := System.reachable_recorded_foldl hstep hstart brace hrun
  have hnotes : System.notes (served .alone crypto trust "s")
      (ServerRun.after .alone crypto trust) (start .alone) brace = [0] := by
    decide +kernel
  rw [hnotes] at hreach
  exact inbound_rateBounded hreach

/-- One byte more than a frame may have. -/
def oversized : List Char := List.replicate 65537 'x'

theorem utf8Len_oversized : String.utf8Len oversized = 65537 := by
  have hlen : ∀ n, String.utf8Len (List.replicate n 'x') = n := by
    intro n
    induction n with
    | zero => rfl
    | succ n ih =>
        rw [List.replicate_succ, String.utf8Len_cons, ih]
        rfl
  exact hlen 65537

/-- The session is not proven and its loop is at the top. -/
structure AtTop (s : ServerRun) : Prop where
  clocks : s.clocks = ⟨0, 0⟩
  connection : s.connections.get? "s" = some ⟨.v2, 10, .looping⟩
  session : ∃ sess, s.server.hub.sessions.get? "s" = some sess ∧ sess.proven = false

theorem after_loop {s : ServerRun} (h : AtTop s) :
    s.after .alone crypto trust (event 0 (.loop "s")) =
      { s.setPhase "s" ⟨.v2, 10, .looping⟩ (.receiving (some 10)) with clocks := ⟨0, 0⟩ } := by
  obtain ⟨sess, hs, hp⟩ := h.session
  simp only [ServerRun.after, ServerRun.apply, event, ServerOp.client?, h.connection,
    clientEvent, ServerRun.loop, hs, hp]
  norm_num

/-- A frame that is too large is answered, and the limits are not asked. -/
theorem after_oversized {s : ServerRun} {raw : List Char}
    (hconn : s.connections.get? "s" = some ⟨.v2, 10, .receiving (some 10)⟩)
    (hsize : MeshConfig.alone.maxFrameBytes < String.utf8Len raw) :
    s.after .alone crypto trust (event 0 (.frame "s" raw draws)) =
      { s.applyStep "s" ⟨.v2, 10, .receiving (some 10)⟩ (s.server.done
          [.reply (v2Error "frame-too-large" "message exceeds max frame size" .null)]) with
        clocks := ⟨0, 0⟩ } ∧
      served .alone crypto trust "s" s (event 0 (.frame "s" raw draws)) = some 0 := by
  have hreceived : ∀ now, s.received .alone crypto trust now "s" ⟨.v2, 10, .receiving (some 10)⟩
      raw draws = s.server.done
        [.reply (v2Error "frame-too-large" "message exceeds max frame size" .null)] := by
    intro now
    simp only [received, V2.receiveFrame, Server.admitFrame, if_pos hsize]
  refine ⟨?_, ?_⟩
  · simp only [ServerRun.after, ServerRun.apply, event, ServerOp.client?, hconn, clientEvent,
      isReceiving, if_true]
    rw [← hreceived]
    rfl
  · simp only [served, event, hconn, isReceiving, hreceived, Server.done]
    rfl

theorem AtTop.next {s : ServerRun} {times : List Seconds} (h : AtTop s)
    (hr : ((serverSystem .alone crypto trust).recorded (served .alone crypto trust "s")).Reachable
      (s, times)) :
    ∃ s', AtTop s' ∧ ((serverSystem .alone crypto trust).recorded
      (served .alone crypto trust "s")).Reachable (s', times ++ [0]) := by
  have hsize : MeshConfig.alone.maxFrameBytes < String.utf8Len oversized := by
    rw [utf8Len_oversized]
    decide
  have hloop := after_loop h
  obtain ⟨s₁, hs₁⟩ : ∃ s₁, s₁ = s.after .alone crypto trust (event 0 (.loop "s")) := ⟨_, rfl⟩
  rw [← hs₁] at hloop
  have hconn₁ : s₁.connections.get? "s" = some ⟨.v2, 10, .receiving (some 10)⟩ := by
    rw [hloop]
    exact Dict.get?_set_self _ _ _
  obtain ⟨hframe, hserved⟩ := after_oversized hconn₁ hsize
  have hr₁ : ((serverSystem .alone crypto trust).recorded
      (served .alone crypto trust "s")).Reachable (s₁, times) := by
    refine hr.next (e := event 0 (.loop "s")) ⟨⟨⟨?_, trivial⟩, hs₁⟩, (List.append_nil _).symm⟩
    rw [h.clocks]
    exact ⟨le_refl _, le_refl _⟩
  refine ⟨s₁.after .alone crypto trust (event 0 (.frame "s" oversized draws)), ?_,
    hr₁.next (e := event 0 (.frame "s" oversized draws)) ⟨⟨⟨?_, trivial⟩, rfl⟩, ?_⟩⟩
  · rw [hframe, hloop]
    exact ⟨rfl, Dict.get?_set_self _ _ _, h.session⟩
  · rw [hloop]
    exact ⟨le_refl _, le_refl _⟩
  · rw [hserved]
    rfl

/-- More than 128 of them are answered at one time. -/
theorem oversized_frames_served :
    ∃ s, ((serverSystem .alone crypto trust).recorded
        (served .alone crypto trust "s")).Reachable (s, List.replicate 129 0) ∧
      ¬RateBounded 128 64 (List.replicate 129 (0 : Seconds)) := by
  have hstart : ((serverSystem .alone crypto trust).recorded
      (served .alone crypto trust "s")).Reachable (start .alone, []) :=
    .start ⟨⟨"", ⟨0, 0⟩, rfl⟩, rfl⟩
  have hconnect : ((serverSystem .alone crypto trust).recorded
      (served .alone crypto trust "s")).Reachable
        ((start .alone).after .alone crypto trust (event 0 (.connect .v2 "s")), []) :=
    hstart.next (e := event 0 (.connect .v2 "s"))
      ⟨⟨⟨⟨le_refl _, le_refl _⟩, by decide⟩, rfl⟩, rfl⟩
  have hcreated : (start .alone).connect .alone ⟨0, 0⟩ .v2 "s" =
      { start .alone with
        server := { (start .alone).server with
          hub := (start .alone).server.hub.createSession 0 "s" }
        connections := (start .alone).connections.set "s" ⟨.v2, 0 + 10, .looping⟩
        issued := insert "s" (start .alone).issued } := if_neg (by decide)
  have hmany : ∀ n, ∃ s, AtTop s ∧ ((serverSystem .alone crypto trust).recorded
      (served .alone crypto trust "s")).Reachable (s, List.replicate n 0) := by
    intro n
    induction n with
    | zero =>
        refine ⟨_, ⟨rfl, ?_, ?_⟩, hconnect⟩
        · simp only [ServerRun.after, ServerRun.apply, event, ServerOp.client?, serverEvent,
            hcreated, Dict.get?_set_self, zero_add]
        · simp only [ServerRun.after, ServerRun.apply, event, ServerOp.client?, serverEvent,
            hcreated]
          exact ⟨_, Dict.get?_set_self _ _ _, rfl⟩
    | succ n ih =>
        obtain ⟨s, htop, hr⟩ := ih
        rw [List.replicate_succ']
        exact htop.next hr
  obtain ⟨s, -, hr⟩ := hmany 129
  refine ⟨s, hr, fun hbounded => ?_⟩
  have hwindow := hbounded 0 0 (le_refl 0)
  norm_num [Lib.within] at hwindow

end Sample

end Masterserver
