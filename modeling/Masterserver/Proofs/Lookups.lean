import Masterserver.Proofs.Handovers
import Masterserver.Proofs.MessageRate

/-!
# Where the handlers index the session

The handlers of both endpoints index `hub.sessions` by their own session's
identifier without asking whether it is there. `lookups` lists the hubs they do
it at, in order, for one frame: no handler is suspended between two of them, so
all of them find the session if the first does.

The legacy loop asks again once it has its frame, and finds the session
whatever happened while it waited. The loop of the second endpoint does not:
it asked before it began to wait, and a session can go stale since. So its
lookups find the session in the runs in which no stale session is removed
while its loop waits, and a frame that was already on its way makes the
handler raise in others.
-/

namespace Masterserver

open Lib Protocol Hub

variable {m : MeshConfig} {cr : Crypto} {trust : NodeTrust}

/-! ## The lookups of a frame -/

namespace V1

variable (c : Config) (cr : Crypto) (now : Seconds) (sessionId : String)

/-- Those of the dispatch: of DISCOVER and of a relay for the routes, and the
one of `attach_route`. -/
def lookups (message : V1Message) (server : Server) : List Hub :=
  match message with
  | .attachRoute _ => rated .attachRoute
  | .discover _ => rated .discover
  | .relay type _ _ _ => rated (if type = .forward then .forward else .signal)
  | _ => []
where
  /-- After the handler's own rate check. -/
  rated (op : Operation) : List Hub :=
    let (hub, allowed) := server.hub.checkRate now sessionId op
    if allowed then [hub] else []

/-- A frame's, up to the dispatch as in `receiveFrame`. -/
def frameLookups (raw : List Char) (server : Server) : List Hub :=
  match server.admitFrame c sendError now sessionId raw with
  | .error _ => []
  | .ok (server, data) =>
      match validateV1Message data with
      | .error _ => []
      | .ok message =>
          match server.hub.sessions.get? sessionId with
          | none => []
          | some sess =>
              if !sess.proven && !beforeProof message then []
              else lookups now sessionId message server

end V1

namespace V2

variable (m : MeshConfig) (cr : Crypto) (trust : NodeTrust) (now : Clocks) (sessionId : String)

/-- The one of `set_v2_identity`. -/
def helloLookups (draws : Draws) (sess : Session) (grant : Payload)
    (identityKeyHex encryptionKeyHex : String) (server : Server) : List Hub :=
  if sess.challenge.isSome || sess.proven then []
  else if !isP256Point cr identityKeyHex || !isP256Point cr encryptionKeyHex then []
  else
    match trust.verifyAdmission cr m.toConfig now.wall grant identityKeyHex with
    | some true =>
        [server.hub.updateSession sessionId fun sess =>
          { sess with
            challenge := some draws.challenge
            publicKeyRaw := fromHex identityKeyHex
            proven := false }]
    | _ => []

/-- Those of `_handle_v2_signal`: for the routes, for the sender's keys, for
the sequence number, and to write that. -/
def signalLookups (sess : Session) (signal : Signal) (server : Server) : List Hub :=
  let epoch := pyInt now.wall
  server.hub ::
    if signal.routeTag ∉ sess.routes then []
    else server.hub ::
      if signal.fromSessionId ≠ sessionId ∨ some signal.senderKeyId ≠ sess.identityKeyId ∨
          some signal.senderIdentityKeyHex ≠ sess.identityKeyHex then []
      else if ¬(epoch - 5 ≤ signal.expiresAt ∧ signal.expiresAt ≤ epoch + 300) then []
      else
        let (hub, allowed) := server.hub.checkRate now.monotonic sessionId .signalV2
        if !allowed then []
        else if !(server.signalGlobalLimiter.tryConsume now.monotonic 1).1 then []
        else
          match fromHex signal.signatureHex with
          | none => []
          | some signature =>
              if !verifySignature cr sess.publicKeyRaw (signedBytes signal.payload) signature
              then []
              else hub ::
                if (signal.sequence : Int) ≤ sess.lastSignalSequence then []
                else
                  let (hub, fresh) := hub.checkAndMarkSeen m.toConfig now.monotonic
                    (replayKey sessionId signal) m.dedupeWindowSeconds
                  if !fresh then [] else [hub]

/-- Those of `_handle_v2_message`, its first one first. -/
def lookups (draws : Draws) (request : V2Request) (server : Server) : List Hub :=
  server.hub ::
    match server.hub.sessions.get? sessionId with
    | none => []
    | some sess =>
        if !sess.proven && !beforeProof request then []
        else
          match request with
          | .hello grant identityKeyHex encryptionKeyHex =>
              helloLookups m cr trust now sessionId draws sess grant identityKeyHex
                encryptionKeyHex server
          | .attachRoute _ =>
              let (hub, allowed) := server.hub.checkRate now.monotonic sessionId .attachRoute
              if allowed then [hub] else []
          | .signal signal => signalLookups m cr now sessionId sess signal server
          | _ => []

/-- A frame's, up to the handler as in `receiveFrame`. -/
def frameLookups (draws : Draws) (raw : List Char) (server : Server) : List Hub :=
  match server.admitFrame m.toConfig (fun code message => v2Error code message .null)
      now.monotonic sessionId raw with
  | .error _ => []
  | .ok (server, data) =>
      match validateV2Message data with
      | .error _ => []
      | .ok message => lookups m cr trust now sessionId draws message.request server

end V2

namespace ServerRun

/-- The lookups of the frame a receive loop has got. -/
def frameLookups (m : MeshConfig) (cr : Crypto) (trust : NodeTrust) (now : Clocks) (sid : String)
    (endpoint : Endpoint) (draws : Draws) (raw : List Char) (server : Server) : List Hub :=
  match endpoint with
  | .v1 => V1.frameLookups m.toConfig now.monotonic sid raw server
  | .v2 => V2.frameLookups m cr trust now sid draws raw server

/-- A pruning spares the sessions of the second endpoint whose loop waits for a
frame. -/
def SparesReceiving (m : MeshConfig) (s : ServerRun) (e : ServerEvent) : Prop :=
  e.op = .pruneStaleSessions →
    ∀ sid ∈ s.server.hub.staleSessions m.toConfig e.now.monotonic, ∀ conn,
      s.connections.get? sid = some conn → conn.endpoint = .v2 → isReceiving conn.phase = false

end ServerRun

/-! ## Sessions that stay -/

namespace Hub

variable {hub hub' hub'' : Hub} {sid : String} {c : Config} {now : Seconds}

/-- If the session is there, it is there afterwards. -/
def Holds (sid : String) (hub hub' : Hub) : Prop :=
  hub.sessions.contains sid = true → hub'.sessions.contains sid = true

theorem Holds.of_sessions (h : hub'.sessions = hub.sessions) : Holds sid hub hub' := by
  intro hpresent
  rw [h]
  exact hpresent

theorem Holds.refl : Holds sid hub hub := id

theorem Holds.trans (h : Holds sid hub hub') (h' : Holds sid hub' hub'') : Holds sid hub hub'' :=
  h' ∘ h

theorem Holds.of_set {other : String} {sess : Session}
    (h : hub'.sessions = hub.sessions.set other sess) : Holds sid hub hub' := by
  intro hpresent
  rw [h, Dict.contains_set, hpresent, Bool.or_true]

theorem holds_updateSession (other : String) (f : Session → Session) :
    Holds sid hub (hub.updateSession other f) := by
  unfold updateSession
  split
  · exact .refl
  · exact .of_set rfl

theorem holds_detachRoute (other rid : String) : Holds sid hub (hub.detachRoute other rid) := by
  rw [detachRoute_eq]
  exact .trans (.of_sessions (sessions_dropLease other rid)) (holds_updateSession other _)

theorem Acts.holds {other : String} (h : Acts c now other hub hub') : Holds sid hub hub' := by
  induction h with
  | refl => exact .refl
  | rate _ _ ih => exact ih.trans (.of_sessions rfl)
  | record _ _ ih => exact ih.trans (holds_updateSession other _)
  | attach _ rid ttl limit ih =>
      refine ih.trans ?_
      obtain ⟨error, heq⟩ | ⟨sess, -, -, heq⟩ := attachRoute_cases _ c now other rid ttl limit
      · rw [heq]
        exact .refl
      · rw [heq]
        exact .of_set rfl
  | detach _ rid ih => exact ih.trans (holds_detachRoute other rid)
  | seen _ key ttl ih =>
      refine ih.trans ?_
      obtain ⟨seen, heq⟩ := checkAndMarkSeen_hub _ c now key ttl
      rw [heq]
      exact .of_sessions rfl
  | send _ target data ih =>
      refine ih.trans ?_
      obtain heq | ⟨sess, -, -, -, heq⟩ := sendSession_cases _ c target data
      · rw [heq]
        exact .refl
      · rw [heq]
        exact .of_set rfl

/-- Only the session removed is gone. -/
theorem holds_removeSession {other : String} (hne : sid ≠ other) :
    Holds sid hub (hub.removeSession other) := by
  intro hpresent
  rw [removeSession, sessions_removeSessionBy, Dict.contains_erase, hpresent,
    decide_eq_false hne]
  rfl

theorem holds_pruneStaleSessions (hfresh : sid ∉ hub.staleSessions c now) :
    Holds sid hub (hub.pruneStaleSessions c now) := by
  unfold pruneStaleSessions pruneStaleSessionsBy
  generalize hub.staleSessions c now = stale at hfresh
  induction stale generalizing hub with
  | nil => exact .refl
  | cons other rest ih =>
      rw [List.mem_cons, not_or] at hfresh
      exact (holds_removeSession hfresh.1).trans (ih hfresh.2)

theorem holds_pruneRoutes (now : Seconds) : Holds sid hub (hub.pruneRoutes now) := by
  unfold pruneRoutes
  refine foldl_invariant (P := Holds sid hub) _ .refl fun hub' rid _ h => h.trans ?_
  unfold pruneRoute
  split
  · exact .refl
  · exact foldl_invariant (P := Holds sid hub') _ (.of_sessions (sessions_storeRoute rid _))
      fun hub'' other _ h' => h'.trans (holds_updateSession other _)

theorem holds_releaseFrame (other : String) (frame : Frame) :
    Holds sid hub (hub.releaseFrameBy clamp other frame) := by
  unfold releaseFrameBy
  split
  · exact .refl
  · exact .of_set rfl

theorem holds_writerDequeue (other : String) : Holds sid hub (hub.writerDequeue other) := by
  obtain heq | ⟨sess, frame, rest, -, -, -, heq⟩ := writerDequeue_cases hub other
  · rw [heq]
    exact .refl
  · rw [heq]
    exact .of_set rfl

theorem holds_writerSent (other : String) : Holds sid hub (hub.writerSent other) := by
  unfold writerSent
  obtain heq | ⟨frame, next, -, -, heq⟩ := writerSentBy_cases hub clamp other
  · rw [heq]
    exact .refl
  · rw [heq]
    exact (holds_releaseFrame other frame).trans (.of_sessions rfl)

theorem holds_writerFailed (other : String) : Holds sid hub (hub.writerFailed other) := by
  unfold writerFailed
  obtain heq | ⟨w, -, -, heq⟩ | ⟨frame, -, heq⟩ := writerFailedBy_cases hub clamp other
  · rw [heq]
    exact .refl
  · rw [heq]
    exact .of_sessions rfl
  · rw [heq]
    exact (holds_releaseFrame other frame).trans (.of_sessions rfl)

end Hub

/-! ## The lookups of one frame agree -/

/-- What is charged for a frame before it is decoded: nothing, the session's
rate, or the node's as well. -/
inductive Hub.Admits (now : Seconds) (sid : String) (hub : Hub) : Hub → Prop
  | free : Admits now sid hub hub
  | rated : Admits now sid hub (hub.checkRate now sid .message).1
  | counted : Admits now sid hub ((hub.checkRate now sid .message).1.consumeMessage now).1

theorem admits_admitFrame {c : Config} {error : String → String → Json} {now : Seconds}
    {sid : String} {raw : List Char} {server : Server} :
    match server.admitFrame c error now sid raw with
    | .error step => server.hub.Admits now sid step.server.hub
    | .ok (server', _) => server.hub.Admits now sid server'.hub := by
  unfold Server.admitFrame
  split
  · next step h =>
      split at h
      · cases h
        exact .free
      simp only at h
      split at h
      · cases h
        exact .rated
      split at h
      · cases h
        exact .counted
      split at h
      · cases h
        exact .counted
      · cases h
        exact .counted
      · cases h
  · next server' data h =>
      split at h
      · cases h
      simp only at h
      split at h
      · cases h
      split at h
      · cases h
      split at h
      · cases h
      · cases h
      · cases h
        exact .counted

/-- Only limits were charged. -/
structure Hub.Charged (hub hub' : Hub) : Prop where
  sessions : hub'.sessions = hub.sessions
  seen : hub'.seen = hub.seen

theorem Hub.Admits.charged {hub hub' : Hub} {now : Seconds} {sid : String}
    (h : hub.Admits now sid hub') : hub.Charged hub' := by
  cases h with
  | free => exact ⟨rfl, rfl⟩
  | rated => exact ⟨rfl, rfl⟩
  | counted => exact ⟨rfl, rfl⟩

namespace V1

variable {c : Config} {now : Seconds} {sid : String}

theorem rated_present {op : Operation} {server : Server} {hub : Hub}
    (hs : server.hub.sessions.contains sid = true) (h : hub ∈ lookups.rated now sid server op) :
    hub.sessions.contains sid = true := by
  unfold lookups.rated at h
  simp only at h
  split at h
  · rw [List.mem_singleton.mp h]
    exact hs
  · cases h

/-- The loop has asked for the session again. -/
theorem frameLookups_present {raw : List Char} {server : Server} {hub : Hub}
    (h : hub ∈ frameLookups c now sid raw server) : hub.sessions.contains sid = true := by
  unfold frameLookups at h
  split at h
  · cases h
  next server' _ _ =>
  split at h
  · cases h
  next message _ =>
  split at h
  · cases h
  next sess hs =>
  have hpresent : server'.hub.sessions.contains sid = true := Dict.contains_iff.mpr ⟨sess, hs⟩
  split at h
  · cases h
  unfold lookups at h
  cases message with
  | attachRoute routeId => exact rated_present hpresent h
  | discover routeId => exact rated_present hpresent h
  | relay type data payload routeId => exact rated_present hpresent h
  | _ => cases h

end V1

namespace V2

variable {now : Clocks} {sid : String} {draws : Draws} {server : Server} {hub : Hub}

theorem helloLookups_present {sess : Session} {grant : Payload}
    {identityKeyHex encryptionKeyHex : String} (hs : server.hub.sessions.contains sid = true)
    (h : hub ∈ helloLookups m cr trust now sid draws sess grant identityKeyHex encryptionKeyHex
      server) : hub.sessions.contains sid = true := by
  unfold helloLookups at h
  split at h
  · cases h
  split at h
  · cases h
  split at h
  · rw [List.mem_singleton.mp h]
    exact holds_updateSession sid _ hs
  · cases h

theorem signalLookups_present {sess : Session} {signal : Signal}
    (hs : server.hub.sessions.contains sid = true)
    (h : hub ∈ signalLookups m cr now sid sess signal server) :
    hub.sessions.contains sid = true := by
  unfold signalLookups at h
  simp only at h
  rcases List.mem_cons.mp h with rfl | h
  · exact hs
  split at h
  · cases h
  rcases List.mem_cons.mp h with rfl | h
  · exact hs
  split at h
  · cases h
  split at h
  · cases h
  split at h
  · cases h
  split at h
  · cases h
  split at h
  · cases h
  split at h
  · cases h
  rcases List.mem_cons.mp h with rfl | h
  · exact hs
  split at h
  · cases h
  split at h
  · cases h
  · rw [List.mem_singleton.mp h]
    have hseen : Acts m.toConfig now.monotonic sid server.hub
        ((server.hub.checkRate now.monotonic sid .signalV2).1.checkAndMarkSeen m.toConfig
          now.monotonic (replayKey sid signal) m.dedupeWindowSeconds).1 :=
      (Acts.refl.rate (by decide)).seen _ _
    exact hseen.holds hs

theorem lookups_present {request : V2Request} (hs : server.hub.sessions.contains sid = true)
    (h : hub ∈ lookups m cr trust now sid draws request server) :
    hub.sessions.contains sid = true := by
  unfold lookups at h
  rcases List.mem_cons.mp h with rfl | h
  · exact hs
  split at h
  · cases h
  split at h
  · cases h
  cases request with
  | hello grant identityKeyHex encryptionKeyHex => exact helloLookups_present hs h
  | attachRoute routeTag =>
      simp only at h
      split at h
      · rw [List.mem_singleton.mp h]
        exact hs
      · cases h
  | signal signal => exact signalLookups_present hs h
  | _ => cases h

/-- They find the session if it was there when the frame came. -/
theorem frameLookups_present {raw : List Char} (hs : server.hub.sessions.contains sid = true)
    (h : hub ∈ frameLookups m cr trust now sid draws raw server) :
    hub.sessions.contains sid = true := by
  have hadmitted : match server.admitFrame m.toConfig
        (fun code message => v2Error code message .null) now.monotonic sid raw with
      | .error step => server.hub.Admits now.monotonic sid step.server.hub
      | .ok (server', _) => server.hub.Admits now.monotonic sid server'.hub := admits_admitFrame
  unfold frameLookups at h
  split at h
  · cases h
  next server' data heq =>
  rw [heq] at hadmitted
  split at h
  · cases h
  · refine lookups_present ?_ h
    rw [hadmitted.charged.sessions]
    exact hs

end V2

/-! ## Runs -/

namespace ServerRun

variable {s : ServerRun} {e : ServerEvent} {sid : String}

/-- A frame is charged to the limits, and then the handler acts. -/
theorem acts_received (m : MeshConfig) (cr : Crypto) (trust : NodeTrust) (s : ServerRun)
    (now : Clocks) (sid : String) (conn : Connection) (raw : List Char) (draws : Draws) :
    ∃ hub, s.server.hub.Admits now.monotonic sid hub ∧ Acts m.toConfig now.monotonic sid hub
      (s.received m cr trust now sid conn raw draws).server.hub := by
  unfold received
  cases conn.endpoint with
  | v1 =>
      have hadmitted : match s.server.admitFrame m.toConfig sendError now.monotonic sid raw with
          | .error step => s.server.hub.Admits now.monotonic sid step.server.hub
          | .ok (server', _) => s.server.hub.Admits now.monotonic sid server'.hub :=
        admits_admitFrame
      simp only [V1.receiveFrame]
      split
      · next step heq =>
          rw [heq] at hadmitted
          exact ⟨_, hadmitted, .refl⟩
      next server' data heq =>
      rw [heq] at hadmitted
      split
      · exact ⟨_, hadmitted, .refl⟩
      · exact ⟨_, hadmitted, .refl⟩
      split
      · exact ⟨_, hadmitted, .refl⟩
      · exact ⟨_, hadmitted, V1.acts_handle draws _ _ server'⟩
  | v2 =>
      have hadmitted : match s.server.admitFrame m.toConfig
            (fun code message => v2Error code message .null) now.monotonic sid raw with
          | .error step => s.server.hub.Admits now.monotonic sid step.server.hub
          | .ok (server', _) => s.server.hub.Admits now.monotonic sid server'.hub :=
        admits_admitFrame
      simp only [V2.receiveFrame]
      split
      · next step heq =>
          rw [heq] at hadmitted
          exact ⟨_, hadmitted, .refl⟩
      next server' data heq =>
      rw [heq] at hadmitted
      split
      · exact ⟨_, hadmitted, .refl⟩
      · exact ⟨_, hadmitted, .refl⟩
      split
      · exact ⟨_, hadmitted, .refl⟩
      · exact ⟨_, hadmitted, V2.acts_handle draws _ _ server'⟩

/-- An event of another connection keeps the session. -/
theorem holds_clientEvent {other : String} {conn : Connection} {op : ServerOp} {now : Clocks}
    (hclient : op.client? = some other) (hne : sid ≠ other) :
    Holds sid s.server.hub (s.clientEvent m cr trust now other conn op).server.hub := by
  by_cases hframe : ∃ raw draws, op = .frame other raw draws
  · obtain ⟨raw, draws, rfl⟩ := hframe
    simp only [clientEvent]
    split
    · obtain ⟨hub, hadmits, hacts⟩ := acts_received m cr trust s now other conn raw draws
      exact .trans (.of_sessions hadmits.charged.sessions) hacts.holds
    · exact .refl
  · obtain hacts | hgone := acts_clientEvent m cr trust s conn now
      (fun raw draws heq => hframe ⟨raw, draws, heq⟩) hclient
    · exact (hacts other).holds
    · rw [hgone]
      exact holds_removeSession hne

/-- So does every event that is none's, a pruning of the session apart. -/
theorem holds_serverEvent (now : Clocks) {op : ServerOp}
    (hstale : op = .pruneStaleSessions →
      sid ∉ s.server.hub.staleSessions m.toConfig now.monotonic) :
    Holds sid s.server.hub (s.serverEvent m cr now op).server.hub := by
  cases op with
  | connect endpoint other =>
      simp only [serverEvent, connect]
      split
      · exact .refl
      · exact .of_set rfl
  | pruneRoutes => exact holds_pruneRoutes now.monotonic
  | pruneStaleSessions => exact holds_pruneStaleSessions (hstale rfl)
  | pruneDedupe => exact .of_sessions rfl
  | writerDequeue other => exact holds_writerDequeue other
  | writerSent other => exact holds_writerSent other
  | writerFailed other => exact holds_writerFailed other
  | linkUp nodeId socket =>
      simp only [serverEvent, linkUp]
      split <;> exact .refl
  | linkDown socket =>
      rw [serverEvent, hub_linkDown]
      exact .refl
  | nodeFrame socket raw =>
      simp only [serverEvent, nodeFrame]
      split
      · exact .refl
      next link _ =>
      have hacts := Server.acts_receiveNodeFrame m cr now link.nodeId socket link.bucket raw
        s.server sid
      split
      · exact hacts.holds
      · rw [hub_linkDown]
        exact hacts.holds
  | rebalance index =>
      rw [serverEvent, hub_rebalance]
      exact .refl
  | _ => exact .refl

theorem isReceiving_phaseAfter (next : Next) : isReceiving (phaseAfter next) = false := by
  cases next <;> rfl

/-- An event of a connection moves it to another phase, if it does anything at
all, or ends it. A loop only begins to wait for a frame when it has asked for
its session. -/
theorem phase_clientEvent (m : MeshConfig) (cr : Crypto) (trust : NodeTrust) (s : ServerRun)
    (sid : String) (conn : Connection) (op : ServerOp) (now : Clocks) :
    s.clientEvent m cr trust now sid conn op = s ∨
      (∃ phase, (s.clientEvent m cr trust now sid conn op).connections =
          s.connections.set sid { conn with phase := phase } ∧
        (isReceiving phase = true →
          (s.clientEvent m cr trust now sid conn op).server.hub.sessions.contains sid = true)) ∨
      (s.clientEvent m cr trust now sid conn op).connections = s.connections.erase sid := by
  have hset (s' : ServerRun) (phase : Phase)
      (hset : s'.connections = s.connections.set sid { conn with phase := phase })
      (hnot : isReceiving phase = false) :
      s' = s ∨ (∃ phase, s'.connections = s.connections.set sid { conn with phase := phase } ∧
        (isReceiving phase = true → s'.server.hub.sessions.contains sid = true)) ∨
        s'.connections = s.connections.erase sid :=
    .inr (.inl ⟨phase, hset, fun h => by rw [hnot] at h; cases h⟩)
  have hstep (step : Step) := hset (s.applyStep sid conn step) _ rfl
    (isReceiving_phaseAfter step.next)
  cases op with
  | loop _ =>
      simp only [clientEvent]
      split
      · unfold ServerRun.loop
        split
        · exact hset _ .leaving rfl rfl
        next sess hs =>
        have hpresent : s.server.hub.sessions.contains sid = true :=
          Dict.contains_iff.mpr ⟨sess, hs⟩
        split
        · exact .inr (.inl ⟨_, rfl, fun _ => hpresent⟩)
        split
        · exact hstep _
        · exact .inr (.inl ⟨_, rfl, fun _ => hpresent⟩)
      · exact .inl rfl
  | frame _ raw draws =>
      simp only [clientEvent]
      split
      · exact hstep _
      · exact .inl rfl
  | timeout _ =>
      simp only [clientEvent]
      split
      · split
        · exact hstep _
        · exact .inl rfl
      · exact .inl rfl
  | disconnect _ =>
      simp only [clientEvent]
      split
      · exact hset _ .leaving rfl rfl
      · exact hset _ .leaving rfl rfl
      · exact .inl rfl
  | ask _ queryIds =>
      simp only [clientEvent, ServerRun.ask]
      split
      · exact hset _ (.waiting _) rfl rfl
      · exact .inl rfl
  | answered _ queryId arrived =>
      simp only [clientEvent, ServerRun.answered]
      split
      · split
        · exact hset _ (.waiting _) rfl rfl
        · exact .inl rfl
      · exact .inl rfl
  | resume _ arrived =>
      simp only [clientEvent, ServerRun.resume]
      split
      · exact hstep _
      · split
        · exact hstep _
        · exact .inl rfl
      · exact hstep _
      · exact .inl rfl
  | finish _ =>
      simp only [clientEvent, ServerRun.finish]
      split
      · exact hset _ (.closing _) rfl rfl
      · exact hset _ (.closing _) rfl rfl
      · exact hset _ (.closing _) rfl rfl
      · exact .inr (.inr rfl)
      · exact .inl rfl
  | _ => exact .inl rfl

/-- A loop that waits for a frame afterwards did so before and nothing
happened, or its session is there. -/
theorem receiving_clientEvent {conn conn' : Connection} {op : ServerOp} {now : Clocks}
    (h : (s.clientEvent m cr trust now sid conn op).connections.get? sid = some conn')
    (hphase : isReceiving conn'.phase = true) :
    s.clientEvent m cr trust now sid conn op = s ∨
      (s.clientEvent m cr trust now sid conn op).server.hub.sessions.contains sid = true := by
  obtain hsame | ⟨phase, hset, hpresent⟩ | herase :=
    phase_clientEvent m cr trust s sid conn op now
  · exact .inl hsame
  · rw [hset, Dict.get?_set_self, Option.some.injEq] at h
    subst h
    exact .inr (hpresent hphase)
  · rw [herase, Dict.get?_erase_self] at h
    cases h

/-- A connection is moved by its own events only. -/
theorem connections_clientEvent {other : String} {conn : Connection} {op : ServerOp}
    {now : Clocks} (hne : sid ≠ other) :
    (s.clientEvent m cr trust now other conn op).connections.get? sid =
      s.connections.get? sid := by
  obtain hsame | ⟨phase, hset, -⟩ | herase := phase_clientEvent m cr trust s other conn op now
  · rw [hsame]
  · rw [hset, Dict.get?_set_of_ne _ _ hne]
  · rw [herase, Dict.get?_erase_of_ne _ hne]

/-- The session of the second endpoint is there while its loop waits. -/
def Waited (s : ServerRun) : Prop :=
  ∀ sid conn, s.connections.get? sid = some conn → conn.endpoint = .v2 →
    isReceiving conn.phase = true → s.server.hub.sessions.contains sid = true

theorem Waited.after (h : s.Waited) (hspares : SparesReceiving m s e) :
    (s.after m cr trust e).Waited := by
  intro sid conn' hconn' hv2 hphase
  obtain ⟨now, op⟩ := e
  unfold ServerRun.after ServerRun.apply at hconn' ⊢
  cases hclient : op.client? with
  | none =>
      simp only [hclient] at hconn' ⊢
      by_cases hconnect : ∃ endpoint other, op = .connect endpoint other
      · obtain ⟨endpoint, other, rfl⟩ := hconnect
        refine holds_serverEvent now (fun h => by cases h) (h sid conn' ?_ hv2 hphase)
        simp only [serverEvent, connect] at hconn'
        split at hconn'
        · exact hconn'
        rw [Dict.get?_set] at hconn'
        split at hconn'
        · cases hconn'
          cases hphase
        · exact hconn'
      · have hcalm := calm_serverEvent m cr s now fun endpoint other heq =>
          hconnect ⟨endpoint, other, heq⟩
        rw [hcalm.connections] at hconn'
        refine holds_serverEvent now (fun hop hmem => ?_) (h sid conn' hconn' hv2 hphase)
        rw [hspares hop sid hmem conn' hconn' hv2] at hphase
        cases hphase
  | some other =>
      simp only [hclient] at hconn' ⊢
      cases hconn : s.connections.get? other with
      | none =>
          simp only [hconn] at hconn' ⊢
          exact h sid conn' hconn' hv2 hphase
      | some conn =>
          simp only [hconn] at hconn' ⊢
          by_cases hsid : sid = other
          · subst hsid
            obtain hsame | hpresent := receiving_clientEvent hconn' hphase
            · rw [hsame] at hconn' ⊢
              exact h sid conn' hconn' hv2 hphase
            · exact hpresent
          · rw [connections_clientEvent hsid] at hconn'
            exact holds_clientEvent hclient hsid (h sid conn' hconn' hv2 hphase)

theorem waited_of_reachable
    (h : ((serverSystem m cr trust).restrict (SparesReceiving m)).Reachable s) : s.Waited := by
  refine h.invariant ?_ fun s e s' hs hstep => ?_
  · rintro s ⟨incarnation, clocks, rfl⟩ sid conn hconn
    cases hconn
  · obtain ⟨hspares, -, rfl⟩ := hstep
    exact hs.after hspares

/-- In every run in which no pruning removes a session of the second endpoint
whose loop waits for a frame, the lookups of every frame that comes to a
waiting loop find its session. -/
theorem lookups_find_session
    (h : ((serverSystem m cr trust).restrict (SparesReceiving m)).Reachable s)
    {conn : Connection} (hconn : s.connections.get? sid = some conn)
    (hphase : isReceiving conn.phase = true) (now : Clocks) (draws : Draws) (raw : List Char)
    {hub : Hub} (hhub : hub ∈ frameLookups m cr trust now sid conn.endpoint draws raw s.server) :
    hub.sessions.contains sid = true := by
  unfold frameLookups at hhub
  split at hhub
  · exact V1.frameLookups_present hhub
  · next hv2 =>
      exact V2.frameLookups_present (waited_of_reachable h sid conn hconn hv2 hphase) hhub

end ServerRun

/-! ## A client that goes stale while its loop waits -/

namespace Sample

open ServerRun

def pingV2 : Json := messageOf sessionV2 "PING" []

/-- A proven client says nothing for a hundred seconds, and is pruned. -/
def staleClient : List ServerEvent :=
  event 0 (.connect .v2 "s") ::
    (message 0 "s" (helloV2 .alone) ++ message 0 "s" proveV2 ++
      [event 0 (.loop "s"), event 100 .pruneStaleSessions])

/-- A client that has connected and whose loop waits. -/
def waitingClient : List ServerEvent := [event 0 (.connect .v2 "s"), event 0 (.loop "s")]

def pingLookups (now : Seconds) (conn : Connection) (s : ServerRun) : List Hub :=
  frameLookups .alone crypto Sample.trust ⟨now, now⟩ "s" conn.endpoint draws pingV2.dumps s.server

/-- Whether the loop waits, and for each lookup of a PING whether it finds the
session. -/
def found (now : Seconds) (s : ServerRun) : Option (Bool × List Bool) :=
  (s.connections.get? "s").map fun conn =>
    (isReceiving conn.phase, (pingLookups now conn s).map fun hub => hub.sessions.contains "s")

theorem of_found {now : Seconds} {s : ServerRun} {present : Bool}
    (h : found now s = some (true, [present])) :
    ∃ conn, s.connections.get? "s" = some conn ∧ isReceiving conn.phase = true ∧
      ∃ hub ∈ pingLookups now conn s, hub.sessions.contains "s" = present := by
  obtain ⟨conn, hconn, hfound⟩ := Option.map_eq_some_iff.mp h
  rw [Prod.mk.injEq] at hfound
  refine ⟨conn, hconn, hfound.1, ?_⟩
  have hmem : present ∈ (pingLookups now conn s).map fun hub => hub.sessions.contains "s" := by
    rw [hfound.2]
    exact List.mem_singleton_self present
  obtain ⟨hub, hhub, hpresent⟩ := List.mem_map.mp hmem
  exact ⟨hub, hhub, hpresent⟩

end Sample

namespace ServerRun

/-- A frame comes to a loop whose session was not removed. -/
theorem lookups_find_session_ping :
    ∃ s : ServerRun, ∃ conn, s.connections.get? "s" = some conn ∧
      ∃ hub ∈ Sample.pingLookups 0 conn s, hub.sessions.contains "s" = true := by
  have hrun : System.Meets (fun s e => s.clocks.before e.now ∧ s.allowed .alone e.op)
        (ServerRun.after .alone Sample.crypto Sample.trust) (Sample.start .alone)
        Sample.waitingClient ∧
      Sample.found 0 (Sample.run .alone Sample.waitingClient) = some (true, [true]) := by
    decide +kernel
  obtain ⟨⟨hconnect, hloop, -⟩, hfound⟩ := hrun
  obtain ⟨conn, hconn, hphase, hub, hhub, -⟩ := Sample.of_found hfound
  have hspares (s : ServerRun) (op : ServerOp) (hne : op ≠ .pruneStaleSessions) :
      SparesReceiving .alone s (Sample.event 0 op) := fun hop => absurd hop hne
  have hreach : ((serverSystem .alone Sample.crypto Sample.trust).restrict
      (SparesReceiving .alone)).Reachable (Sample.run .alone Sample.waitingClient) :=
    .next (.next (.start ⟨"", ⟨0, 0⟩, rfl⟩) ⟨hspares _ (.connect .v2 "s") nofun, hconnect, rfl⟩)
      ⟨hspares _ (.loop "s") nofun, hloop, rfl⟩
  exact ⟨_, conn, hconn, hub, hhub, lookups_find_session hreach hconn hphase _ _ _ hhub⟩

/-- A frame was on its way when the session was removed. -/
theorem lookup_of_pruned_session :
    ∃ s : ServerRun, (serverSystem .alone Sample.crypto Sample.trust).Reachable s ∧
      ∃ conn, s.connections.get? "s" = some conn ∧ isReceiving conn.phase = true ∧
        ∃ hub ∈ Sample.pingLookups 100 conn s, hub.sessions.contains "s" = false := by
  have hrun : System.Meets (fun s e => s.clocks.before e.now ∧ s.allowed .alone e.op)
        (ServerRun.after .alone Sample.crypto Sample.trust) (Sample.start .alone)
        Sample.staleClient ∧
      Sample.found 100 (Sample.run .alone Sample.staleClient) = some (true, [false]) := by
    decide +kernel
  obtain ⟨hmeets, hfound⟩ := hrun
  exact ⟨_, Sample.reachable_run .alone _ hmeets, Sample.of_found hfound⟩

end ServerRun

end Masterserver
