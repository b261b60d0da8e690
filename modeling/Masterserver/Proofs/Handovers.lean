import Masterserver.Proofs.ServerRuns

/-!
# Where messages are handed over

`send_session` and `forward_signal` are called in three places: for a checked
signal of the second endpoint, by the tasks of a legacy relay, and for a
SIGNAL_FORWARD of a peer. `handover_after` says it once for every event of a
running server, with what is known about the message and its target there.
-/

namespace Masterserver

open Lib Hub Protocol

/-- Neither a message handed over nor a signal accepted. -/
def Effect.silent : Effect → Bool
  | .sendSession .. | .forwardSignal .. | .signalAccepted _ => false
  | _ => true

/-- A step that hands nothing over and leaves no relay to be run. -/
structure Step.Settled (step : Step) : Prop where
  silent : ∀ e ∈ step.effects, e.silent = true
  next : ∀ subscribers outgoing, step.next ≠ .waiting (.relay subscribers outgoing)

theorem Effect.silent_of_plain {e : Effect} (h : e.quiet = true ∧ e.handover? = none) :
    e.silent = true := by
  cases e with
  | sendSession target message delivered => cases h.2
  | forwardSignal routeTag target message => cases h.2
  | signalAccepted signal => cases h.1
  | _ => rfl

theorem Server.settled_done (server : Server) {effects : List Effect}
    (h : ∀ e ∈ effects, e.silent = true) : (server.done effects).Settled := ⟨h, nofun⟩

theorem Server.settled_leave (server : Server) {effects : List Effect}
    (h : ∀ e ∈ effects, e.silent = true) : (server.leave effects).Settled := ⟨h, nofun⟩

theorem silent_toNode (sends : List Send) {effects : List Effect}
    (h : ∀ e ∈ effects, e.silent = true) :
    ∀ e ∈ sends.map .toNode ++ effects, e.silent = true := by
  intro e he
  rcases List.mem_append.mp he with he | he
  · obtain ⟨send, -, rfl⟩ := List.mem_map.mp he
    rfl
  · exact h e he

/-! ## The beginning of a receive loop -/

section Admission

variable {c : Config} {error : String → String → Json} {now : Seconds} {sid : String}
variable {raw : List Char} {server : Server}

theorem admitFrame_error {step : Step}
    (h : server.admitFrame c error now sid raw = .error step) : step.Settled := by
  unfold Server.admitFrame at h
  split at h
  · cases h
    exact Server.settled_done _ (by simp [Effect.silent])
  simp only at h
  split at h
  · cases h
    exact Server.settled_leave _ (by simp [Effect.silent])
  split at h
  · cases h
    exact Server.settled_leave _ (by simp [Effect.silent])
  split at h
  · cases h
    exact Server.settled_done _ (by simp [Effect.silent])
  · cases h
    exact Server.settled_leave _ nofun
  · cases h

/-- A frame that gets through is decoded, and only limits were charged. -/
theorem admitFrame_ok {server' : Server} {data : Json}
    (h : server.admitFrame c error now sid raw = .ok (server', data)) :
    loadsStrict c.jsonLimits raw = .ok data ∧ server.hub.SameTables server'.hub ∧
      server'.mesh = server.mesh := by
  unfold Server.admitFrame at h
  split at h
  · cases h
  simp only at h
  split at h
  · cases h
  split at h
  · cases h
  split at h
  · cases h
  · cases h
  · next heq =>
      cases h
      exact ⟨heq, ⟨rfl, rfl⟩, rfl⟩

end Admission

/-! ## The legacy endpoint -/

namespace V1

variable {c : Config} {cr : Crypto} {sid : String}

theorem settled_refuse (server : Server) (code message : String) :
    (refuse server code message).Settled :=
  server.settled_done (by simp [Effect.silent])

theorem settled_handleProve (now : Seconds) (sess : Session) (signatureHex : String)
    (server : Server) : (handleProve cr now sid sess signatureHex server).Settled := by
  unfold handleProve
  simp only
  split
  · exact Server.settled_done _ (by simp [Effect.silent])
  split
  · exact settled_refuse _ _ _
  split
  · exact settled_refuse _ _ _
  split
  · exact Server.settled_done _ (by simp [Effect.silent])
  · exact Server.settled_done _ (by simp [Effect.silent])

theorem settled_handlePing (now : Seconds) (server : Server) :
    (handlePing now sid server).Settled := by
  unfold handlePing
  simp only
  split
  · exact settled_refuse _ _ _
  · exact Server.settled_done _ (by simp [Effect.silent])

theorem settled_handleAttachRoute (now : Seconds) (routeId : String) (server : Server) :
    (handleAttachRoute c now sid routeId server).Settled := by
  unfold handleAttachRoute
  simp only
  split
  · exact settled_refuse _ _ _
  split
  · exact Server.settled_leave _ nofun
  · exact settled_refuse _ _ _
  · exact Server.settled_done _ (by simp [Effect.silent])

theorem settled_handleDiscover (now : Seconds) (sess : Session) (routeId : String)
    (server : Server) : (handleDiscover now sid sess routeId server).Settled := by
  unfold handleDiscover
  simp only
  split
  · exact settled_refuse _ _ _
  split
  · exact settled_refuse _ _ _
  · exact Server.settled_done _ (by simp [Effect.silent])

/-- A relay that is left to be run: a proven session of the route sent the
message, with hops left, and the tasks are for the others on the route. -/
structure LeftRelay (c : Config) (now : Seconds) (sid : String) (sess : Session)
    (data payload : Payload) (routeId : String) (hub : Hub) (step : Step) : Prop where
  attached : routeId ∈ sess.routes
  hops : (hopLimit c payload).int?.any (· ≤ 0) = false
  effects : step.effects = []
  next : step.next = .waiting (.relay
    ((hub.routeSubscribers now routeId (some sid)).take c.maxFanout) (relayed c data payload))

theorem handleRouteMessage_cases (c : Config) (cr : Crypto) (now : Seconds) (sid : String)
    (sess : Session) (type : RelayType) (data payload : Payload) (routeId : String) (server : Server) :
    (handleRouteMessage c cr now sid sess type data payload routeId server).Settled ∨
      LeftRelay c now sid sess data payload routeId server.hub
        (handleRouteMessage c cr now sid sess type data payload routeId server) := by
  unfold handleRouteMessage
  generalize (if type = .forward then Operation.forward else Operation.signal) = op
  simp only
  split
  · exact .inl (settled_refuse _ _ _)
  split
  · exact .inl (settled_refuse _ _ _)
  next hattached =>
  split
  · exact .inl (Server.settled_done _ nofun)
  split
  · exact .inl (Server.settled_done _ nofun)
  next hhops =>
  refine .inr ⟨not_not.mp hattached, Bool.eq_false_iff.mpr hhops, rfl, ?_⟩
  obtain ⟨seen, heq⟩ := checkAndMarkSeen_hub (server.hub.checkRate now sid op).1 c now
    (relayKey cr type payload routeId) c.dedupeWindowSeconds
  rw [heq]
  rfl

theorem handle_cases (c : Config) (cr : Crypto) (now : Seconds) (sid : String) (draws : Draws)
    (sess : Session) (message : V1Message) (server : Server) :
    (handle c cr now sid draws sess message server).Settled ∨
      sess.proven = true ∧ ∃ type data payload routeId,
        message = .relay type data payload routeId ∧
        LeftRelay c now sid sess data payload routeId server.hub
          (handle c cr now sid draws sess message server) := by
  unfold handle
  split
  · exact .inl (settled_refuse _ _ _)
  next hproven =>
  cases message with
  | hello publicKeyHex =>
      refine .inl ?_
      simp only
      split
      · exact settled_refuse _ _ _
      · exact Server.settled_done _ (by simp [Effect.silent])
  | prove signatureHex =>
      refine .inl ?_
      simp only
      split
      · exact settled_refuse _ _ _
      · exact settled_handleProve now sess signatureHex server
  | ping => exact .inl (settled_handlePing now server)
  | attachRoute routeId => exact .inl (settled_handleAttachRoute now routeId server)
  | detachRoute routeId => exact .inl (Server.settled_done _ (by simp [Effect.silent]))
  | discover routeId => exact .inl (settled_handleDiscover now sess routeId server)
  | relay type data payload routeId =>
      obtain hsettled | hleft :=
        handleRouteMessage_cases c cr now sid sess type data payload routeId server
      · exact .inl hsettled
      · exact .inr ⟨by simpa [beforeProof] using hproven, type, data, payload, routeId, rfl, hleft⟩

theorem receiveFrame_cases (c : Config) (cr : Crypto) (now : Seconds) (sid : String)
    (draws : Draws) (raw : List Char) (server : Server) :
    (receiveFrame c cr now sid draws raw server).Settled ∨
      ∃ message type data payload routeId sess, loadsStrict c.jsonLimits raw = .ok message ∧
        validateV1Message message = .ok (.relay type data payload routeId) ∧
        server.hub.sessions.get? sid = some sess ∧ sess.proven = true ∧
        LeftRelay c now sid sess data payload routeId server.hub
          (receiveFrame c cr now sid draws raw server) := by
  unfold receiveFrame
  split
  · next step heq => exact .inl (admitFrame_error heq)
  next server' json heq =>
  obtain ⟨hdecoded, htables, -⟩ := admitFrame_ok heq
  split
  · exact .inl (settled_refuse _ _ _)
  · exact .inl (Server.settled_leave _ (List.forall_mem_nil _))
  next message hmessage =>
  split
  · exact .inl (Server.settled_leave _ (List.forall_mem_nil _))
  next sess hs =>
  obtain hsettled | ⟨hproven, type, data, payload, routeId, rfl, hleft⟩ :=
    handle_cases c cr now sid draws sess message server'
  · exact .inl hsettled
  · rw [htables.sessions] at hs
    refine .inr ⟨json, type, data, payload, routeId, sess, hdecoded, hmessage, hs, hproven,
      hleft.attached, hleft.hops, hleft.effects, ?_⟩
    rw [hleft.next, routeSubscribers, htables.routes]
    rfl

end V1

/-! ## The second endpoint -/

namespace V2

variable {m : MeshConfig} {cr : Crypto} {trust : NodeTrust} {sid : String} {id : Json}

theorem settled_refuse (id : Json) (server : Server) (code message : String) :
    (refuse id server code message).Settled :=
  server.settled_done (by simp [Effect.silent])

theorem settled_handleHello (now : Clocks) (draws : Draws) (sess : Session) (grant : Payload)
    (identityKeyHex encryptionKeyHex : String) (server : Server) :
    (handleHello m cr trust now sid id draws sess grant identityKeyHex encryptionKeyHex
      server).Settled := by
  unfold handleHello
  split
  · exact settled_refuse _ _ _ _
  split
  · exact settled_refuse _ _ _ _
  split
  · exact Server.settled_leave _ nofun
  · exact settled_refuse _ _ _ _
  simp only
  split
  · exact Server.settled_done _ (by simp [answer, Effect.silent])
  · exact Server.settled_leave _ nofun

theorem settled_handleProve (now : Clocks) (sess : Session) (signatureHex : String)
    (server : Server) : (handleProve m cr now sid id sess signatureHex server).Settled := by
  unfold handleProve
  split
  · exact settled_refuse _ _ _ _
  simp only
  split
  · exact Server.settled_done _ (by simp [Effect.silent])
  split
  · exact Server.settled_leave _ nofun
  split
  · exact settled_refuse _ _ _ _
  split
  · exact Server.settled_done _ (by simp [Effect.silent])
  · exact Server.settled_done _ (by simp [answer, Effect.silent])

theorem settled_handlePing (now : Clocks) (server : Server) :
    (handlePing now sid id server).Settled := by
  unfold handlePing
  simp only
  split
  · exact settled_refuse _ _ _ _
  · exact Server.settled_done _ (by simp [Effect.silent])

theorem settled_handleAttachRoute (now : Clocks) (routeTag : String) (server : Server) :
    (handleAttachRoute m cr now sid id routeTag server).Settled := by
  unfold handleAttachRoute
  simp only
  split
  · exact settled_refuse _ _ _ _
  split
  · exact Server.settled_leave _ nofun
  · exact settled_refuse _ _ _ _
  · exact Server.settled_done _ (silent_toNode _ (by simp [answer, Effect.silent]))

theorem settled_handleDiscover (now : Clocks) (sess : Session) (routeTag : String)
    (server : Server) : (handleDiscover m cr now sid id sess routeTag server).Settled := by
  unfold handleDiscover
  simp only
  split
  · exact settled_refuse _ _ _ _
  split
  · exact settled_refuse _ _ _ _
  split
  · exact Server.settled_done _ (by simp [peersReply, answer, Effect.silent])
  · exact ⟨List.forall_mem_nil _, fun _ _ h => by cases h⟩

theorem next_relaySignal (now : Clocks) (draws : Draws) (signal : Signal) (server : Server)
    (subscribers : List String) (outgoing : Json) :
    (relaySignal m now sid id draws signal server).next ≠
      .waiting (.relay subscribers outgoing) := by
  unfold relaySignal
  simp only
  split
  · nofun
  split
  · nofun
  split
  · nofun
  · nofun

theorem next_handleSignal (m : MeshConfig) (cr : Crypto) (now : Clocks) (sid : String) (id : Json)
    (draws : Draws) (sess : Session) (signal : Signal) (server : Server)
    (subscribers : List String) (outgoing : Json) :
    (handleSignal m cr now sid id draws sess signal server).next ≠
      .waiting (.relay subscribers outgoing) := by
  unfold handleSignal
  simp only
  split
  · nofun
  split
  · nofun
  split
  · nofun
  split
  · nofun
  split
  · nofun
  split
  · nofun
  split
  · nofun
  split
  · nofun
  split
  · nofun
  · exact next_relaySignal now draws signal _ subscribers outgoing

/-- A signal that was accepted: what it went through, and what became of it. -/
structure Accepted (cr : Crypto) (now : Clocks) (sid : String) (id : Json) (sess : Session)
    (signal : Signal) (server : Server) (effects : List Effect) : Prop where
  checked : SignalChecked cr sid sess signal
  relayed : ∃ server' rest, server.hub.SameTables server'.hub ∧ server'.mesh = server.mesh ∧
    effects = .signalAccepted signal :: rest ∧
    Relayed now sid id signal (watermarked sid signal server') rest

theorem handle_cases (m : MeshConfig) (cr : Crypto) (trust : NodeTrust) (now : Clocks)
    (sid : String) (id : Json) (draws : Draws) (sess : Session) (request : V2Request)
    (server : Server) :
    (handle m cr trust now sid id draws sess request server).Settled ∨
      sess.proven = true ∧
      (∀ subscribers outgoing, (handle m cr trust now sid id draws sess request server).next ≠
        .waiting (.relay subscribers outgoing)) ∧
      ∃ signal, request = .signal signal ∧ Accepted cr now sid id sess signal server
        (handle m cr trust now sid id draws sess request server).effects := by
  unfold handle
  split
  · exact .inl (settled_refuse _ _ _ _)
  next hproven =>
  cases request with
  | hello grant identityKeyHex encryptionKeyHex =>
      exact .inl (settled_handleHello now draws sess grant identityKeyHex encryptionKeyHex server)
  | prove signatureHex => exact .inl (settled_handleProve now sess signatureHex server)
  | ping => exact .inl (settled_handlePing now server)
  | attachRoute routeTag => exact .inl (settled_handleAttachRoute now routeTag server)
  | detachRoute routeTag =>
      exact .inl (Server.settled_done _ (silent_toNode _ (by simp [answer, Effect.silent])))
  | discover routeTag => exact .inl (settled_handleDiscover now sess routeTag server)
  | signal signal =>
      have hnext := next_handleSignal m cr now sid id draws sess signal server
      obtain ⟨hplain, -⟩ | ⟨hchecked, server', htables, -, hmesh, heq⟩ :=
        handleSignal_cases m cr now sid id draws sess signal server
      · exact .inl ⟨fun e he => Effect.silent_of_plain (hplain e he), hnext⟩
      · obtain ⟨-, effects, heffects, hrelayed⟩ :=
          relaySignal_cases m now sid id draws signal (watermarked sid signal server')
        rw [← heq] at heffects
        exact .inr ⟨by simpa [beforeProof] using hproven, hnext, signal, rfl, hchecked, server',
          effects, htables, hmesh, heffects, hrelayed⟩

theorem receiveFrame_cases (m : MeshConfig) (cr : Crypto) (trust : NodeTrust) (now : Clocks)
    (sid : String) (draws : Draws) (raw : List Char) (server : Server) :
    (receiveFrame m cr trust now sid draws raw server).Settled ∨
      (∀ subscribers outgoing, (receiveFrame m cr trust now sid draws raw server).next ≠
        .waiting (.relay subscribers outgoing)) ∧
      ∃ data id signal sess, loadsStrict m.toConfig.jsonLimits raw = .ok data ∧
        validateV2Message data = .ok ⟨id, .signal signal⟩ ∧
        server.hub.sessions.get? sid = some sess ∧ sess.proven = true ∧
        Accepted cr now sid (idJson id) sess signal server
          (receiveFrame m cr trust now sid draws raw server).effects := by
  unfold receiveFrame
  split
  · next step heq => exact .inl (admitFrame_error heq)
  next server' data heq =>
  obtain ⟨hdecoded, htables, hmesh⟩ := admitFrame_ok heq
  split
  · exact .inl (Server.settled_done _ (by simp [Effect.silent]))
  · exact .inl (Server.settled_leave _ (List.forall_mem_nil _))
  next message hmessage =>
  split
  · exact .inl (Server.settled_leave _ (List.forall_mem_nil _))
  next sess hs =>
  obtain hsettled | ⟨hproven, hnext, signal, hrequest, hchecked, server'', rest, htables', hmesh',
      heffects, hrelayed⟩ :=
    handle_cases m cr trust now sid (idJson message.id) draws sess message.request server'
  · exact .inl hsettled
  · rw [htables.sessions] at hs
    obtain ⟨id, request⟩ := message
    simp only at hrequest
    subst hrequest
    exact .inr ⟨hnext, data, id, signal, sess, hdecoded, hmessage, hs, hproven, hchecked, server'',
      rest, ⟨htables'.sessions.trans htables.sessions, htables'.routes.trans htables.routes⟩,
      hmesh'.trans hmesh, heffects, hrelayed⟩

end V2

/-! ## The messages of a peer -/

namespace Server

variable {m : MeshConfig} {cr : Crypto} {now : Clocks} {nodeId : String} {link : Nat}
variable {server : Server} {payload : Payload} {step : Step}

/-- A SIGNAL_FORWARD with a valid envelope for a subscriber of its route. -/
structure ForwardTo (now : Clocks) (payload : Payload) (target routeTag : String)
    (server : Server) : Prop where
  valid : validForward payload = some true
  names : payload.get "targetSessionId" = .str target
  route : payload.get "routeTag" = .str routeTag
  subscribed : target ∈ server.hub.routeSubscribers now.monotonic routeTag none

/-- The effects of a peer's message: nothing handed over, or one envelope to
the session it is for. -/
def HandsOver (m : MeshConfig) (now : Clocks) (server : Server) (payload : Payload)
    (effects : List Effect) : Prop :=
  (∀ e ∈ effects, e.silent = true) ∨
    ∃ (target routeTag : String) (ack : Send), ForwardTo now payload target routeTag server ∧
      effects = [.sendSession target (payload.get "envelope")
        (server.hub.sendSession m.toConfig target (payload.get "envelope")).2, .toNode ack]

theorem handleSignalForward_handsOver
    (h : server.handleSignalForward m now link payload = some step) :
    server.HandsOver m now payload step.effects := by
  unfold handleSignalForward at h
  split at h
  · cases h
  next valid hvalid =>
  simp only at h
  split at h
  · next target routeTag htarget htag =>
      split at h
      · next hboth =>
          rw [Bool.and_eq_true, decide_eq_true_eq] at hboth
          cases h
          obtain ⟨rfl, hsub⟩ := hboth
          exact .inr ⟨target, routeTag, _, ⟨hvalid, htarget, htag, hsub⟩, rfl⟩
      · cases h
        exact .inl (by simp [done, Effect.silent])
  · cases h
    exact .inl (by simp [done, Effect.silent])

theorem silent_withMesh (server : Server) (mesh : NodeMesh) (sends : List Send) :
    ∀ e ∈ (server.withMesh mesh sends).effects, e.silent = true := by
  intro e he
  obtain ⟨send, -, rfl⟩ := List.mem_map.mp he
  rfl

theorem handleMessage_handsOver {type : String}
    (h : server.handleMessage m cr now nodeId link type payload = some step) :
    server.HandsOver m now payload step.effects := by
  unfold handleMessage at h
  simp only at h
  split at h
  · cases h
    exact .inl (silent_withMesh _ _ _)
  split at h
  · cases h
    exact .inl (silent_withMesh _ _ _)
  split at h
  · cases h
    exact .inl (silent_withMesh _ _ _)
  split at h
  · obtain ⟨mesh, -, rfl⟩ := Option.map_eq_some_iff.mp h
    exact .inl (silent_withMesh _ _ _)
  split at h
  · exact handleSignalForward_handsOver h
  split at h
  · obtain ⟨mesh, -, rfl⟩ := Option.map_eq_some_iff.mp h
    exact .inl (silent_withMesh _ _ _)
  split at h
  · cases h
    exact .inl (silent_withMesh _ _ _)
  · cases h
    exact .inl nofun

theorem receiveNodeFrame_handsOver (m : MeshConfig) (cr : Crypto) (now : Clocks)
    (nodeId : String) (link : Nat) (bucket : TokenBucket) (raw : List Char) (server : Server) :
    ∃ server' payload, server.hub.SameTables server'.hub ∧
      HandsOver m now server' payload
        (server.receiveNodeFrame m cr now nodeId link bucket raw).2.effects := by
  have hnone : ∃ server' payload, server.hub.SameTables server'.hub ∧
      HandsOver m now server' payload [] :=
    ⟨server, [], ⟨rfl, rfl⟩, .inl nofun⟩
  unfold receiveNodeFrame
  split
  · exact hnone
  simp only
  split
  · exact hnone
  split
  · exact hnone
  split
  · exact hnone
  · exact hnone
  next type id payload _ =>
  simp only
  obtain ⟨seen, heq⟩ := checkAndMarkSeen_hub server.hub m.toConfig now.monotonic
    s!"node:{nodeId}:{id}" m.dedupeWindowSeconds
  split
  · exact hnone
  refine ⟨{ server with
    hub := (server.hub.checkAndMarkSeen m.toConfig now.monotonic
      s!"node:{nodeId}:{id}" m.dedupeWindowSeconds).1 }, payload, ?_, ?_⟩
  · rw [heq]
    exact ⟨rfl, rfl⟩
  · generalize hstep : handleMessage _ _ _ _ _ _ _ _ = result
    cases result with
    | none => exact .inl nofun
    | some step => exact handleMessage_handsOver hstep

end Server

/-! ## Every event -/

namespace ServerRun

variable {m : MeshConfig} {cr : Crypto} {trust : NodeTrust} {s : ServerRun} {e : ServerEvent}

/-- What an event adds to the log, where messages are handed over in it. -/
inductive Handover (m : MeshConfig) (cr : Crypto) (s : ServerRun) (e : ServerEvent) :
    List Entry → Prop
  | silent {entries : List Entry} (h : ∀ entry ∈ entries, entry.effect.silent = true) :
      Handover m cr s e entries
  | signal {sid : String} {raw : List Char} {draws : Draws} {conn : Connection} {data : Json}
      {id : Option String} {signal : Signal} {sess : Session} {effects : List Effect}
      (hop : e.op = .frame sid raw draws) (hconn : s.connections.get? sid = some conn)
      (hv2 : conn.endpoint = .v2) (hmessage : validateV2Message data = .ok ⟨id, .signal signal⟩)
      (hs : s.server.hub.sessions.get? sid = some sess) (hproven : sess.proven = true)
      (h : V2.Accepted cr e.now sid (idJson id) sess signal s.server effects) :
      Handover m cr s e (effects.map (Entry.mk (.client .v2 sid)))
  | relay {sid : String} {arrived : Bool} {conn : Connection} {subscribers : List String}
      {outgoing : Json} (hop : e.op = .resume sid arrived)
      (hconn : s.connections.get? sid = some conn)
      (hphase : conn.phase = .waiting (.relay subscribers outgoing)) :
      Handover m cr s e
        ((V1.relayTo m.toConfig outgoing subscribers s.server).effects.map
          (Entry.mk (.client conn.endpoint sid)))
  | forward {socket : Nat} {raw : List Char} {link : Link} {server : Server}
      {payload : Payload} {effects : List Effect} (hop : e.op = .nodeFrame socket raw)
      (hlink : s.links.get? socket = some link) (htables : s.server.hub.SameTables server.hub)
      (h : server.HandsOver m e.now payload effects) :
      Handover m cr s e (effects.map (Entry.mk (.node link.nodeId)))

theorem silent_map {actor : Actor} {effects : List Effect}
    (h : ∀ e ∈ effects, e.silent = true) :
    ∀ entry ∈ effects.map (Entry.mk actor), entry.effect.silent = true := by
  intro entry hentry
  obtain ⟨effect, heffect, rfl⟩ := List.mem_map.mp hentry
  exact h effect heffect

/-- A step of a handler adds its effects. -/
theorem log_applyStep (sid : String) (conn : Connection) (step : Step) :
    (s.applyStep sid conn step).log =
      s.log ++ step.effects.map (Entry.mk (.client conn.endpoint sid)) := rfl

theorem log_linkDown (now : Clocks) (socket : Nat) :
    (s.linkDown m cr now socket).log = s.log := by
  unfold linkDown
  split
  · rfl
  simp only
  split
  · rfl
  · rfl

/-- Nothing is added. -/
theorem handover_none {log' : List Entry} (h : log' = s.log) :
    ∃ entries, log' = s.log ++ entries ∧ Handover m cr s e entries :=
  ⟨[], by rw [h, List.append_nil], .silent nofun⟩

theorem handover_settled {sid : String} {conn : Connection} {step : Step}
    (h : ∀ e ∈ step.effects, e.silent = true) :
    ∃ entries, (s.applyStep sid conn step).log = s.log ++ entries ∧ Handover m cr s e entries :=
  ⟨_, log_applyStep sid conn step, .silent (silent_map h)⟩

theorem handover_sends {log' : List Entry} (sends : List Send)
    (h : log' = s.log ++ sends.map fun send => Entry.mk .itself (.toNode send)) :
    ∃ entries, log' = s.log ++ entries ∧ Handover m cr s e entries := by
  refine ⟨_, h, .silent fun entry hentry => ?_⟩
  obtain ⟨send, -, rfl⟩ := List.mem_map.mp hentry
  rfl

theorem handover_clientEvent (m : MeshConfig) (cr : Crypto) (trust : NodeTrust) {sid : String}
    {conn : Connection} (hclient : e.op.client? = some sid)
    (hconn : s.connections.get? sid = some conn) :
    ∃ entries, (s.clientEvent m cr trust e.now sid conn e.op).log = s.log ++ entries ∧
      Handover m cr s e entries := by
  have htimeout : ∀ error, ∀ e ∈ (s.server.proofTimeout error).effects, e.silent = true := by
    intro error
    simp [Server.proofTimeout, Server.leave, Effect.silent]
  cases hop : e.op with
  | loop _ =>
      simp only [clientEvent]
      split
      · unfold ServerRun.loop
        split
        · exact handover_none rfl
        split
        · exact handover_none rfl
        split
        · exact handover_settled (htimeout _)
        · exact handover_none rfl
      · exact handover_none rfl
  | frame other raw draws =>
      rw [hop] at hclient
      cases hclient
      simp only [clientEvent]
      split
      · unfold ServerRun.frame
        split
        · obtain hsettled | ⟨_, _, _, _, _, _, -, -, -, -, hleft⟩ :=
            V1.receiveFrame_cases m.toConfig cr e.now.monotonic sid draws raw s.server
          · exact handover_settled hsettled.silent
          · exact handover_settled (by rw [hleft.effects]; exact List.forall_mem_nil _)
        · next hv2 =>
            obtain hsettled | ⟨-, data, id, signal, sess, -, hmessage, hs, hproven, haccepted⟩ :=
              V2.receiveFrame_cases m cr trust e.now sid draws raw s.server
            · exact handover_settled hsettled.silent
            · refine ⟨_, log_applyStep sid conn _, ?_⟩
              rw [hv2]
              exact .signal hop hconn hv2 hmessage hs hproven haccepted
      · exact handover_none rfl
  | timeout _ =>
      simp only [clientEvent]
      split
      · split
        · exact handover_settled (htimeout _)
        · exact handover_none rfl
      · exact handover_none rfl
  | disconnect _ =>
      simp only [clientEvent]
      split
      · exact handover_none rfl
      · exact handover_none rfl
      · exact handover_none rfl
  | ask _ queryIds =>
      simp only [clientEvent, ServerRun.ask]
      split
      · exact handover_sends _ rfl
      · exact handover_none rfl
  | answered _ queryId arrived =>
      simp only [clientEvent, ServerRun.answered]
      split
      · split
        · exact handover_sends _ rfl
        · exact handover_none rfl
      · exact handover_none rfl
  | resume other arrived =>
      rw [hop] at hclient
      cases hclient
      simp only [clientEvent, ServerRun.resume]
      split
      · next subscribers outgoing hphase =>
          exact ⟨_, log_applyStep sid conn _, .relay hop hconn hphase⟩
      · split
        · exact handover_settled (by
            simp [V2.finishDiscover, Server.done, V2.peersReply, V2.answer, Effect.silent])
        · exact handover_none rfl
      · exact handover_settled (by
          simp [V2.finishSignal, Server.done, V2.signalAck, V2.answer, Effect.silent])
      · exact handover_none rfl
  | finish _ =>
      simp only [clientEvent, ServerRun.finish]
      split
      · exact handover_none rfl
      · exact handover_none rfl
      · exact handover_settled (Server.silent_withMesh _ _ _)
      · exact handover_none rfl
      · exact handover_none rfl
  | _ => exact handover_none rfl

theorem handover_serverEvent (m : MeshConfig) (cr : Crypto) (s : ServerRun) (e : ServerEvent) :
    ∃ entries, (s.serverEvent m cr e.now e.op).log = s.log ++ entries ∧
      Handover m cr s e entries := by
  cases hop : e.op with
  | connect endpoint sid =>
      simp only [ServerRun.serverEvent, ServerRun.connect]
      split
      · exact handover_none rfl
      · exact handover_none rfl
  | linkUp nodeId socket =>
      simp only [ServerRun.serverEvent, ServerRun.linkUp]
      split
      · exact handover_none rfl
      · exact handover_none rfl
  | linkDown socket => exact handover_none (log_linkDown e.now socket)
  | nodeFrame socket raw =>
      simp only [ServerRun.serverEvent, ServerRun.nodeFrame]
      split
      · exact handover_none rfl
      next link hlink =>
      obtain ⟨server', payload, htables, hhands⟩ := Server.receiveNodeFrame_handsOver m cr e.now
        link.nodeId socket link.bucket raw s.server
      refine ⟨_, ?_, .forward hop hlink htables hhands⟩
      split
      · rfl
      · rw [log_linkDown]
  | rebalance index =>
      simp only [ServerRun.serverEvent, ServerRun.rebalance]
      split
      · exact handover_none rfl
      unfold rebalanceStep
      split
      · exact handover_sends _ rfl
      · exact handover_none rfl
      · exact handover_sends _ rfl
  | membershipTick => exact handover_sends _ rfl
  | _ => exact handover_none rfl

/-- What an event adds to the log is one of the four kinds. -/
theorem handover_after (m : MeshConfig) (cr : Crypto) (trust : NodeTrust) (s : ServerRun)
    (e : ServerEvent) :
    ∃ entries, (s.after m cr trust e).log = s.log ++ entries ∧ Handover m cr s e entries := by
  show ∃ entries, (s.apply m cr trust e.now e.op).log = s.log ++ entries ∧
    Handover m cr s e entries
  unfold ServerRun.apply
  split
  · exact handover_serverEvent m cr s e
  next sid hclient =>
  split
  · exact handover_none rfl
  next conn hconn =>
  exact handover_clientEvent m cr trust hclient hconn

end ServerRun

end Masterserver
