import Masterserver.Proofs.Departures
import Masterserver.Runs.Exchange

/-!
# Which steps ask another node, or answer one

Three places work on the requests to hand a signal over: a checked signal for
a session elsewhere makes one, the end of its wait takes it back, and an ACK
answers it. Every other operation of the mesh leaves the links and the
requests alone and sends messages about routes and membership only; every
other branch of a handler does not even come near the mesh.
-/

namespace Masterserver

open Lib Protocol

/-! ## The operations of the mesh -/

namespace NodeMesh

variable {m : MeshConfig} {cr : Crypto} {hub : Hub} {now : Seconds} {mesh mesh' mesh'' : NodeMesh}
variable {E : String → Prop}

/-- The links and the requests that wait are left alone. -/
structure SameRequests (mesh mesh' : NodeMesh) : Prop where
  connections : mesh'.connections = mesh.connections
  pendingAcks : mesh'.pendingAcks = mesh.pendingAcks

theorem SameRequests.refl : SameRequests mesh mesh := ⟨rfl, rfl⟩

theorem SameRequests.trans (h : SameRequests mesh mesh') (h' : SameRequests mesh' mesh'') :
    SameRequests mesh mesh'' :=
  ⟨h'.connections.trans h.connections, h'.pendingAcks.trans h.pendingAcks⟩

theorem Edits.sameRequests (h : Edits m hub now E mesh mesh') : SameRequests mesh mesh' := by
  obtain ⟨_, _, _, _, rfl⟩ := h.onlyTables
  exact ⟨rfl, rfl⟩

theorem sameRequests_pruneRoutes (mesh : NodeMesh) (now : Seconds) :
    SameRequests mesh (mesh.pruneRoutes now) := by
  have hpruned : Edits .alone (.new .default 0) now (fun _ => True) mesh (mesh.pruneRoutes now) :=
    edits_pruneRoutes mesh fun _ => trivial
  exact hpruned.sameRequests

theorem sameRequests_collect (acc : NodeMesh × Dict String Descriptor) (descriptor : Json) :
    SameRequests acc.1 (collect m hub now acc descriptor).1 := by
  have hcached : SameRequests acc.1 (acc.1.cacheDescriptor m hub now descriptor).1 :=
    Edits.sameRequests (edits_cacheDescriptor (E := fun _ => False) acc.1 descriptor)
  unfold collect
  simp only
  split
  · exact hcached
  · exact hcached

theorem sameRequests_foldl_collect (descriptors : List Json)
    (acc : NodeMesh × Dict String Descriptor) :
    SameRequests acc.1 (descriptors.foldl (collect m hub now) acc).1 :=
  foldl_invariant (P := fun acc' : NodeMesh × Dict String Descriptor =>
    SameRequests acc.1 acc'.1) descriptors .refl fun _ descriptor _ ih =>
      ih.trans (sameRequests_collect _ descriptor)

theorem sameRequests_discover (m : MeshConfig) (cr : Crypto) (mesh : NodeMesh)
    (routeTag : String) :
    SameRequests mesh (mesh.discover m cr hub now routeTag).1 :=
  (sameRequests_pruneRoutes mesh now).trans
    (sameRequests_foldl_collect _ (mesh.pruneRoutes now, ∅))

theorem sameRequests_reconcileMembership (mesh : NodeMesh) (monotonic : Seconds) :
    SameRequests mesh (mesh.reconcileMembership m monotonic) := by
  unfold reconcileMembership
  simp only
  split <;> exact ⟨rfl, rfl⟩

theorem sameRequests_handleRouteMessage (mesh : NodeMesh) (nodeId : String)
    (msgType : RouteMessageType) (payload : Payload) :
    SameRequests mesh (mesh.handleRouteMessage m cr hub now nodeId msgType payload) := by
  unfold handleRouteMessage
  simp only
  split
  · split
    · exact Edits.sameRequests (edits_applyRouteMessage (E := fun _ => False) _ _ _ _)
    · exact .refl
  · exact .refl

theorem sameRequests_handleNodeState (mesh : NodeMesh) (wall monotonic : Seconds)
    (nodeId : String) (payload : Json) :
    SameRequests mesh (mesh.handleNodeState m wall monotonic nodeId payload) := by
  unfold handleNodeState
  split
  · next mesh' hrecord =>
      have hrecorded : SameRequests mesh mesh' := by
        unfold recordState at hrecord
        simp only at hrecord
        split at hrecord
        · cases hrecord
        · split at hrecord
          · cases hrecord
            exact ⟨rfl, rfl⟩
          · cases hrecord
      exact hrecorded.trans (sameRequests_reconcileMembership _ monotonic)
  · exact .refl

theorem forwardSignal_cases (m : MeshConfig) (mesh : NodeMesh)
    (requestId routeTag target : String) (envelope : Json) :
    mesh.forwardSignal m requestId routeTag target envelope = (mesh, none) ∨
      ∃ owner link, mesh.sessionNodes.get? target = some owner ∧
        mesh.connections.get? owner = some link ∧
        mesh.forwardSignal m requestId routeTag target envelope =
          ({ mesh with pendingAcks := mesh.pendingAcks.set requestId none },
            some ⟨link, .signalForward requestId routeTag target envelope⟩) := by
  unfold forwardSignal
  split
  · exact .inl rfl
  next owner howner =>
  split
  · exact .inl rfl
  split
  · exact .inl rfl
  next link hlink =>
  split
  · exact .inl rfl
  · exact .inr ⟨owner, link, howner, hlink, rfl⟩

/-! ### What they send -/

/-- Nothing that is about a signal. -/
def Mute (sends : List Send) : Prop := (sends.map Effect.toNode).filterMap Effect.exchange? = []

theorem Mute.append {sends sends' : List Send} (h : Mute sends) (h' : Mute sends') :
    Mute (sends ++ sends') := by
  unfold Mute
  rw [List.map_append, List.filterMap_append, h, h', List.nil_append]

theorem mute_replicate (mesh : NodeMesh) (msgType : RouteMessageType) (routeTag : String)
    (descriptor : Json) :
    Mute (mesh.replicate m cr hub now msgType routeTag descriptor).2 := by
  unfold replicate
  refine foldl_invariant (P := fun acc : NodeMesh × List Send => Mute acc.2) _ rfl ?_
  intro acc owner _ hacc
  unfold replicateTo
  split
  · exact hacc
  split
  · refine hacc.append ?_
    cases msgType with
    | register => exact rfl
    | remove => exact rfl
  · exact hacc

theorem mute_registerLocalRoute (mesh : NodeMesh) (routeTag sid : String) :
    Mute (mesh.registerLocalRoute m cr hub now routeTag sid).2 := by
  unfold registerLocalRoute
  split
  · exact rfl
  · exact mute_replicate _ _ _ _

/-- The questions of a discovery. -/
theorem sameRequests_askAll (routeTag : String) (queries : List Query) (queryIds : List String)
    (mesh : NodeMesh) :
    SameRequests mesh (ServerRun.askAll m routeTag queries queryIds mesh).2.1 ∧
      Mute (ServerRun.askAll m routeTag queries queryIds mesh).2.2 := by
  obtain ⟨⟨_, hmesh⟩, hsends⟩ := ServerRun.askAll_queries (m := m) routeTag queries queryIds mesh
  refine ⟨?_, ?_⟩
  · rw [hmesh]
    exact ⟨rfl, rfl⟩
  · unfold Mute
    rw [List.filterMap_eq_nil_iff, List.forall_mem_map]
    intro send hsend
    obtain ⟨queryId, hmessage⟩ := hsends send hsend
    simp [Effect.exchange?, hmessage, NodeMessage.isExchange]

end NodeMesh

/-! ## The handlers -/

open NodeMesh

variable {m : MeshConfig} {cr : Crypto} {trust : NodeTrust} {sid : String}
variable {server server' : Server}

/-- The messages of a step that are about signals. -/
def Step.exchanges (step : Step) : List Send := step.effects.filterMap Effect.exchange?

def Effect.send? : Effect → Option Send
  | .toNode send => some send
  | _ => none

/-- The messages of a step to other nodes. -/
def Step.sends (step : Step) : List Send := step.effects.filterMap Effect.send?

theorem Step.mem_sends {step : Step} {send : Send} :
    send ∈ step.sends ↔ .toNode send ∈ step.effects := by
  unfold sends
  rw [List.mem_filterMap]
  constructor
  · rintro ⟨effect, hmem, hsend⟩
    cases effect with
    | toNode other =>
        cases hsend
        exact hmem
    | _ => cases hsend
  · exact fun hmem => ⟨_, hmem, rfl⟩

theorem Step.exchanges_eq_nil {step : Step} (h : step.sends = []) : step.exchanges = [] := by
  unfold exchanges
  rw [List.filterMap_eq_nil_iff]
  intro effect hmem
  cases effect with
  | toNode send =>
      have hsend : send ∈ step.sends := Step.mem_sends.mpr hmem
      rw [h] at hsend
      cases hsend
  | _ => rfl

/-- A step that has nothing to do with other nodes. -/
structure Server.Alone (server : Server) (step : Step) : Prop where
  mesh : step.server.mesh = server.mesh
  sends : step.sends = []

/-- A step that does nothing about signals on other nodes. -/
structure Server.Rests (server : Server) (step : Step) : Prop where
  requests : SameRequests server.mesh step.server.mesh
  exchanges : step.exchanges = []

theorem Server.Alone.rests {step : Step} (h : server.Alone step) : server.Rests step :=
  ⟨⟨by rw [h.mesh], by rw [h.mesh]⟩, Step.exchanges_eq_nil h.sends⟩

theorem Server.Rests.after {step : Step} (hmesh : server'.mesh = server.mesh)
    (h : server'.Rests step) : server.Rests step :=
  ⟨hmesh ▸ h.requests, h.exchanges⟩

/-- Sends and an answer. -/
theorem exchanges_sends {sends : List Send} (h : Mute sends) {effects : List Effect}
    (heffects : effects.filterMap Effect.exchange? = []) :
    (sends.map Effect.toNode ++ effects).filterMap Effect.exchange? = [] := by
  rw [List.filterMap_append, h, heffects, List.nil_append]

theorem alone_admitFrame {c : Config} {error : String → String → Json} {now : Seconds}
    {raw : List Char} {step : Step} (h : server.admitFrame c error now sid raw = .error step) :
    server.Alone step := by
  unfold Server.admitFrame at h
  split at h
  · cases h
    exact ⟨rfl, rfl⟩
  simp only at h
  split at h
  · cases h
    exact ⟨rfl, rfl⟩
  split at h
  · cases h
    exact ⟨rfl, rfl⟩
  split at h
  · cases h
    exact ⟨rfl, rfl⟩
  · cases h
    exact ⟨rfl, rfl⟩
  · cases h

namespace V1

variable {c : Config}

theorem sends_handleProve (now : Seconds) (sess : Session) (signatureHex : String) :
    (handleProve cr now sid sess signatureHex server).sends = [] := by
  unfold handleProve
  simp only
  split
  · rfl
  split
  · rfl
  split
  · rfl
  split
  · rfl
  · rfl

theorem sends_handlePing (now : Seconds) : (handlePing now sid server).sends = [] := by
  unfold handlePing
  simp only
  split
  · rfl
  · rfl

theorem sends_handleAttachRoute (now : Seconds) (routeId : String) :
    (handleAttachRoute c now sid routeId server).sends = [] := by
  unfold handleAttachRoute
  simp only
  split
  · rfl
  split
  · rfl
  · rfl
  · rfl

theorem sends_handleDiscover (now : Seconds) (sess : Session) (routeId : String) :
    (handleDiscover now sid sess routeId server).sends = [] := by
  unfold handleDiscover
  simp only
  split
  · rfl
  split
  · rfl
  · rfl

theorem sends_handleRouteMessage (now : Seconds) (sess : Session) (type : RelayType)
    (data payload : Payload) (routeId : String) :
    (handleRouteMessage c cr now sid sess type data payload routeId server).sends = [] := by
  unfold handleRouteMessage
  generalize (if type = .forward then Operation.forward else Operation.signal) = op
  simp only
  split
  · rfl
  split
  · rfl
  split
  · rfl
  split
  · rfl
  · rfl

theorem sends_handle (now : Seconds) (draws : Draws) (sess : Session) (message : V1Message)
    (server : Server) : (handle c cr now sid draws sess message server).sends = [] := by
  unfold handle
  split
  · rfl
  cases message with
  | hello publicKeyHex =>
      simp only
      split
      · rfl
      · rfl
  | prove signatureHex =>
      simp only
      split
      · rfl
      · exact sends_handleProve now sess signatureHex
  | ping => exact sends_handlePing now
  | attachRoute routeId => exact sends_handleAttachRoute now routeId
  | detachRoute routeId => rfl
  | discover routeId => exact sends_handleDiscover now sess routeId
  | relay type data payload routeId =>
      exact sends_handleRouteMessage now sess type data payload routeId

/-- The legacy endpoint knows no other nodes. -/
theorem alone_receiveFrame (c : Config) (cr : Crypto) (now : Seconds) (sid : String)
    (draws : Draws) (raw : List Char) (server : Server) :
    server.Alone (receiveFrame c cr now sid draws raw server) := by
  refine ⟨(stays_receiveFrame c cr now sid draws raw server).mesh, ?_⟩
  unfold receiveFrame
  split
  · next step heq => exact (alone_admitFrame heq).sends
  split
  · rfl
  · rfl
  split
  · rfl
  · exact sends_handle now draws _ _ _

theorem alone_relayTo (outgoing : Json) (subscribers : List String) (server : Server) :
    server.Alone (relayTo c outgoing subscribers server) := by
  have hstays : Server.Stays (fun _ _ => True) server (relayTo c outgoing subscribers server).server :=
    stays_relayTo outgoing subscribers
  refine ⟨hstays.mesh, ?_⟩
  unfold Step.sends
  rw [List.filterMap_eq_nil_iff]
  intro e he
  obtain ⟨target, -, delivered, rfl⟩ := mem_relayTo he
  rfl

end V1

namespace V2

variable {id : Json}

theorem alone_handleHello (now : Clocks) (draws : Draws) (sess : Session) (grant : Payload)
    (identityKeyHex encryptionKeyHex : String) :
    server.Alone (handleHello m cr trust now sid id draws sess grant identityKeyHex
      encryptionKeyHex server) := by
  unfold handleHello
  split
  · exact ⟨rfl, rfl⟩
  split
  · exact ⟨rfl, rfl⟩
  split
  · exact ⟨rfl, rfl⟩
  · exact ⟨rfl, rfl⟩
  simp only
  split
  · exact ⟨rfl, rfl⟩
  · exact ⟨rfl, rfl⟩

theorem alone_handleProve (now : Clocks) (sess : Session) (signatureHex : String) :
    server.Alone (handleProve m cr now sid id sess signatureHex server) := by
  unfold handleProve
  split
  · exact ⟨rfl, rfl⟩
  simp only
  split
  · exact ⟨rfl, rfl⟩
  split
  · exact ⟨rfl, rfl⟩
  split
  · exact ⟨rfl, rfl⟩
  split
  · exact ⟨rfl, rfl⟩
  · exact ⟨rfl, rfl⟩

theorem alone_handlePing (now : Clocks) : server.Alone (handlePing now sid id server) := by
  unfold handlePing
  simp only
  split
  · exact ⟨rfl, rfl⟩
  · exact ⟨rfl, rfl⟩

theorem rests_handleAttachRoute (now : Clocks) (routeTag : String) :
    server.Rests (handleAttachRoute m cr now sid id routeTag server) := by
  unfold handleAttachRoute
  simp only
  split
  · exact ⟨.refl, rfl⟩
  split
  · exact ⟨.refl, rfl⟩
  · exact ⟨.refl, rfl⟩
  · exact ⟨Edits.sameRequests (edits_registerLocalRoute (E := fun _ => False) _ _ _),
      exchanges_sends (mute_registerLocalRoute _ _ _) rfl⟩

theorem rests_handleDetachRoute (now : Clocks) (routeTag : String) :
    server.Rests (handleDetachRoute m cr now sid id routeTag server) :=
  ⟨Edits.sameRequests (edits_replicate (E := fun _ => False) server.mesh .remove routeTag _),
    exchanges_sends (mute_replicate server.mesh .remove routeTag _) rfl⟩

theorem rests_handleDiscover (now : Clocks) (sess : Session) (routeTag : String) :
    server.Rests (handleDiscover m cr now sid id sess routeTag server) := by
  unfold handleDiscover
  simp only
  split
  · exact ⟨.refl, rfl⟩
  split
  · exact ⟨.refl, rfl⟩
  split
  · exact ⟨sameRequests_discover m cr server.mesh routeTag, rfl⟩
  · exact ⟨sameRequests_discover m cr server.mesh routeTag, rfl⟩

/-- A step that asks the node of a signal's recipient to hand the signal over. -/
structure Asks (draws : Draws) (id : Json) (signal : Signal) (server : Server) (step : Step) :
    Prop where
  connections : step.server.mesh.connections = server.mesh.connections
  pendingAcks : step.server.mesh.pendingAcks = server.mesh.pendingAcks.set draws.requestId none
  exchanges : ∃ owner link,
    step.server.mesh.sessionNodes.get? signal.toSessionId = some owner ∧
      server.mesh.connections.get? owner = some link ∧
      step.exchanges = [⟨link, .signalForward draws.requestId signal.routeTag signal.toSessionId
        (outgoing id signal)⟩]

theorem Asks.after {draws : Draws} {signal : Signal} {step : Step}
    (hmesh : server'.mesh = server.mesh) (h : Asks draws id signal server' step) :
    Asks draws id signal server step :=
  ⟨hmesh ▸ h.connections, hmesh ▸ h.pendingAcks, hmesh ▸ h.exchanges⟩

theorem relaySignal_asks (m : MeshConfig) (now : Clocks) (sid : String) (id : Json) (draws : Draws)
    (signal : Signal) (server : Server) :
    server.Rests (relaySignal m now sid id draws signal server) ∨
      Asks draws id signal server (relaySignal m now sid id draws signal server) := by
  have hlookup : SameRequests server.mesh
      (recipientKeyId now signal.toSessionId server).1.mesh := by
    unfold recipientKeyId
    split
    · exact .refl
    · have hlooked : Edits m server.hub now.wall (fun _ => True) server.mesh
          (server.mesh.remoteDescriptor now.wall signal.toSessionId).1 :=
        edits_remoteDescriptor server.mesh trivial
      exact hlooked.sameRequests
  unfold relaySignal
  simp only
  split
  · exact .inl ⟨hlookup, rfl⟩
  split
  · exact .inl ⟨hlookup, rfl⟩
  generalize (recipientKeyId now signal.toSessionId server).1.mesh = mesh at hlookup ⊢
  obtain hnone | ⟨owner, link, howner, hlink, hsome⟩ :=
    forwardSignal_cases m mesh draws.requestId signal.routeTag signal.toSessionId
      (outgoing id signal)
  · rw [hnone]
    exact .inl ⟨hlookup, rfl⟩
  · rw [hsome]
    rw [hlookup.connections] at hlink
    refine .inr ⟨hlookup.connections, ?_, owner, link, howner, hlink, rfl⟩
    show mesh.pendingAcks.set _ _ = _
    rw [hlookup.pendingAcks]

theorem handleSignal_asks (m : MeshConfig) (cr : Crypto) (now : Clocks) (sid : String) (id : Json)
    (draws : Draws) (sess : Session) (signal : Signal) (server : Server) :
    server.Rests (handleSignal m cr now sid id draws sess signal server) ∨
      Asks draws id signal server (handleSignal m cr now sid id draws sess signal server) := by
  have hrelay : ∀ server' : Server, server'.mesh = server.mesh →
      server.Rests (relaySignal m now sid id draws signal server') ∨
        Asks draws id signal server (relaySignal m now sid id draws signal server') := by
    intro server' hmesh
    obtain hrests | hasks := relaySignal_asks m now sid id draws signal server'
    · exact .inl (.after hmesh hrests)
    · exact .inr (.after hmesh hasks)
  unfold handleSignal
  simp only
  split
  · exact .inl ⟨.refl, rfl⟩
  split
  · exact .inl ⟨.refl, rfl⟩
  split
  · exact .inl ⟨.refl, rfl⟩
  split
  · exact .inl ⟨.refl, rfl⟩
  split
  · exact .inl ⟨.refl, rfl⟩
  split
  · exact .inl ⟨.refl, rfl⟩
  split
  · exact .inl ⟨.refl, rfl⟩
  split
  · exact .inl ⟨.refl, rfl⟩
  split
  · exact .inl ⟨.refl, rfl⟩
  · exact hrelay _ rfl

theorem handle_asks (m : MeshConfig) (cr : Crypto) (trust : NodeTrust) (now : Clocks)
    (sid : String) (id : Json) (draws : Draws) (sess : Session) (request : V2Request)
    (server : Server) :
    server.Rests (handle m cr trust now sid id draws sess request server) ∨
      ∃ signal, request = .signal signal ∧
        Asks draws id signal server (handle m cr trust now sid id draws sess request server) := by
  unfold handle
  split
  · exact .inl ⟨.refl, rfl⟩
  cases request with
  | hello grant identityKeyHex encryptionKeyHex =>
      exact .inl (alone_handleHello now draws sess grant identityKeyHex encryptionKeyHex).rests
  | prove signatureHex => exact .inl (alone_handleProve now sess signatureHex).rests
  | ping => exact .inl (alone_handlePing now).rests
  | attachRoute routeTag => exact .inl (rests_handleAttachRoute now routeTag)
  | detachRoute routeTag => exact .inl (rests_handleDetachRoute now routeTag)
  | discover routeTag => exact .inl (rests_handleDiscover now sess routeTag)
  | signal signal =>
      obtain hrests | hasks := handleSignal_asks m cr now sid id draws sess signal server
      · exact .inl hrests
      · exact .inr ⟨signal, rfl, hasks⟩

/-- A frame of the second endpoint asks another node for nothing, or it is a
valid SIGNAL and asks for that. -/
theorem receiveFrame_asks (m : MeshConfig) (cr : Crypto) (trust : NodeTrust) (now : Clocks)
    (sid : String) (draws : Draws) (raw : List Char) (server : Server) :
    server.Rests (receiveFrame m cr trust now sid draws raw server) ∨
      ∃ data id signal, loadsStrict m.toConfig.jsonLimits raw = .ok data ∧
        validateV2Message data = .ok ⟨id, .signal signal⟩ ∧
        Asks draws (idJson id) signal server
          (receiveFrame m cr trust now sid draws raw server) := by
  unfold receiveFrame
  split
  · next step heq => exact .inl (alone_admitFrame heq).rests
  next server' data heq =>
  obtain ⟨hdecoded, -, hmesh⟩ := admitFrame_ok heq
  split
  · exact .inl (Server.Alone.rests ⟨hmesh, rfl⟩)
  · exact .inl (Server.Alone.rests ⟨hmesh, rfl⟩)
  next message hmessage =>
  split
  · exact .inl (Server.Alone.rests ⟨hmesh, rfl⟩)
  next sess _ =>
  obtain hrests | ⟨signal, hrequest, hasks⟩ :=
    handle_asks m cr trust now sid (idJson message.id) draws sess message.request server'
  · exact .inl (.after hmesh hrests)
  · refine .inr ⟨data, message.id, signal, hdecoded, ?_, hasks.after hmesh⟩
    rw [hmessage, ← hrequest]

end V2

end Masterserver
