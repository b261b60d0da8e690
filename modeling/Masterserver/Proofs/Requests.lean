import Masterserver.Proofs.Remembered
import Masterserver.Proofs.RequestOps

/-!
# What an event does about the requests

An event of a server makes one request to hand a signal over, serves one of a
peer, takes the answer to one of its own, or does nothing about them.
`course_after` says so for every event, with what each of the four leaves in
the table of requests, in the dedupe cache and in the log.
-/

namespace Masterserver

open Lib Protocol NodeMesh

/-! ## The messages of a peer -/

/-- A message that `send_session` took. -/
def Effect.isQueued : Effect → Bool
  | .sendSession _ _ delivered => delivered
  | _ => false

namespace Server

variable {m : MeshConfig} {cr : Crypto} {now : Clocks} {nodeId : String} {link : Nat}
variable {server server' : Server} {payload : Payload} {step : Step}

/-- The effects of a SIGNAL_FORWARD: the envelope is handed to a session or
not, and the answer says whether it was queued. -/
def Answers (link : Nat) (payload : Payload) (effects : List Effect) : Prop :=
  effects = [.toNode ⟨link, .ack (payload.get "requestId") false⟩] ∨
    ∃ target delivered, payload.get "targetSessionId" = .str target ∧
      effects = [.sendSession target (payload.get "envelope") delivered,
        .toNode ⟨link, .ack (payload.get "requestId") delivered⟩]

/-- What a message of a peer does about requests. -/
inductive Treats (link : Nat) (type : String) (payload : Payload) (server : Server)
    (step : Step) : Prop
  | rests (h : server.Rests step) (hqueued : ∀ e ∈ step.effects, e.isQueued = false)
  | serves (htype : type = "SIGNAL_FORWARD") (hmesh : step.server.mesh = server.mesh)
      (hseen : step.server.hub.seen = server.hub.seen) (hnext : step.next = .goOn)
      (h : Answers link payload step.effects)
  | acked {requestId : String} {delivered : Bool} (htype : type = "ACK")
      (hkey : payload.get "requestId" = .str requestId)
      (hdelivered : delivered = true → payload.get "delivered" = .bool true)
      (hmesh : step.server.mesh = { server.mesh with
        pendingAcks := answerPending server.mesh.pendingAcks requestId delivered })
      (heffects : step.effects = [])

theorem handleSignalForward_treats
    (h : server.handleSignalForward m now link payload = some step) :
    Treats link "SIGNAL_FORWARD" payload server step := by
  unfold handleSignalForward at h
  split at h
  · cases h
  simp only at h
  split at h
  · next target routeTag htarget _ =>
      split at h
      · cases h
        exact .serves rfl rfl (Hub.seen_sendSession _ _ _) rfl (.inr ⟨target, _, htarget, rfl⟩)
      · cases h
        exact .serves rfl rfl rfl rfl (.inl rfl)
  · cases h
    exact .serves rfl rfl rfl rfl (.inl rfl)

theorem isQueued_withMesh (mesh : NodeMesh) (sends : List Send) :
    ∀ e ∈ (server.withMesh mesh sends).effects, e.isQueued = false := by
  intro e he
  obtain ⟨send, -, rfl⟩ := List.mem_map.mp he
  rfl

theorem treats_withMesh {type : String} {mesh : NodeMesh} {sends : List Send}
    (h : SameRequests server.mesh mesh) (hmute : Mute sends) :
    Treats link type payload server (server.withMesh mesh sends) :=
  .rests ⟨h, hmute⟩ (isQueued_withMesh mesh sends)

theorem handleAck_treats {mesh : NodeMesh} (h : server.mesh.handleAck payload = some mesh) :
    Treats link "ACK" payload server (server.withMesh mesh []) := by
  unfold handleAck at h
  cases hkey : payload.get "requestId" with
  | str requestId =>
      simp only [hkey, requestKey, Option.some.injEq] at h
      subst h
      refine .acked rfl hkey ?_ rfl rfl
      intro htrue
      split at htrue
      · next hdelivered => exact hdelivered
      · cases htrue
  | arr items => simp [hkey, requestKey] at h
  | obj members => simp [hkey, requestKey] at h
  | _ =>
      simp only [hkey, requestKey, Option.some.injEq] at h
      subst h
      exact treats_withMesh .refl rfl

theorem handleMessage_treats {type : String}
    (h : server.handleMessage m cr now nodeId link type payload = some step) :
    Treats link type payload server step := by
  unfold handleMessage at h
  simp only at h
  split at h
  · cases h
    exact treats_withMesh (sameRequests_handleRouteMessage _ _ _ _) rfl
  split at h
  · cases h
    exact treats_withMesh (sameRequests_handleRouteMessage _ _ _ _) rfl
  split at h
  · cases h
    unfold handleRouteQuery
    split
    · split
      · exact treats_withMesh (sameRequests_pruneRoutes _ _) rfl
      · exact treats_withMesh .refl rfl
    · exact treats_withMesh .refl rfl
  split at h
  · obtain ⟨mesh, hmesh, rfl⟩ := Option.map_eq_some_iff.mp h
    refine treats_withMesh ?_ rfl
    unfold handleRouteResult at hmesh
    split at hmesh
    · cases hmesh
    · cases hmesh
      exact .refl
    · cases hmesh
      exact ⟨rfl, rfl⟩
  split at h
  · next htype =>
      subst htype
      exact handleSignalForward_treats h
  split at h
  · next htype =>
      subst htype
      obtain ⟨mesh, hmesh, rfl⟩ := Option.map_eq_some_iff.mp h
      exact handleAck_treats hmesh
  split at h
  · cases h
    exact treats_withMesh (sameRequests_handleNodeState _ _ _ _ _) rfl
  · cases h
    exact .rests ⟨.refl, rfl⟩ (List.forall_mem_nil _)

/-- The key a message of a peer is marked under. -/
def messageKey (nodeId id : String) : String := s!"node:{nodeId}:{id}"

/-- A frame of a link: it comes to nothing about requests, or it is a new
message that is treated. -/
inductive FrameTreats (m : MeshConfig) (now : Clocks) (nodeId : String) (link : Nat)
    (raw : List Char) (server : Server) (step : Step) : Prop
  | rests (h : server.Rests step) (hqueued : ∀ e ∈ step.effects, e.isQueued = false)
  | serves {id : String} {payload : Payload}
      (hread : readNodeFrame m.toConfig raw = some ("SIGNAL_FORWARD", id, payload))
      (hmesh : step.server.mesh = server.mesh) (hnext : step.next = .goOn)
      (hfresh : ∀ e, server.hub.seen.get? (messageKey nodeId id) = some e → e ≤ now.monotonic)
      (hmarked : step.server.hub.seen.get? (messageKey nodeId id) =
        some (now.monotonic + m.dedupeWindowSeconds))
      (h : Answers link payload step.effects)
  | acked {id requestId : String} {payload : Payload} {delivered : Bool}
      (hread : readNodeFrame m.toConfig raw = some ("ACK", id, payload))
      (hkey : payload.get "requestId" = .str requestId)
      (hdelivered : delivered = true → payload.get "delivered" = .bool true)
      (hmesh : step.server.mesh = { server.mesh with
        pendingAcks := answerPending server.mesh.pendingAcks requestId delivered })
      (heffects : step.effects = [])

theorem FrameTreats.connections {raw : List Char}
    (h : FrameTreats m now nodeId link raw server step) :
    step.server.mesh.connections = server.mesh.connections := by
  cases h with
  | rests h => exact h.requests.connections
  | serves _ hmesh => rw [hmesh]
  | acked _ _ _ hmesh => rw [hmesh]

theorem receiveNodeFrame_treats (m : MeshConfig) (cr : Crypto) (now : Clocks) (nodeId : String)
    (link : Nat) (bucket : TokenBucket) (raw : List Char) (server : Server) :
    FrameTreats m now nodeId link raw server
      (server.receiveNodeFrame m cr now nodeId link bucket raw).2 := by
  unfold receiveNodeFrame
  split
  · exact .rests ⟨.refl, rfl⟩ nofun
  simp only
  split
  · exact .rests ⟨.refl, rfl⟩ nofun
  cases hloads : loadsStrict m.toConfig.jsonLimits raw with
  | error e => exact .rests ⟨.refl, rfl⟩ nofun
  | ok data =>
      simp only
      split
      · exact .rests ⟨.refl, rfl⟩ nofun
      · exact .rests ⟨.refl, rfl⟩ nofun
      next type id payload hvalid =>
      have hread : readNodeFrame m.toConfig raw = some (type, id, payload) := by
        unfold readNodeFrame
        rw [hloads]
        simp only [hvalid]
      split
      · exact .rests ⟨.refl, rfl⟩ nofun
      next hfresh =>
      rw [Bool.not_eq_true', Bool.not_eq_false] at hfresh
      obtain ⟨hdead, hmarked⟩ := Hub.fresh_checkAndMarkSeen hfresh
      generalize hhub : (server.hub.checkAndMarkSeen m.toConfig now.monotonic
        s!"node:{nodeId}:{id}" m.dedupeWindowSeconds).1 = hub at hmarked ⊢
      cases hstep : ({ server with hub := hub } : Server).handleMessage m cr now nodeId link type
          payload with
      | none => exact .rests ⟨.refl, rfl⟩ nofun
      | some step =>
          show FrameTreats m now nodeId link raw server step
          cases handleMessage_treats hstep with
          | rests h hqueued => exact .rests ⟨h.requests, h.exchanges⟩ hqueued
          | serves htype hmesh hseen hnext h =>
              subst htype
              refine .serves hread hmesh hnext hdead ?_ h
              show step.server.hub.seen.get? _ = _
              rw [hseen]
              exact hmarked
          | acked htype hkey hdelivered hacks heffects =>
              subst htype
              exact .acked hread hkey hdelivered hacks heffects

end Server

/-! ## Every event -/

namespace ServerRun

open Exchange

variable {m : MeshConfig} {cr : Crypto} {trust : NodeTrust} {s s' : ServerRun} {e : ServerEvent}
variable {entries : List Entry}

/-- What an event does about the requests to hand a signal over: nothing but
to take some back, or one of three things. -/
inductive Course (m : MeshConfig) (s : ServerRun) (e : ServerEvent) (server' : Server)
    (entries : List Entry) : Prop
  | idle
      (hacks : ∀ requestId answer, server'.mesh.pendingAcks.get? requestId = some answer →
        s.server.mesh.pendingAcks.get? requestId = some answer)
      (hsends : exchangeSends entries = [])
      (hqueued : ∀ source effect, ⟨.node source, effect⟩ ∈ entries → effect.isQueued = false)
  | asked {sid : String} {raw : List Char} {draws : Draws} {data : Json} {id : Option String}
      {signal : Signal} {owner : String} {link : Nat}
      (hop : e.op = .frame sid raw draws) (hloads : loadsStrict m.toConfig.jsonLimits raw = .ok data)
      (hvalid : validateV2Message data = .ok ⟨id, .signal signal⟩)
      (hacks : server'.mesh.pendingAcks = s.server.mesh.pendingAcks.set draws.requestId none)
      (howner : server'.mesh.sessionNodes.get? signal.toSessionId = some owner)
      (hlink : s.server.mesh.connections.get? owner = some link)
      (hsends : exchangeSends entries = [⟨link, .signalForward draws.requestId signal.routeTag
        signal.toSessionId (V2.outgoing (idJson id) signal)⟩])
  | served {socket : Nat} {raw : List Char} {link : Link} {id : String} {payload : Payload}
      {effects : List Effect}
      (hop : e.op = .nodeFrame socket raw) (hlink : s.links.get? socket = some link)
      (hread : readNodeFrame m.toConfig raw = some ("SIGNAL_FORWARD", id, payload))
      (hacks : server'.mesh.pendingAcks = s.server.mesh.pendingAcks)
      (hfresh : ∀ expiresAt,
        s.server.hub.seen.get? (Server.messageKey link.nodeId id) = some expiresAt →
          expiresAt ≤ e.now.monotonic)
      (hmarked : server'.hub.seen.get? (Server.messageKey link.nodeId id) =
        some (e.now.monotonic + m.dedupeWindowSeconds))
      (hentries : entries = effects.map (Entry.mk (.node link.nodeId)))
      (h : Server.Answers socket payload effects)
  | acked {socket : Nat} {raw : List Char} {link : Link} {id requestId : String}
      {payload : Payload} {delivered : Bool}
      (hop : e.op = .nodeFrame socket raw) (hlink : s.links.get? socket = some link)
      (hread : readNodeFrame m.toConfig raw = some ("ACK", id, payload))
      (hkey : payload.get "requestId" = .str requestId)
      (hdelivered : delivered = true → payload.get "delivered" = .bool true)
      (hacks : server'.mesh.pendingAcks =
        answerPending s.server.mesh.pendingAcks requestId delivered)
      (hentries : entries = [])

theorem exchangeSends_map (actor : Actor) (effects : List Effect) :
    exchangeSends (effects.map (Entry.mk actor)) = effects.filterMap Effect.exchange? := by
  unfold exchangeSends
  rw [List.filterMap_map]
  rfl

/-- An event that takes its course and leaves the links alone. -/
structure Mild (m : MeshConfig) (s : ServerRun) (e : ServerEvent) (s' : ServerRun) : Prop where
  course : ∃ entries, s'.log = s.log ++ entries ∧ Course m s e s'.server entries
  connections : s'.server.mesh.connections = s.server.mesh.connections

theorem mild_none (hlog : s'.log = s.log) (h : SameRequests s.server.mesh s'.server.mesh) :
    Mild m s e s' := by
  refine ⟨⟨[], by rw [hlog, List.append_nil], .idle ?_ rfl nofun⟩, h.connections⟩
  intro requestId answer hget
  rw [← h.pendingAcks]
  exact hget

/-- A step of a client's handler. -/
theorem mild_applyStep {sid : String} {conn : Connection} {step : Step}
    (hacks : ∀ requestId answer, step.server.mesh.pendingAcks.get? requestId = some answer →
      s.server.mesh.pendingAcks.get? requestId = some answer)
    (hconnections : step.server.mesh.connections = s.server.mesh.connections)
    (hexchanges : step.exchanges = []) : Mild m s e (s.applyStep sid conn step) := by
  refine ⟨⟨_, log_applyStep sid conn step, .idle hacks ?_ ?_⟩, hconnections⟩
  · rw [exchangeSends_map]
    exact hexchanges
  · intro source effect hmem
    obtain ⟨_, -, heq⟩ := List.mem_map.mp hmem
    cases heq

theorem mild_rests {sid : String} {conn : Connection} {step : Step} (h : s.server.Rests step) :
    Mild m s e (s.applyStep sid conn step) := by
  refine mild_applyStep ?_ h.requests.connections h.exchanges
  intro requestId answer hget
  rw [← h.requests.pendingAcks]
  exact hget

/-- Sends of the node itself, about other things. -/
theorem mild_sends {sends : List Send}
    (hlog : s'.log = s.log ++ sends.map fun send => Entry.mk .itself (.toNode send))
    (h : SameRequests s.server.mesh s'.server.mesh) (hmute : Mute sends) : Mild m s e s' := by
  refine ⟨⟨_, hlog, .idle ?_ ?_ ?_⟩, h.connections⟩
  · intro requestId answer hget
    rw [← h.pendingAcks]
    exact hget
  · have hmap : (sends.map fun send => Entry.mk .itself (.toNode send)) =
        (sends.map Effect.toNode).map (Entry.mk .itself) := by
      rw [List.map_map]
      rfl
    rw [hmap, exchangeSends_map]
    exact hmute
  · intro source effect hmem
    obtain ⟨_, -, heq⟩ := List.mem_map.mp hmem
    cases heq

theorem mild_frame {sid : String} {conn : Connection} {raw : List Char} {draws : Draws}
    (hop : e.op = .frame sid raw draws) :
    Mild m s e (s.frame m cr trust e.now sid conn raw draws) := by
  unfold ServerRun.frame
  split
  · exact mild_rests
      (V1.alone_receiveFrame m.toConfig cr e.now.monotonic sid draws raw s.server).rests
  · obtain hrests | ⟨data, id, signal, hloads, hvalid, hasks⟩ :=
      V2.receiveFrame_asks m cr trust e.now sid draws raw s.server
    · exact mild_rests hrests
    · obtain ⟨owner, link, howner, hlink, hexchanges⟩ := hasks.exchanges
      refine ⟨⟨_, log_applyStep sid conn _, .asked hop hloads hvalid hasks.pendingAcks howner hlink
        ?_⟩, hasks.connections⟩
      rw [exchangeSends_map]
      exact hexchanges

theorem mild_clientEvent {sid : String} {conn : Connection} (hclient : e.op.client? = some sid) :
    Mild m s e (s.clientEvent m cr trust e.now sid conn e.op) := by
  have hnone : Mild m s e s := mild_none rfl .refl
  have htimeout : ∀ error, s.server.Rests (s.server.proofTimeout error) :=
    fun error => ⟨.refl, rfl⟩
  cases hop : e.op with
  | loop _ =>
      simp only [clientEvent]
      split
      · unfold ServerRun.loop
        split
        · exact mild_none rfl .refl
        split
        · exact mild_none rfl .refl
        split
        · exact mild_rests (htimeout _)
        · exact mild_none rfl .refl
      · exact hnone
  | frame other raw draws =>
      rw [hop] at hclient
      cases hclient
      simp only [clientEvent]
      split
      · exact mild_frame hop
      · exact hnone
  | timeout _ =>
      simp only [clientEvent]
      split
      · split
        · exact mild_rests (htimeout _)
        · exact hnone
      · exact hnone
  | disconnect _ =>
      simp only [clientEvent]
      split
      · exact mild_none rfl .refl
      · exact mild_none rfl .refl
      · exact hnone
  | ask _ queryIds =>
      simp only [clientEvent, ServerRun.ask]
      split
      · next routeTag _ _ queries _ =>
          have hasked := sameRequests_askAll (m := m) routeTag queries queryIds s.server.mesh
          exact mild_sends rfl hasked.1 hasked.2
      · exact hnone
  | answered _ queryId arrived =>
      simp only [clientEvent, ServerRun.answered]
      split
      · split
        · exact mild_none (List.append_nil _) ⟨rfl, rfl⟩
        · exact hnone
      · exact hnone
  | resume _ arrived =>
      simp only [clientEvent, ServerRun.resume]
      split
      · exact mild_rests (V1.alone_relayTo _ _ _).rests
      · split
        · exact mild_rests ⟨sameRequests_foldl_collect _ (s.server.mesh, _), rfl⟩
        · exact hnone
      · refine mild_applyStep ?_ rfl rfl
        intro requestId answer hget
        exact (Dict.get?_erase_eq_some.mp hget).2
      · exact hnone
  | finish _ =>
      simp only [clientEvent, ServerRun.finish]
      split
      · exact mild_none rfl .refl
      · exact mild_none rfl .refl
      · next routeTag rest _ =>
          have hremoved : s.server.Rests (V2.removeRoute m cr e.now sid routeTag s.server) :=
            ⟨Edits.sameRequests (edits_replicate (E := fun _ => False) s.server.mesh .remove _ _),
              mute_replicate s.server.mesh .remove _ _⟩
          have hmild : Mild m s e (s.applyStep sid conn _) := mild_rests hremoved
          exact ⟨hmild.course, hmild.connections⟩
      · exact mild_none rfl .refl
      · exact hnone
  | _ => exact hnone

/-- An event of a link: it comes up, goes down or carries a frame. -/
def ofLink : ServerOp → Bool
  | .linkUp _ _ | .linkDown _ | .nodeFrame _ _ => true
  | _ => false

theorem mild_serverEvent (m : MeshConfig) (cr : Crypto) (s : ServerRun) (e : ServerEvent)
    (hlink : ofLink e.op = false) : Mild m s e (s.serverEvent m cr e.now e.op) := by
  cases hop : e.op with
  | linkUp nodeId socket =>
      rw [hop] at hlink
      cases hlink
  | linkDown socket =>
      rw [hop] at hlink
      cases hlink
  | nodeFrame socket raw =>
      rw [hop] at hlink
      cases hlink
  | connect endpoint sid =>
      simp only [ServerRun.serverEvent, ServerRun.connect]
      split
      · exact mild_none rfl .refl
      · exact mild_none rfl .refl
  | rebalance index =>
      simp only [ServerRun.serverEvent, ServerRun.rebalance]
      split
      · exact mild_none rfl .refl
      next task _ =>
      unfold rebalanceStep
      split
      · exact mild_sends rfl
          (Edits.sameRequests (edits_registerLocalRoute (E := fun _ => False) _ _ _))
          (mute_registerLocalRoute _ _ _)
      · exact mild_none rfl .refl
      · refine mild_sends rfl .refl ?_
        cases task.announceTo <;> rfl
  | membershipTick =>
      refine mild_sends rfl (sameRequests_reconcileMembership s.server.mesh e.now.monotonic) ?_
      unfold Mute
      rw [List.filterMap_eq_nil_iff, List.forall_mem_map]
      intro send hsend
      obtain ⟨link, -, rfl⟩ := List.mem_map.mp hsend
      rfl
  | _ => exact mild_none rfl .refl

/-! ### The events of a link -/

theorem sameRequests_topologyChanged (now : Clocks) (mesh : NodeMesh) (announceTo : Option Nat) :
    SameRequests mesh (s.topologyChanged m cr now mesh announceTo).server.mesh := by
  have hdropped : Edits m s.server.hub now.wall (fun _ => False)
      (mesh.reconcileMembership m now.monotonic)
      ((mesh.reconcileMembership m now.monotonic).dropStaleOwnership m cr) :=
    edits_dropStaleOwnership _
  exact (sameRequests_reconcileMembership mesh now.monotonic).trans hdropped.sameRequests

/-- A link that is taken down is no longer what its node is reached by. -/
theorem linkDown_of_link (m : MeshConfig) (cr : Crypto) (s : ServerRun) (now : Clocks)
    {socket : Nat} {link : Link} (hlink : s.links.get? socket = some link) :
    (s.linkDown m cr now socket).links = s.links.erase socket ∧
      (s.linkDown m cr now socket).server.mesh.pendingAcks = s.server.mesh.pendingAcks ∧
      (s.linkDown m cr now socket).server.mesh.connections =
        if s.server.mesh.connections.get? link.nodeId = some socket then
          s.server.mesh.connections.erase link.nodeId
        else s.server.mesh.connections := by
  unfold linkDown
  simp only [hlink, releaseConnection]
  by_cases hown : s.server.mesh.connections.get? link.nodeId = some socket
  · simp only [if_pos hown]
    have hchanged := @sameRequests_topologyChanged m cr { s with links := s.links.erase socket } now
      { s.server.mesh with
        connections := s.server.mesh.connections.erase link.nodeId
        suspectedSince := s.server.mesh.suspectedSince.set link.nodeId
          (s.server.mesh.suspectedSince.getD link.nodeId now.monotonic) } none
    exact ⟨rfl, hchanged.pendingAcks, hchanged.connections⟩
  · simp only [if_neg hown]
    exact ⟨trivial, trivial, trivial⟩

theorem linkDown_cases (m : MeshConfig) (cr : Crypto) (s : ServerRun) (now : Clocks)
    (socket : Nat) :
    s.linkDown m cr now socket = s ∨
      ∃ link, s.links.get? socket = some link ∧
        (s.linkDown m cr now socket).links = s.links.erase socket ∧
        (s.linkDown m cr now socket).server.mesh.pendingAcks = s.server.mesh.pendingAcks ∧
        (s.linkDown m cr now socket).server.mesh.connections =
          if s.server.mesh.connections.get? link.nodeId = some socket then
            s.server.mesh.connections.erase link.nodeId
          else s.server.mesh.connections := by
  cases hlink : s.links.get? socket with
  | none =>
      unfold linkDown
      rw [hlink]
      exact .inl rfl
  | some link => exact .inr ⟨link, rfl, linkDown_of_link m cr s now hlink⟩

theorem pendingAcks_linkDown (m : MeshConfig) (cr : Crypto) (s : ServerRun) (now : Clocks)
    (socket : Nat) :
    (s.linkDown m cr now socket).server.mesh.pendingAcks = s.server.mesh.pendingAcks := by
  obtain heq | ⟨_, -, -, hacks, -⟩ := linkDown_cases m cr s now socket
  · rw [heq]
  · exact hacks

theorem course_nodeFrame {socket : Nat} {raw : List Char} (hop : e.op = .nodeFrame socket raw) :
    ∃ entries, (s.nodeFrame m cr e.now socket raw).log = s.log ++ entries ∧
      Course m s e (s.nodeFrame m cr e.now socket raw).server entries := by
  unfold ServerRun.nodeFrame
  split
  · exact (mild_none rfl .refl).course
  next link hlink =>
  have htreats := Server.receiveNodeFrame_treats m cr e.now link.nodeId socket link.bucket raw
    s.server
  generalize (s.server.receiveNodeFrame m cr e.now link.nodeId socket link.bucket raw) = result
    at htreats ⊢
  obtain ⟨bucket, step⟩ := result
  simp only at htreats ⊢
  cases htreats with
  | rests h hqueued =>
      have hidle (server' : Server)
          (hacks : server'.mesh.pendingAcks = step.server.mesh.pendingAcks) :
          Course m s e server' (step.effects.map (Entry.mk (.node link.nodeId))) := by
        refine .idle ?_ ?_ ?_
        · intro requestId answer hget
          rw [hacks, h.requests.pendingAcks] at hget
          exact hget
        · rw [exchangeSends_map]
          exact h.exchanges
        · intro source effect hmem
          obtain ⟨_, heffect, heq⟩ := List.mem_map.mp hmem
          cases heq
          exact hqueued effect heffect
      split
      · exact ⟨_, rfl, hidle step.server rfl⟩
      · refine ⟨_, log_linkDown e.now socket, hidle _ ?_⟩
        rw [pendingAcks_linkDown]
  | serves hread hmesh hnext hfresh hmarked h =>
      rw [hnext]
      exact ⟨_, rfl, .served hop hlink hread (congrArg NodeMesh.pendingAcks hmesh) hfresh hmarked
        rfl h⟩
  | acked hread hkey hdelivered hmesh heffects =>
      have hacks := congrArg NodeMesh.pendingAcks hmesh
      rw [heffects]
      split
      · exact ⟨[], rfl, .acked hop hlink hread hkey hdelivered hacks rfl⟩
      · refine ⟨[], log_linkDown e.now socket, .acked hop hlink hread hkey hdelivered ?_ rfl⟩
        rw [pendingAcks_linkDown]
        exact hacks

/-- A link that comes up is claimed for its node, or nothing happens. -/
theorem linkUp_cases (m : MeshConfig) (cr : Crypto) (s : ServerRun) (now : Clocks)
    (nodeId : String) (socket : Nat) :
    s.linkUp m cr now nodeId socket = s ∨
      (s.linkUp m cr now nodeId socket).log = s.log ∧
        (s.linkUp m cr now nodeId socket).links =
          s.links.set socket ⟨nodeId, Server.nodeBucket now.monotonic⟩ ∧
        (s.linkUp m cr now nodeId socket).server.mesh.pendingAcks =
          s.server.mesh.pendingAcks ∧
        (s.linkUp m cr now nodeId socket).server.mesh.connections =
          s.server.mesh.connections.set nodeId socket := by
  unfold ServerRun.linkUp
  obtain heq | heq := claimConnection_cases s.server.mesh nodeId socket
  · rw [heq]
    exact .inl rfl
  · rw [heq]
    have hchanged := @sameRequests_topologyChanged m cr s now
      { s.server.mesh with connections := s.server.mesh.connections.set nodeId socket }
      (some socket)
    exact .inr ⟨rfl, rfl, hchanged.pendingAcks, hchanged.connections⟩

/-- Every event is one of the four kinds. -/
theorem course_after (m : MeshConfig) (cr : Crypto) (trust : NodeTrust) (s : ServerRun)
    (e : ServerEvent) :
    ∃ entries, (s.after m cr trust e).log = s.log ++ entries ∧
      Course m s e (s.after m cr trust e).server entries := by
  show ∃ entries, (s.apply m cr trust e.now e.op).log = s.log ++ entries ∧
    Course m s e (s.apply m cr trust e.now e.op).server entries
  have hnone : Mild m s e s := mild_none rfl .refl
  unfold ServerRun.apply
  split
  · by_cases hlink : ofLink e.op = false
    · exact (mild_serverEvent m cr s e hlink).course
    cases hop : e.op with
    | linkUp nodeId socket =>
        simp only [ServerRun.serverEvent]
        obtain heq | ⟨hlog, -, hacks, -⟩ := linkUp_cases m cr s e.now nodeId socket
        · rw [heq]
          exact hnone.course
        · refine ⟨[], by rw [hlog, List.append_nil], .idle ?_ rfl fun _ _ h => by cases h⟩
          intro requestId answer hget
          rw [← hacks]
          exact hget
    | linkDown socket =>
        refine ⟨[], ?_, .idle ?_ rfl fun _ _ h => by cases h⟩
        · rw [List.append_nil]
          exact log_linkDown e.now socket
        · intro requestId answer hget
          rw [← pendingAcks_linkDown m cr s e.now socket]
          exact hget
    | nodeFrame socket raw => exact course_nodeFrame hop
    | _ =>
        rw [hop] at hlink
        exact absurd rfl hlink
  next sid hclient =>
  split
  · exact hnone.course
  · exact (mild_clientEvent hclient).course

/-! ## The links -/

/-- A link that a node is reached by runs, and is to that node. -/
def Linked (s : ServerRun) : Prop :=
  ∀ nodeId socket, s.server.mesh.connections.get? nodeId = some socket →
    ∃ link, s.links.get? socket = some link ∧ link.nodeId = nodeId

theorem Linked.of_same (h : s.Linked)
    (hconnections : s'.server.mesh.connections = s.server.mesh.connections)
    (hlinks : s'.links = s.links) : s'.Linked := by
  unfold Linked
  rw [hconnections, hlinks]
  exact h

theorem Linked.linkDown (h : s.Linked) (m : MeshConfig) (cr : Crypto) (now : Clocks)
    (socket : Nat) : (s.linkDown m cr now socket).Linked := by
  obtain heq | ⟨link, hlink, hlinks, -, hconnections⟩ := linkDown_cases m cr s now socket
  · rw [heq]
    exact h
  intro nodeId other hget
  rw [hconnections] at hget
  have hold : s.server.mesh.connections.get? nodeId = some other ∧ other ≠ socket := by
    split at hget
    · next hown =>
        obtain ⟨hne, hget⟩ := Dict.get?_erase_eq_some.mp hget
        refine ⟨hget, fun heq => hne ?_⟩
        subst heq
        obtain ⟨link', hlink', hnode⟩ := h nodeId other hget
        rw [hlink] at hlink'
        cases hlink'
        exact hnode.symm
    · next hown =>
        refine ⟨hget, fun heq => hown ?_⟩
        subst heq
        obtain ⟨link', hlink', hnode⟩ := h nodeId other hget
        rw [hlink] at hlink'
        cases hlink'
        rw [hnode]
        exact hget
  obtain ⟨link', hlink', hnode⟩ := h nodeId other hold.1
  refine ⟨link', ?_, hnode⟩
  rw [hlinks, Dict.get?_erase_of_ne _ hold.2]
  exact hlink'

/-- A frame moves the bucket of its link, and may end it. -/
theorem Linked.nodeFrame (h : s.Linked) (m : MeshConfig) (cr : Crypto) (now : Clocks)
    (socket : Nat) (raw : List Char) : (s.nodeFrame m cr now socket raw).Linked := by
  unfold ServerRun.nodeFrame
  split
  · exact h
  next link hlink =>
  have htreats := Server.receiveNodeFrame_treats m cr now link.nodeId socket link.bucket raw
    s.server
  generalize (s.server.receiveNodeFrame m cr now link.nodeId socket link.bucket raw) = result
    at htreats ⊢
  obtain ⟨bucket, step⟩ := result
  have hmoved : ∀ log, Linked
      { s with server := step.server, links := s.links.set socket { link with bucket := bucket },
               log := log } := by
    intro log nodeId other hget
    have hold : s.server.mesh.connections.get? nodeId = some other := by
      rw [← htreats.connections]
      exact hget
    obtain ⟨link', hlink', hnode⟩ := h nodeId other hold
    simp only [Dict.get?_set]
    split
    · next heq =>
        subst heq
        rw [hlink] at hlink'
        cases hlink'
        exact ⟨_, rfl, hnode⟩
    · exact ⟨link', hlink', hnode⟩
  simp only
  split
  · exact hmoved _
  · exact (hmoved _).linkDown m cr now socket

theorem Linked.after (h : s.Linked) (hallowed : s.allowed m e.op) :
    (s.after m cr trust e).Linked := by
  show (s.apply m cr trust e.now e.op).Linked
  unfold ServerRun.apply
  split
  · by_cases hlink : ofLink e.op = false
    · refine h.of_same (mild_serverEvent m cr s e hlink).connections ?_
      cases hop : e.op with
      | linkUp nodeId socket =>
          rw [hop] at hlink
          cases hlink
      | linkDown socket =>
          rw [hop] at hlink
          cases hlink
      | nodeFrame socket raw =>
          rw [hop] at hlink
          cases hlink
      | connect endpoint sid =>
          simp only [ServerRun.serverEvent, ServerRun.connect]
          split
          · rfl
          · rfl
      | rebalance index =>
          simp only [ServerRun.serverEvent, ServerRun.rebalance]
          split
          · rfl
          unfold rebalanceStep
          split
          · rfl
          · rfl
          · rfl
      | _ => rfl
    cases hop : e.op with
    | linkUp nodeId socket =>
        rw [hop] at hallowed
        simp only [ServerRun.serverEvent]
        obtain heq | ⟨-, hlinks, -, hconnections⟩ := linkUp_cases m cr s e.now nodeId socket
        · rw [heq]
          exact h
        intro other socket' hget
        rw [hconnections, Dict.get?_set] at hget
        rw [hlinks, Dict.get?_set]
        split at hget
        · next heq =>
            cases hget
            rw [if_pos rfl]
            exact ⟨_, rfl, heq.symm⟩
        · obtain ⟨link, hlink', hnode⟩ := h other socket' hget
          split
          · next heq =>
              subst heq
              rw [hallowed.2] at hlink'
              cases hlink'
          · exact ⟨link, hlink', hnode⟩
    | linkDown socket => exact h.linkDown m cr e.now socket
    | nodeFrame socket raw => exact h.nodeFrame m cr e.now socket raw
    | _ =>
        rw [hop] at hlink
        exact absurd rfl hlink
  next sid hclient =>
  split
  · exact h
  next conn _ =>
  refine h.of_same (mild_clientEvent hclient).connections ?_
  exact links_clientEvent m cr trust s e.now sid conn e.op

theorem linked_new (incarnation : String) (clocks : Clocks) :
    (ServerRun.new m incarnation clocks).Linked := nofun

end ServerRun

end Masterserver
