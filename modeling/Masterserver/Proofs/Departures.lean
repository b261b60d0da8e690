import Masterserver.Proofs.Attendance
import Masterserver.Proofs.Isolation

/-!
# What an event takes off the routes and adds to the registry

`evolves_after` says of every event of a running server which attachments it
can take away and which descriptors of this node it registers. Whether the
registry still advertises what is gone is then a question about the state
before the event, one for each way to lose an attachment.
-/

namespace Masterserver

open Lib Hub NodeMesh Protocol

def ServerOp.isRebalance : ServerOp → Bool
  | .rebalance _ => true
  | _ => false

namespace ServerRun

variable {m : MeshConfig} {cr : Crypto} {trust : NodeTrust} {s s' : ServerRun}
variable {e : ServerEvent} {server' : Server}

/-- The event is a DETACH_ROUTE of a session that is listened to. -/
def Detaches (m : MeshConfig) (s : ServerRun) (e : ServerEvent) (tag sid : String) : Prop :=
  ∃ raw draws conn server data id, e.op = .frame sid raw draws ∧
    s.connections.get? sid = some conn ∧ conn.endpoint = .v2 ∧ isReceiving conn.phase = true ∧
    s.server.admitFrame m.toConfig (fun code message => v2Error code message .null)
      e.now.monotonic sid raw = .ok (server, data) ∧
    validateV2Message data = .ok ⟨id, .detachRoute tag⟩

/-- The attachments an event takes away: those of sessions that the cleanup
finds stale, leases it finds run out, what a session takes off itself, and what
the end of a connection takes with the session. -/
inductive Loses (m : MeshConfig) (cr : Crypto) (s : ServerRun) (e : ServerEvent)
    (server' : Server) : String → String → Prop
  | stale {tag sid : String} (hop : e.op = .pruneStaleSessions)
      (h : sid ∈ s.server.hub.staleSessions m.toConfig e.now.monotonic) :
      Loses m cr s e server' tag sid
  | lease {tag sid : String} (hop : e.op = .pruneRoutes)
      (h : ¬s.server.hub.Leased e.now.monotonic tag sid) : Loses m cr s e server' tag sid
  | legacy {tag sid : String} {conn : Connection} (hconn : s.connections.get? sid = some conn)
      (hv1 : conn.endpoint = .v1) : Loses m cr s e server' tag sid
  | detached {tag sid : String} (hdetach : Detaches m s e tag sid)
      (h : V2.Detached m cr e.now sid tag s.server server') : Loses m cr s e server' tag sid
  | closed {tag sid : String} {conn : Connection} (hop : e.op = .finish sid)
      (hconn : s.connections.get? sid = some conn) (hphase : conn.phase = .closing []) :
      Loses m cr s e server' tag sid

/-- A rebalancing whose turn it is to register a session on a route that the
session is no longer attached to. -/
def Reregisters (m : MeshConfig) (cr : Crypto) (s : ServerRun) (e : ServerEvent)
    (tag sid : String) : Prop :=
  ∃ index task rest d, e.op = .rebalance index ∧ s.rebalances[index]? = some task ∧
    task.routes = tag :: rest ∧ task.current = sid ∧ ¬s.server.hub.Attached tag sid ∧
    Enters m cr s.server.hub e.now.wall s.server.mesh tag sid d

/-- The descriptors of this node that an event registers. -/
def Announced (m : MeshConfig) (cr : Crypto) (s : ServerRun) (e : ServerEvent)
    (server' : Server) (tag : String) (d : Descriptor) : Prop :=
  (∃ p, server'.hub.peerDescriptor d.sessionId = some p ∧ d = leaseDescriptor m e.now.wall p) ∧
    (server'.hub.Attached tag d.sessionId ∨ Reregisters m cr s e tag d.sessionId)

structure Evolves (m : MeshConfig) (cr : Crypto) (s : ServerRun) (e : ServerEvent)
    (server' : Server) : Prop where
  attached : ∀ tag sid, s.server.hub.Attached tag sid →
    server'.hub.Attached tag sid ∨ Loses m cr s e server' tag sid
  adds : Adds m (Announced m cr s e server') s.server.mesh server'.mesh

theorem Evolves.of_attends {kept : String → String → Prop}
    (h : Hub.Attends kept s.server.hub server'.hub)
    (hloses : ∀ tag sid, ¬kept tag sid → Loses m cr s e server' tag sid)
    (hadds : Adds m (Announced m cr s e server') s.server.mesh server'.mesh) :
    Evolves m cr s e server' := by
  refine ⟨fun tag sid hattached => ?_, hadds⟩
  by_cases hkept : kept tag sid
  · exact .inl (h tag sid hkept hattached)
  · exact .inr (hloses tag sid hkept)

theorem Evolves.of_stays (h : Server.Stays (fun _ _ => True) s.server server') :
    Evolves m cr s e server' :=
  .of_attends h.attends (fun _ _ hnot => absurd trivial hnot)
    (.of_eq (congrArg NodeMesh.routeRegistry h.mesh))

theorem Evolves.of_grows {sid : String}
    (h : Server.Grows m e.now.wall sid (fun _ _ => True) s.server server') :
    Evolves m cr s e server' := by
  refine .of_attends h.attends (fun _ _ hnot => absurd trivial hnot) (h.adds.mono ?_)
  rintro tag d ⟨hattached, p, hp, rfl⟩
  have hsid : (leaseDescriptor m e.now.wall p).sessionId = sid := Hub.peerDescriptor_sessionId hp
  unfold Announced
  rw [hsid]
  exact ⟨⟨p, hp, rfl⟩, .inl hattached⟩

theorem Evolves.of_hub {hub : Hub} {kept : String → String → Prop}
    (h : Hub.Attends kept s.server.hub hub)
    (hloses : ∀ tag sid, ¬kept tag sid →
      Loses m cr s e { s.server with hub := hub } tag sid) :
    Evolves m cr s e { s.server with hub := hub } :=
  .of_attends h hloses .refl

theorem Evolves.of_mesh {mesh : NodeMesh} (h : ∀ new, Adds m new s.server.mesh mesh) :
    Evolves m cr s e { s.server with mesh := mesh } :=
  ⟨fun _ _ hattached => .inl hattached, h _⟩

theorem Evolves.refl : Evolves m cr s e s.server := .of_stays .refl

/-! ## Event by event -/

/-- The questions of a discovery become pending, and are sent. -/
theorem askAll_queries (routeTag : String) (queries : List Query) (queryIds : List String)
    (mesh : NodeMesh) :
    (∃ pending, (askAll m routeTag queries queryIds mesh).2.1 =
        { mesh with pendingQueries := pending }) ∧
      ∀ send ∈ (askAll m routeTag queries queryIds mesh).2.2,
        ∃ queryId, send.message = .routeQuery queryId routeTag := by
  fun_induction askAll m routeTag queries queryIds mesh with
  | case1 link queries queryId queryIds mesh mesh' query sends hquery _ _ _ hrest ih =>
      have howner : (∃ pending, mesh' = { mesh with pendingQueries := pending }) ∧
          ∀ send ∈ sends, ∃ queryId, send.message = .routeQuery queryId routeTag := by
        unfold queryOwner at hquery
        split at hquery
        · cases hquery
          exact ⟨⟨_, rfl⟩, nofun⟩
        · cases hquery
          exact ⟨⟨_, rfl⟩, List.forall_mem_singleton.mpr ⟨queryId, rfl⟩⟩
      rw [hrest] at ih
      obtain ⟨⟨_, rfl⟩, hsends⟩ := howner
      obtain ⟨⟨pending, hmesh⟩, hrests⟩ := ih
      exact ⟨⟨pending, hmesh⟩, List.forall_mem_append.mpr ⟨hsends, hrests⟩⟩
  | case2 mesh query queries queryIds _ _ _ _ hrest ih =>
      rw [hrest] at ih
      exact ih
  | case3 => exact ⟨⟨_, rfl⟩, nofun⟩

theorem routeRegistry_askAll (routeTag : String) (queries : List Query) (queryIds : List String)
    (mesh : NodeMesh) :
    (askAll m routeTag queries queryIds mesh).2.1.routeRegistry = mesh.routeRegistry := by
  obtain ⟨⟨_, hmesh⟩, -⟩ := askAll_queries (m := m) routeTag queries queryIds mesh
  rw [hmesh]

/-- What a peer sends takes no session off a route. -/
theorem attends_handleMessage {kept : String → String → Prop} {now : Clocks} {nodeId : String}
    {link : Nat} {server : Server} {type : String} {payload : Payload} {step : Step}
    (h : server.handleMessage m cr now nodeId link type payload = some step) :
    Hub.Attends kept server.hub step.server.hub := by
  unfold Server.handleMessage at h
  simp only at h
  split at h
  · cases h
    exact .refl
  split at h
  · cases h
    exact .refl
  split at h
  · cases h
    exact .refl
  split at h
  · obtain ⟨mesh, -, rfl⟩ := Option.map_eq_some_iff.mp h
    exact .refl
  split at h
  · unfold Server.handleSignalForward at h
    split at h
    · cases h
    simp only at h
    split at h
    · split at h
      · cases h
        exact Hub.attends_sendSession m.toConfig _ _
      · cases h
        exact .refl
    · cases h
      exact .refl
  split at h
  · obtain ⟨mesh, -, rfl⟩ := Option.map_eq_some_iff.mp h
    exact .refl
  split at h
  · cases h
    exact .refl
  · cases h
    exact .refl

theorem receiveNodeFrame_evolves (m : MeshConfig) (cr : Crypto) (now : Clocks) {nodeId : String}
    (hnode : nodeId ≠ m.nodeId) (link : Nat) (bucket : TokenBucket) (raw : List Char)
    (server : Server) (kept : String → String → Prop) (new : String → Descriptor → Prop) :
    Hub.Attends kept server.hub
        (server.receiveNodeFrame m cr now nodeId link bucket raw).2.server.hub ∧
      Adds m new server.mesh
        (server.receiveNodeFrame m cr now nodeId link bucket raw).2.server.mesh := by
  unfold Server.receiveNodeFrame
  split
  · exact ⟨.refl, .refl⟩
  simp only
  split
  · exact ⟨.refl, .refl⟩
  split
  · exact ⟨.refl, .refl⟩
  split
  · exact ⟨.refl, .refl⟩
  · exact ⟨.refl, .refl⟩
  next type id payload _ =>
  have hseen : Hub.Attends kept server.hub (server.hub.checkAndMarkSeen m.toConfig now.monotonic
      s!"node:{nodeId}:{id}" m.dedupeWindowSeconds).1 :=
    Hub.attends_checkAndMarkSeen m.toConfig now.monotonic _ _
  simp only
  split
  · exact ⟨hseen, .refl⟩
  cases hstep : ({ server with
    hub := (server.hub.checkAndMarkSeen m.toConfig now.monotonic
      s!"node:{nodeId}:{id}" m.dedupeWindowSeconds).1 } : Server).handleMessage m cr now
      nodeId link type payload with
  | none => exact ⟨hseen, .refl⟩
  | some step =>
      have hattends : Hub.Attends kept _ step.server.hub := attends_handleMessage hstep
      have hadds := @adds_handleMessage m new cr now nodeId link _ type payload step hnode hstep
      exact ⟨hseen.trans hattends, hadds⟩

theorem evolves_clientEvent {sid : String} {conn : Connection} (hclient : e.op.client? = some sid)
    (hconn : s.connections.get? sid = some conn) :
    Evolves m cr s e (s.clientEvent m cr trust e.now sid conn e.op).server := by
  cases hop : e.op with
  | loop _ =>
      simp only [clientEvent]
      split
      · unfold ServerRun.loop
        split
        · exact .refl
        split
        · exact .refl
        split
        · exact .refl
        · exact .refl
      · exact .refl
  | frame other raw draws =>
      rw [hop] at hclient
      cases hclient
      simp only [clientEvent]
      split
      · unfold ServerRun.frame
        split
        · next hv1 =>
            have hstays := V1.stays_receiveFrame m.toConfig cr e.now.monotonic sid draws raw s.server
            refine .of_attends hstays.attends (fun tag other hnot => ?_)
              (.of_eq (congrArg NodeMesh.routeRegistry hstays.mesh))
            rw [not_not] at hnot
            subst hnot
            exact .legacy hconn hv1
        · next hreceiving _ hv2 =>
          obtain hgrows | ⟨server, data, id, tag, hadmitted, hmessage, hdetached⟩ :=
            V2.receiveFrame_grows m cr trust e.now sid draws raw s.server
          · exact .of_grows hgrows
          · refine .of_attends hdetached.attends (fun t other hnot => ?_) ?_
            · rw [not_not] at hnot
              obtain ⟨rfl, rfl⟩ := hnot
              exact .detached ⟨raw, draws, conn, server, data, id, hop, hconn, hv2, hreceiving,
                hadmitted, hmessage⟩ hdetached
            · obtain ⟨hub, hmesh⟩ := hdetached.mesh
              show Adds m _ s.server.mesh (V2.receiveFrame m cr trust e.now sid draws raw
                s.server).server.mesh
              rw [hmesh]
              exact (sheds_removeLocalRoute m cr hub e.now.wall s.server.mesh tag sid).adds
      · exact .refl
  | timeout _ =>
      simp only [clientEvent]
      split
      · split
        · exact .refl
        · exact .refl
      · exact .refl
  | disconnect _ =>
      simp only [clientEvent]
      split
      · exact .refl
      · exact .refl
      · exact .refl
  | ask _ queryIds =>
      simp only [clientEvent, ServerRun.ask]
      split
      · exact .of_mesh fun new => .of_eq (routeRegistry_askAll _ _ _ _)
      · exact .refl
  | answered _ queryId arrived =>
      simp only [clientEvent, ServerRun.answered]
      split
      · split
        · exact .of_mesh fun new => .of_eq rfl
        · exact .refl
      · exact .refl
  | resume _ arrived =>
      simp only [clientEvent, ServerRun.resume]
      split
      · exact .of_stays (V1.stays_relayTo _ _)
      · split
        · exact .of_mesh fun new =>
            (sheds_discovered m s.server.hub e.now.wall s.server.mesh _ _).adds
        · exact .refl
      · exact .of_mesh fun new => .of_eq rfl
      · exact .refl
  | finish other =>
      rw [hop] at hclient
      cases hclient
      simp only [clientEvent, ServerRun.finish]
      split
      · exact .refl
      · exact .refl
      · exact .of_mesh fun new =>
          (sheds_removeLocalRoute m cr s.server.hub e.now.wall _ _ _).adds
      · next hphase =>
          refine .of_hub (Hub.attends_removeSession sid) fun tag other hnot => ?_
          rw [not_not] at hnot
          subst hnot
          exact .closed hop hconn hphase
      · exact .refl
  | _ => exact .refl

theorem sheds_linkDown (s : ServerRun) (now : Clocks) (socket : Nat) :
    (s.linkDown m cr now socket).server.hub = s.server.hub ∧
      Sheds s.server.mesh (s.linkDown m cr now socket).server.mesh := by
  unfold linkDown
  split
  · exact ⟨rfl, .refl⟩
  next link _ =>
  simp only
  split
  · exact ⟨rfl, .refl⟩
  next mesh hrelease =>
  refine ⟨rfl, ?_⟩
  have hreleased := (sameTables_releaseConnection hrelease).routeRegistry
  exact (Sheds.of_eq hreleased).trans ((sheds_reconcileMembership mesh now.monotonic).trans
    (sheds_dropStaleOwnership m cr _))

theorem sheds_linkUp (s : ServerRun) (now : Clocks) (nodeId : String) (socket : Nat) :
    (s.linkUp m cr now nodeId socket).server.hub = s.server.hub ∧
      Sheds s.server.mesh (s.linkUp m cr now nodeId socket).server.mesh := by
  unfold linkUp
  simp only
  split
  · refine ⟨rfl, ?_⟩
    have hclaim := (sameTables_claimConnection s.server.mesh nodeId socket).routeRegistry
    exact (Sheds.of_eq hclaim).trans ((sheds_reconcileMembership _ now.monotonic).trans
      (sheds_dropStaleOwnership m cr _))
  · exact ⟨rfl, .refl⟩

/-- The links are to other nodes. -/
def PeerLinks (m : MeshConfig) (s : ServerRun) : Prop :=
  ∀ socket link, s.links.get? socket = some link → link.nodeId ≠ m.nodeId

theorem evolves_serverEvent (hs : Sound m cr trust s) (hallowed : s.allowed m e.op)
    (hlinks : s.PeerLinks m) :
    Evolves m cr s e (s.serverEvent m cr e.now e.op).server := by
  have hall : ∀ server' tag sid, ¬True → Loses m cr s e server' tag sid :=
    fun _ _ _ hnot => absurd trivial hnot
  cases hop : e.op with
  | connect endpoint sid =>
      rw [hop] at hallowed
      simp only [ServerRun.serverEvent, ServerRun.connect]
      split
      · exact .refl
      · have hnone : s.server.hub.sessions.get? sid = none := by
          rw [Option.eq_none_iff_forall_ne_some]
          intro sess hsess
          obtain ⟨conn, hconn⟩ := hs.connected sid sess hsess
          exact hallowed (hs.issued hconn)
        exact .of_hub (Hub.attends_createSession e.now.monotonic hnone) (hall _)
  | pruneRoutes =>
      exact .of_hub (Hub.attends_pruneRoutes e.now.monotonic) fun tag sid h => .lease hop h
  | pruneStaleSessions =>
      refine .of_hub (Hub.attends_pruneStaleSessions m.toConfig e.now.monotonic) ?_
      intro tag sid h
      exact .stale hop (not_not.mp h)
  | pruneDedupe => exact .of_hub (.of_sessions rfl) (hall _)
  | writerDequeue sid => exact .of_hub (Hub.attends_writerDequeue sid) (hall _)
  | writerSent sid => exact .of_hub (Hub.attends_writerSent sid) (hall _)
  | writerFailed sid => exact .of_hub (Hub.attends_writerFailed sid) (hall _)
  | linkUp nodeId socket =>
      have hup := @sheds_linkUp m cr s e.now nodeId socket
      refine ⟨fun tag sid hattached => .inl ?_, hup.2.adds⟩
      show (s.linkUp m cr e.now nodeId socket).server.hub.Attached tag sid
      rw [hup.1]
      exact hattached
  | linkDown socket =>
      have hdown := @sheds_linkDown m cr s e.now socket
      refine ⟨fun tag sid hattached => .inl ?_, hdown.2.adds⟩
      show (s.linkDown m cr e.now socket).server.hub.Attached tag sid
      rw [hdown.1]
      exact hattached
  | nodeFrame socket raw =>
      simp only [ServerRun.serverEvent, ServerRun.nodeFrame]
      split
      · exact .refl
      next link hlink =>
      have hframe := receiveNodeFrame_evolves m cr e.now (hlinks socket link hlink) socket
        link.bucket raw s.server (fun _ _ => True)
      split
      · exact .of_attends (hframe fun _ _ => True).1 (hall _) (hframe _).2
      · refine .of_attends ?_ (hall _) ((hframe _).2.trans (sheds_linkDown _ e.now socket).2.adds)
        rw [(sheds_linkDown _ e.now socket).1]
        exact (hframe fun _ _ => True).1
  | rebalance index =>
      simp only [ServerRun.serverEvent, ServerRun.rebalance]
      split
      · exact .refl
      next task htask =>
      unfold rebalanceStep
      split
      · next routeTag rest hroutes =>
          refine ⟨fun _ _ hattached => .inl hattached, ?_⟩
          refine (adds_registerLocalRoute m cr s.server.hub e.now.wall s.server.mesh routeTag
            task.current).mono ?_
          rintro tag d ⟨rfl, hreg⟩
          obtain ⟨p, hp, rfl⟩ := hreg.descriptor
          have hsid : (leaseDescriptor m e.now.wall p).sessionId = task.current :=
            Hub.peerDescriptor_sessionId hp
          unfold Announced
          rw [hsid]
          refine ⟨⟨p, hp, rfl⟩, ?_⟩
          by_cases hattached : s.server.hub.Attached tag task.current
          · exact .inl hattached
          · exact .inr ⟨index, task, rest, _, hop, htask, hroutes, rfl, hattached, hreg⟩
      · exact .refl
      · exact .refl
  | membershipTick =>
      exact .of_mesh fun new => (sheds_reconcileMembership s.server.mesh e.now.monotonic).adds
  | _ => exact .refl

theorem evolves_after (hs : Sound m cr trust s) (hallowed : s.allowed m e.op)
    (hlinks : s.PeerLinks m) : Evolves m cr s e (s.after m cr trust e).server := by
  show Evolves m cr s e (s.apply m cr trust e.now e.op).server
  unfold ServerRun.apply
  split
  · exact evolves_serverEvent hs hallowed hlinks
  next sid hclient =>
  split
  · exact .refl
  next conn hconn =>
  exact evolves_clientEvent hclient hconn

/-! ## The links -/

theorem links_clientEvent (m : MeshConfig) (cr : Crypto) (trust : NodeTrust) (s : ServerRun)
    (now : Clocks) (sid : String) (conn : Connection) (op : ServerOp) :
    (s.clientEvent m cr trust now sid conn op).links = s.links := by
  unfold clientEvent
  split
  · split
    · unfold ServerRun.loop
      split
      · rfl
      split
      · rfl
      split
      · rfl
      · rfl
    · rfl
  · split
    · rfl
    · rfl
  · split
    · split
      · rfl
      · rfl
    · rfl
  · split
    · rfl
    · rfl
    · rfl
  · unfold ServerRun.ask
    split
    · rfl
    · rfl
  · unfold ServerRun.answered
    split
    · split
      · rfl
      · rfl
    · rfl
  · unfold ServerRun.resume
    split
    · rfl
    · split
      · rfl
      · rfl
    · rfl
    · rfl
  · unfold ServerRun.finish
    split
    · rfl
    · rfl
    · rfl
    · rfl
    · rfl
  · rfl

theorem PeerLinks.set (h : s.PeerLinks m) {socket : Nat} {link : Link}
    (hlinks : s'.links = s.links.set socket link) (hpeer : link.nodeId ≠ m.nodeId) :
    s'.PeerLinks m := by
  intro other link' hget
  rw [hlinks, Dict.get?_set] at hget
  split at hget
  · cases hget
    exact hpeer
  · exact h other link' hget

theorem PeerLinks.linkDown (h : s.PeerLinks m) (now : Clocks) (socket : Nat) :
    (s.linkDown m cr now socket).PeerLinks m := by
  have herase : ∀ other link, (s.links.erase socket).get? other = some link →
      link.nodeId ≠ m.nodeId := fun other link hget =>
    h other link (Dict.get?_erase_eq_some.mp hget).2
  unfold ServerRun.linkDown
  split
  · exact h
  simp only
  split
  · exact herase
  · exact herase

theorem PeerLinks.after (h : s.PeerLinks m) (hallowed : s.allowed m e.op) :
    (s.after m cr trust e).PeerLinks m := by
  show (s.apply m cr trust e.now e.op).PeerLinks m
  unfold ServerRun.apply
  split
  · cases hop : e.op with
    | connect endpoint sid =>
        simp only [ServerRun.serverEvent, ServerRun.connect]
        split
        · exact h
        · exact h
    | linkUp nodeId socket =>
        rw [hop] at hallowed
        simp only [ServerRun.serverEvent, ServerRun.linkUp]
        split
        · exact h.set rfl fun heq => m.local_notMem (heq ▸ hallowed.1)
        · exact h
    | linkDown socket => exact h.linkDown e.now socket
    | nodeFrame socket raw =>
        simp only [ServerRun.serverEvent, ServerRun.nodeFrame]
        split
        · exact h
        next link hlink =>
        generalize s.server.receiveNodeFrame m cr e.now link.nodeId socket link.bucket raw = result
        have hset : PeerLinks m { s with
            server := result.2.server
            links := s.links.set socket { link with bucket := result.1 }
            log := s.log ++ result.2.effects.map (Entry.mk (.node link.nodeId)) } :=
          h.set rfl (h socket link hlink)
        split
        · exact hset
        · exact hset.linkDown e.now socket
    | rebalance index =>
        simp only [ServerRun.serverEvent, ServerRun.rebalance]
        split
        · exact h
        unfold rebalanceStep
        split
        · exact h
        · exact h
        · exact h
    | _ => exact h
  split
  · exact h
  next sid _ conn _ =>
  unfold PeerLinks
  rw [links_clientEvent]
  exact h

theorem peerLinks_of_reachable (h : (serverSystem m cr trust).Reachable s) : s.PeerLinks m := by
  refine h.invariant ?_ ?_
  · rintro s ⟨incarnation, clocks, rfl⟩ socket link hlink
    cases hlink
  · rintro s e s' hs ⟨⟨-, hallowed⟩, rfl⟩
    exact hs.after hallowed

/-! ## What stays advertised -/

/-- The registry has a descriptor of this node for the session that has not
expired. -/
def Advertised (m : MeshConfig) (mesh : NodeMesh) (wall : Seconds) (tag sid : String) : Prop :=
  ∃ d, mesh.entry tag (m.nodeId, sid) = some d ∧ pyInt wall < d.expiresAt

theorem Advertised.mono {mesh : NodeMesh} {wall wall' : Seconds} {tag sid : String}
    (h : Advertised m mesh wall' tag sid) (hle : wall ≤ wall') : Advertised m mesh wall tag sid := by
  obtain ⟨d, hd, hlive⟩ := h
  exact ⟨d, hd, lt_of_le_of_lt (pyInt_mono hle) hlive⟩

/-- The steps that leave a descriptor behind: an attachment ends while the
registry advertises it, or a rebalancing registers one that has ended. -/
inductive LeavesBehind (m : MeshConfig) (cr : Crypto) (s : ServerRun) (e : ServerEvent) : Prop
  | stale {tag sid : String} (hop : e.op = .pruneStaleSessions)
      (h : sid ∈ s.server.hub.staleSessions m.toConfig e.now.monotonic)
      (hadv : Advertised m s.server.mesh e.now.wall tag sid)
  | lease {tag sid : String} (hop : e.op = .pruneRoutes)
      (h : ¬s.server.hub.Leased e.now.monotonic tag sid)
      (hadv : Advertised m s.server.mesh e.now.wall tag sid)
  | detached {tag sid : String} (h : Detaches m s e tag sid)
      (howner : m.nodeId ∉ s.server.mesh.ownersFor m cr tag)
      (hadv : Advertised m s.server.mesh e.now.wall tag sid)
  | closed {tag sid : String} {conn : Connection} (hop : e.op = .finish sid)
      (hconn : s.connections.get? sid = some conn) (hphase : conn.phase = .closing [])
      (hadv : Advertised m s.server.mesh e.now.wall tag sid)
  | registered {tag sid : String} (h : Reregisters m cr s e tag sid)

/-- A session with a descriptor uses the second endpoint. -/
theorem Sound.second_of_peerDescriptor (h : Sound m cr trust s) {sid : String} {p : PeerDescriptor}
    (hp : s.server.hub.peerDescriptor sid = some p) :
    ∃ conn, s.connections.get? sid = some conn ∧ conn.endpoint = .v2 := by
  unfold Hub.peerDescriptor at hp
  split at hp
  · cases hp
  next sess hs =>
  split at hp
  · cases hp
  next hok =>
  simp only [Bool.or_eq_true, Bool.not_eq_true', bne_iff_ne, ne_eq, not_or, Bool.not_eq_false,
    not_not] at hok
  obtain ⟨conn, hello, signature, hconn, hby⟩ := h.provenBy hs hok.1
  refine ⟨conn, hconn, ?_⟩
  cases hend : conn.endpoint with
  | v2 => rfl
  | v1 =>
      have hadm := hby.admitted
      rw [hend] at hadm
      have hversion : sess.protocolVersion = 1 := by
        have hcred := congrArg Credentials.protocolVersion hby.credentials
        simpa [Hello.credentials, hadm.1, Session.credentials] using hcred
      rw [hok.2] at hversion
      cases hversion

/-- Every descriptor stands under its own key; those of this node that have
not expired are of attached sessions of the second endpoint. -/
structure Truthful (m : MeshConfig) (wall : Seconds) (s : ServerRun) : Prop where
  keyed : ∀ tag key d, s.server.mesh.entry tag key = some d → key = d.key
  attached : ∀ tag sid, Advertised m s.server.mesh wall tag sid → s.server.hub.Attached tag sid
  issued : ∀ tag sid, Advertised m s.server.mesh wall tag sid → sid ∈ s.issued
  second : ∀ tag sid, Advertised m s.server.mesh wall tag sid →
    ∀ conn, s.connections.get? sid = some conn → conn.endpoint = .v2

/-- What is advertised after a step was before, or was registered by it. -/
theorem Evolves.advertised (h : Evolves m cr s e server') {tag sid : String}
    (hadv : Advertised m server'.mesh e.now.wall tag sid) :
    Advertised m s.server.mesh e.now.wall tag sid ∨
      ∃ d, d.sessionId = sid ∧ Announced m cr s e server' tag d := by
  obtain ⟨d, hd, hlive⟩ := hadv
  obtain hd | ⟨hkey, hnew⟩ := h.adds tag _ d hd
  · exact .inl ⟨d, hd, hlive⟩
  · rw [Descriptor.key, Prod.mk.injEq] at hkey
    exact .inr ⟨d, hkey.2.symm, hnew hkey.1.symm⟩

theorem Truthful.next (h : Truthful m s.clocks.wall s) (hs : Sound m cr trust s)
    (hlinks : s.PeerLinks m) (hclocks : s.clocks.before e.now) (hallowed : s.allowed m e.op)
    (hleaves : ¬LeavesBehind m cr s e) :
    Truthful m e.now.wall (s.after m cr trust e) := by
  have hevolves : Evolves m cr s e (s.after m cr trust e).server :=
    evolves_after hs hallowed hlinks
  have hs' : Sound m cr trust (s.after m cr trust e) := hs.after hallowed
  have hsecond : ∀ tag d, Announced m cr s e (s.after m cr trust e).server tag d →
      ∃ conn, (s.after m cr trust e).connections.get? d.sessionId = some conn ∧
        conn.endpoint = .v2 := by
    rintro tag d ⟨⟨p, hp, -⟩, -⟩
    exact hs'.second_of_peerDescriptor hp
  refine ⟨fun tag key d hd => ?_, fun tag sid hadv => ?_, fun tag sid hadv => ?_,
    fun tag sid hadv conn hconn => ?_⟩
  · obtain hd | ⟨hkey, -⟩ := hevolves.adds tag key d hd
    · exact h.keyed tag key d hd
    · exact hkey
  · obtain hbefore | ⟨d, rfl, -, hattached | hreg⟩ := hevolves.advertised hadv
    · have hearlier := hbefore.mono hclocks.1
      obtain hattached | hloses := hevolves.attached tag sid (h.attached tag sid hearlier)
      · exact hattached
      · cases hloses with
        | stale hop hstale => exact absurd (.stale hop hstale hbefore) hleaves
        | lease hop hlease => exact absurd (.lease hop hlease hbefore) hleaves
        | legacy hconn hv1 =>
            rw [h.second tag sid hearlier _ hconn] at hv1
            cases hv1
        | detached hdetach hdetached =>
            -- An owner takes its own descriptor off, so this node is none.
            obtain ⟨hub, hmesh⟩ := hdetached.mesh
            by_cases howner : m.nodeId ∈ s.server.mesh.ownersFor m cr tag
            · obtain ⟨d, hd, -⟩ := hadv
              rw [hmesh, entry_removeLocalRoute howner] at hd
              cases hd
            · exact absurd (.detached hdetach howner hbefore) hleaves
        | closed hop hconn hphase => exact absurd (.closed hop hconn hphase hbefore) hleaves
    · exact hattached
    · exact absurd (.registered hreg) hleaves
  · obtain hbefore | ⟨d, rfl, hnew⟩ := hevolves.advertised hadv
    · exact issued_after (h.issued tag sid (hbefore.mono hclocks.1))
    · obtain ⟨conn, hconn, -⟩ := hsecond tag d hnew
      exact hs'.issued hconn
  · obtain hbefore | ⟨d, rfl, hnew⟩ := hevolves.advertised hadv
    · have hearlier := hbefore.mono hclocks.1
      obtain ⟨conn₀, hconn₀, heq⟩ := endpoint_after hallowed (h.issued tag sid hearlier) hconn
      rw [heq]
      exact h.second tag sid hearlier conn₀ hconn₀
    · obtain ⟨conn', hconn', hv2⟩ := hsecond tag d hnew
      rw [hconn] at hconn'
      cases hconn'
      exact hv2

/-- The runs in which no step leaves a descriptor behind. -/
def tidySystem (m : MeshConfig) (cr : Crypto) (trust : NodeTrust) :
    System ServerRun ServerEvent :=
  (serverSystem m cr trust).restrict fun s e => ¬LeavesBehind m cr s e

theorem truthful_of_reachable (h : (tidySystem m cr trust).Reachable s) :
    Truthful m s.clocks.wall s := by
  obtain ⟨es, htrace⟩ := h
  induction htrace with
  | start hi =>
      obtain ⟨incarnation, clocks, rfl⟩ := hi
      have hempty : ∀ tag key d,
          (ServerRun.new m incarnation clocks).server.mesh.entry tag key ≠ some d := nofun
      exact ⟨fun tag key d hd => absurd hd (hempty tag key d),
        fun tag sid hadv => absurd hadv.choose_spec.1 (hempty tag _ _),
        fun tag sid hadv => absurd hadv.choose_spec.1 (hempty tag _ _),
        fun tag sid hadv => absurd hadv.choose_spec.1 (hempty tag _ _)⟩
  | snoc htrace hstep ih =>
      obtain ⟨hleaves, ⟨hclocks, hallowed⟩, rfl⟩ := hstep
      have hreach := htrace.reachable.of_restrict
      exact ih.next (sound_of_reachable hreach) (peerLinks_of_reachable hreach) hclocks hallowed
        hleaves

/-- In every run in which no step leaves a descriptor behind: an unexpired
descriptor of this node names a session that is here and on the route. -/
theorem local_descriptors_attached (h : (tidySystem m cr trust).Reachable s) {tag : String}
    {route : Dict (String × String) Descriptor} {key : String × String} {d : Descriptor}
    (hroute : s.server.mesh.routeRegistry.get? tag = some route) (hd : route.get? key = some d)
    (hlocal : d.nodeId = m.nodeId) (hlive : pyInt s.clocks.wall < d.expiresAt) :
    ∃ sess, s.server.hub.sessions.get? d.sessionId = some sess ∧ tag ∈ sess.routes := by
  have htruthful := truthful_of_reachable h
  have hentry : s.server.mesh.entry tag key = some d := entry_eq_some.mpr ⟨route, hroute, hd⟩
  have hkey : key = (m.nodeId, d.sessionId) := by
    rw [htruthful.keyed tag key d hentry, Descriptor.key, hlocal]
  rw [hkey] at hentry
  exact htruthful.attached tag d.sessionId ⟨d, hentry, hlive⟩

/-- An empty registry has nothing to leave behind. -/
theorem not_leavesBehind (hempty : s.server.mesh.routeRegistry.keys = [])
    (hop : e.op.isRebalance = false) : ¬LeavesBehind m cr s e := by
  have hnone : ∀ wall tag sid, ¬Advertised m s.server.mesh wall tag sid := by
    rintro wall tag sid ⟨d, hd, -⟩
    obtain ⟨route, hroute, -⟩ := entry_eq_some.mp hd
    have hmem : tag ∈ s.server.mesh.routeRegistry.keys :=
      Dict.mem_keys.mpr ⟨route, hroute⟩
    rw [hempty] at hmem
    cases hmem
  intro hleaves
  cases hleaves with
  | stale _ _ hadv => exact hnone _ _ _ hadv
  | lease _ _ hadv => exact hnone _ _ _ hadv
  | detached _ _ hadv => exact hnone _ _ _ hadv
  | closed _ _ _ hadv => exact hnone _ _ _ hadv
  | registered h =>
      obtain ⟨index, task, rest, d, hrebalance, -⟩ := h
      rw [hrebalance] at hop
      cases hop

end ServerRun

/-! ## A session that stays and one that goes -/

namespace Sample

theorem reachable_tidy (m : MeshConfig) (events : List ServerEvent)
    (h : System.Meets
      (fun s e => (s.clocks.before e.now ∧ s.allowed m e.op) ∧
        s.server.mesh.routeRegistry.keys = [] ∧ e.op.isRebalance = false)
      (ServerRun.after m crypto trust) (start m) events) :
    (ServerRun.tidySystem m crypto trust).Reachable (run m events) := by
  refine System.Reachable.restrict_mono (fun s e h => ServerRun.not_leavesBehind h.1 h.2)
    (System.Reachable.restrict_restrict (System.reachable_foldl (.start ?_) events h))
  exact ⟨"", ⟨0, 0⟩, rfl⟩

/-- Whether this node advertises the session on the route of zeros. -/
def advertises (m : MeshConfig) (s : ServerRun) (sid : String) : Bool :=
  ((s.server.mesh.routeRegistry.get? (String.ofList (List.replicate 64 '0'))).bind
    (·.get? (m.nodeId, sid))).any fun d =>
      d.nodeId = m.nodeId ∧ d.sessionId = sid ∧ pyInt s.clocks.wall < d.expiresAt

theorem advertises_iff {m : MeshConfig} {s : ServerRun} {sid : String}
    (h : advertises m s sid = true) :
    ∃ tag route key d, s.server.mesh.routeRegistry.get? tag = some route ∧
      route.get? key = some d ∧ d.nodeId = m.nodeId ∧ d.sessionId = sid ∧
      pyInt s.clocks.wall < d.expiresAt := by
  unfold advertises at h
  rw [Option.any_eq_true] at h
  obtain ⟨d, hd, hok⟩ := h
  obtain ⟨route, hroute, hget⟩ := Option.bind_eq_some_iff.mp hd
  exact ⟨_, route, _, d, hroute, hget, of_decide_eq_true hok⟩

/-- A client proves its key at once and attaches to its route 50 seconds later. -/
def lateAttached (m : MeshConfig) (sid : String) : List ServerEvent :=
  event 0 (.connect .v2 sid) ::
    (message 0 sid (helloV2 m) ++ message 0 sid proveV2 ++ message 50 sid attachV2)

/-- It is silent after that, and the cleanup finds it stale. -/
def departed (m : MeshConfig) : List ServerEvent :=
  lateAttached m "s" ++ [event 91 .pruneRoutes, event 91 .pruneStaleSessions]

end Sample

namespace ServerRun

theorem local_descriptors_attached_client :
    ∃ (s : ServerRun) (tag : String) (d : Descriptor),
      (serverSystem .alone Sample.crypto Sample.trust).Reachable s ∧
      d.nodeId = MeshConfig.alone.nodeId ∧
      ∃ sess, s.server.hub.sessions.get? d.sessionId = some sess ∧ tag ∈ sess.routes := by
  have hrun : System.Meets
        (fun s e => (s.clocks.before e.now ∧ s.allowed .alone e.op) ∧
          s.server.mesh.routeRegistry.keys = [] ∧ e.op.isRebalance = false)
        (ServerRun.after .alone Sample.crypto Sample.trust) (Sample.start .alone)
        (Sample.attachedClient .alone "s") ∧
      Sample.advertises .alone (Sample.run .alone (Sample.attachedClient .alone "s")) "s" =
        true := by
    decide +kernel
  obtain ⟨hmeets, hadvertises⟩ := hrun
  have hreach := Sample.reachable_tidy .alone _ hmeets
  obtain ⟨tag, route, key, d, hroute, hd, hlocal, -, hlive⟩ := Sample.advertises_iff hadvertises
  exact ⟨_, tag, d, hreach.of_restrict, hlocal,
    local_descriptors_attached hreach hroute hd hlocal hlive⟩

/-- The session is gone and its descriptor is still there. -/
theorem departed_still_advertised :
    ∃ (s : ServerRun) (tag : String) (route : Dict (String × String) Descriptor)
      (key : String × String) (d : Descriptor),
      (serverSystem .alone Sample.crypto Sample.trust).Reachable s ∧
      s.server.mesh.routeRegistry.get? tag = some route ∧ route.get? key = some d ∧
      d.nodeId = MeshConfig.alone.nodeId ∧ pyInt s.clocks.wall < d.expiresAt ∧
      s.server.hub.sessions.get? d.sessionId = none := by
  have hrun : System.Meets (fun s e => s.clocks.before e.now ∧ s.allowed .alone e.op)
        (ServerRun.after .alone Sample.crypto Sample.trust) (Sample.start .alone)
        (Sample.departed .alone) ∧
      Sample.advertises .alone (Sample.run .alone (Sample.departed .alone)) "s" = true ∧
      ((Sample.run .alone (Sample.departed .alone)).server.hub.sessions.get? "s").isNone =
        true := by
    decide +kernel
  obtain ⟨hmeets, hadvertises, hgone⟩ := hrun
  obtain ⟨tag, route, key, d, hroute, hd, hlocal, hsid, hlive⟩ := Sample.advertises_iff hadvertises
  refine ⟨_, tag, route, key, d, Sample.reachable_run .alone _ hmeets, hroute, hd, hlocal, hlive, ?_⟩
  rw [hsid]
  exact Option.isNone_iff_eq_none.mp hgone

end ServerRun

end Masterserver
