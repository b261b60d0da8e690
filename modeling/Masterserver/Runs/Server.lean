import Masterserver.App.Routes
import Masterserver.App.V2
import Masterserver.Lib.System

/-!
# Runs of a server

A whole node under any interleaving of its clients, its peers, its cleanup
loop and its writers. Every connection is in a phase of its receive loop, and
an event lets one of them go as far as its next suspension. Anything may
happen between: a session can be removed while its loop waits for a frame, a
peer can answer late, twice or never.

`_topology_changed` waits for its sends between two registrations, so what is
left of one is a `Rebalance`: the sessions it has not come to yet and the
routes it still registers for the present one, from the lists it copied.

The log keeps what every step did, with who did it.
-/

namespace Masterserver

open Lib

/-- Where a receive loop is suspended, or how far its `finally` has come. -/
inductive Phase
  /-- The last handler's sends are under way; the top of the loop is next. -/
  | looping
  /-- Until a deadline, if the session was not proven when the wait began. -/
  | receiving (deadline : Option Seconds)
  | waiting (on : Waiting)
  | leaving
  | closing (routes : List String)

structure Connection where
  endpoint : Endpoint
  proofDeadline : Seconds
  phase : Phase

inductive Actor
  | client (endpoint : Endpoint) (sessionId : String)
  | node (nodeId : String)
  | itself
  deriving DecidableEq

structure Entry where
  actor : Actor
  effect : Effect

/-- What is left of a `_topology_changed`, and the socket that is sent this
node's state at its end if it belongs to a new link. -/
structure Rebalance where
  sessions : List String
  current : String
  routes : List String
  announceTo : Option Nat

/-- A node link whose receive loop runs. -/
structure Link where
  nodeId : String
  bucket : TokenBucket

structure ServerRun where
  server : Server
  connections : Dict String Connection
  links : Dict Nat Link
  rebalances : List Rebalance
  clocks : Clocks
  issued : Finset String
  log : List Entry

inductive ServerOp
  | connect (endpoint : Endpoint) (sessionId : String)
  | loop (sessionId : String)
  | frame (sessionId : String) (raw : List Char) (draws : Draws)
  | timeout (sessionId : String)
  | disconnect (sessionId : String)
  /-- The tasks of a DISCOVER send their questions. -/
  | ask (sessionId : String) (queryIds : List String)
  /-- One of them is done, with the answer that arrived or without. -/
  | answered (sessionId queryId : String) (arrived : Bool)
  | resume (sessionId : String) (arrived : Bool)
  | finish (sessionId : String)
  | pruneRoutes
  | pruneStaleSessions
  | pruneDedupe
  | writerDequeue (sessionId : String)
  | writerSent (sessionId : String)
  | writerFailed (sessionId : String)
  | linkUp (nodeId : String) (socket : Nat)
  | linkDown (socket : Nat)
  | nodeFrame (socket : Nat) (raw : List Char)
  | rebalance (index : Nat)
  | membershipTick

/-- The connection an event belongs to. -/
def ServerOp.client? : ServerOp → Option String
  | .loop sid | .frame sid _ _ | .timeout sid | .disconnect sid | .ask sid _
  | .answered sid _ _ | .resume sid _ | .finish sid => some sid
  | _ => none

structure ServerEvent where
  now : Clocks
  op : ServerOp

namespace ServerRun

variable (m : MeshConfig) (cr : Crypto) (trust : NodeTrust) (s : ServerRun) (now : Clocks)

def new (m : MeshConfig) (incarnation : String) (clocks : Clocks) : ServerRun where
  server :=
    { hub := .new m.toConfig clocks.monotonic
      mesh := .new m incarnation
      signalGlobalLimiter :=
        .new m.signalGlobalBurst m.signalGlobalPerSecond clocks.monotonic }
  connections := ∅
  links := ∅
  rebalances := []
  clocks := clocks
  issued := ∅
  log := []

def withHub (hub : Hub) : ServerRun := { s with server := { s.server with hub := hub } }

def withMesh (mesh : NodeMesh) (sends : List Send) : ServerRun :=
  { s with
    server := { s.server with mesh := mesh }
    log := s.log ++ sends.map fun send => ⟨.itself, .toNode send⟩ }

/-! ## Clients -/

/-- Both endpoints turn a connection away when the server is full. -/
def connect (endpoint : Endpoint) (sessionId : String) : ServerRun :=
  if m.maxConcurrency ≤ s.server.hub.sessionCount then s
  else
    { s with
      server := { s.server with hub := s.server.hub.createSession now.monotonic sessionId }
      connections := s.connections.set sessionId
        ⟨endpoint, now.monotonic + m.proofDeadlineSeconds, .looping⟩
      issued := insert sessionId s.issued }

def setPhase (sessionId : String) (conn : Connection) (phase : Phase) : ServerRun :=
  { s with connections := s.connections.set sessionId { conn with phase := phase } }

def phaseAfter : Next → Phase
  | .goOn => .looping
  | .ended => .leaving
  | .waiting on => .waiting on

/-- A step of a connection's handler. -/
def applyStep (sessionId : String) (conn : Connection) (step : Step) : ServerRun :=
  { s.setPhase sessionId conn (phaseAfter step.next) with
    server := step.server
    log := s.log ++ step.effects.map (Entry.mk (.client conn.endpoint sessionId)) }

def errorOf : Endpoint → String → String → Json
  | .v1 => sendError
  | .v2 => fun code message => v2Error code message .null

/-- The top of the loop: the session may be gone, and an unproven one only
waits until its deadline. -/
def loop (sessionId : String) (conn : Connection) : ServerRun :=
  match s.server.hub.sessions.get? sessionId with
  | none => s.setPhase sessionId conn .leaving
  | some sess =>
      if sess.proven then s.setPhase sessionId conn (.receiving none)
      else if conn.proofDeadline - now.monotonic ≤ 0 then
        s.applyStep sessionId conn (s.server.proofTimeout (errorOf conn.endpoint))
      else s.setPhase sessionId conn (.receiving (some conn.proofDeadline))

def frame (sessionId : String) (conn : Connection) (raw : List Char) (draws : Draws) : ServerRun :=
  s.applyStep sessionId conn <|
    match conn.endpoint with
    | .v1 => V1.receiveFrame m.toConfig cr now.monotonic sessionId draws raw s.server
    | .v2 => V2.receiveFrame m cr trust now sessionId draws raw s.server

/-- The unstarted tasks ask, in their order, under the identifiers drawn. -/
def askAll (routeTag : String) : List Query → List String → NodeMesh →
    List Query × NodeMesh × List Send
  | .unstarted link :: queries, queryId :: queryIds, mesh =>
      let (mesh, query, sends) := mesh.queryOwner m queryId routeTag link
      let (queries, mesh, sends') := askAll routeTag queries queryIds mesh
      (query :: queries, mesh, sends ++ sends')
  | query :: queries, queryIds, mesh =>
      let (queries, mesh, sends) := askAll routeTag queries queryIds mesh
      (query :: queries, mesh, sends)
  | [], _, mesh => ([], mesh, [])

def ask (sessionId : String) (conn : Connection) (queryIds : List String) : ServerRun :=
  match conn.phase with
  | .waiting (.discover id routeTag peers found queries) =>
      let (queries, mesh, sends) := askAll m routeTag queries queryIds s.server.mesh
      (s.withMesh mesh sends).setPhase sessionId conn
        (.waiting (.discover id routeTag peers found queries))
  | _ => s

/-- Whether a task waits for the answer to this question. -/
def isAsked (queryId : String) : Query → Bool
  | .asked id => id == queryId
  | _ => false

def answered (sessionId : String) (conn : Connection) (queryId : String) (arrived : Bool) :
    ServerRun :=
  match conn.phase with
  | .waiting (.discover id routeTag peers found queries) =>
      if queries.any (isAsked queryId) then
        let (mesh, answer) := s.server.mesh.queryAnswered queryId arrived
        let queries := queries.map fun query => if isAsked queryId query then answer else query
        (s.withMesh mesh []).setPhase sessionId conn
          (.waiting (.discover id routeTag peers found queries))
      else s
  | _ => s

def allAnswered (queries : List Query) : Bool :=
  queries.all fun
    | .answered _ => true
    | _ => false

/-- What a handler waited for is there. -/
def resume (sessionId : String) (conn : Connection) (arrived : Bool) : ServerRun :=
  match conn.phase with
  | .waiting (.relay subscribers outgoing) =>
      s.applyStep sessionId conn (V1.relayTo m.toConfig outgoing subscribers s.server)
  | .waiting (.discover id routeTag peers found queries) =>
      if allAnswered queries then
        s.applyStep sessionId conn
          (V2.finishDiscover m now sessionId id routeTag peers found queries s.server)
      else s
  | .waiting (.ack id messageId requestId) =>
      s.applyStep sessionId conn (V2.finishSignal id messageId requestId arrived s.server)
  | _ => s

/-- The `finally` of a receive loop: the second endpoint takes the session's
routes off the mesh before the session goes. -/
def finish (sessionId : String) (conn : Connection) : ServerRun :=
  match conn.phase, conn.endpoint with
  | .leaving, .v2 =>
      s.setPhase sessionId conn (.closing (V2.routesToRemove sessionId s.server))
  | .leaving, .v1 => s.setPhase sessionId conn (.closing [])
  | .closing (routeTag :: rest), _ =>
      { s.applyStep sessionId conn (V2.removeRoute m cr now sessionId routeTag s.server) with
        connections := s.connections.set sessionId { conn with phase := .closing rest } }
  | .closing [], _ =>
      { s.withHub (s.server.hub.removeSession sessionId) with
        connections := s.connections.erase sessionId }
  | _, _ => s

def isReceiving : Phase → Bool
  | .receiving _ => true
  | _ => false

/-- An event of one connection, in the phase it belongs to. -/
def clientEvent (sessionId : String) (conn : Connection) : ServerOp → ServerRun
  | .loop _ => match conn.phase with
      | .looping => s.loop now sessionId conn
      | _ => s
  | .frame _ raw draws =>
      if isReceiving conn.phase then s.frame m cr trust now sessionId conn raw draws else s
  | .timeout _ => match conn.phase with
      | .receiving (some deadline) =>
          if deadline ≤ now.monotonic then
            s.applyStep sessionId conn (s.server.proofTimeout (errorOf conn.endpoint))
          else s
      | _ => s
  | .disconnect _ => match conn.phase with
      | .looping | .receiving _ => s.setPhase sessionId conn .leaving
      | _ => s
  | .ask _ queryIds => s.ask m sessionId conn queryIds
  | .answered _ queryId arrived => s.answered sessionId conn queryId arrived
  | .resume _ arrived => s.resume m now sessionId conn arrived
  | .finish _ => s.finish m cr now sessionId conn
  | _ => s

/-! ## Peers -/

/-- The part of `_topology_changed` before its first registration. -/
def topologyChanged (mesh : NodeMesh) (announceTo : Option Nat) : ServerRun :=
  { s with
    server :=
      { s.server with
        mesh := (mesh.reconcileMembership m now.monotonic).dropStaleOwnership m cr }
    rebalances := s.rebalances ++ [⟨s.server.hub.sessions.keys, "", [], announceTo⟩] }

def linkUp (nodeId : String) (socket : Nat) : ServerRun :=
  let (mesh, claimed) := s.server.mesh.claimConnection nodeId socket
  if claimed then
    { s.topologyChanged m cr now mesh (some socket) with
      links := s.links.set socket ⟨nodeId, Server.nodeBucket now.monotonic⟩ }
  else s

/-- The `finally` of a node link's loop. -/
def linkDown (socket : Nat) : ServerRun :=
  match s.links.get? socket with
  | none => s
  | some link =>
      let s := { s with links := s.links.erase socket }
      match s.server.mesh.releaseConnection now.monotonic link.nodeId socket with
      | none => s
      | some mesh => s.topologyChanged m cr now mesh none

def nodeFrame (socket : Nat) (raw : List Char) : ServerRun :=
  match s.links.get? socket with
  | none => s
  | some link =>
      let (bucket, step) :=
        s.server.receiveNodeFrame m cr now link.nodeId socket link.bucket raw
      let s := { s with
        server := step.server
        links := s.links.set socket { link with bucket := bucket }
        log := s.log ++ step.effects.map (Entry.mk (.node link.nodeId)) }
      match step.next with
      | .goOn => s
      | _ => s.linkDown m cr now socket

/-- The next registration of a rebalancing, or its end. -/
def rebalanceStep (index : Nat) (task : Rebalance) : ServerRun :=
  match task.routes, task.sessions with
  | routeTag :: rest, _ =>
      let (mesh, sends) := s.server.mesh.registerLocalRoute m cr s.server.hub now.wall routeTag
        task.current
      { s.withMesh mesh sends with
        rebalances := s.rebalances.set index { task with routes := rest } }
  | [], sessionId :: rest =>
      let routes := match s.server.hub.sessions.get? sessionId with
        | some sess =>
            if sess.proven && sess.protocolVersion == 2 then sorted sess.routes else []
        | none => []
      { s with
        rebalances := s.rebalances.set index
          { task with sessions := rest, current := sessionId, routes := routes } }
  | [], [] =>
      let sends := task.announceTo.toList.map fun socket =>
        ⟨socket, s.server.mesh.stateMessage m now.wall⟩
      { s.withMesh s.server.mesh sends with rebalances := s.rebalances.eraseIdx index }

def rebalance (index : Nat) : ServerRun :=
  match s.rebalances[index]? with
  | none => s
  | some task => s.rebalanceStep m cr now index task

/-! ## Events -/

/-- An event that is no connection's. -/
def serverEvent : ServerOp → ServerRun
  | .connect endpoint sid => s.connect m now endpoint sid
  | .pruneRoutes => s.withHub (s.server.hub.pruneRoutes now.monotonic)
  | .pruneStaleSessions => s.withHub (s.server.hub.pruneStaleSessions m.toConfig now.monotonic)
  | .pruneDedupe => s.withHub (s.server.hub.pruneDedupe now.monotonic)
  | .writerDequeue sid => s.withHub (s.server.hub.writerDequeue sid)
  | .writerSent sid => s.withHub (s.server.hub.writerSent sid)
  | .writerFailed sid => s.withHub (s.server.hub.writerFailed sid)
  | .linkUp nodeId socket => s.linkUp m cr now nodeId socket
  | .linkDown socket => s.linkDown m cr now socket
  | .nodeFrame socket raw => s.nodeFrame m cr now socket raw
  | .rebalance index => s.rebalance m cr now index
  | .membershipTick =>
      let (mesh, sends) := s.server.mesh.membershipTick m now.wall now.monotonic
      s.withMesh mesh sends
  | _ => s

def apply (op : ServerOp) : ServerRun :=
  match op.client? with
  | none => s.serverEvent m cr now op
  | some sid =>
      match s.connections.get? sid with
      | none => s
      | some conn => s.clientEvent m cr trust now sid conn op

def after (e : ServerEvent) : ServerRun := { s.apply m cr trust e.now e.op with clocks := e.now }

/-- A session identifier and a socket are never used twice, and only a trusted
node is let in. -/
def allowed : ServerOp → Prop
  | .connect _ sid => sid ∉ s.issued
  | .linkUp nodeId socket => nodeId ∈ m.trusted ∧ s.links.get? socket = none
  | _ => True

instance (op : ServerOp) : Decidable (s.allowed m op) := by
  cases op <;> unfold allowed <;> infer_instance

end ServerRun

def serverSystem (m : MeshConfig) (cr : Crypto) (trust : NodeTrust) :
    System ServerRun ServerEvent :=
  (System.machine
    (fun s => ∃ (incarnation : String) (clocks : Clocks), s = .new m incarnation clocks)
    (ServerRun.after m cr trust)).restrict fun s e => s.clocks.before e.now ∧ s.allowed m e.op

end Masterserver
