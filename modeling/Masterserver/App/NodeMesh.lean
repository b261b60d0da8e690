import Masterserver.App.Hub

/-!
# The node mesh

One node's view of the trusted nodes it shares route ownership with: which of
them it counts as members, the route descriptors it keeps as an owner, the
descriptors it has seen for remote sessions, and the map from a session to the
node that announced it.

A socket is represented by a number that is its identity. The two clocks are
kept apart: descriptors expire by the wall clock (`time.time()`), views and
suspicions by the monotonic clock, and each function takes the reading it
uses. A send to another node is a value, the link it goes out on and the
message; whether it arrives is not this node's state. A set is walked in
increasing order.
-/

namespace Masterserver

open Lib

/-- The configuration with the parsed list of trusted nodes: the tests of
`__init__` and `_parse_trusted_nodes` on the node identifiers. -/
structure MeshConfig extends Config where
  trusted : Finset String
  trusted_nonempty : ∀ node ∈ trusted, node ≠ ""
  trusted_card_le : trusted.card ≤ 7
  local_notMem : nodeId ∉ trusted

/-- The default configuration without trusted nodes. -/
def MeshConfig.alone : MeshConfig where
  toConfig := .default
  trusted := ∅
  trusted_nonempty _ h := by cases h
  trusted_card_le := Nat.zero_le _
  local_notMem h := by cases h

instance : Inhabited MeshConfig := ⟨.alone⟩

/-- A route descriptor that names its session, its node and its expiry as the
types the registry tests for. `raw` is the whole object. -/
structure Descriptor where
  raw : Json
  sessionId : String
  nodeId : String
  expiresAt : Int
  raw_sessionId : (raw.get? "sessionId").bind Json.str? = some sessionId
  raw_nodeId : (raw.get? "nodeId").bind Json.str? = some nodeId
  raw_expiresAt : (raw.get? "expiresAt").bind Json.int? = some expiresAt

namespace Descriptor

def ofJson? (raw : Json) : Option Descriptor :=
  match hs : (raw.get? "sessionId").bind Json.str?, hn : (raw.get? "nodeId").bind Json.str?,
      he : (raw.get? "expiresAt").bind Json.int? with
  | some sessionId, some nodeId, some expiresAt =>
      some ⟨raw, sessionId, nodeId, expiresAt, hs, hn, he⟩
  | _, _, _ => none

def key (d : Descriptor) : String × String := (d.nodeId, d.sessionId)

end Descriptor

/-! ## Messages between nodes -/

inductive NodeMessage
  | nodeHello (manifest : Json)
  | nodeState (nodeId : String) (membershipEpoch : Nat) (incarnation : String)
      (connectedNodeIds : List String) (sentAt : Int)
  | routeRegister (routeTag : String) (descriptor : Json)
  | routeRemove (routeTag : String) (descriptor : Json)
  | routeQuery (queryId routeTag : String)
  | routeResult (queryId : String) (descriptors : List Json)
  | signalForward (requestId routeTag targetSessionId : String) (envelope : Json)
  | ack (requestId : Json) (delivered : Bool)

namespace NodeMessage

def type : NodeMessage → String
  | .nodeHello _ => "NODE_HELLO"
  | .nodeState .. => "NODE_STATE"
  | .routeRegister .. => "ROUTE_REGISTER"
  | .routeRemove .. => "ROUTE_REMOVE"
  | .routeQuery .. => "ROUTE_QUERY"
  | .routeResult .. => "ROUTE_RESULT"
  | .signalForward .. => "SIGNAL_FORWARD"
  | .ack .. => "ACK"

def payload : NodeMessage → Json
  | .nodeHello manifest => .obj [("manifest", manifest)]
  | .nodeState nodeId epoch incarnation connected sentAt =>
      .obj [("nodeId", .str nodeId), ("membershipEpoch", .int epoch),
        ("incarnation", .str incarnation), ("connectedNodeIds", .arr (connected.map .str)),
        ("sentAt", .int sentAt)]
  | .routeRegister routeTag descriptor | .routeRemove routeTag descriptor =>
      .obj [("routeTag", .str routeTag), ("descriptor", descriptor)]
  | .routeQuery queryId routeTag =>
      .obj [("queryId", .str queryId), ("routeTag", .str routeTag)]
  | .routeResult queryId descriptors =>
      .obj [("queryId", .str queryId), ("descriptors", .arr descriptors)]
  | .signalForward requestId routeTag targetSessionId envelope =>
      .obj [("requestId", .str requestId), ("routeTag", .str routeTag),
        ("targetSessionId", .str targetSessionId), ("envelope", envelope)]
  | .ack requestId delivered =>
      .obj [("requestId", requestId), ("delivered", .bool delivered)]

/-- `_message`: the envelope around a payload, under a fresh identifier. -/
def toJson (msg : NodeMessage) (id : String) : Json :=
  .obj [("protocol", .str "particle-node/1"), ("type", .str msg.type), ("id", .str id),
    ("payload", msg.payload)]

end NodeMessage

/-- What a node puts on one of its links. -/
structure Send where
  link : Nat
  message : NodeMessage

/-! ## State -/

/-- What a peer last reported: the epoch it named, the nodes it is connected
to and itself, and when the report arrived. -/
structure PeerView where
  epoch : Json
  view : Finset String
  receivedAt : Seconds

/-- A request that waits for an answer is pending under its identifier, with
the answer once it is there. -/
structure NodeMesh where
  connections : Dict String Nat
  routeRegistry : Dict String (Dict (String × String) Descriptor)
  routeDescriptorCount : Int
  sessionNodes : Dict String String
  descriptorCache : Dict String Descriptor
  pendingQueries : Dict String (Option (List Json))
  pendingAcks : Dict String (Option Bool)
  membershipNodes : Finset String
  peerViews : Dict String PeerView
  suspectedSince : Dict String Seconds
  incarnation : String
  hasQuorum : Bool

namespace MeshConfig

variable (m : MeshConfig)

/-- `_membership_universe`. -/
def membershipUniverse : Finset String := insert m.nodeId m.trusted

def quorum : Nat := m.membershipUniverse.card / 2 + 1

/-- `stale_after`: how long a report counts. -/
def staleAfter : Seconds := max 3 (m.nodeMeshSuspicionSeconds * 3)

end MeshConfig

namespace NodeMesh

def new (m : MeshConfig) (incarnation : String) : NodeMesh where
  connections := ∅
  routeRegistry := ∅
  routeDescriptorCount := 0
  sessionNodes := ∅
  descriptorCache := ∅
  pendingQueries := ∅
  pendingAcks := ∅
  membershipNodes := m.membershipUniverse
  peerViews := ∅
  suspectedSince := ∅
  incarnation := incarnation
  hasQuorum := !m.nodeMeshEnabled || m.membershipUniverse.card == 1

variable (m : MeshConfig) (mesh : NodeMesh)

def stop : NodeMesh := .new m mesh.incarnation

/-! ## Ownership -/

/-- The key a node is ranked by on a route. -/
def rankKey (cr : Crypto) (routeTag nodeId : String) : Digest :=
  cr.sha256 (utf8 (routeTag ++ "\x00" ++ nodeId))

def ownersFor (cr : Crypto) (routeTag : String) : List String :=
  let nodes := sorted mesh.membershipNodes
  let count := min (max 1 m.nodeMeshReplicaCount) nodes.length
  (rankedBy (rankKey cr routeTag) nodes).take count

/-! ## Membership -/

/-- `epoch == node_mesh_membership_epoch`, where `True` and `1.0` equal 1. -/
def epochMatches (epoch : Json) (membershipEpoch : Nat) : Bool :=
  match epoch with
  | .int n => n == membershipEpoch
  | .bool b => b.toNat == membershipEpoch
  | .float text => text == toString membershipEpoch ++ ".0"
  | _ => false

def freshViews (now : Seconds) : Dict String PeerView :=
  mesh.peerViews.filter fun _ v =>
    epochMatches v.epoch m.nodeMeshMembershipEpoch && !decide (m.staleAfter < now - v.receivedAt)

/-- Whose view counts: this node's own links, and the fresh reports of the
right epoch cut down to the universe. -/
def reporters (now : Seconds) : Dict String (Finset String) :=
  (mesh.freshViews m now).entries.foldl
    (fun reporters e => reporters.set e.1 (e.2.view ∩ m.membershipUniverse))
    (Dict.set ∅ m.nodeId (insert m.nodeId mesh.connections.keys.toFinset))

def aliveVotes (reporters : Dict String (Finset String)) (candidate : String) : Nat :=
  reporters.values.countP fun view => candidate ∈ view

/-- One round of the loop over the candidates, on the next members and the
suspicions. -/
def reviewCandidate (now : Seconds) (reporters : Dict String (Finset String))
    (acc : Finset String × Dict String Seconds) (candidate : String) :
    Finset String × Dict String Seconds :=
  if m.quorum ≤ aliveVotes reporters candidate then
    (insert candidate acc.1, acc.2.erase candidate)
  else
    let suspected := acc.2.getD candidate now
    (if m.nodeMeshSuspicionSeconds ≤ now - suspected then acc.1.erase candidate else acc.1,
      acc.2.set candidate suspected)

def reconcileMembership (now : Seconds) : NodeMesh :=
  let reporters := mesh.reporters m now
  let mesh' := { mesh with
    peerViews := mesh.freshViews m now
    hasQuorum := decide (m.quorum ≤ reporters.size) }
  if reporters.size < m.quorum then mesh'
  else
    let (nextMembers, suspectedSince) :=
      (sorted (m.membershipUniverse.erase m.nodeId)).foldl (reviewCandidate m now reporters)
        (insert m.nodeId mesh.membershipNodes, mesh.suspectedSince)
    { mesh' with membershipNodes := nextMembers, suspectedSince := suspectedSince }

def stateMessage (now : Seconds) : NodeMessage :=
  .nodeState m.nodeId m.nodeMeshMembershipEpoch mesh.incarnation
    (sorted (insert m.nodeId mesh.connections.keys.toFinset)) (pyInt now)

/-! ## Route descriptors -/

def descriptorIsCurrent (now : Seconds) (expiresAt : Int) : Bool :=
  let now : Seconds := pyInt now
  let skew := m.nodeMeshMaxClockSkewSeconds
  decide (now - skew < expiresAt) && decide (expiresAt ≤ now + m.routeLeaseSeconds + skew)

/-- Store a route's descriptors, dropping the route once it has none. -/
def storeRoute (routeTag : String) (route : Dict (String × String) Descriptor) : NodeMesh :=
  { mesh with
    routeRegistry :=
      if route.size = 0 then mesh.routeRegistry.erase routeTag
      else mesh.routeRegistry.set routeTag route }

/-- The check that an announcement does not take a session from the node that
has it: not from this node, and not from the node on record. -/
def ownsSession (hub : Hub) (nodeId sessionId : String) : Bool :=
  !(decide (nodeId ≠ m.nodeId) && hub.sessions.contains sessionId) &&
    (mesh.sessionNodes.get? sessionId).all (· == nodeId)

/-- The `ROUTE_REMOVE` half of `_apply_route_message`. -/
def removeDescriptor (routeTag : String) (key : String × String) : NodeMesh :=
  match mesh.routeRegistry.get? routeTag with
  | none => mesh
  | some route =>
      let removed : Int := if route.contains key then 1 else 0
      { mesh.storeRoute routeTag (route.erase key) with
        routeDescriptorCount := mesh.routeDescriptorCount - removed }

/-- The `ROUTE_REGISTER` half, once the descriptor is known to be current and
its session to belong to its node. A route made for a descriptor that is then
refused for capacity is dropped again. -/
def insertDescriptor (routeTag : String) (d : Descriptor) : NodeMesh :=
  let route := mesh.routeRegistry.getD routeTag ∅
  if !route.contains d.key ∧ (m.nodeMeshMaxRouteDescriptors : Int) ≤ mesh.routeDescriptorCount then
    mesh.storeRoute routeTag route
  else
    let added : Int := if route.contains d.key then 0 else 1
    { mesh with
      routeRegistry := mesh.routeRegistry.set routeTag (route.set d.key d)
      routeDescriptorCount := mesh.routeDescriptorCount + added
      sessionNodes := mesh.sessionNodes.set d.sessionId d.nodeId }

inductive RouteMessageType
  | register
  | remove
  deriving DecidableEq

def applyRouteMessage (hub : Hub) (now : Seconds) (msgType : RouteMessageType)
    (routeTag : String) (descriptor : Json) : NodeMesh :=
  match (descriptor.get? "sessionId").bind Json.str?,
      (descriptor.get? "nodeId").bind Json.str? with
  | some sessionId, some nodeId =>
      match msgType with
      | .remove => mesh.removeDescriptor routeTag (nodeId, sessionId)
      | .register =>
          match Descriptor.ofJson? descriptor, descriptor.get? "expiresAt" with
          | some d, _ =>
              if descriptorIsCurrent m now d.expiresAt &&
                  mesh.ownsSession m hub d.nodeId d.sessionId then
                mesh.insertDescriptor m routeTag d
              else mesh
          -- A boolean is an integer to the first test and refused by the next.
          | none, some (.bool _) => mesh
          | none, _ =>
              match mesh.routeRegistry.get? routeTag with
              | none => mesh
              | some route => mesh.storeRoute routeTag route
  | _, _ => mesh

/-- `_cache_descriptor`, and whether it kept the descriptor. -/
def cacheDescriptor (hub : Hub) (now : Seconds) (descriptor : Json) : NodeMesh × Bool :=
  match Descriptor.ofJson? descriptor with
  | none => (mesh, false)
  | some d =>
      if !descriptorIsCurrent m now d.expiresAt || !mesh.ownsSession m hub d.nodeId d.sessionId then
        (mesh, false)
      else if !mesh.descriptorCache.contains d.sessionId ∧
          m.nodeMeshMaxRouteDescriptors ≤ mesh.descriptorCache.size then
        (mesh, false)
      else
        ({ mesh with
            sessionNodes := mesh.sessionNodes.set d.sessionId d.nodeId
            descriptorCache := mesh.descriptorCache.set d.sessionId d }, true)

/-- The first loop of `_prune_routes`: a cached descriptor that has expired
goes, and with it whatever the session map says about its session. -/
def pruneCached (now : Seconds) (sessionId : String) : NodeMesh :=
  match mesh.descriptorCache.get? sessionId with
  | none => mesh
  | some d =>
      if d.expiresAt ≤ pyInt now then
        { mesh with
          descriptorCache := mesh.descriptorCache.erase sessionId
          sessionNodes := mesh.sessionNodes.erase sessionId }
      else mesh

/-- Keep the descriptors of one route that pass a test. -/
def filterRoute (keep : Descriptor → Bool) (routeTag : String) : NodeMesh :=
  match mesh.routeRegistry.get? routeTag with
  | none => mesh
  | some route =>
      let kept := route.filter fun _ d => keep d
      { mesh.storeRoute routeTag kept with
        routeDescriptorCount := mesh.routeDescriptorCount - (route.size - kept.size) }

def pruneRoutes (now : Seconds) : NodeMesh :=
  let mesh' := mesh.descriptorCache.keys.foldl (fun mesh sid => mesh.pruneCached now sid) mesh
  mesh'.routeRegistry.keys.foldl
    (fun mesh routeTag => mesh.filterRoute (fun d => decide (pyInt now < d.expiresAt)) routeTag)
    mesh'

/-- `remote_descriptor`: the state after the call, and the answer. -/
def remoteDescriptor (now : Seconds) (targetSessionId : String) : NodeMesh × Option Descriptor :=
  let registered (mesh : NodeMesh) : Option Descriptor :=
    (mesh.routeRegistry.values.flatMap Dict.values).find? (·.sessionId == targetSessionId)
  match mesh.descriptorCache.get? targetSessionId with
  | some d =>
      if pyInt now < d.expiresAt then (mesh, some d)
      else
        let mesh' := { mesh with
          descriptorCache := mesh.descriptorCache.erase targetSessionId
          sessionNodes := mesh.sessionNodes.erase targetSessionId }
        (mesh', registered mesh')
  | none => (mesh, registered mesh)

def pendingOperationCount : Nat := mesh.pendingQueries.size + mesh.pendingAcks.size

/-- `forward_signal` up to the wait for the answer: the request that is now
pending and the message that carries it, or nothing where it returns `False`. -/
def forwardSignal (requestId routeTag targetSessionId : String) (envelope : Json) :
    NodeMesh × Option Send :=
  match mesh.sessionNodes.get? targetSessionId with
  | none => (mesh, none)
  | some nodeId =>
      if nodeId = "" ∨ nodeId = m.nodeId then (mesh, none)
      else
        match mesh.connections.get? nodeId with
        | none => (mesh, none)
        | some link =>
            if m.nodeMeshMaxPendingOperations ≤ mesh.pendingOperationCount then (mesh, none)
            else
              ({ mesh with pendingAcks := mesh.pendingAcks.set requestId none },
                some ⟨link, .signalForward requestId routeTag targetSessionId envelope⟩)

/-! ## Registration and rebalancing -/

def routeMessage (msgType : RouteMessageType) (routeTag : String) (descriptor : Json) :
    NodeMessage :=
  match msgType with
  | .register => .routeRegister routeTag descriptor
  | .remove => .routeRemove routeTag descriptor

/-- One owner of `_replicate`: this node applies the message itself, another
owner it has a link to is sent it. -/
def replicateTo (hub : Hub) (now : Seconds) (msgType : RouteMessageType) (routeTag : String)
    (descriptor : Json) (acc : NodeMesh × List Send) (owner : String) : NodeMesh × List Send :=
  if owner = m.nodeId then
    (acc.1.applyRouteMessage m hub now msgType routeTag descriptor, acc.2)
  else
    match acc.1.connections.get? owner with
    | some link => (acc.1, acc.2 ++ [⟨link, routeMessage msgType routeTag descriptor⟩])
    | none => acc

def replicate (cr : Crypto) (hub : Hub) (now : Seconds) (msgType : RouteMessageType)
    (routeTag : String) (descriptor : Json) : NodeMesh × List Send :=
  (mesh.ownersFor m cr routeTag).foldl
    (replicateTo m hub now msgType routeTag descriptor) (mesh, [])

/-- What a hub descriptor becomes on its way to the owners. -/
def localDescriptor (now : Seconds) (d : Hub.PeerDescriptor) : Json :=
  let text? (value : Option String) : Json := (value.map Json.str).getD .null
  .obj [("sessionId", .str d.sessionId), ("encryptionKeyHex", text? d.encryptionKeyHex),
    ("keyId", text? d.keyId), ("nodeId", .str m.nodeId),
    ("expiresAt", .int (pyInt (now + m.routeLeaseSeconds)))]

def registerLocalRoute (cr : Crypto) (hub : Hub) (now : Seconds) (routeTag sessionId : String) :
    NodeMesh × List Send :=
  match hub.peerDescriptor sessionId with
  | none => (mesh, [])
  | some d => mesh.replicate m cr hub now .register routeTag (localDescriptor m now d)

def removeLocalRoute (cr : Crypto) (hub : Hub) (now : Seconds) (routeTag sessionId : String) :
    NodeMesh × List Send :=
  mesh.replicate m cr hub now .remove routeTag
    (.obj [("sessionId", .str sessionId), ("nodeId", .str m.nodeId)])

/-- A route this node no longer owns goes as a whole; of the others, the
descriptors of nodes it has no link to. -/
def dropStaleRoute (cr : Crypto) (active : Finset String) (routeTag : String) : NodeMesh :=
  if m.nodeId ∈ mesh.ownersFor m cr routeTag then
    mesh.filterRoute (fun d => decide (d.nodeId ∈ active)) routeTag
  else
    { mesh with
      routeRegistry := mesh.routeRegistry.erase routeTag
      routeDescriptorCount :=
        mesh.routeDescriptorCount - (mesh.routeRegistry.getD routeTag ∅).size }

def dropStaleOwnership (cr : Crypto) : NodeMesh :=
  let active := insert m.nodeId mesh.connections.keys.toFinset
  mesh.routeRegistry.keys.foldl
    (fun mesh routeTag => mesh.dropStaleRoute m cr active routeTag) mesh

/-- The leases `_topology_changed` announces again: those of the proven V2
sessions, session by session. -/
def localLeases (hub : Hub) : List (String × String) :=
  hub.sessions.entries.flatMap fun e =>
    if e.2.proven && e.2.protocolVersion == 2 then
      (sorted e.2.routes).map fun routeTag => (routeTag, e.1)
    else []

def registerLocalLeases (cr : Crypto) (hub : Hub) (now : Seconds) : NodeMesh × List Send :=
  (localLeases hub).foldl
    (fun (acc : NodeMesh × List Send) lease =>
      let (mesh', sends) := acc.1.registerLocalRoute m cr hub now lease.1 lease.2
      (mesh', acc.2 ++ sends))
    (mesh, [])

/-- `_topology_changed`, the sends it waits for taken as done. -/
def topologyChanged (cr : Crypto) (hub : Hub) (wall monotonic : Seconds) :
    NodeMesh × List Send :=
  ((mesh.reconcileMembership m monotonic).dropStaleOwnership m cr).registerLocalLeases m cr hub wall

/-! ## Links -/

/-- `_claim_connection`: a second socket for a node is refused. -/
def claimConnection (nodeId : String) (socket : Nat) : NodeMesh × Bool :=
  match mesh.connections.get? nodeId with
  | some existing =>
      if existing ≠ socket then (mesh, false)
      else ({ mesh with connections := mesh.connections.set nodeId socket }, true)
  | none => ({ mesh with connections := mesh.connections.set nodeId socket }, true)

/-- A link comes up: the claim, and if it is granted the rebalancing and this
node's state for the new peer. -/
def linkUp (cr : Crypto) (hub : Hub) (wall monotonic : Seconds) (nodeId : String)
    (socket : Nat) : NodeMesh × List Send :=
  let (mesh', claimed) := mesh.claimConnection nodeId socket
  if claimed then
    let (mesh'', sends) := mesh'.topologyChanged m cr hub wall monotonic
    (mesh'', sends ++ [⟨socket, mesh''.stateMessage m wall⟩])
  else (mesh', [])

/-- The `finally` of `_connection_loop`: the end of a socket's receive loop
takes the link away, `none` if the link is not this socket's. -/
def releaseConnection (monotonic : Seconds) (nodeId : String) (socket : Nat) : Option NodeMesh :=
  if mesh.connections.get? nodeId = some socket then
    some { mesh with
      connections := mesh.connections.erase nodeId
      suspectedSince :=
        mesh.suspectedSince.set nodeId (mesh.suspectedSince.getD nodeId monotonic) }
  else none

def linkDown (cr : Crypto) (hub : Hub) (wall monotonic : Seconds) (nodeId : String)
    (socket : Nat) : NodeMesh × List Send :=
  match mesh.releaseConnection monotonic nodeId socket with
  | some mesh' => mesh'.topologyChanged m cr hub wall monotonic
  | none => (mesh, [])

/-- One round of `_membership_loop`. -/
def membershipTick (wall monotonic : Seconds) : NodeMesh × List Send :=
  let mesh' := mesh.reconcileMembership m monotonic
  (mesh', mesh'.connections.values.map fun link => ⟨link, mesh'.stateMessage m wall⟩)

/-- The items of a list of texts, `none` if it is anything else. -/
def textItems : Json → Option (List String)
  | .arr items => items.mapM Json.str?
  | _ => none

/-- A `NODE_STATE` from the node at the other end is recorded as that node's
view, `none` if it is not accepted. -/
def recordState (wall monotonic : Seconds) (nodeId : String) (payload : Json) :
    Option NodeMesh :=
  let epoch := (payload.get? "membershipEpoch").getD .null
  let incarnation := (payload.get? "incarnation").bind Json.str?
  let sentAt := (payload.get? "sentAt").bind Json.int?
  match (payload.get? "connectedNodeIds").bind textItems with
  | none => none
  | some connected =>
      if (payload.get? "nodeId").bind Json.str? = some nodeId ∧
          epochMatches epoch m.nodeMeshMembershipEpoch ∧
          (incarnation.any fun text => decide (1 ≤ text.length ∧ text.length ≤ 64)) ∧
          connected.length ≤ 8 ∧ (∀ item ∈ connected, item ∈ m.membershipUniverse) ∧
          (sentAt.any fun at_ => decide
            (((|pyInt wall - at_| : Int) : Seconds) ≤ m.nodeMeshMaxClockSkewSeconds)) then
        some { mesh with
          peerViews := mesh.peerViews.set nodeId
            ⟨epoch, insert nodeId connected.toFinset, monotonic⟩ }
      else none

/-- `_handle_message` on a `NODE_STATE`. -/
def handleNodeState (wall monotonic : Seconds) (nodeId : String) (payload : Json) : NodeMesh :=
  match mesh.recordState m wall monotonic nodeId payload with
  | some mesh' => mesh'.reconcileMembership m monotonic
  | none => mesh

end NodeMesh

end Masterserver
