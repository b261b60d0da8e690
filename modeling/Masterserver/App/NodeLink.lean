import Masterserver.App.Server

/-!
# Discovery across nodes, and the messages of a peer

`discover` asks the other owners of a route and waits, so it comes in parts:
what it finds here and whom it asks, the tasks that ask, and what it makes of
the answers. `handleMessage` is what a node does with a message of an
authenticated peer, and `receiveNodeFrame` the loop around it.

A message that makes a handler raise ends the link; that is `none` where it
can happen.
-/

namespace Masterserver

open Lib Protocol

/-! ## What a message must look like -/

def isLowerHexText (length : Nat) (text : String) : Bool :=
  text.length == length && text.toList.all isLowerHex

def validRouteTag (value : Json) : Bool := value.str?.any (isLowerHexText 64)

def validDescriptor (removal : Bool) : Json → Bool
  | .obj members =>
      let textOk (name : String) (ok : String → Bool) : Bool := (Payload.get members name).str?.any ok
      let common :=
        textOk "sessionId" (fun text => decide (1 ≤ text.length ∧ text.length ≤ 64)) &&
          textOk "nodeId" fun text => decide (1 ≤ text.length ∧ text.length ≤ 128)
      if removal then Payload.hasExactly members ["sessionId", "nodeId"] && common
      else
        Payload.hasExactly members
            ["sessionId", "encryptionKeyHex", "keyId", "nodeId", "expiresAt"] &&
          common && textOk "encryptionKeyHex" (isLowerHexText 130) &&
          textOk "keyId" (isLowerHexText 64) && (Payload.get members "expiresAt").int?.isSome
  | _ => false

def nodeMessageTypes : List String :=
  ["NODE_HELLO", "NODE_STATE", "ROUTE_REGISTER", "ROUTE_REMOVE", "ROUTE_QUERY", "ROUTE_RESULT",
    "SIGNAL_FORWARD", "ACK"]

/-- `_valid_node_envelope`: the identifier, the type and the payload of a
message that passes, `none` for one that does not. -/
def validNodeEnvelope : Json → Except Raised (Option (String × String × Payload))
  | .obj data =>
      if !Payload.hasExactly data ["protocol", "type", "id", "payload"] ||
          (Payload.get data "protocol").str? != some node then
        .ok none
      else do
        let unknown ← notIn nodeMessageTypes (Payload.get data "type")
        match unknown, Payload.get data "type", Payload.get data "id",
            Payload.get data "payload" with
        | false, .str type, .str id, .obj payload =>
            if 1 ≤ id.length ∧ id.length ≤ 64 then .ok (some (type, id, payload)) else .ok none
        | _, _, _, _ => .ok none
  | _ => .ok none

namespace NodeMesh

variable (m : MeshConfig) (cr : Crypto) (hub : Hub) (now : Seconds) (mesh : NodeMesh)

/-! ## Discovery -/

/-- A descriptor that was found counts if it could be cached. -/
def collect (acc : NodeMesh × Dict String Descriptor) (descriptor : Json) :
    NodeMesh × Dict String Descriptor :=
  let (mesh, cached) := acc.1.cacheDescriptor m hub now descriptor
  match cached, Descriptor.ofJson? descriptor with
  | true, some d => (mesh, acc.2.set d.sessionId d)
  | _, _ => (mesh, acc.2)

/-- `discover` up to its tasks: the descriptors of the own registry, and one
task for each other owner there is a link to. -/
def discover (routeTag : String) : NodeMesh × Dict String Descriptor × List Query :=
  let mesh' := mesh.pruneRoutes now
  let (mesh', found) :=
    ((mesh'.routeRegistry.getD routeTag ∅).values.map Descriptor.raw).foldl
      (collect m hub now) (mesh', ∅)
  let links := (mesh'.ownersFor m cr routeTag).filterMap fun owner =>
    if owner = m.nodeId then none else mesh'.connections.get? owner
  (mesh', found, links.map .unstarted)

/-- `_query_owner` up to its wait. -/
def queryOwner (queryId routeTag : String) (link : Nat) : NodeMesh × Query × List Send :=
  if m.nodeMeshMaxPendingOperations ≤ mesh.pendingOperationCount then (mesh, .answered [], [])
  else
    ({ mesh with pendingQueries := mesh.pendingQueries.set queryId none }, .asked queryId,
      [⟨link, .routeQuery queryId routeTag⟩])

/-- The end of a wait: the answer, or nothing if the question could not be
sent or the time ran out. The request is no longer pending. -/
def queryAnswered (queryId : String) (arrived : Bool) : NodeMesh × Query :=
  let answer := if arrived then (mesh.pendingQueries.getD queryId none).getD [] else []
  ({ mesh with pendingQueries := mesh.pendingQueries.erase queryId }, .answered answer)

/-- The end of `discover`: the answers, task by task. -/
def discovered (found : Dict String Descriptor) (queries : List Query) :
    NodeMesh × Dict String Descriptor :=
  let results := queries.flatMap fun
    | .answered descriptors => descriptors
    | _ => []
  results.foldl (collect m hub now) (mesh, found)

/-- The end of the wait in `forward_signal`. -/
def ackAnswered (requestId : String) (arrived : Bool) : NodeMesh × Bool :=
  let answer := if arrived then (mesh.pendingAcks.getD requestId none).getD false else false
  ({ mesh with pendingAcks := mesh.pendingAcks.erase requestId }, answer)

/-! ## Messages of a peer -/

/-- A result is set once on a future that is still pending. -/
def answerPending {α : Type} (pending : Dict String (Option α)) (requestId : String) (answer : α) :
    Dict String (Option α) :=
  match pending.get? requestId with
  | some none => pending.set requestId (some answer)
  | _ => pending

def handleRouteMessage (nodeId : String) (msgType : RouteMessageType) (payload : Payload) :
    NodeMesh :=
  let descriptor := payload.get "descriptor"
  match payload.get "routeTag" with
  | .str routeTag =>
      if validRouteTag (.str routeTag) && decide (m.nodeId ∈ mesh.ownersFor m cr routeTag) &&
          validDescriptor (msgType == .remove) descriptor &&
          (descriptor.get? "nodeId").bind Json.str? == some nodeId &&
          (msgType == .remove ||
            ((descriptor.get? "expiresAt").bind Json.int?).any (descriptorIsCurrent m now)) then
        mesh.applyRouteMessage m hub now msgType routeTag descriptor
      else mesh
  | _ => mesh

def handleRouteQuery (link : Nat) (payload : Payload) : NodeMesh × List Send :=
  match payload.get "routeTag", payload.get "queryId" with
  | .str routeTag, .str queryId =>
      if validRouteTag (.str routeTag) && decide (queryId.length ≤ 64) then
        let mesh' := mesh.pruneRoutes now
        let descriptors := (mesh'.routeRegistry.getD routeTag ∅).values.take m.maxFanout
        (mesh', [⟨link, .routeResult queryId (descriptors.map Descriptor.raw)⟩])
      else (mesh, [])
  | _, _ => (mesh, [])

/-- Looking up a list or an object among the pending requests raises. -/
def requestKey : Json → Option (Option String)
  | .str requestId => some (some requestId)
  | .arr _ | .obj _ => none
  | _ => some none

def handleRouteResult (payload : Payload) : Option NodeMesh :=
  match requestKey (payload.get "queryId") with
  | none => none
  | some none => some mesh
  | some (some queryId) =>
      let descriptors := match payload.get "descriptors" with
        | .arr descriptors =>
            (descriptors.take m.maxFanout).filter fun descriptor =>
              validDescriptor false descriptor &&
                ((descriptor.get? "expiresAt").bind Json.int?).any (descriptorIsCurrent m now)
        | _ => []
      some { mesh with pendingQueries := answerPending mesh.pendingQueries queryId descriptors }

def handleAck (payload : Payload) : Option NodeMesh :=
  match requestKey (payload.get "requestId") with
  | none => none
  | some none => some mesh
  | some (some requestId) =>
      let delivered := match payload.get "delivered" with
        | .bool true => true
        | _ => false
      some { mesh with pendingAcks := answerPending mesh.pendingAcks requestId delivered }

end NodeMesh

namespace Server

variable (m : MeshConfig) (cr : Crypto) (now : Clocks) (nodeId : String) (link : Nat)
variable (server : Server)

/-- Whether the envelope of a SIGNAL_FORWARD is a valid SIGNAL for the target
and the route the message names; `none` where the validator raises. -/
def validForward (payload : Payload) : Option Bool :=
  match payload.get "envelope" with
  | .obj envelope =>
      match validateV2Message (.obj envelope) with
      | .error (.protocolError _ _) => some false
      | .error .typeError => none
      | .ok ⟨_, .signal signal⟩ =>
          some ((payload.get "routeTag").str? == some signal.routeTag &&
            (payload.get "targetSessionId").str? == some signal.toSessionId)
      | .ok _ => some false
  | _ => some false

/-- A SIGNAL_FORWARD is delivered to a subscriber of its route, and answered. -/
def handleSignalForward (payload : Payload) : Option Step :=
  match validForward payload with
  | none => none
  | some valid =>
      let ack (delivered : Bool) : Effect :=
        .toNode ⟨link, .ack (payload.get "requestId") delivered⟩
      match payload.get "targetSessionId", payload.get "routeTag" with
      | .str target, .str routeTag =>
          if valid && decide (target ∈ server.hub.routeSubscribers now.monotonic routeTag none) then
            let envelope := payload.get "envelope"
            let (hub, delivered) := server.hub.sendSession m.toConfig target envelope
            some (({ server with hub := hub } : Server).done
              [.sendSession target envelope delivered, ack delivered])
          else some (server.done [ack false])
      | _, _ => some (server.done [ack false])

def withMesh (mesh : NodeMesh) (sends : List Send) : Step :=
  ({ server with mesh := mesh } : Server).done (sends.map .toNode)

/-- `_handle_message`, `none` where it raises. -/
def handleMessage (type : String) (payload : Payload) : Option Step :=
  let mesh := server.mesh
  if type = "ROUTE_REGISTER" then
    some (server.withMesh
      (mesh.handleRouteMessage m cr server.hub now.wall nodeId .register payload) [])
  else if type = "ROUTE_REMOVE" then
    some (server.withMesh
      (mesh.handleRouteMessage m cr server.hub now.wall nodeId .remove payload) [])
  else if type = "ROUTE_QUERY" then
    let (mesh, sends) := mesh.handleRouteQuery m now.wall link payload
    some (server.withMesh mesh sends)
  else if type = "ROUTE_RESULT" then
    (mesh.handleRouteResult m now.wall payload).map fun mesh => server.withMesh mesh []
  else if type = "SIGNAL_FORWARD" then server.handleSignalForward m now link payload
  else if type = "ACK" then (mesh.handleAck payload).map fun mesh => server.withMesh mesh []
  else if type = "NODE_STATE" then
    some (server.withMesh
      (mesh.handleNodeState m now.wall now.monotonic nodeId (.obj payload)) [])
  else some (server.done [])

/-- The bucket of a link, `message_bucket`. -/
def nodeBucket (now : Seconds) : TokenBucket := .new 400 200 now

/-- One frame of `_connection_loop`. -/
def receiveNodeFrame (bucket : TokenBucket) (raw : List Char) : TokenBucket × Step :=
  if m.maxFrameBytes < String.utf8Len raw then (bucket, server.leave [])
  else
    let (allowed, bucket) := bucket.tryConsume now.monotonic 1
    if !allowed then (bucket, server.leave [])
    else
      (bucket, match loadsStrict m.toConfig.jsonLimits raw with
        | .error _ => server.leave []
        | .ok data =>
            match validNodeEnvelope data with
            | .error _ => server.leave []
            | .ok none => server.done []
            | .ok (some (type, id, payload)) =>
                let (hub, fresh) := server.hub.checkAndMarkSeen m.toConfig now.monotonic
                  s!"node:{nodeId}:{id}" m.dedupeWindowSeconds
                let server := { server with hub := hub }
                if !fresh then server.done []
                else (server.handleMessage m cr now nodeId link type payload).getD (server.leave []))

end Server

end Masterserver
