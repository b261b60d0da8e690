import Masterserver.App.NodeMesh
import Masterserver.Lib.System

/-!
# Runs of one node's mesh state

A node's mesh state under any sequence of its operations. The hub an operation
consults and the readings of the two clocks are part of the label, so nothing
is assumed about them here: a result that needs clocks that do not run
backwards says so by restricting the runs.

`topologyChanged` gives up control while it waits for its sends, and other
operations can run in between. What it is made of is therefore there on its
own as well: `reconcileMembership`, `dropStaleOwnership` and one
`registerLocalRoute` for each lease.
-/

namespace Masterserver

open Lib NodeMesh

inductive MeshOp
  | applyRouteMessage (msgType : RouteMessageType) (routeTag : String) (descriptor : Json)
  | cacheDescriptor (descriptor : Json)
  | pruneRoutes
  | remoteDescriptor (targetSessionId : String)
  | registerLocalRoute (routeTag sessionId : String)
  | removeLocalRoute (routeTag sessionId : String)
  | reconcileMembership
  | dropStaleOwnership
  | topologyChanged
  | linkUp (nodeId : String) (socket : Nat)
  | linkDown (nodeId : String) (socket : Nat)
  | nodeState (nodeId : String) (payload : Json)
  | membershipTick
  | stop

def MeshOp.apply (m : MeshConfig) (cr : Crypto) (hub : Hub) (now : Clocks) (mesh : NodeMesh) :
    MeshOp → NodeMesh
  | .applyRouteMessage msgType routeTag descriptor =>
      mesh.applyRouteMessage m hub now.wall msgType routeTag descriptor
  | .cacheDescriptor descriptor => (mesh.cacheDescriptor m hub now.wall descriptor).1
  | .pruneRoutes => mesh.pruneRoutes now.wall
  | .remoteDescriptor target => (mesh.remoteDescriptor now.wall target).1
  | .registerLocalRoute routeTag sid => (mesh.registerLocalRoute m cr hub now.wall routeTag sid).1
  | .removeLocalRoute routeTag sid => (mesh.removeLocalRoute m cr hub now.wall routeTag sid).1
  | .reconcileMembership => mesh.reconcileMembership m now.monotonic
  | .dropStaleOwnership => mesh.dropStaleOwnership m cr
  | .topologyChanged => (mesh.topologyChanged m cr hub now.wall now.monotonic).1
  | .linkUp node socket => (mesh.linkUp m cr hub now.wall now.monotonic node socket).1
  | .linkDown node socket => (mesh.linkDown m cr hub now.wall now.monotonic node socket).1
  | .nodeState node payload => mesh.handleNodeState m now.wall now.monotonic node payload
  | .membershipTick => (mesh.membershipTick m now.wall now.monotonic).1
  | .stop => mesh.stop m

/-- What an operation puts on the node's links. -/
def MeshOp.sends (m : MeshConfig) (cr : Crypto) (hub : Hub) (now : Clocks) (mesh : NodeMesh) :
    MeshOp → List Send
  | .registerLocalRoute routeTag sid => (mesh.registerLocalRoute m cr hub now.wall routeTag sid).2
  | .removeLocalRoute routeTag sid => (mesh.removeLocalRoute m cr hub now.wall routeTag sid).2
  | .topologyChanged => (mesh.topologyChanged m cr hub now.wall now.monotonic).2
  | .linkUp node socket => (mesh.linkUp m cr hub now.wall now.monotonic node socket).2
  | .linkDown node socket => (mesh.linkDown m cr hub now.wall now.monotonic node socket).2
  | .membershipTick => (mesh.membershipTick m now.wall now.monotonic).2
  | _ => []

/-- The sessions whose cached descriptor an operation drops once it expired. -/
def MeshOp.expires : MeshOp → String → Prop
  | .pruneRoutes, _ => True
  | .remoteDescriptor target, sessionId => sessionId = target
  | _, _ => False

/-- The state in which an operation calls `reconcileMembership`, if it does. -/
def MeshOp.reviews (m : MeshConfig) (now : Clocks) (mesh : NodeMesh) : MeshOp → Option NodeMesh
  | .reconcileMembership | .topologyChanged | .membershipTick => some mesh
  | .linkUp node socket =>
      let (mesh', claimed) := mesh.claimConnection node socket
      if claimed then some mesh' else none
  | .linkDown node socket => mesh.releaseConnection now.monotonic node socket
  | .nodeState node payload => mesh.recordState m now.wall now.monotonic node payload
  | _ => none

structure MeshRun where
  mesh : NodeMesh
  clocks : Clocks

structure MeshEvent where
  hub : Hub
  now : Clocks
  op : MeshOp

def MeshRun.after (m : MeshConfig) (cr : Crypto) (s : MeshRun) (e : MeshEvent) : MeshRun :=
  ⟨e.op.apply m cr e.hub e.now s.mesh, e.now⟩

def meshSystem (m : MeshConfig) (cr : Crypto) : System MeshRun MeshEvent :=
  .machine (fun s => ∃ incarnation, s.mesh = .new m incarnation) (MeshRun.after m cr)

/-! The runs shown below are of a node with the default configuration that
trusts one or two others, at times at which its two clocks agree. -/

def MeshConfig.pair : MeshConfig where
  toConfig := .default
  trusted := {"node-b"}
  trusted_nonempty := by decide
  trusted_card_le := by decide
  local_notMem := by decide

def MeshConfig.trio : MeshConfig where
  toConfig := .default
  trusted := {"node-b", "node-c"}
  trusted_nonempty := by decide
  trusted_card_le := by decide
  local_notMem := by decide

/-- An event whose outcome does not depend on the hub. -/
def at_ (t : Seconds) (op : MeshOp) : MeshEvent := ⟨.new .default 0, ⟨t, t⟩, op⟩

/-- The payload of a `NODE_STATE` of the default epoch. -/
def stateOf (nodeId : String) (connected : List String) (sentAt : Int) : Json :=
  (NodeMessage.nodeState nodeId 1 "i" connected sentAt).payload

end Masterserver
