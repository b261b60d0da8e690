import Masterserver.Runs.Hub
import Masterserver.Runs.Mesh

/-!
# Runs of a started node

The hub and the mesh of one node together: clients' sessions are made,
identified, proven, attached and detached, whatever else the hub does happens
in between, and the mesh has its links, messages and reviews. A session
identifier is drawn once, here or anywhere in the cluster, so a new session
uses one that was not issued before and that no peer has announced.

The operations that the mesh only runs as parts of others are not events of
their own here, and the node is not stopped.
-/

namespace Masterserver

open Lib

inductive NodeOp
  | hub (op : HubOp)
  | identify (sessionId identityKeyHex encryptionKeyHex : String)
  | prove (sessionId : String)
  | attachRoute (sessionId routeTag : String)
  | detachRoute (sessionId routeTag : String)
  | mesh (op : MeshOp)

structure NodeEvent where
  now : Clocks
  op : NodeOp

structure NodeRun where
  hub : Hub
  mesh : NodeMesh
  clocks : Clocks
  issued : Finset String

namespace NodeRun

def allowed (m : MeshConfig) (s : NodeRun) : NodeOp → Prop
  | .hub (.createSession sid) =>
      sid ∉ s.issued ∧ s.mesh.sessionNodes.get? sid = none ∧
        s.hub.sessionCount < m.maxConcurrency
  | .mesh .reconcileMembership | .mesh .dropStaleOwnership | .mesh .topologyChanged
  | .mesh .stop => False
  | _ => True

instance (m : MeshConfig) (s : NodeRun) : ∀ op, Decidable (s.allowed m op)
  | .hub (.createSession _) => inferInstanceAs (Decidable (_ ∧ _ ∧ _))
  | .mesh .reconcileMembership | .mesh .dropStaleOwnership | .mesh .topologyChanged
  | .mesh .stop => isFalse id
  | .hub (.touchHeartbeat _) | .hub (.attachRoute _ _ _ _) | .hub (.heartbeatRoute _ _ _)
  | .hub (.detachRoute _ _) | .hub .pruneRoutes | .hub .pruneStaleSessions
  | .hub (.removeSession _) | .hub (.sendSession _ _) | .hub (.writerDequeue _)
  | .hub (.writerSent _) | .hub (.writerFailed _) | .hub (.checkAndMarkSeen _ _)
  | .hub .pruneDedupe | .identify _ _ _ | .prove _ | .attachRoute _ _ | .detachRoute _ _
  | .mesh (.applyRouteMessage _ _ _) | .mesh (.cacheDescriptor _) | .mesh .pruneRoutes
  | .mesh (.remoteDescriptor _) | .mesh (.registerLocalRoute _ _)
  | .mesh (.removeLocalRoute _ _) | .mesh (.linkUp _ _) | .mesh (.linkDown _ _)
  | .mesh (.nodeState _ _) | .mesh .membershipTick => isTrue trivial

/-- The hub after an operation. A message that raises changes nothing. -/
def hubAfter (m : MeshConfig) (cr : Crypto) (s : NodeRun) (now : Clocks) : NodeOp → Hub
  | .hub op => op.apply m.toConfig now.monotonic s.hub
  | .identify sid identityKeyHex encryptionKeyHex =>
      (s.hub.setV2Identity cr sid identityKeyHex encryptionKeyHex).getD s.hub
  | .prove sid =>
      s.hub.updateSession sid fun sess => { sess with proven := true, challenge := none }
  | .attachRoute sid routeTag =>
      (s.hub.attachRoute m.toConfig now.monotonic sid routeTag none none).1
  | .detachRoute sid routeTag => s.hub.detachRoute sid routeTag
  | .mesh _ => s.hub

/-- The mesh after an operation; an attachment that the hub refuses is not
announced. -/
def meshAfter (m : MeshConfig) (cr : Crypto) (s : NodeRun) (now : Clocks) : NodeOp → NodeMesh
  | .attachRoute sid routeTag =>
      let (hub, error) := s.hub.attachRoute m.toConfig now.monotonic sid routeTag none none
      if error = none then (s.mesh.registerLocalRoute m cr hub now.wall routeTag sid).1
      else s.mesh
  | .detachRoute sid routeTag =>
      (s.mesh.removeLocalRoute m cr (s.hub.detachRoute sid routeTag) now.wall routeTag sid).1
  | .mesh op => op.apply m cr s.hub now s.mesh
  | _ => s.mesh

def issuedAfter (s : NodeRun) : NodeOp → Finset String
  | .hub (.createSession sid) => insert sid s.issued
  | _ => s.issued

def after (m : MeshConfig) (cr : Crypto) (s : NodeRun) (e : NodeEvent) : NodeRun :=
  ⟨s.hubAfter m cr e.now e.op, s.meshAfter m cr e.now e.op, e.now, s.issuedAfter e.op⟩

end NodeRun

def nodeSystem (m : MeshConfig) (cr : Crypto) : System NodeRun NodeEvent :=
  (System.machine
    (fun s => ∃ (incarnation : String) (clocks : Clocks),
      s = ⟨.new m.toConfig clocks.monotonic, .new m incarnation, clocks, ∅⟩)
    (NodeRun.after m cr)).restrict fun s e => s.clocks.before e.now ∧ s.allowed m e.op

end Masterserver
