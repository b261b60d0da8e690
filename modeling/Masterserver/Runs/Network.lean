import Masterserver.Runs.Mesh

/-!
# Several nodes and the messages between them

The nodes of a cluster are configured with each other and with one membership
epoch. Each has its own clocks, links come up and go down at either end on
their own, and a `NODE_STATE` on its way can be delivered in any order, late or
never, to a node that has a link to its sender. Every node decides for itself:
there is no step in which two of them agree on anything.

`reviews` only records what happened: the last review of the membership each
node made, with the state it was made in.
-/

namespace Masterserver

open Lib

/-- Two or more nodes that trust each other. -/
structure Cluster where
  members : Finset String
  config : String → MeshConfig
  epoch : Nat
  two_le : 2 ≤ members.card
  config_nodeId : ∀ node ∈ members, (config node).nodeId = node
  config_trusted : ∀ node ∈ members, (config node).trusted = members.erase node
  config_epoch : ∀ node ∈ members, (config node).nodeMeshMembershipEpoch = epoch
  config_enabled : ∀ node ∈ members, (config node).nodeMeshEnabled = true

structure Packet where
  source : String
  target : String
  payload : Json

/-- A review of the membership: when, and in what state. -/
structure Review where
  now : Seconds
  before : NodeMesh

structure Network where
  nodes : String → NodeMesh
  clocks : String → Clocks
  inFlight : List Packet
  reviews : String → Option Review

inductive NetworkAction
  | linkUp (node peer : String) (socket : Nat)
  | linkDown (node peer : String) (socket : Nat)
  | tick (node : String)
  | deliver (index : Nat)
  | lose (index : Nat)

/-- An action with the clocks and the hub of the node it happens at. -/
structure NetworkEvent where
  now : Clocks
  hub : Hub
  action : NetworkAction

namespace Network

variable (k : Cluster) (cr : Crypto) (w : Network)

/-- The node an action happens at and what it does there. -/
def operation : NetworkAction → Option (String × MeshOp)
  | .linkUp node peer socket => some (node, .linkUp peer socket)
  | .linkDown node peer socket => some (node, .linkDown peer socket)
  | .tick node => some (node, .membershipTick)
  | .deliver index => w.inFlight[index]?.map fun p => (p.target, .nodeState p.source p.payload)
  | .lose _ => none

/-- A link joins two nodes of the cluster, over a socket of its own; a message
arrives over a link. -/
def allowed : NetworkAction → Prop
  | .linkUp node peer socket =>
      node ∈ k.members ∧ peer ∈ k.members.erase node ∧
        socket ∉ (w.nodes node).connections.values
  | .linkDown node peer _ => node ∈ k.members ∧ peer ∈ k.members.erase node
  | .tick node => node ∈ k.members
  | .deliver index => ∀ p ∈ w.inFlight[index]?,
      (w.nodes p.target).connections.contains p.source = true
  | .lose _ => True

instance : ∀ action, Decidable (w.allowed k action)
  | .linkUp _ _ _ => inferInstanceAs (Decidable (_ ∧ _ ∧ _))
  | .linkDown _ _ _ => inferInstanceAs (Decidable (_ ∧ _))
  | .tick _ => inferInstanceAs (Decidable (_ ∈ _))
  | .deliver _ => inferInstanceAs (Decidable (∀ _ ∈ _, _))
  | .lose _ => isTrue trivial

/-- The `NODE_STATE` messages among a node's sends, each addressed to the peer
at the other end of its link. -/
def statesSent (node : String) (mesh : NodeMesh) (sends : List Send) : List Packet :=
  sends.filterMap fun send =>
    match send.message with
    | .nodeState .. =>
        (mesh.connections.entries.find? (·.2 == send.link)).map fun e =>
          ⟨node, e.1, send.message.payload⟩
    | _ => none

/-- The messages still under way when an action has taken its own. -/
def remaining : NetworkAction → List Packet
  | .deliver index | .lose index => w.inFlight.eraseIdx index
  | _ => w.inFlight

def after (e : NetworkEvent) : Network :=
  match w.operation e.action with
  | none => { w with inFlight := w.remaining e.action }
  | some (node, op) =>
      let m := k.config node
      let mesh := w.nodes node
      let mesh' := op.apply m cr e.hub e.now mesh
      { nodes := Function.update w.nodes node mesh'
        clocks := Function.update w.clocks node e.now
        inFlight := w.remaining e.action ++
          statesSent node mesh' (op.sends m cr e.hub e.now mesh)
        reviews := Function.update w.reviews node
          (match op.reviews m e.now mesh with
            | none => w.reviews node
            | some before => some ⟨e.now.monotonic, before⟩) }

/-- The clocks of the node an action happens at do not run backwards. -/
def inOrder (e : NetworkEvent) : Prop :=
  ∀ x ∈ w.operation e.action, (w.clocks x.1).before e.now

instance (e : NetworkEvent) : Decidable (w.inOrder e) :=
  inferInstanceAs (Decidable (∀ _ ∈ _, _))

end Network

def networkSystem (k : Cluster) (cr : Crypto) : System Network NetworkEvent :=
  (System.machine
    (fun w => ∃ (incarnation : String → String) (clocks : String → Clocks),
      w = ⟨fun node => .new (k.config node) (incarnation node), clocks, [], fun _ => none⟩)
    (Network.after k cr)).restrict fun w e => w.inOrder e ∧ w.allowed k e.action

end Masterserver
