import Masterserver.Runs.Server

/-!
# Several servers and the signals between them

Whole servers, each with its clients, its clocks and its links, and the
SIGNAL_FORWARD and ACK messages between them. What one of them puts on a link
stays on the wire: it can arrive late, out of order, any number of times or
never. It arrives as the text it was sent as, over a link to its sender. A
frame with any other message may say anything, so nothing rests on those.

Two things are drawn once in a run: the identifier of a request and the
identifier of a message. `history` only records what happened: the requests
`forward_signal` made and what it returned, and the envelopes of peers that
`send_session` queued.
-/

namespace Masterserver

open Lib

/-- Servers whose peers are among them. -/
structure Fleet where
  members : Finset String
  config : String → MeshConfig
  trust : String → NodeTrust
  config_nodeId : ∀ node ∈ members, (config node).nodeId = node
  config_trusted : ∀ node ∈ members, (config node).trusted ⊆ members

/-- A request to hand a signal over, or its answer. -/
def NodeMessage.isExchange : NodeMessage → Bool
  | .signalForward .. | .ack .. => true
  | _ => false

def Effect.exchange? : Effect → Option Send
  | .toNode send => if send.message.isExchange then some send else none
  | _ => none

/-- Such a message on its way, under its identifier. -/
structure Posted where
  source : String
  target : String
  id : String
  message : NodeMessage

/-- The text of the frame: `canonical_json_bytes` of the message. -/
def Posted.text (p : Posted) : List Char := (p.message.toJson p.id).canonical

/-- The type, the identifier and the payload of the message in a frame, as the
receive loop of a link reads it. -/
def readNodeFrame (c : Config) (raw : List Char) : Option (String × String × Payload) :=
  match loadsStrict c.jsonLimits raw with
  | .error _ => none
  | .ok data =>
      match validNodeEnvelope data with
      | .error _ => none
      | .ok parts => parts

inductive Happening
  /-- `forward_signal` made a request; the owner is the node that the session
  map names for the target. -/
  | forwarded (node requestId routeTag target : String) (envelope : Json) (owner : Option String)
  /-- `forward_signal` returned the answer to a request. -/
  | returned (node requestId : String) (delivered : Bool)
  /-- `send_session` returned `True` for the envelope of a peer's request. -/
  | queued (node source : String) (requestId : Json) (target : String) (envelope : Json)
      (now : Seconds)

structure Exchange where
  nodes : String → ServerRun
  wire : List Posted
  requestIds : Finset String
  history : List Happening

/-- An event of one server, with the identifiers of the messages it sends. -/
structure ExchangeEvent where
  node : String
  event : ServerEvent
  messageIds : List String

namespace Exchange

variable (f : Fleet) (cr : Crypto) (w : Exchange)

/-- What an event added to the log. -/
def newEntries (s s' : ServerRun) : List Entry := s'.log.drop s.log.length

def exchangeSends (entries : List Entry) : List Send :=
  entries.filterMap fun entry => entry.effect.exchange?

/-- The messages under their identifiers, each to the node at the other end of
its link. -/
def posted (node : String) (s : ServerRun) (sends : List Send) (ids : List String) :
    List Posted :=
  (sends.zip ids).filterMap fun x =>
    (s.links.get? x.1.link).map fun link => ⟨node, link.nodeId, x.2, x.1.message⟩

def forwardings (node : String) (s' : ServerRun) (sends : List Send) : List Happening :=
  sends.filterMap fun send =>
    match send.message with
    | .signalForward requestId routeTag target envelope =>
        some (.forwarded node requestId routeTag target envelope
          (s'.server.mesh.sessionNodes.get? target))
    | _ => none

/-- The end of a wait for an ACK. -/
def returns (node : String) (s : ServerRun) : ServerOp → List Happening
  | .resume sessionId arrived =>
      match (s.connections.get? sessionId).map Connection.phase with
      | some (.waiting (.ack _ _ requestId)) =>
          [.returned node requestId (s.server.mesh.ackAnswered requestId arrived).2]
      | _ => []
  | _ => []

/-- What is queued for a peer in a frame of its link. -/
def queuings (c : Config) (node : String) (e : ServerEvent) (entries : List Entry) :
    List Happening :=
  match e.op with
  | .nodeFrame _ raw =>
      match readNodeFrame c raw with
      | none => []
      | some (_, _, payload) => entries.filterMap fun entry =>
          match entry with
          | ⟨.node source, .sendSession target envelope true⟩ =>
              some (.queued node source (payload.get "requestId") target envelope
                e.now.monotonic)
          | _ => none
  | _ => []

/-- The request identifier an event draws. -/
def drawn : ServerOp → Finset String
  | .frame _ _ draws => {draws.requestId}
  | _ => ∅

def after (e : ExchangeEvent) : Exchange :=
  let m := f.config e.node
  let s := w.nodes e.node
  let s' := s.after m cr (f.trust e.node) e.event
  let entries := newEntries s s'
  let sends := exchangeSends entries
  { nodes := Function.update w.nodes e.node s'
    wire := w.wire ++ posted e.node s sends e.messageIds
    requestIds := w.requestIds ∪ drawn e.event.op
    history := w.history ++ (forwardings e.node s' sends ++ returns e.node s e.event.op ++
      queuings m.toConfig e.node e.event entries) }

/-- A frame of a link that carries a request or an answer is one of those the
peer at its other end has sent to this node. -/
def Carried (node : String) : ServerOp → Prop
  | .nodeFrame socket raw =>
      ∀ link ∈ (w.nodes node).links.get? socket,
        ∀ parts ∈ readNodeFrame (f.config node).toConfig raw,
          parts.1 ∈ ["SIGNAL_FORWARD", "ACK"] →
            ∃ p ∈ w.wire, p.source = link.nodeId ∧ p.target = node ∧ raw = p.text
  | _ => True

def allowed (e : ExchangeEvent) : Prop :=
  e.node ∈ f.members ∧ (w.nodes e.node).clocks.before e.event.now ∧
    (w.nodes e.node).allowed (f.config e.node) e.event.op ∧ w.Carried f e.node e.event.op ∧
    Disjoint w.requestIds (drawn e.event.op) ∧
    (w.wire.map Posted.id ++ e.messageIds).Nodup

end Exchange

def exchangeSystem (f : Fleet) (cr : Crypto) : System Exchange ExchangeEvent :=
  (System.machine
    (fun w => ∃ (incarnation : String → String) (clocks : String → Clocks),
      w = ⟨fun node => .new (f.config node) (incarnation node) (clocks node), [], ∅, []⟩)
    (Exchange.after f cr)).restrict fun w e => w.allowed f e

end Masterserver
