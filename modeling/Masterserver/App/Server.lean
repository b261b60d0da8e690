import Masterserver.App.NodeMesh
import Masterserver.App.Protocol
import Masterserver.App.StrictJson
import Masterserver.App.Trust
import Masterserver.Lib.Binary64

/-!
# What the endpoints of a server share

The two client endpoints and the node links work on one hub, one mesh state
and one limiter. What one of them does between two suspensions is a step: a
function from the server before to the server after, with what it does to
others, in order, and where the receive loop stands afterwards.

Part of what a step does is only recorded for the results about it: that a
HELLO was accepted, that a proof was checked, that a signal passed the replay
check. The record carries what the source has at hand at that place.

`admitFrame` is the beginning of both receive loops: the frame's size, the two
rate limits and the decoder, each of which can turn it down.
-/

namespace Masterserver

open Lib

/-- The two client endpoints: `/v1/ws` and `/v2/ws`. -/
inductive Endpoint
  | v1
  | v2
  deriving DecidableEq

structure Server where
  hub : Hub
  mesh : NodeMesh
  signalGlobalLimiter : TokenBucket

/-- What a step draws: the 32 bytes of a challenge and the identifier of a
request to another node. The digest of the manifest the node publishes at the
time stands with them, since manifests are not made here. -/
structure Draws where
  challenge : Bytes
  requestId : String
  manifestHash : String
  challenge_length : challenge.length = 32

/-! ## What a step does -/

/-- An accepted HELLO: the keys the session now has, its challenge and, at the
second endpoint, the admission grant with the time it was verified at. -/
structure Hello where
  publicKeyRaw : Option Bytes
  identityKeyHex : Option String
  encryptionKeyHex : Option String
  challenge : Bytes
  admission : Option (Payload × Seconds)

/-- One verification of a PROVE signature. -/
structure ProofCheck where
  publicKeyRaw : Option Bytes
  challenge : Bytes
  signature : Bytes
  verified : Bool

inductive Effect
  | reply (message : Json)
  | close (code : Nat) (reason : String)
  | hello (hello : Hello)
  | proofCheck (check : ProofCheck)
  | signalAccepted (signal : Protocol.Signal)
  /-- `hub.send_session` was called, and what it returned. -/
  | sendSession (target : String) (message : Json) (delivered : Bool)
  /-- `node_mesh.forward_signal` was called. -/
  | forwardSignal (routeTag target : String) (message : Json)
  | toNode (send : Send)

/-- One question `discover` asks another owner of the route: its task has not
run yet, has sent the question, or is done. -/
inductive Query
  | unstarted (link : Nat)
  | asked (queryId : String)
  | answered (descriptors : List Json)

/-- What the handler of a message is suspended on, with what it still needs. -/
inductive Waiting
  /-- The tasks of a legacy relay, one for each subscriber. -/
  | relay (subscribers : List String) (outgoing : Json)
  | discover (id : Json) (routeTag : String) (peers : List Hub.PeerDescriptor)
      (found : Dict String Descriptor) (queries : List Query)
  | ack (id : Json) (messageId requestId : String)

/-- Where a receive loop stands: it goes round, it has ended, or its handler
waits. -/
inductive Next
  | goOn
  | ended
  | waiting (on : Waiting)

structure Step where
  server : Server
  effects : List Effect
  next : Next

/-- The handler is through and only sends are left. -/
def Server.done (server : Server) (effects : List Effect) : Step := ⟨server, effects, .goOn⟩

/-- An exception ends the loop, or a break. -/
def Server.leave (server : Server) (effects : List Effect) : Step := ⟨server, effects, .ended⟩

/-! ## Messages -/

/-- A message of the server: its namespace, its type and the other members. -/
def messageOf (protocol type : String) (members : List (String × Json)) : Json :=
  .obj (("protocol", .str protocol) :: ("type", .str type) :: members)

/-- `message.get("id")` of a validated message. -/
def idJson (id : Option String) : Json := (id.map Json.str).getD .null

/-- A number of seconds from the configuration. -/
def secondsJson (x : Seconds) : Json := .float (printRatio x.num.natAbs x.den)

def Hub.PeerDescriptor.toJson (d : Hub.PeerDescriptor) : Json :=
  let text? (value : Option String) : Json := (value.map Json.str).getD .null
  .obj [("sessionId", .str d.sessionId), ("encryptionKeyHex", text? d.encryptionKeyHex),
    ("keyId", text? d.keyId)]

/-! ## The beginning of a receive loop -/

/-- The limits the endpoints and the node links decode with. -/
def Config.jsonLimits (c : Config) : JsonLimits where
  maxBytes := c.maxFrameBytes
  maxDepth := c.maxJsonDepth
  maxNodes := c.maxJsonNodes
  maxStringBytes := c.maxFrameBytes

/-- A frame up to its decoding: the message, or the step that turns it down.
`error` is the endpoint's error message. -/
def Server.admitFrame (c : Config) (error : String → String → Json) (now : Seconds)
    (sessionId : String) (raw : List Char) (server : Server) : Except Step (Server × Json) :=
  if c.maxFrameBytes < String.utf8Len raw then
    .error (server.done [.reply (error "frame-too-large" "message exceeds max frame size")])
  else
    let (hub, allowed) := server.hub.checkRate now sessionId .message
    if !allowed then
      .error (({ server with hub := hub } : Server).leave
        [.reply (error "rate-limited" "inbound message rate exceeded"),
          .close 1008 "message rate exceeded"])
    else
      let (hub, allowed) := hub.consumeMessage now
      let server := { server with hub := hub }
      if !allowed then
        .error (server.leave
          [.reply (error "capacity" "global message capacity exceeded"),
            .close 1013 "global message capacity"])
      else
        match loadsStrict c.jsonLimits raw with
        | .error (.strict _) =>
            .error (server.done [.reply (error "bad-json" "message is not valid JSON")])
        | .error .unicodeEncode => .error (server.leave [])
        | .ok message => .ok (server, message)

/-- The proof deadline has passed. -/
def Server.proofTimeout (error : String → String → Json) (server : Server) : Step :=
  server.leave
    [.reply (error "proof-timeout" "did not complete PROVE within the deadline"),
      .close 1008 "proof timeout"]

end Masterserver
