import Masterserver.App.NodeLink

/-!
# The second endpoint, `/v2/ws`

A session shows an admission grant bound to its identity key, proves that it
holds the key, attaches to routes, finds the others on them, here and on other
nodes, and sends them signed signals one at a time.

Two requests wait for other nodes. `Waiting` holds what the handler still
needs then, and the functions after `handleDiscover` and `handleSignal` are
what happens when it resumes.
-/

namespace Masterserver

open Lib Protocol

/-- `_v2_error`. -/
def v2Error (code message : String) (inReplyTo : Json) : Json :=
  makeError sessionV2 code message inReplyTo

namespace V2

variable (m : MeshConfig) (cr : Crypto) (trust : NodeTrust) (now : Clocks) (sessionId : String)
variable (id : Json)

def refuse (server : Server) (code message : String) : Step :=
  server.done [.reply (v2Error code message id)]

/-- A reply to the message with the given identifier. -/
def answer (protocol type : String) (payload : List (String × Json)) : Effect :=
  .reply (messageOf protocol type [("inReplyTo", id), ("payload", .obj payload)])

def handleHello (draws : Draws) (sess : Session) (grant : Payload)
    (identityKeyHex encryptionKeyHex : String) (server : Server) : Step :=
  if sess.challenge.isSome || sess.proven then
    refuse id server "invalid-state" "HELLO is only valid once per session"
  else if !isP256Point cr identityKeyHex || !isP256Point cr encryptionKeyHex then
    refuse id server "bad-key" "identity and encryption keys must be valid P-256 points"
  else
    match trust.verifyAdmission cr m.toConfig now.wall grant identityKeyHex with
    | none => server.leave []
    | some false => refuse id server "bad-grant" "admission grant is invalid or expired"
    | some true =>
        let publicKeyRaw := fromHex identityKeyHex
        let hub := server.hub.updateSession sessionId fun sess =>
          { sess with
            challenge := some draws.challenge
            publicKeyRaw := publicKeyRaw
            proven := false }
        match publicKeyRaw, hub.setV2Identity cr sessionId identityKeyHex encryptionKeyHex with
        | some _, some hub =>
            ({ server with hub := hub } : Server).done
              [.hello ⟨publicKeyRaw, some identityKeyHex, some encryptionKeyHex, draws.challenge,
                  some (grant, now.wall)⟩,
                answer id sessionV2 "CHALLENGE"
                  [("sessionId", .str sessionId), ("challengeHex", .str (hex draws.challenge)),
                    ("nodeId", .str m.nodeId), ("manifestHash", .str draws.manifestHash)]]
        | _, _ => server.leave []

def handleProve (sess : Session) (signatureHex : String) (server : Server) : Step :=
  if sess.proven || sess.challenge.isNone then
    refuse id server "invalid-state" "PROVE must follow this session's HELLO"
  else
    let (hub, allowed) := server.hub.checkRate now.monotonic sessionId .prove
    let server := { server with hub := hub }
    if !allowed then
      server.done
        [.reply (v2Error "rate-limited" "proof attempt limit exceeded" id),
          .close 1008 "proof attempt limit exceeded"]
    else
      match fromHex signatureHex with
      | none => server.leave []
      | some signature =>
          let challenge := sess.challenge.getD []
          if challenge.isEmpty then
            refuse id server "prove-failed" "signature did not verify"
          else
            let verified := verifySignature cr sess.publicKeyRaw challenge signature
            let check := Effect.proofCheck ⟨sess.publicKeyRaw, challenge, signature, verified⟩
            if !verified then
              server.done
                [check, .reply (v2Error "prove-failed" "signature did not verify" id)]
            else
              let hub := server.hub.updateSession sessionId fun sess =>
                { sess with proven := true, challenge := none }
              ({ server with hub := hub.touchHeartbeat now.monotonic sessionId } : Server).done
                [check,
                  answer id sessionV2 "SESSION_READY"
                    [("sessionId", .str sessionId),
                      ("routeLeaseSeconds", secondsJson m.routeLeaseSeconds)]]

def handlePing (server : Server) : Step :=
  let (hub, allowed) := server.hub.checkRate now.monotonic sessionId .heartbeat
  if !allowed then
    refuse id { server with hub := hub } "rate-limited" "PING rate limit exceeded"
  else
    ({ server with hub := hub.touchHeartbeat now.monotonic sessionId } : Server).done
      [.reply (messageOf sessionV2 "PONG" [("inReplyTo", id)])]

def handleAttachRoute (routeTag : String) (server : Server) : Step :=
  let (hub, allowed) := server.hub.checkRate now.monotonic sessionId .attachRoute
  let server := { server with hub := hub }
  if !allowed then
    refuse id server "rate-limited" "ATTACH_ROUTE rate limit exceeded"
  else
    let (hub, error) :=
      server.hub.attachRoute m.toConfig now.monotonic sessionId routeTag none none
    let server := { server with hub := hub }
    match error with
    | some .unknownSession => server.leave []
    | some .tooManyRoutes =>
        refuse id server "too-many-routes" s!"session route limit is {m.maxRoutesPerSession}"
    | none =>
        let (mesh, sends) := server.mesh.registerLocalRoute m cr hub now.wall routeTag sessionId
        ({ server with mesh := mesh } : Server).done
          (sends.map .toNode ++
            [answer id routeV2 "ATTACH_ROUTE"
              [("routeTag", .str routeTag), ("ok", .bool true),
                ("leaseSeconds", secondsJson m.routeLeaseSeconds)]])

def handleDetachRoute (routeTag : String) (server : Server) : Step :=
  let hub := server.hub.detachRoute sessionId routeTag
  let (mesh, sends) := server.mesh.removeLocalRoute m cr hub now.wall routeTag sessionId
  ({ server with hub := hub, mesh := mesh } : Server).done
    (sends.map .toNode ++
      [answer id routeV2 "DETACH_ROUTE" [("routeTag", .str routeTag), ("ok", .bool true)]])

/-- The PEERS reply: local and remote descriptors, one for each session and
none for the one that asks. -/
def peersReply (routeTag : String) (peers : List Hub.PeerDescriptor)
    (found : Dict String Descriptor) : Effect :=
  let items := (peers.map fun d => (d.sessionId, d.toJson)) ++
    found.values.map fun d => (d.sessionId, d.raw)
  let peers := (items.filter fun item => item.1 ≠ sessionId).foldl
    (fun peers item => peers.set item.1 item.2) (∅ : Dict String Json)
  answer id routeV2 "PEERS"
    [("routeTag", .str routeTag), ("peers", .arr (peers.values.take m.maxFanout))]

def handleDiscover (sess : Session) (routeTag : String) (server : Server) : Step :=
  let (hub, allowed) := server.hub.checkRate now.monotonic sessionId .discover
  let server := { server with hub := hub }
  if !allowed then
    refuse id server "rate-limited" "DISCOVER rate limit exceeded"
  else if routeTag ∉ sess.routes then
    refuse id server "not-attached" "attach to the route before discovery"
  else
    let peers := hub.routePeerDescriptors now.monotonic routeTag (some sessionId)
    let (mesh, found, queries) := server.mesh.discover m cr hub now.wall routeTag
    let server := { server with mesh := mesh }
    if queries.isEmpty then server.done [peersReply m sessionId id routeTag peers found]
    else ⟨server, [], .waiting (.discover id routeTag peers found queries)⟩

/-- All answers of a DISCOVER are there. -/
def finishDiscover (routeTag : String) (peers : List Hub.PeerDescriptor)
    (found : Dict String Descriptor) (queries : List Query) (server : Server) : Step :=
  let (mesh, found) := server.mesh.discovered m server.hub now.wall found queries
  ({ server with mesh := mesh } : Server).done [peersReply m sessionId id routeTag peers found]

/-- The bytes a signal's signature is over. -/
def signedBytes (payload : Payload) : Bytes :=
  canonicalJsonBytes (.obj (payload.filter fun member => member.1 ≠ "signatureHex"))

def replayKey (signal : Signal) : String :=
  s!"v2:{sessionId}:{signal.messageId}:{signal.sequence}"

/-- The envelope the recipient gets. -/
def outgoing (signal : Signal) : Json :=
  messageOf signalV2 "SIGNAL" [("id", id), ("payload", .obj signal.payload)]

def signalAck (messageId : String) (delivered : Bool) : Effect :=
  answer id signalV2 "SIGNAL_ACK"
    [("messageId", .str messageId), ("accepted", .bool true), ("delivered", .bool delivered)]

/-- The key of a session another node can reach it with: its own descriptor,
or the one the mesh has for it. -/
def recipientKeyId (targetSessionId : String) (server : Server) : Server × Option Json :=
  match server.hub.peerDescriptor targetSessionId with
  | some d => (server, some ((d.keyId.map Json.str).getD .null))
  | none =>
      let (mesh, descriptor) := server.mesh.remoteDescriptor now.wall targetSessionId
      ({ server with mesh := mesh }, descriptor.map fun d => (d.raw.get? "keyId").getD .null)

/-- A signal that passed the replay check goes to its recipient, on this node
or through the node that announced it. -/
def relaySignal (draws : Draws) (signal : Signal) (server : Server) : Step :=
  let (server, keyId) := recipientKeyId now signal.toSessionId server
  if keyId.bind Json.str? ≠ some signal.keyId then
    server.done [.signalAccepted signal,
      .reply (v2Error "unknown-recipient" "recipient is unavailable or key id does not match" id)]
  else if signal.toSessionId ∈
      server.hub.routeSubscribers now.monotonic signal.routeTag (some sessionId) then
    let (hub, delivered) :=
      server.hub.sendSession m.toConfig signal.toSessionId (outgoing id signal)
    ({ server with hub := hub } : Server).done
      [.signalAccepted signal, .sendSession signal.toSessionId (outgoing id signal) delivered,
        signalAck id signal.messageId delivered]
  else
    let (mesh, send) := server.mesh.forwardSignal m draws.requestId signal.routeTag
      signal.toSessionId (outgoing id signal)
    let effects : List Effect :=
      [.signalAccepted signal,
        .forwardSignal signal.routeTag signal.toSessionId (outgoing id signal)]
    let server := { server with mesh := mesh }
    match send with
    | none => server.done (effects ++ [signalAck id signal.messageId false])
    | some send =>
        ⟨server, effects ++ [.toNode send], .waiting (.ack id signal.messageId draws.requestId)⟩

/-- `_handle_v2_signal`. -/
def handleSignal (draws : Draws) (sess : Session) (signal : Signal) (server : Server) : Step :=
  let epoch := pyInt now.wall
  if signal.routeTag ∉ sess.routes then
    refuse id server "not-attached" "sender is not attached to route"
  else if signal.fromSessionId ≠ sessionId ∨ some signal.senderKeyId ≠ sess.identityKeyId ∨
      some signal.senderIdentityKeyHex ≠ sess.identityKeyHex then
    refuse id server "sender-mismatch" "signal sender binding does not match the proven session"
  else if ¬(epoch - 5 ≤ signal.expiresAt ∧ signal.expiresAt ≤ epoch + 300) then
    refuse id server "expired-signal" "signal expiry is outside the accepted window"
  else
    let (hub, allowed) := server.hub.checkRate now.monotonic sessionId .signalV2
    let server := { server with hub := hub }
    if !allowed then
      refuse id server "rate-limited" "SIGNAL rate limit exceeded"
    else
      let (allowed, limiter) := server.signalGlobalLimiter.tryConsume now.monotonic 1
      let server := { server with signalGlobalLimiter := limiter }
      if !allowed then
        refuse id server "capacity" "global signal verification capacity exceeded"
      else
        match fromHex signal.signatureHex with
        | none => server.leave []
        | some signature =>
            if !verifySignature cr sess.publicKeyRaw (signedBytes signal.payload) signature then
              refuse id server "bad-signal-signature" "signal sender signature did not verify"
            else if (signal.sequence : Int) ≤ sess.lastSignalSequence then
              refuse id server "replay" "message id and sequence were already accepted"
            else
              let (hub, fresh) := server.hub.checkAndMarkSeen m.toConfig now.monotonic
                (replayKey sessionId signal) m.dedupeWindowSeconds
              let server := { server with hub := hub }
              if !fresh then
                refuse id server "replay" "message id and sequence were already accepted"
              else
                let hub := hub.updateSession sessionId fun sess =>
                  { sess with lastSignalSequence := signal.sequence }
                relaySignal m now sessionId id draws signal { server with hub := hub }

/-- The wait for another node's acknowledgement is over. -/
def finishSignal (messageId requestId : String) (arrived : Bool) (server : Server) : Step :=
  let (mesh, delivered) := server.mesh.ackAnswered requestId arrived
  ({ server with mesh := mesh } : Server).done [signalAck id messageId delivered]

/-- What a session may send before its proof. -/
def beforeProof : V2Request → Bool
  | .hello .. | .prove _ | .ping => true
  | _ => false

/-- `_handle_v2_message` on a session that is there. -/
def handle (draws : Draws) (sess : Session) (request : V2Request) (server : Server) : Step :=
  if !sess.proven && !beforeProof request then
    refuse id server "not-proven" "complete HELLO/PROVE before other operations"
  else
    match request with
    | .hello grant identityKeyHex encryptionKeyHex =>
        handleHello m cr trust now sessionId id draws sess grant identityKeyHex encryptionKeyHex
          server
    | .prove signatureHex => handleProve m cr now sessionId id sess signatureHex server
    | .ping => handlePing now sessionId id server
    | .attachRoute routeTag => handleAttachRoute m cr now sessionId id routeTag server
    | .detachRoute routeTag => handleDetachRoute m cr now sessionId id routeTag server
    | .discover routeTag => handleDiscover m cr now sessionId id sess routeTag server
    | .signal signal => handleSignal m cr now sessionId id draws sess signal server

omit id in
/-- One frame of the receive loop. A session that was removed while the loop
waited for the frame makes the handler raise. -/
def receiveFrame (draws : Draws) (raw : List Char) (server : Server) : Step :=
  match server.admitFrame m.toConfig (fun code message => v2Error code message .null)
      now.monotonic sessionId raw with
  | .error step => step
  | .ok (server, data) =>
      match validateV2Message data with
      | .error (.protocolError code message) =>
          server.done [.reply (v2Error code message ((data.get? "id").getD .null))]
      | .error .typeError => server.leave []
      | .ok message =>
          match server.hub.sessions.get? sessionId with
          | none => server.leave []
          | some sess =>
              handle m cr trust now sessionId (idJson message.id) draws sess message.request server

omit id in
/-- The routes the `finally` of the loop takes off the mesh, one after the
other, before it removes the session. -/
def routesToRemove (server : Server) : List String :=
  match server.hub.sessions.get? sessionId with
  | none => []
  | some sess => sorted sess.routes

omit id in
def removeRoute (routeTag : String) (server : Server) : Step :=
  let (mesh, sends) := server.mesh.removeLocalRoute m cr server.hub now.wall routeTag sessionId
  server.withMesh mesh sends

end V2

end Masterserver
