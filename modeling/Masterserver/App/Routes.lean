import Masterserver.App.Server

/-!
# The legacy endpoint, `/v1/ws`

One socket, one session: HELLO and PROVE unlock it, then it attaches to
routes, asks who else is there and has its messages relayed to them with a
decreasing hop limit.

A validated message has its fields at hand, so what the handlers do about a
missing one is not repeated. The check of the origin comes before anything is
kept and is left out.
-/

namespace Masterserver

open Lib Protocol

/-- `_send_error`. -/
def sendError (code message : String) : Json := makeError session code message .null

namespace V1

variable (c : Config) (cr : Crypto) (now : Seconds) (sessionId : String)

def refuse (server : Server) (code message : String) : Step :=
  server.done [.reply (sendError code message)]

def handleHello (draws : Draws) (publicKeyHex : String) (server : Server) : Step :=
  let publicKeyRaw := if publicKeyHex = "" then none else fromHex publicKeyHex
  let hub := server.hub.updateSession sessionId fun sess =>
    { sess with challenge := some draws.challenge, proven := false, publicKeyRaw := publicKeyRaw }
  ({ server with hub := hub } : Server).done
    [.hello ⟨publicKeyRaw, none, none, draws.challenge, none⟩,
      .reply (messageOf session "HELLO"
        [("payload", .obj [("sessionId", .str sessionId),
          ("challengeHex", .str (hex draws.challenge))])])]

def handleProve (sess : Session) (signatureHex : String) (server : Server) : Step :=
  let (hub, allowed) := server.hub.checkRate now sessionId .prove
  let server := { server with hub := hub }
  if !allowed then
    server.done
      [.reply (sendError "rate-limited" "proof attempt limit exceeded"),
        .close 1008 "proof attempt limit exceeded"]
  else if (sess.challenge.getD []).isEmpty || (sess.publicKeyRaw.getD []).isEmpty ||
      signatureHex = "" then
    refuse server "prove-missing-fields" "HELLO with a publicKeyHex must precede PROVE"
  else
    match fromHex signatureHex with
    | none => refuse server "bad-signature-encoding" "signatureHex must be hex"
    | some signature =>
        let challenge := sess.challenge.getD []
        let verified := verifySignature cr sess.publicKeyRaw challenge signature
        let check := Effect.proofCheck ⟨sess.publicKeyRaw, challenge, signature, verified⟩
        if !verified then
          server.done
            [check,
              .reply (sendError "prove-failed"
                "signature did not verify against the HELLO challenge")]
        else
          let hub := server.hub.updateSession sessionId fun sess =>
            { sess with proven := true, challenge := none }
          ({ server with hub := hub.touchHeartbeat now sessionId } : Server).done
            [check,
              .reply (messageOf session "PROVE" [("payload", .obj [("ok", .bool true)])])]

def handlePing (server : Server) : Step :=
  let (hub, allowed) := server.hub.checkRate now sessionId .heartbeat
  if !allowed then
    refuse { server with hub := hub } "rate-limited" "PING rate limit exceeded"
  else
    ({ server with hub := hub.touchHeartbeat now sessionId } : Server).done
      [.reply (messageOf session "PONG" [])]

/-- `{"routeId": route_id, "ok": True}`. -/
def routeOk (routeId : String) : Json := .obj [("routeId", .str routeId), ("ok", .bool true)]

def handleAttachRoute (routeId : String) (server : Server) : Step :=
  let (hub, allowed) := server.hub.checkRate now sessionId .attachRoute
  let server := { server with hub := hub }
  if !allowed then
    refuse server "rate-limited" "ATTACH_ROUTE rate limit exceeded"
  else
    let (hub, error) :=
      server.hub.attachRoute c now sessionId routeId none (some c.maxV1RoutesPerSession)
    let server := { server with hub := hub }
    match error with
    | some .unknownSession => server.leave []
    | some .tooManyRoutes =>
        refuse server "too-many-routes"
          s!"session already attached to {c.maxV1RoutesPerSession} routes"
    | none =>
        server.done [.reply (messageOf route "ATTACH_ROUTE" [("payload", routeOk routeId)])]

def handleDetachRoute (routeId : String) (server : Server) : Step :=
  let hub := if routeId = "" then server.hub else server.hub.detachRoute sessionId routeId
  ({ server with hub := hub } : Server).done
    [.reply (messageOf route "DETACH_ROUTE" [("payload", routeOk routeId)])]

def handleDiscover (sess : Session) (routeId : String) (server : Server) : Step :=
  let (hub, allowed) := server.hub.checkRate now sessionId .discover
  let server := { server with hub := hub }
  if !allowed then
    refuse server "rate-limited" "DISCOVER rate limit exceeded"
  else if routeId ∉ sess.routes then
    refuse server "not-attached" "attach to the route before discovery"
  else
    let peers := server.hub.routeSubscribers now routeId (some sessionId)
    server.done
      [.reply (messageOf route "PEERS"
        [("payload", .obj [("routeId", .str routeId),
          ("peers", .arr ((peers.take 16).map .str))])])]

/-- `payload.get("ttl", config.max_hops)`. -/
def hopLimit (payload : Payload) : Json := (payload.lookup "ttl").getD (.int c.maxHops)

/-- The message the subscribers get: the hop limit is one less. -/
def relayed (data payload : Payload) : Json :=
  let ttl := match hopLimit c payload with
    | .int n => Json.int (n - 1)
    | ttl => ttl
  .obj (Dict.put "payload" (.obj (Dict.put "ttl" ttl payload)) data)

/-- The digest under which a relay is recorded as seen. -/
def relayKey (type : RelayType) (payload : Payload) (routeId : String) : String :=
  hexdigest (cr.sha256 (canonicalJsonBytes
    (.obj [("routeId", .str routeId), ("type", .str type.name), ("payload", .obj payload)])))

def handleRouteMessage (sess : Session) (type : RelayType) (data payload : Payload)
    (routeId : String) (server : Server) : Step :=
  let (hub, allowed) := server.hub.checkRate now sessionId
    (if type = .forward then .forward else .signal)
  let server := { server with hub := hub }
  if !allowed then
    refuse server "rate-limited" (type.name ++ " rate limit exceeded")
  else if routeId ∉ sess.routes then
    refuse server "not-attached" "attach to the route before signaling"
  else
    let (hub, fresh) :=
      server.hub.checkAndMarkSeen c now (relayKey cr type payload routeId) c.dedupeWindowSeconds
    let server := { server with hub := hub }
    if !fresh then server.done []
    else if (hopLimit c payload).int?.any (· ≤ 0) then server.done []
    else
      let subscribers := (hub.routeSubscribers now routeId (some sessionId)).take c.maxFanout
      ⟨server, [], .waiting (.relay subscribers (relayed c data payload))⟩

/-- One task of a relay. -/
def relayTask (outgoing : Json) (acc : Server × List Effect) (target : String) :
    Server × List Effect :=
  let (hub, delivered) := acc.1.hub.sendSession c target outgoing
  ({ acc.1 with hub := hub }, acc.2 ++ [.sendSession target outgoing delivered])

/-- The tasks of a relay run, one subscriber after the other. -/
def relayTo (outgoing : Json) (subscribers : List String) (server : Server) : Step :=
  let (server, effects) := subscribers.foldl (relayTask c outgoing) (server, [])
  server.done effects

/-- What a session may send before its proof. -/
def beforeProof : V1Message → Bool
  | .hello _ | .prove _ | .ping => true
  | _ => false

/-- The dispatch of `ws_endpoint`. -/
def handle (draws : Draws) (sess : Session) (message : V1Message) (server : Server) : Step :=
  if !sess.proven && !beforeProof message then
    refuse server "not-proven" "complete HELLO/PROVE before other operations"
  else
    match message with
    | .hello publicKeyHex =>
        if sess.challenge.isSome || sess.proven then
          refuse server "invalid-state" "HELLO is only valid once per session"
        else handleHello sessionId draws publicKeyHex server
    | .prove signatureHex =>
        if sess.proven || sess.challenge.isNone then
          refuse server "invalid-state" "PROVE must follow this session's HELLO"
        else handleProve cr now sessionId sess signatureHex server
    | .ping => handlePing now sessionId server
    | .attachRoute routeId => handleAttachRoute c now sessionId routeId server
    | .detachRoute routeId => handleDetachRoute sessionId routeId server
    | .discover routeId => handleDiscover now sessionId sess routeId server
    | .relay type data payload routeId =>
        handleRouteMessage c cr now sessionId sess type data payload routeId server

/-- One frame of the receive loop. -/
def receiveFrame (draws : Draws) (raw : List Char) (server : Server) : Step :=
  match server.admitFrame c sendError now sessionId raw with
  | .error step => step
  | .ok (server, data) =>
      match validateV1Message data with
      | .error (.protocolError code message) => refuse server code message
      | .error .typeError => server.leave []
      | .ok message =>
          match server.hub.sessions.get? sessionId with
          | none => server.leave []
          | some sess => handle c cr now sessionId draws sess message server

end V1

end Masterserver
