import Masterserver.App.SessionCrypto

/-!
# The wire protocol

The validators run before a message is dispatched. A validator answers with
what it established: the fields the handlers read, as the types it tested them
for. What it raises is a `ProtocolError`, which the endpoints answer, or the
`TypeError` of looking up a list or an object in a set of names, which they do
not.

An object is a dictionary, so a payload is compared with a set of names by
comparing its names, each once, with them.
-/

namespace Masterserver

open Lib

abbrev Payload := List (String × Json)

/-- `payload.get(name)`, where a missing field reads as `None`. -/
def Payload.get (payload : Payload) (name : String) : Json := (payload.lookup name).getD .null

/-- `set(payload) == {...}`. -/
def Payload.hasExactly (payload : Payload) (names : List String) : Bool :=
  (payload.map Prod.fst).isPerm names

namespace Protocol

/-! ## Names -/

def discovery : String := "particle-discovery/1"
def session : String := "particle-session/1"
def route : String := "particle-route/1"
def signal : String := "particle-signal/1"
def sessionV2 : String := "particle-session/2"
def routeV2 : String := "particle-route/2"
def signalV2 : String := "particle-signal/2"
def node : String := "particle-node/1"

def knownProtocols : List String :=
  [discovery, session, route, signal, sessionV2, routeV2, signalV2, node]

def messageTypes : List String :=
  ["HELLO", "PROVE", "ATTACH_ROUTE", "DETACH_ROUTE", "SUBSCRIBE", "UNSUBSCRIBE", "DISCOVER",
    "PEERS", "PUBLISH", "FORWARD", "SIGNAL", "PING", "PONG", "ERROR", "CHALLENGE",
    "SESSION_READY", "SIGNAL_ACK", "NODE_HELLO", "NODE_STATE", "ROUTE_REGISTER", "ROUTE_REMOVE",
    "ROUTE_QUERY", "ROUTE_RESULT", "SIGNAL_FORWARD", "ACK"]

def maxIdBytes : Nat := 128

def maxRouteIdBytes : Nat := 256

/-! ## Errors -/

/-- What a validator raises. -/
inductive Raised
  | protocolError (code message : String)
  | typeError
  deriving DecidableEq

def fail {α : Type} (code message : String) : Except Raised α :=
  .error (.protocolError code message)

/-- One character of a text between two quotes; a character beyond ASCII is
taken to be printable. -/
def reprChar (quote c : Char) : List Char :=
  if c = quote ∨ c = backslash then [backslash, c]
  else if c = '\n' then [backslash, 'n']
  else if c = '\r' then [backslash, 'r']
  else if c = '\t' then [backslash, 't']
  else if c.toNat < 32 ∨ c.toNat = 127 then
    [backslash, 'x', hexDigit (c.toNat / 16), hexDigit (c.toNat % 16)]
  else [c]

/-- `repr` of a text: single quotes, unless it has those and no double ones. -/
def reprText (s : String) : String :=
  let single := Char.ofNat 39
  let quote := if single ∈ s.toList ∧ quoteMark ∉ s.toList then quoteMark else single
  String.ofList (quote :: (s.toList.flatMap (reprChar quote) ++ [quote]))

/-- `repr` of a value that is not a list or an object. -/
def reprScalar : Json → String
  | .bool true => "True"
  | .bool false => "False"
  | .int n => toString n
  | .float text => text.replace "Infinity" "inf"
  | .str s => reprText s
  | _ => "None"

/-- `value not in names` of a set: a list or an object is not hashable. -/
def notIn (names : List String) : Json → Except Raised Bool
  | .str s => .ok (s ∉ names)
  | .arr _ | .obj _ => .error .typeError
  | _ => .ok true

/-- `bounded_text` with `exact`: its argument doubles as the maximum. -/
def exactText (value : Json) (field : String) (exact : Nat) : Except Raised String :=
  match value with
  | .str s =>
      if s.utf8ByteSize = 0 ∨ s.utf8ByteSize ≠ exact then
        fail "bad-field" (field ++ " must contain exactly " ++ toString exact ++ " UTF-8 bytes")
      else .ok s
  | _ => fail "bad-field" (field ++ " must be text")

/-- `bounded_text` without `exact`. -/
def boundedText (value : Json) (field : String) (maximum : Nat) : Except Raised String :=
  match value with
  | .str s =>
      if s.utf8ByteSize = 0 ∨ maximum < s.utf8ByteSize then
        fail "bad-field" (field ++ " must contain 1.." ++ toString maximum ++ " UTF-8 bytes")
      else .ok s
  | _ => fail "bad-field" (field ++ " must be text")

/-- `_hex_field`. -/
def hexField (value : Json) (field : String) (byteLength : Nat) : Except Raised Bytes := do
  let text ← exactText value field (byteLength * 2)
  match fromHex text with
  | none => fail "bad-field" (field ++ " must be hexadecimal")
  | some decoded =>
      if decoded.length ≠ byteLength then
        fail "bad-field" (field ++ " must encode " ++ toString byteLength ++ " bytes")
      else .ok decoded

/-- A field that passed `_hex_field`, as the text it is. The validators drop the
bytes, and the handlers read the text. -/
def hexFieldText (value : Json) (field : String) (byteLength : Nat) : Except Raised String := do
  let _ ← hexField value field byteLength
  .ok (value.str?.getD "")

/-! ## The envelope -/

/-- A well-formed envelope, `data` as a whole: `id` is `message.get("id")` and
`payload` is `message.get("payload") or {}`. -/
structure Envelope where
  data : Payload
  protocol : String
  type : String
  id : Option String
  payload : Payload

def validateEnvelope : Json → Except Raised Envelope
  | .obj data => do
      if data.any fun member => decide (member.1 ∉ ["protocol", "type", "id", "payload"]) then
        fail "bad-envelope" "message contains unexpected envelope fields"
      let protocol := Payload.get data "protocol"
      let type := Payload.get data "type"
      if ← notIn knownProtocols protocol then
        fail "unknown-protocol"
          ("unknown/unversioned protocol namespace: " ++ reprScalar protocol)
      if ← notIn messageTypes type then
        fail "unknown-type" ("unknown message type: " ++ reprScalar type)
      let id ← match Payload.get data "id" with
        | .null => .ok none
        | .str s =>
            if 1 ≤ s.utf8ByteSize ∧ s.utf8ByteSize ≤ maxIdBytes then .ok (some s)
            else fail "bad-id" "message id must be bounded UTF-8 text"
        | _ => fail "bad-id" "message id must be bounded UTF-8 text"
      match Payload.get data "payload" with
      | .null => pure ⟨data, protocol.str?.getD "", type.str?.getD "", id, []⟩
      | .obj payload => pure ⟨data, protocol.str?.getD "", type.str?.getD "", id, payload⟩
      | _ => fail "bad-payload" "payload must be a JSON object"
  | _ => fail "bad-envelope" "message must be a JSON object"

/-! ## Version 1 -/

inductive RelayType
  | signal
  | forward
  | publish
  deriving DecidableEq

def RelayType.name : RelayType → String
  | .signal => "SIGNAL"
  | .forward => "FORWARD"
  | .publish => "PUBLISH"

/-- A validated message of the legacy endpoint. -/
inductive V1Message
  | hello (publicKeyHex : String)
  | prove (signatureHex : String)
  | ping
  | attachRoute (routeId : String)
  | detachRoute (routeId : String)
  | discover (routeId : String)
  | relay (type : RelayType) (data payload : Payload) (routeId : String)

/-- The namespace a legacy message type belongs to besides discovery. -/
def expectedProtocolV1 (type : String) : Option String :=
  if type ∈ ["HELLO", "PROVE", "PING"] then some session
  else if type ∈ ["ATTACH_ROUTE", "DETACH_ROUTE", "DISCOVER"] then some route
  else if type ∈ ["SIGNAL", "FORWARD", "PUBLISH"] then some signal
  else none

def wrongNamespace {α : Type} (e : Envelope) : Except Raised α :=
  fail "wrong-namespace"
    (e.type ++ " is not valid in protocol namespace " ++ e.protocol)

def requiresOnly {α : Type} (type field : String) : Except Raised α :=
  fail "bad-payload" (type ++ " requires only payload." ++ field)

/-- A hop limit is absent or an integer in 0..16. -/
def validateTtl (payload : Payload) : Except Raised Unit :=
  match payload.get "ttl" with
  | .null => .ok ()
  | .int n =>
      if 0 ≤ n ∧ n ≤ 16 then .ok ()
      else fail "bad-ttl" "payload.ttl must be an integer in 0..16"
  | _ => fail "bad-ttl" "payload.ttl must be an integer in 0..16"

def validateRelayV1 (type : RelayType) (e : Envelope) : Except Raised V1Message := do
  let routeId ← boundedText (e.payload.get "routeId") "payload.routeId" maxRouteIdBytes
  validateTtl e.payload
  pure (.relay type e.data e.payload routeId)

/-- The three requests whose payload is a route and nothing else. -/
def validateRouteRequestV1 (make : String → V1Message) (e : Envelope) :
    Except Raised V1Message := do
  let routeId ← boundedText (e.payload.get "routeId") "payload.routeId" maxRouteIdBytes
  if e.payload.hasExactly ["routeId"] then pure (make routeId)
  else requiresOnly e.type "routeId"

def validateV1Message (data : Json) : Except Raised V1Message := do
  let e ← validateEnvelope data
  match expectedProtocolV1 e.type with
  | none => wrongNamespace e
  | some expected =>
      if e.protocol ≠ discovery ∧ e.protocol ≠ expected then wrongNamespace e
      else if e.type = "HELLO" then
        if e.payload.hasExactly ["publicKeyHex"] then
          .hello <$> hexFieldText (e.payload.get "publicKeyHex") "payload.publicKeyHex" 65
        else requiresOnly "HELLO" "publicKeyHex"
      else if e.type = "PROVE" then
        if e.payload.hasExactly ["signatureHex"] then
          .prove <$> hexFieldText (e.payload.get "signatureHex") "payload.signatureHex" 64
        else requiresOnly "PROVE" "signatureHex"
      else if e.type = "PING" then
        if e.payload.isEmpty then pure .ping
        else fail "bad-payload" "PING payload must be empty"
      else if e.type = "ATTACH_ROUTE" then validateRouteRequestV1 .attachRoute e
      else if e.type = "DETACH_ROUTE" then validateRouteRequestV1 .detachRoute e
      else if e.type = "DISCOVER" then validateRouteRequestV1 .discover e
      else if e.type = "SIGNAL" then validateRelayV1 .signal e
      else if e.type = "FORWARD" then validateRelayV1 .forward e
      else validateRelayV1 .publish e

/-! ## Version 2 -/

def signalFields : List String :=
  ["routeTag", "fromSessionId", "toSessionId", "messageId", "sequence", "expiresAt", "keyId",
    "senderKeyId", "senderIdentityKeyHex", "encHex", "ciphertextHex", "signatureHex"]

/-- The payload of a validated SIGNAL, and the values of its fields. -/
structure Signal where
  payload : Payload
  routeTag : String
  fromSessionId : String
  toSessionId : String
  messageId : String
  sequence : Nat
  expiresAt : Int
  keyId : String
  senderKeyId : String
  senderIdentityKeyHex : String
  signatureHex : String

/-- A validated message of the second endpoint. -/
inductive V2Request
  | hello (grant : Payload) (identityKeyHex encryptionKeyHex : String)
  | prove (signatureHex : String)
  | ping
  | attachRoute (routeTag : String)
  | detachRoute (routeTag : String)
  | discover (routeTag : String)
  | signal (signal : Signal)

/-- With the identifier the replies refer to. -/
structure V2Message where
  id : Option String
  request : V2Request

def expectedProtocolV2 (type : String) : Option String :=
  if type ∈ ["HELLO", "PROVE", "PING"] then some sessionV2
  else if type ∈ ["ATTACH_ROUTE", "DETACH_ROUTE", "DISCOVER"] then some routeV2
  else if type = "SIGNAL" then some signalV2
  else none

def isLowerHex (c : Char) : Bool := (hexValue? c).isSome && !c.isUpper

def validateRouteTag (payload : Payload) : Except Raised String := do
  let routeTag ← exactText (payload.get "routeTag") "payload.routeTag" 64
  if routeTag.toList.all isLowerHex then pure routeTag
  else fail "bad-route-tag" "payload.routeTag must be lowercase SHA-256 hex"

def validateRouteRequestV2 (make : String → V2Request) (e : Envelope) :
    Except Raised V2Request := do
  let routeTag ← validateRouteTag e.payload
  if e.payload.hasExactly ["routeTag"] then pure (make routeTag)
  else requiresOnly e.type "routeTag"

def validateHelloV2 (payload : Payload) : Except Raised V2Request := do
  if !payload.hasExactly ["grant", "identityKeyHex", "encryptionKeyHex"] then
    fail "bad-payload" "HELLO payload fields are invalid"
  match payload.get "grant" with
  | .obj grant => do
      let identityKeyHex ←
        hexFieldText (payload.get "identityKeyHex") "payload.identityKeyHex" 65
      let encryptionKeyHex ←
        hexFieldText (payload.get "encryptionKeyHex") "payload.encryptionKeyHex" 65
      pure (.hello grant identityKeyHex encryptionKeyHex)
  | _ => fail "bad-grant" "HELLO requires payload.grant"

def validateCiphertext (value : Json) : Except Raised Unit := do
  let ciphertext ← boundedText value "payload.ciphertextHex" (96 * 1024)
  if ciphertext.length % 2 ≠ 0 then
    fail "bad-field" "payload.ciphertextHex must have an even number of hex digits"
  match fromHex ciphertext with
  | none => fail "bad-field" "payload.ciphertextHex must be hexadecimal"
  | some _ => pure ()

def validateSequence : Json → Except Raised Nat
  | .int n =>
      if 0 ≤ n ∧ n ≤ 0xFFFFFFFF then .ok n.toNat
      else fail "bad-sequence" "payload.sequence must be uint32"
  | _ => fail "bad-sequence" "payload.sequence must be uint32"

def validateExpiry : Json → Except Raised Int
  | .int n => .ok n
  | _ => fail "bad-expiry" "payload.expiresAt must be integer epoch seconds"

def validateSignalV2 (payload : Payload) : Except Raised Signal := do
  let routeTag ← validateRouteTag payload
  if !payload.hasExactly signalFields then
    fail "bad-payload" "SIGNAL payload fields are invalid"
  let toSessionId ← boundedText (payload.get "toSessionId") "payload.toSessionId" 64
  let fromSessionId ← boundedText (payload.get "fromSessionId") "payload.fromSessionId" 64
  let messageId ← boundedText (payload.get "messageId") "payload.messageId" 128
  let keyId ← boundedText (payload.get "keyId") "payload.keyId" 128
  let senderKeyId ← exactText (payload.get "senderKeyId") "payload.senderKeyId" 64
  let senderIdentityKeyHex ←
    hexFieldText (payload.get "senderIdentityKeyHex") "payload.senderIdentityKeyHex" 65
  let _ ← hexFieldText (payload.get "encHex") "payload.encHex" 65
  let signatureHex ← hexFieldText (payload.get "signatureHex") "payload.signatureHex" 64
  validateCiphertext (payload.get "ciphertextHex")
  let sequence ← validateSequence (payload.get "sequence")
  let expiresAt ← validateExpiry (payload.get "expiresAt")
  pure ⟨payload, routeTag, fromSessionId, toSessionId, messageId, sequence, expiresAt, keyId,
    senderKeyId, senderIdentityKeyHex, signatureHex⟩

def validateV2Request (e : Envelope) : Except Raised V2Request :=
  if e.type = "HELLO" then validateHelloV2 e.payload
  else if e.type = "PROVE" then
    if e.payload.hasExactly ["signatureHex"] then
      .prove <$> hexFieldText (e.payload.get "signatureHex") "payload.signatureHex" 64
    else requiresOnly "PROVE" "signatureHex"
  else if e.type = "PING" then
    if e.payload.isEmpty then pure .ping
    else fail "bad-payload" "PING payload must be empty"
  else if e.type = "ATTACH_ROUTE" then validateRouteRequestV2 .attachRoute e
  else if e.type = "DETACH_ROUTE" then validateRouteRequestV2 .detachRoute e
  else if e.type = "DISCOVER" then validateRouteRequestV2 .discover e
  else .signal <$> validateSignalV2 e.payload

def validateV2Message (data : Json) : Except Raised V2Message := do
  let e ← validateEnvelope data
  if e.protocol ∉ [sessionV2, routeV2, signalV2] then
    fail "wrong-version" "v2 endpoint requires a v2 protocol namespace"
  if expectedProtocolV2 e.type ≠ some e.protocol then wrongNamespace e
  let request ← validateV2Request e
  pure ⟨e.id, request⟩

/-- `make_error`. -/
def makeError (protocol code message : String) (inReplyTo : Json) : Json :=
  .obj [("protocol", .str protocol), ("type", .str "ERROR"), ("code", .str code),
    ("message", .str message), ("inReplyTo", inReplyTo)]

end Protocol

end Masterserver
