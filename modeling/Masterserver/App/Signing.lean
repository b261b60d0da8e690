import Masterserver.App.NodeHello
import Masterserver.Lib.JsonDigits

/-!
# What a node signs

Its key signs two kinds of object: the manifest, which says who the node is and
where it is reached, and the admission grants. A manifest is kept and served
again until its last minute. The numbers a signature consists of are an
argument of everything that signs, since they are drawn at random.

A payload with an integer of too many digits cannot be written; `none` stands
for the error, as it does for a key that is no hexadecimal text.
-/

namespace Masterserver

open Lib Protocol

/-- The configuration with what a node tells the others about itself. -/
structure AdvertisedConfig extends Config where
  publicBaseUrl : String := "http://127.0.0.1:8080"
  publicWsUrl : String := "ws://127.0.0.1:8080/v2/ws"
  publicV1WsUrl : String := "ws://127.0.0.1:8080/v1/ws"
  publicNodeWsUrl : String := "ws://127.0.0.1:8080/v2/node"
  advertiseV2 : Bool := true

/-- The node's key, its public half an uncompressed point. -/
structure SigningKey extends NodeTrust where
  raw_length : publicKeyRaw.length = 65

/-! ## Signatures -/

/-- `r` and `s`, which are residues of the order of the group. -/
abbrev EcdsaPair := Fin (2 ^ 256) × Fin (2 ^ 256)

/-- `n.to_bytes(length, "big")`. -/
def toBytesBig : Nat → Nat → Bytes
  | 0, _ => []
  | length + 1, n => toBytesBig length (n / 256) ++ [UInt8.ofNat (n % 256)]

/-- `_raw_signature`. -/
def rawSignature (pair : EcdsaPair) : Bytes := toBytesBig 32 pair.1 ++ toBytesBig 32 pair.2

/-! ## The manifest -/

/-- `text.rstrip("/")`. -/
def rstripSlashes (text : String) : String :=
  String.ofList (text.toList.reverse.dropWhile (· == '/')).reverse

namespace AdvertisedConfig

variable (c : AdvertisedConfig)

def protocols : List String :=
  ["particle-discovery/1"] ++
    (if c.advertiseV2 then ["particle-session/2", "particle-route/2", "particle-signal/2"]
      else []) ++
    (if c.nodeMeshEnabled then ["particle-node/1"] else [])

def endpoints : List (String × Json) :=
  [("http", .str (rstripSlashes c.publicBaseUrl)), ("websocketV1", .str c.publicV1WsUrl)] ++
    (if c.advertiseV2 then [("websocketV2", .str c.publicWsUrl)] else []) ++
    (if c.nodeMeshEnabled then [("nodeMesh", .str c.publicNodeWsUrl)] else [])

end AdvertisedConfig

/-- `manifest["payload"]["expiresAt"]`. -/
def manifestExpiry (signed : Payload) : Option Int :=
  ((signed.get "payload").get? "expiresAt").bind Json.int?

namespace NodeTrust

variable (cr : Crypto) (trust : NodeTrust) (c : AdvertisedConfig)

/-- `sign_object`, if the payload can be written. -/
def signObject? (payload : Payload) (pair : EcdsaPair) : Option Payload :=
  if (Json.obj payload).Short then some (trust.signObject cr payload (rawSignature pair)) else none

def manifestPayload (issuedAt : Int) : Payload :=
  [("format", .str "particle-node-manifest/2"), ("nodeId", .str c.nodeId),
    ("networkRootId", .str c.networkRootId), ("networkRootVersion", .int c.networkRootVersion),
    ("networkRootRollbackVersion", .int c.networkRootRollbackVersion),
    ("protocols", .arr (c.protocols.map .str)), ("endpoints", .obj c.endpoints),
    ("signingPublicKeyHex", .str (hex trust.publicKeyRaw)),
    ("signingKeyId", .str (hexdigest (cr.sha256 trust.publicKeyRaw))),
    ("signingKeyValidity", .obj [("activatesAt", .int c.signingKeyActivatesAt),
      ("expiresAt", .int c.signingKeyExpiresAt)]),
    ("issuedAt", .int issuedAt), ("expiresAt", .int (issuedAt + c.manifestTtlSeconds))]

/-- The manifest that is kept, while it has more than a minute left. -/
def keptManifest (cached : Option Payload) (now : Seconds) : Option Payload :=
  cached.filter fun signed =>
    (manifestExpiry signed).any fun expiresAt => decide (pyInt now < expiresAt - 60)

/-- `manifest()`: what it returns is what is kept from then on. -/
def manifest (cached : Option Payload) (now : Seconds) (pair : EcdsaPair) : Option Payload :=
  match keptManifest cached now with
  | some signed => some signed
  | none => trust.signObject? cr (trust.manifestPayload cr c (pyInt now)) pair

/-! ## Admission grants -/

def admissionClaims (c : Config) (key : Bytes) (nonce : String) (issuedAt : Int) : Payload :=
  [("format", .str "particle-admission/2"), ("issuer", .str c.nodeId),
    ("keyHash", .str (hexdigest (cr.sha256 key))),
    ("nonceHash", .str (hexdigest (cr.sha256 (utf8 nonce)))),
    ("protocol", .str "particle-session/2"), ("issuedAt", .int issuedAt),
    ("expiresAt", .int (issuedAt + c.admissionTtlSeconds))]

/-- `issue_admission`. -/
def issueAdmission (c : Config) (publicKeyHex nonce : String) (now : Seconds) (pair : EcdsaPair) :
    Option Payload := do
  let key ← fromHex publicKeyHex
  trust.signObject? cr (admissionClaims cr c key nonce (pyInt now)) pair

end NodeTrust

/-- An HTTP error: its status code and its detail. -/
structure HttpError where
  statusCode : Nat
  detail : String
  deriving DecidableEq

/-- What `/v2/admission` asks of a request, the limiters aside: the key and the
nonce of one it grants. -/
def admissionRequest (cr : Crypto) (body : Payload) : Except HttpError (String × String) :=
  if !body.hasExactly ["publicKeyHex", "nonce", "protocol"] then
    .error ⟨400, "admission request fields are invalid"⟩
  else
    match body.get "publicKeyHex", body.get "nonce" with
    | .str publicKeyHex, .str nonce =>
        if !isHexBytes publicKeyHex 65 ||
            !decide (16 ≤ nonce.utf8ByteSize ∧ nonce.utf8ByteSize ≤ 128) then
          .error ⟨400, "invalid publicKeyHex or nonce"⟩
        else if (body.get "protocol").str? ≠ some sessionV2 then
          .error ⟨400, "unsupported admission protocol"⟩
        else if !isP256Point cr publicKeyHex then .error ⟨400, "invalid publicKeyHex or nonce"⟩
        else .ok (publicKeyHex, nonce)
    | _, _ => .error ⟨400, "invalid publicKeyHex or nonce"⟩

end Masterserver
