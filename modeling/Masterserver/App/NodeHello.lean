import Masterserver.App.NodeLink
import Masterserver.Lib.JsonNumber

/-!
# The hello of a node

The first message on a link carries the manifest of the node that sends it. It
authenticates a trusted node if the manifest is signed with the key the node's
pin is the digest of, names the same network root and is current.

The message is read before anything in it is known to have a type. What that
can raise is `Uncaught`: neither end of the link expects it.
-/

namespace Masterserver

open Lib Protocol

/-- A trusted node, its pin as `_parse_trusted_nodes` leaves it. -/
structure TrustedNode where
  nodeId : String
  serverKeyPin : String
  pin_lowerHex : isLowerHexText 64 serverKeyPin = true

/-- The configuration with the pins of the trusted nodes. -/
structure PinnedConfig extends MeshConfig where
  serverKeyPin : String → String
  pins_lowerHex : ∀ node ∈ trusted, isLowerHexText 64 (serverKeyPin node) = true

/-- The default configuration without trusted nodes. -/
def PinnedConfig.alone : PinnedConfig where
  toMeshConfig := .alone
  serverKeyPin _ := ""
  pins_lowerHex _ h := by cases h

inductive Uncaught
  | typeError
  | attributeError
  deriving DecidableEq

/-! ## Signed manifests -/

def manifestFields : List String :=
  ["format", "nodeId", "networkRootId", "networkRootVersion", "networkRootRollbackVersion",
    "protocols", "endpoints", "signingPublicKeyHex", "signingKeyId", "signingKeyValidity",
    "issuedAt", "expiresAt"]

/-- Whether a key is in force, its two times being integers. -/
def keyActive (now : Seconds) (activatesAt expiresAt : Json) : Bool :=
  match activatesAt.int?, expiresAt.int? with
  | some activatesAt, some expiresAt => decide (activatesAt ≤ pyInt now ∧ pyInt now ≤ expiresAt)
  | _, _ => false

/-- `parse_signed_manifest`: the payload of a valid manifest. What its first
half raises for a field that is missing or of another type it catches, and the
pin is ASCII. -/
def parseSignedManifest (cr : Crypto) (now : Seconds) (value : Json) (expectedPin : String) :
    Option Payload :=
  match value with
  | .obj value =>
      if !Payload.hasExactly value ["payload", "keyId", "signatureHex"] then none
      else
        match Payload.get value "payload" with
        | .obj payload =>
            if !Payload.hasExactly payload manifestFields then none
            else
              match (Payload.get payload "signingPublicKeyHex").str?.bind fromHex,
                  (Payload.get value "signatureHex").str?.bind fromHex,
                  (Payload.get payload "signingKeyValidity").get? "activatesAt",
                  (Payload.get payload "signingKeyValidity").get? "expiresAt" with
              | some rawKey, some signature, some activatesAt, some expiresAt =>
                  let pin := hexdigest (cr.sha256 rawKey)
                  let valid := pin == expectedPin.toLower &&
                    (Payload.get value "keyId").str? == some pin &&
                    (Payload.get payload "signingKeyId").str? == some pin &&
                    (Payload.get payload "format").str? == some "particle-node-manifest/2" &&
                    keyActive now activatesAt expiresAt &&
                    verifySignature cr (some rawKey) (canonicalJsonBytes (.obj payload)) signature
                  if valid then some payload else none
              | _, _, _, _ => none
        | _ => none
  | _ => none

/-! ## Authentication -/

/-- `(value or {}).get(name)`: anything else that counts as true has no such
method. -/
def getOrEmpty (value : Json) (name : String) : Except Uncaught Json :=
  match value with
  | .obj members => .ok (Payload.get members name)
  | value => if value.truthy then .error .attributeError else .ok .null

/-- `a <= b`, which raises if one of them is no number. -/
def compareNumbers (a b : Option Extended) : Except Uncaught Bool :=
  match a, b with
  | some a, some b => .ok (decide (a ≤ b))
  | _, _ => .error .typeError

namespace PinnedConfig

variable (p : PinnedConfig)

def trustedNode? (nodeId : String) : Option TrustedNode :=
  if h : nodeId ∈ p.trusted then some ⟨nodeId, p.serverKeyPin nodeId, p.pins_lowerHex nodeId h⟩
  else none

/-- `self.trusted.get(claimed_id)`: a list or an object is not hashable. -/
def trustedGet (claimedId : Json) : Except Uncaught (Option TrustedNode) :=
  match claimedId with
  | .str nodeId => .ok (p.trustedNode? nodeId)
  | .arr _ | .obj _ => .error .typeError
  | _ => .ok none

/-- `expected_node or self.trusted.get(claimed_id)`. -/
def nodeToTrust (expectedNode : Option TrustedNode) (claimedId : Json) :
    Except Uncaught (Option TrustedNode) :=
  match expectedNode with
  | some node => .ok (some node)
  | none => p.trustedGet claimedId

/-- Whether a manifest is about the network this node is configured for. -/
def sameRoot (payload : Payload) : Bool :=
  (payload.get "networkRootId").str? == some p.networkRootId &&
    (payload.get "networkRootVersion").equalsInt p.networkRootVersion &&
    (payload.get "networkRootRollbackVersion").equalsInt p.networkRootRollbackVersion

/-- `issuedAt <= now <= expiresAt`: the second is compared only if the first
holds. -/
def manifestCurrent (now : Seconds) (payload : Payload) : Except Uncaught Bool := do
  let clock := (Json.int (pyInt now)).number?
  if ← compareNumbers (payload.get "issuedAt").number? clock then
    compareNumbers clock (payload.get "expiresAt").number?
  else pure false

/-- `_authenticate_hello` once the node to trust is known. -/
def acceptManifest (cr : Crypto) (now : Seconds) (manifest claimedId : Json) :
    Option TrustedNode → Except Uncaught (Option String)
  | none => .ok none
  | some trusted =>
      if claimedId.str? ≠ some trusted.nodeId then .ok none
      else
        match parseSignedManifest cr now manifest trusted.serverKeyPin with
        | none => .ok none
        | some payload =>
            if !p.sameRoot payload then .ok none
            else do
              let current ← manifestCurrent now payload
              pure (if current then some trusted.nodeId else none)

/-- `_authenticate_hello`: the node that dialled expects the one it dialled, the
other end any trusted node. -/
def authenticateHello (cr : Crypto) (now : Seconds) (expectedNode : Option TrustedNode)
    (message : Json) : Except Uncaught (Option String) :=
  match validNodeEnvelope message with
  | .error _ => .error .typeError
  | .ok none => .ok none
  | .ok (some (type, _, payload)) =>
      if type ≠ "NODE_HELLO" then .ok none
      else do
        let manifest := payload.get "manifest"
        let claimedId ← getOrEmpty (← getOrEmpty manifest "payload") "nodeId"
        let trusted ← p.nodeToTrust expectedNode claimedId
        p.acceptManifest cr now manifest claimedId trusted

end PinnedConfig

end Masterserver
