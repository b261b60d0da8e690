import Masterserver.App.Signing
import Masterserver.Lib.System

/-!
# Manifests and grants over a run

A node that serves its manifest and issues grants. Beside the manifest it keeps,
a state lists what it has handed out: each manifest with the reading of the
clock at the call, and each grant with the key and the nonce it was asked for
and its reading.

The numbers of each signature come with the event. A run only has signatures
that the node's own key verifies, for the payload that was signed; a manifest
that is served again is not signed again.
-/

namespace Masterserver

open Lib

structure IssuedGrant where
  publicKeyHex : String
  nonce : String
  now : Seconds
  object : Payload

structure Signer where
  cached : Option Payload
  manifests : List (Seconds × Payload)
  grants : List IssuedGrant

inductive SignerOp
  /-- A call of `manifest`. -/
  | manifest (pair : EcdsaPair)
  /-- A call of `issue_admission`. -/
  | grant (publicKeyHex nonce : String) (pair : EcdsaPair)
  /-- `/v2/admission`: the manifest, and if the request is one to grant, then a
  grant at the next reading of the clock. -/
  | admission (body : Payload) (later : Seconds) (manifestPair grantPair : EcdsaPair)

structure SignerEvent where
  now : Seconds
  op : SignerOp

namespace Signer

variable (cr : Crypto) (trust : NodeTrust) (c : AdvertisedConfig) (s : Signer)

def callManifest (now : Seconds) (pair : EcdsaPair) : Signer :=
  match trust.manifest cr c s.cached now pair with
  | none => s
  | some signed =>
      { s with cached := some signed, manifests := s.manifests ++ [(now, signed)] }

def callGrant (now : Seconds) (publicKeyHex nonce : String) (pair : EcdsaPair) : Signer :=
  match trust.issueAdmission cr c.toConfig publicKeyHex nonce now pair with
  | none => s
  | some object => { s with grants := s.grants ++ [⟨publicKeyHex, nonce, now, object⟩] }

def after (e : SignerEvent) : Signer :=
  match e.op with
  | .manifest pair => s.callManifest cr trust c e.now pair
  | .grant publicKeyHex nonce pair => s.callGrant cr trust c e.now publicKeyHex nonce pair
  | .admission body later manifestPair grantPair =>
      match admissionRequest cr body with
      | .error _ => s
      | .ok (publicKeyHex, nonce) =>
          (s.callManifest cr trust c e.now manifestPair).callGrant cr trust c later publicKeyHex
            nonce grantPair

/-- The pair is a signature over a payload with the node's key. -/
def Signs (pair : EcdsaPair) (payload : Payload) : Prop :=
  cr.ecdsaVerify trust.publicKeyRaw (canonicalJsonBytes (.obj payload)) pair.1.val pair.2.val = true

instance (pair : EcdsaPair) (payload : Payload) : Decidable (Signs cr trust pair payload) :=
  inferInstanceAs (Decidable (_ = _))

def signsManifest (now : Seconds) (pair : EcdsaPair) : Prop :=
  NodeTrust.keptManifest s.cached now = none →
    Signs cr trust pair (trust.manifestPayload cr c (pyInt now))

def signsGrant (now : Seconds) (publicKeyHex nonce : String) (pair : EcdsaPair) : Prop :=
  ∀ key, fromHex publicKeyHex = some key →
    Signs cr trust pair (NodeTrust.admissionClaims cr c.toConfig key nonce (pyInt now))

/-- What is signed verifies. -/
def allowed (e : SignerEvent) : Prop :=
  match e.op with
  | .manifest pair => s.signsManifest cr trust c e.now pair
  | .grant publicKeyHex nonce pair => signsGrant cr trust c e.now publicKeyHex nonce pair
  | .admission body later manifestPair grantPair =>
      ∀ request, admissionRequest cr body = .ok request →
        s.signsManifest cr trust c e.now manifestPair ∧
          signsGrant cr trust c later request.1 request.2 grantPair

/-- No manifest was asked for at a later time than now. -/
def inOrder (e : SignerEvent) : Prop := ∀ call ∈ s.manifests, call.1 ≤ e.now

/-- The payloads the node's key has signed. -/
def signed : List Json :=
  s.manifests.map (fun call => call.2.get "payload") ++
    s.grants.map fun grant => grant.object.get "payload"

end Signer

def signingSystem (cr : Crypto) (key : SigningKey) (c : AdvertisedConfig) :
    System Signer SignerEvent :=
  (System.machine (fun s => s = ⟨none, [], []⟩) (Signer.after cr key.toNodeTrust c)).restrict
    (Signer.allowed cr key.toNodeTrust c)

end Masterserver
