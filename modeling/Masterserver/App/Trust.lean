import Masterserver.App.Config
import Masterserver.App.SessionCrypto

/-!
# Signed objects and admission grants

A signed object is a payload with the identifier of the signing key and a
signature over the payload's canonical bytes. An admission grant is one whose
payload binds a client's key for a stretch of time; the node that issued it
verifies it.
-/

namespace Masterserver

open Lib

/-- `canonical_json_bytes`. -/
def canonicalJsonBytes (value : Json) : Bytes := value.canonical.flatMap String.utf8EncodeChar

/-- `content_hash_hex`. -/
def contentHashHex (cr : Crypto) (value : Json) : String :=
  hexdigest (cr.sha256 (canonicalJsonBytes value))

/-- The public half of the node's signing key. -/
structure NodeTrust where
  publicKeyRaw : Bytes
  deriving Inhabited

namespace NodeTrust

variable (cr : Crypto) (trust : NodeTrust)

/-- `sign_object`, with the signature that was made over the payload. -/
def signObject (payload : List (String × Json)) (signature : Bytes) : List (String × Json) :=
  [("payload", .obj payload), ("keyId", .str (hexdigest (cr.sha256 trust.publicKeyRaw))),
    ("signatureHex", .str (hex signature))]

/-- `verify_signed_object` with the node's own key. -/
def verifySignedObject (signed : List (String × Json)) : Bool :=
  if !(signed.map Prod.fst).isPerm ["payload", "keyId", "signatureHex"] then false
  else
    match signed.lookup "payload", signed.lookup "keyId", signed.lookup "signatureHex" with
    | some (.obj payload), some (.str keyId), some (.str signatureHex) =>
        if keyId ≠ hexdigest (cr.sha256 trust.publicKeyRaw) then false
        else
          match fromHex signatureHex with
          | none => false
          | some signature =>
              signature.length == 64 &&
                verifySignature cr (some trust.publicKeyRaw) (canonicalJsonBytes (.obj payload))
                  signature
    | _, _, _ => false

/-- `hmac.compare_digest(str(value), key_hash)`, `none` where it raises for a
text that is not ASCII. A value that prints with brackets or as a word is never
a digest. -/
def compareDigest (value : Json) (keyHash : String) : Option Bool :=
  match value with
  | .str s => if s.toList.all fun c => c.toNat < 128 then some (s == keyHash) else none
  | .int n => some (toString n == keyHash)
  | _ => some false

/-- `verify_admission` at a reading of the clock, `none` where it raises. -/
def verifyAdmission (c : Config) (now : Seconds) (grant : List (String × Json))
    (publicKeyHex : String) : Option Bool :=
  if !trust.verifySignedObject cr grant then some false
  else
    match grant.lookup "payload", fromHex publicKeyHex with
    | some (.obj claims), some key =>
        let claim (name : String) : Json := (claims.lookup name).getD .null
        if !(claims.map Prod.fst).isPerm ["format", "issuer", "keyHash", "nonceHash", "protocol",
            "issuedAt", "expiresAt"] then some false
        else if (claim "format").str? ≠ some "particle-admission/2" ∨
            (claim "issuer").str? ≠ some c.nodeId ∨
            (claim "protocol").str? ≠ some "particle-session/2" then some false
        else
          match compareDigest (claim "keyHash") (hexdigest (cr.sha256 key)) with
          | some true =>
              some (((claim "nonceHash").str?.any fun text => text.length == 64) &&
                match (claim "issuedAt").int?, (claim "expiresAt").int? with
                | some issuedAt, some expiresAt =>
                    decide (issuedAt ≤ pyInt now ∧ pyInt now ≤ expiresAt)
                | _, _ => false)
          | verdict => verdict
    | _, _ => some false

end NodeTrust

end Masterserver
