import Masterserver.App.SessionCrypto

/-!
# Sealing a signal to its recipient

Base-mode HPKE with P-256, HKDF-SHA256 and AES-128-GCM: `seal_` makes an
encapsulated key and a ciphertext for a public key, `openMessage` takes them
apart with the private one. The server relays both and runs neither; the
clients do.

`HpkePrimitives` is what is taken from a cryptography library: HMAC-SHA256,
the curve, and the AEAD. `AESGCM` and `from_encoded_point` are `none` where
they raise.
-/

namespace Masterserver

structure HpkePrimitives (PrivateKey PublicKey : Type) where
  hmacSha256 : Bytes → Bytes → Bytes
  publicKey : PrivateKey → PublicKey
  publicBytes : PublicKey → Bytes
  fromEncodedPoint : Bytes → Option PublicKey
  exchange : PrivateKey → PublicKey → Bytes
  encrypt : Bytes → Bytes → Bytes → Bytes → Option Bytes
  decrypt : Bytes → Bytes → Bytes → Bytes → Option Bytes

/-- What `seal_` and `openMessage` raise: the `ValueError` of
`_deserialize_public`, or what the library raises on a point that is not on the
curve, on what it cannot encrypt and on what does not decrypt. A length that
does not fit its two bytes and a block number that does not fit its one are
errors of their own. -/
inductive HpkeError
  | valueError (message : String)
  | overflow
  | blockCount
  | badPoint
  | badCipher
  deriving DecidableEq

namespace Hpke

/-- The bytes of a text of ASCII characters. -/
def ascii (text : String) : Bytes := text.toList.map fun c => UInt8.ofNat c.toNat

/-- `n.to_bytes(2, "big")`. -/
def toBytes2 (n : Nat) : Except HpkeError Bytes :=
  if n < 65536 then .ok [UInt8.ofNat (n / 256), UInt8.ofNat (n % 256)] else .error .overflow

/-- `KEM_ID`, `KDF_ID` and `AEAD_ID` are 16, 1 and 1. -/
def kemSuiteId : Bytes := ascii "KEM" ++ [0, 16]

def hpkeSuiteId : Bytes := ascii "HPKE" ++ [0, 16] ++ [0, 1] ++ [0, 1]

variable {PrivateKey PublicKey : Type} (p : HpkePrimitives PrivateKey PublicKey)

def extract (salt ikm : Bytes) : Bytes :=
  p.hmacSha256 (if salt.isEmpty then List.replicate 32 0 else salt) ikm

/-- The blocks from one number on, each the HMAC of the one before, the info
and its number. -/
def expandBlocks (prk info : Bytes) : Nat → Nat → Bytes → Except HpkeError Bytes
  | 0, _, _ => .ok []
  | blocks + 1, counter, previous =>
      if counter < 256 then do
        let block := p.hmacSha256 prk (previous ++ info ++ [UInt8.ofNat counter])
        let rest ← expandBlocks prk info blocks (counter + 1) block
        pure (block ++ rest)
      else .error .blockCount

def expand (prk info : Bytes) (length : Nat) : Except HpkeError Bytes := do
  let output ← expandBlocks p prk info ((length + 31) / 32) 1 []
  pure (output.take length)

def labeledExtract (salt suiteId label ikm : Bytes) : Bytes :=
  extract p salt (ascii "HPKE-v1" ++ suiteId ++ label ++ ikm)

def labeledExpand (prk suiteId label info : Bytes) (length : Nat) : Except HpkeError Bytes := do
  let size ← toBytes2 length
  expand p prk (size ++ ascii "HPKE-v1" ++ suiteId ++ label ++ info) length

def deserializePublic (raw : Bytes) : Except HpkeError PublicKey :=
  if raw.length ≠ 65 ∨ raw.head? ≠ some 4 then
    .error (.valueError "HPKE P-256 public key must be a 65-byte uncompressed point")
  else
    match p.fromEncodedPoint raw with
    | some key => .ok key
    | none => .error .badPoint

def dhkemSharedSecret (dh enc recipientPublicRaw : Bytes) : Except HpkeError Bytes :=
  let kemContext := enc ++ recipientPublicRaw
  let eaePrk := labeledExtract p [] kemSuiteId (ascii "eae_prk") dh
  labeledExpand p eaePrk kemSuiteId (ascii "shared_secret") kemContext 32

def keySchedule (sharedSecret info : Bytes) : Except HpkeError (Bytes × Bytes) := do
  let pskIdHash := labeledExtract p [] hpkeSuiteId (ascii "psk_id_hash") []
  let infoHash := labeledExtract p [] hpkeSuiteId (ascii "info_hash") info
  let context := [0] ++ pskIdHash ++ infoHash
  let secret := labeledExtract p sharedSecret hpkeSuiteId (ascii "secret") []
  let key ← labeledExpand p secret hpkeSuiteId (ascii "key") context 16
  let baseNonce ← labeledExpand p secret hpkeSuiteId (ascii "base_nonce") context 12
  pure (key, baseNonce)

/-- The info `seal_` and `openMessage` use unless they are given another. -/
def defaultInfo : Bytes := ascii "particle-signal/2"

/-- `seal`, with the ephemeral key it was given or has drawn. -/
def seal_ (recipientPublicRaw plaintext info aad : Bytes) (ephemeral : PrivateKey) :
    Except HpkeError (Bytes × Bytes) := do
  let recipientPublic ← deserializePublic p recipientPublicRaw
  let enc := p.publicBytes (p.publicKey ephemeral)
  let dh := p.exchange ephemeral recipientPublic
  let sharedSecret ← dhkemSharedSecret p dh enc recipientPublicRaw
  let (key, nonce) ← keySchedule p sharedSecret info
  match p.encrypt key nonce plaintext aad with
  | some ciphertext => pure (enc, ciphertext)
  | none => .error .badCipher

def openMessage (recipientPrivateKey : PrivateKey) (enc ciphertext info aad : Bytes) :
    Except HpkeError Bytes := do
  let ephemeralPublic ← deserializePublic p enc
  let recipientPublicRaw := p.publicBytes (p.publicKey recipientPrivateKey)
  let dh := p.exchange recipientPrivateKey ephemeralPublic
  let sharedSecret ← dhkemSharedSecret p dh enc recipientPublicRaw
  let (key, nonce) ← keySchedule p sharedSecret info
  match p.decrypt key nonce ciphertext aad with
  | some plaintext => pure plaintext
  | none => .error .badCipher

end Hpke

end Masterserver
