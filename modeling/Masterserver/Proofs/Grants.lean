import Masterserver.Proofs.Registrable
import Masterserver.Proofs.SignedObjects

/-!
# What an admission grant is good for

`VerifiedGrant` lists what `verify_admission` asks of an object, a key and a
reading of the clock. Of a grant that was issued everything holds but what
binds it: the key must have the digest of the key it was issued for, and the
clock must stand in the grant's stretch of time. Conversely what the node's key
has signed are manifests and grants. A manifest has other fields than a grant,
so if signatures only verify for what was signed, an object that verifies
carries the payload of a grant that was issued.
-/

namespace Masterserver

open Lib Protocol

variable {cr : Crypto} {trust : NodeTrust} {c : Config}

/-! ## What is verified -/

structure VerifiedObject (cr : Crypto) (trust : NodeTrust) (signed payload : Payload)
    (signature : Bytes) : Prop where
  fields : signed.hasExactly ["payload", "keyId", "signatureHex"] = true
  object : signed.get "payload" = .obj payload
  keyId : signed.get "keyId" = .str (hexdigest (cr.sha256 trust.publicKeyRaw))
  signatureHex : ∃ text, signed.get "signatureHex" = .str text ∧ fromHex text = some signature
  verified : verifySignature cr (some trust.publicKeyRaw) (canonicalJsonBytes (.obj payload))
    signature = true

theorem length_of_verifySignature {key : Option Bytes} {message signature : Bytes}
    (h : verifySignature cr key message signature = true) : signature.length = 64 := by
  unfold verifySignature at h
  split at h
  · cases h
  · split at h
    · cases h
    · next hlength =>
        rw [Bool.or_eq_true, not_or, bne_iff_ne, not_not] at hlength
        exact hlength.2

theorem verifySignedObject_eq_true {signed : Payload} :
    trust.verifySignedObject cr signed = true ↔
      ∃ payload signature, VerifiedObject cr trust signed payload signature := by
  unfold NodeTrust.verifySignedObject
  constructor
  · intro h
    split at h
    · cases h
    next hfields =>
    split at h
    · next payload keyId text hpayload hkeyId htext =>
        split at h
        · cases h
        next hkey =>
        split at h
        · cases h
        next signature hsignature =>
        rw [Bool.and_eq_true] at h
        rw [not_not] at hkey
        rw [hkey] at hkeyId
        exact ⟨payload, signature, by simpa [Payload.hasExactly] using hfields,
          Payload.get_eq_obj.mpr hpayload, Payload.get_eq_str.mpr hkeyId,
          ⟨text, Payload.get_eq_str.mpr htext, hsignature⟩, h.2⟩
    · cases h
  · rintro ⟨payload, signature, hfields, hpayload, hkeyId, ⟨text, htext, hsignature⟩, hverified⟩
    unfold Payload.hasExactly at hfields
    rw [hfields, Payload.get_eq_obj.mp hpayload, Payload.get_eq_str.mp hkeyId,
      Payload.get_eq_str.mp htext]
    simp [hsignature, length_of_verifySignature hverified, hverified]

def grantFields : List String :=
  ["format", "issuer", "keyHash", "nonceHash", "protocol", "issuedAt", "expiresAt"]

structure VerifiedGrant (cr : Crypto) (trust : NodeTrust) (c : Config) (now : Seconds)
    (grant : Payload) (publicKeyHex : String) (claims : Payload) : Prop where
  signed : ∃ signature, VerifiedObject cr trust grant claims signature
  fields : claims.hasExactly grantFields = true
  format : claims.get "format" = .str "particle-admission/2"
  issuer : claims.get "issuer" = .str c.nodeId
  protocol : claims.get "protocol" = .str "particle-session/2"
  key : ∃ key, fromHex publicKeyHex = some key ∧
    NodeTrust.compareDigest (claims.get "keyHash") (hexdigest (cr.sha256 key)) = some true
  nonce : ∃ text, claims.get "nonceHash" = .str text ∧ text.length = 64
  times : ∃ issuedAt expiresAt, claims.get "issuedAt" = .int issuedAt ∧
    claims.get "expiresAt" = .int expiresAt ∧ issuedAt ≤ pyInt now ∧ pyInt now ≤ expiresAt

theorem verifyAdmission_eq_true {now : Seconds} {grant : Payload} {publicKeyHex : String} :
    trust.verifyAdmission cr c now grant publicKeyHex = some true ↔
      ∃ claims, VerifiedGrant cr trust c now grant publicKeyHex claims := by
  unfold NodeTrust.verifyAdmission
  constructor
  · intro h
    split at h
    · cases h
    next hsigned =>
    rw [Bool.not_eq_true', Bool.not_eq_false] at hsigned
    obtain ⟨payload, signature, hobject⟩ := verifySignedObject_eq_true.mp hsigned
    rw [Payload.get_eq_obj.mp hobject.object] at h
    split at h
    · next claims key hpayload hkey =>
        cases hpayload
        dsimp only at h
        split at h
        · cases h
        next hfields =>
        split at h
        · cases h
        next htexts =>
        rw [not_or, not_or, not_not, not_not, not_not, str?_eq_some, str?_eq_some,
          str?_eq_some] at htexts
        split at h
        · next hdigest =>
            rw [Option.some_inj, Bool.and_eq_true, Option.any_eq_true] at h
            obtain ⟨⟨text, htext, hlength⟩, htimes⟩ := h
            split at htimes
            · next issuedAt expiresAt hissued hexpires =>
                exact ⟨payload, ⟨signature, hobject⟩,
                  by simpa [Payload.hasExactly, grantFields] using hfields, htexts.1, htexts.2.1, htexts.2.2, ⟨key, hkey, hdigest⟩,
                  ⟨text, str?_eq_some.mp htext, beq_iff_eq.mp hlength⟩,
                  issuedAt, expiresAt, int?_eq_some.mp hissued, int?_eq_some.mp hexpires,
                  of_decide_eq_true htimes⟩
            · cases htimes
        · next hdigest => exact absurd h hdigest
    · cases h
  · rintro ⟨claims, ⟨signature, hobject⟩, hfields, hformat, hissuer, hprotocol, ⟨key, hkey, hdigest⟩,
      ⟨text, htext, hlength⟩, issuedAt, expiresAt, hissued, hexpires, htimes⟩
    have hsigned := verifySignedObject_eq_true.mpr ⟨claims, signature, hobject⟩
    unfold Payload.hasExactly grantFields at hfields
    unfold Payload.get at hformat hissuer hprotocol hdigest htext hissued hexpires
    rw [hsigned, Payload.get_eq_obj.mp hobject.object, hkey]
    simp only [hfields, hformat, hissuer, hprotocol, hdigest, htext, hissued, hexpires]
    simp [Json.str?, Json.int?, hlength, htimes]

/-! ## A grant that was issued -/

theorem compareDigest_str {s digest : String} :
    NodeTrust.compareDigest (.str s) digest = some true ↔
      (s.toList.all fun c => decide (c.toNat < 128)) = true ∧ s = digest := by
  rw [NodeTrust.compareDigest]
  split
  · next h =>
      rw [Option.some_inj, beq_iff_eq]
      exact ⟨fun heq => ⟨h, heq⟩, And.right⟩
  · next h => exact ⟨nofun, fun h' => absurd h'.1 h⟩

/-- What compares equal with a digest is a text or an integer. -/
theorem flat_of_compareDigest {value : Json} {digest : String}
    (h : NodeTrust.compareDigest value digest = some true) :
    (∃ text, value = .str text) ∨ ∃ n, value = .int n := by
  cases value with
  | str s => exact .inl ⟨s, rfl⟩
  | int n => exact .inr ⟨n, rfl⟩
  | _ => cases h

theorem ascii_hexDigit : ∀ n, n < 16 → (hexDigit n).toNat < 128 := by decide

theorem compareDigest_hexdigest {d d' : Digest} :
    NodeTrust.compareDigest (.str (hexdigest d)) (hexdigest d') = some true ↔ d' = d := by
  have hascii : ((hexdigest d).toList.all fun c => decide (c.toNat < 128)) = true := by
    rw [hexdigest, String.toList_ofList, List.all_eq_true]
    intro c hc
    obtain ⟨i, -, rfl⟩ := List.mem_map.mp hc
    exact decide_eq_true (ascii_hexDigit _ (Nat.mod_lt _ (by decide)))
  rw [compareDigest_str, hascii]
  constructor
  · rintro ⟨-, h⟩
    exact (hexdigest_inj h).symm
  · rintro rfl
    exact ⟨rfl, rfl⟩

theorem length_hexdigest (d : Digest) : (hexdigest d).length = 64 := by
  rw [hexdigest, String.length_ofList, List.length_map, List.length_range]

theorem plain_admissionClaims {key : Bytes} {nonce : String} {issuedAt : Int}
    (h : (Json.obj (NodeTrust.admissionClaims cr c key nonce issuedAt)).Short) :
    (Json.obj (NodeTrust.admissionClaims cr c key nonce issuedAt)).Plain := by
  obtain ⟨-, -, -, -, -, hissued, hexpires, -⟩ := h
  have hnames : grantFields.Nodup := by decide
  exact ⟨hnames, trivial, trivial, trivial, trivial, trivial, hissued, hexpires, trivial⟩

theorem SignedWith.plain {payload object : Payload} (h : SignedWith cr trust payload object)
    (hplain : (Json.obj payload).Plain) : (Json.obj object).Plain := by
  obtain ⟨pair, -, rfl⟩ := h.pair
  exact ⟨NodeTrust.nodup_signObject, hplain, trivial, trivial, trivial⟩

/-- The key has the digest of the key of the grant, and the clock stands in the
grant's time. -/
def IssuedGrant.Binds (cr : Crypto) (c : Config) (grant : IssuedGrant) (publicKeyHex : String)
    (now : Seconds) : Prop :=
  (∃ data key, fromHex publicKeyHex = some data ∧ fromHex grant.publicKeyHex = some key ∧
    cr.sha256 data = cr.sha256 key) ∧
  pyInt grant.now ≤ pyInt now ∧ pyInt now ≤ pyInt grant.now + c.admissionTtlSeconds

theorem verifyAdmission_issued (hraw : trust.publicKeyRaw ≠ []) {grant : IssuedGrant}
    (hgrant : grant.IsSigned cr trust c) {presented : Payload}
    (hpresented : Alike grant.object presented) {publicKeyHex : String} {now : Seconds} :
    trust.verifyAdmission cr c now presented publicKeyHex = some true ↔
      grant.Binds cr c publicKeyHex now := by
  obtain ⟨key, hkey, hsigned⟩ := hgrant
  have hplain := plain_admissionClaims hsigned.short
  obtain ⟨pair, claims, halike, hfields, hpayload, hkeyId, htext, hsigns⟩ :=
    hsigned.read hplain.1 hpresented
  have hkeyHash : claims.get "keyHash" = .str (hexdigest (cr.sha256 key)) := halike.get_str rfl
  have hissued : claims.get "issuedAt" = .int (pyInt grant.now) := halike.get_int rfl
  have hexpires : claims.get "expiresAt" = .int (pyInt grant.now + c.admissionTtlSeconds) :=
    halike.get_int rfl
  rw [verifyAdmission_eq_true]
  constructor
  · rintro ⟨claims', h⟩
    -- The claims that were verified are those that were read.
    obtain ⟨signature, hobject⟩ := h.signed
    have hsame := hobject.object
    rw [hpayload] at hsame
    cases hsame
    obtain ⟨data, hdata, hdigest⟩ := h.key
    rw [hkeyHash, compareDigest_hexdigest] at hdigest
    obtain ⟨issuedAt, expiresAt, hissued', hexpires', htimes⟩ := h.times
    rw [hissued] at hissued'
    rw [hexpires] at hexpires'
    cases hissued'
    cases hexpires'
    exact ⟨⟨data, key, hdata, hkey, hdigest⟩, htimes⟩
  · rintro ⟨⟨data, key', hdata, hkey', hdigest⟩, htimes⟩
    rw [hkey] at hkey'
    cases hkey'
    refine ⟨claims, ⟨rawSignature pair, hfields, hpayload, hkeyId, ⟨_, htext, fromHex_hex _⟩, ?_⟩,
      halike.hasExactly (hasExactly_iff.mpr (List.Perm.refl _)), halike.get_str rfl,
      halike.get_str rfl, halike.get_str rfl, ⟨data, hdata, ?_⟩,
      ⟨_, halike.get_str rfl, length_hexdigest _⟩, _, _, hissued, hexpires, htimes⟩
    · rw [verifySignature_rawSignature hraw]
      exact hsigns
    · rw [hkeyHash, compareDigest_hexdigest]
      exact hdigest

/-! ## An object that verifies -/

/-- The value is, or is a part of, one that was read from a text. -/
def WasRead (v : Json) : Prop :=
  ∃ limits raw data, loadsStrict limits raw = .ok data ∧ v ∈ data.parts

theorem WasRead.short {v : Json} (h : WasRead v) : v.Short := by
  obtain ⟨limits, raw, data, hloads, hpart⟩ := h
  obtain ⟨-, -, decoded, hdecoded, -, rfl⟩ := loadsStrict_ok.mp hloads
  exact (decodeJson_strictHooks.mp hdecoded).1.short.of_parts hpart

theorem VerifiedGrant.plain {now : Seconds} {grant claims : Payload} {publicKeyHex : String}
    (h : VerifiedGrant cr trust c now grant publicKeyHex claims)
    (hshort : Json.ShortMembers claims) : (Json.obj claims).Plain := by
  have hnames := hasExactly_iff.mp h.fields
  refine plain_of_flat (hnames.nodup_iff.mpr (by decide)) hshort fun name hname => ?_
  have hname : name ∈ grantFields := hnames.mem_iff.mp hname
  simp only [grantFields, List.mem_cons, List.not_mem_nil, or_false] at hname
  obtain ⟨issuedAt, expiresAt, hissued, hexpires, -⟩ := h.times
  rcases hname with rfl | rfl | rfl | rfl | rfl | rfl | rfl
  · exact .inl ⟨_, h.format⟩
  · exact .inl ⟨_, h.issuer⟩
  · obtain ⟨key, -, hdigest⟩ := h.key
    exact flat_of_compareDigest hdigest
  · exact .inl (h.nonce.imp fun _ => And.left)
  · exact .inl ⟨_, h.protocol⟩
  · exact .inr ⟨_, hissued⟩
  · exact .inr ⟨_, hexpires⟩

/-- A signature verifies with the node's key only for the canonical bytes of what
the key has signed. -/
def SignsOnly (cr : Crypto) (trust : NodeTrust) (s : Signer) : Prop :=
  ∀ message signature, verifySignature cr (some trust.publicKeyRaw) message signature = true →
    ∃ payload ∈ s.signed, message = canonicalJsonBytes payload

/-- The payload of a grant is not that of a manifest. -/
theorem same_manifestPayload {claims : Payload} (hfields : claims.hasExactly grantFields = true)
    {a : AdvertisedConfig} {issuedAt : Int} :
    (Json.obj claims).same (.obj (trust.manifestPayload cr a issuedAt)) = false := by
  have hlength := (hasExactly_iff.mp hfields).length_eq
  rw [List.length_map] at hlength
  rw [Json.same, hlength]
  rfl

theorem issued_of_verified {a : AdvertisedConfig} {s : Signer}
    (hsound : Signer.Sound cr trust a s) (honly : SignsOnly cr trust s) {presented : Payload}
    (hread : WasRead (.obj presented)) {publicKeyHex : String} {now : Seconds}
    (h : trust.verifyAdmission cr a.toConfig now presented publicKeyHex = some true) :
    ∃ grant ∈ s.grants, (presented.get "payload").same (grant.object.get "payload") = true := by
  obtain ⟨claims, hverified⟩ := verifyAdmission_eq_true.mp h
  obtain ⟨signature, hobject⟩ := hverified.signed
  have hshort : (Json.obj claims).Short :=
    Json.ShortMembers.lookup hread.short (Payload.get_eq_obj.mp hobject.object)
  have hplain := hverified.plain hshort
  obtain ⟨payload, hpayload, hbytes⟩ := honly _ _ hobject.verified
  rw [hobject.object]
  rcases List.mem_append.mp hpayload with hmem | hmem
  · obtain ⟨call, hcall, rfl⟩ := List.mem_map.mp hmem
    obtain ⟨issuedAt, hsigned⟩ := hsound.manifests call hcall
    obtain ⟨pair, -, heq⟩ := hsigned.pair
    rw [heq] at hbytes
    have hsame := (canonicalJsonBytes_eq_iff hplain (plain_manifestPayload hsigned.short)).mp hbytes
    rw [same_manifestPayload hverified.fields] at hsame
    cases hsame
  · obtain ⟨grant, hgrant, rfl⟩ := List.mem_map.mp hmem
    obtain ⟨key, -, hsigned⟩ := hsound.grants grant hgrant
    obtain ⟨pair, -, heq⟩ := hsigned.pair
    refine ⟨grant, hgrant, ?_⟩
    rw [heq] at hbytes ⊢
    exact (canonicalJsonBytes_eq_iff hplain (plain_admissionClaims hsigned.short)).mp hbytes

/-! ## Every request is granted -/

theorem admissionTtlSeconds_le (c : Config) : c.admissionTtlSeconds ≤ 3600 :=
  (c.bounded_le "admission_ttl_seconds" _ 10 3600 (by simp [ConfigFields.bounded])).2

theorem isP256Point_of_admissionRequest {body : Payload} {publicKeyHex nonce : String}
    (h : admissionRequest cr body = .ok (publicKeyHex, nonce)) :
    isP256Point cr publicKeyHex = true := by
  unfold admissionRequest at h
  split at h
  · cases h
  split at h
  · split at h
    · cases h
    split at h
    · cases h
    split at h
    · cases h
    next hpoint =>
    cases h
    simpa using hpoint
  · cases h

/-- A request the endpoint accepts gets a grant, whatever the time of the day. -/
theorem issueAdmission_of_request {body : Payload} {publicKeyHex nonce : String}
    (h : admissionRequest cr body = .ok (publicKeyHex, nonce)) {now : Seconds}
    (hnow : IsReading now) (pair : EcdsaPair) :
    ∃ object, trust.issueAdmission cr c publicKeyHex nonce now pair = some object := by
  obtain ⟨key, hkey⟩ := V2.exists_fromHex_of_isP256Point (isP256Point_of_admissionRequest h)
  have hpos : 0 ≤ pyInt now := by
    rw [pyInt_of_nonneg hnow.1]
    exact Int.floor_nonneg.mpr hnow.1
  have httl := admissionTtlSeconds_le c
  have hshort : (Json.obj (NodeTrust.admissionClaims cr c key nonce (pyInt now))).Short :=
    ⟨trivial, trivial, trivial, trivial, trivial,
      length_toDigits_time hnow hpos (by omega),
      length_toDigits_time hnow (by omega) (by omega), trivial⟩
  exact ⟨_, issueAdmission_eq_some.mpr ⟨key, hkey, signObject?_eq_some.mpr ⟨hshort, rfl⟩⟩⟩

/-! ## The binding -/

/-- Every request the endpoint accepts gets a grant. In a run of a node, a grant
it issued, transported with its members in any order, verifies for a key and a
clock exactly if the key has the digest of the key it was issued for and the
clock stands between the time of issue and the end of its stay. If signatures
verify only for what the node's key has signed, no object read from a text
verifies for any key at any time unless its payload is that of a grant the node
issued. -/
theorem grant_binds {key : SigningKey} {a : AdvertisedConfig} {s : Signer}
    (hs : (signingSystem cr key a).Reachable s) :
    (∀ body publicKeyHex nonce, admissionRequest cr body = .ok (publicKeyHex, nonce) →
      ∀ now pair, IsReading now →
        ∃ object, key.issueAdmission cr a.toConfig publicKeyHex nonce now pair = some object) ∧
    (∀ grant ∈ s.grants, ∀ presented, (Json.obj grant.object).Reordered (.obj presented) →
      ∀ publicKeyHex now,
        (key.verifyAdmission cr a.toConfig now presented publicKeyHex = some true ↔
          grant.Binds cr a.toConfig publicKeyHex now)) ∧
    (SignsOnly cr key.toNodeTrust s → ∀ presented, WasRead (.obj presented) →
      (¬∃ grant ∈ s.grants,
        (Payload.get presented "payload").same (Payload.get grant.object "payload") = true) →
      ∀ publicKeyHex now,
        key.verifyAdmission cr a.toConfig now presented publicKeyHex ≠ some true) := by
  have hsound := Signer.sound_of_reachable hs
  refine ⟨fun body publicKeyHex nonce h now pair hnow => issueAdmission_of_request h hnow pair,
    fun grant hgrant presented hpresented publicKeyHex now => ?_,
    fun honly presented hread hnone publicKeyHex now h => ?_⟩
  · have hissued := hsound.grants grant hgrant
    obtain ⟨data, -, hsigned⟩ := hissued
    have hplain := hsigned.plain (plain_admissionClaims hsigned.short)
    exact verifyAdmission_issued key.raw_ne_nil (hsound.grants grant hgrant)
      (alike_of_reordered hpresented hplain)
  · exact hnone (issued_of_verified hsound honly hread h)

namespace Sample

def nodeKey : SigningKey := ⟨⟨List.replicate 65 4⟩, by decide⟩

def advertised : AdvertisedConfig where
  toConfig := .default

def zeroPair : EcdsaPair := (0, 0)

def clientKey : String := String.ofList (List.replicate 130 '4')

def admissionNonce : String := "0123456789abcdef"

def admissionBody : Payload :=
  [("publicKeyHex", .str clientKey), ("nonce", .str admissionNonce), ("protocol", .str sessionV2)]

def signedManifest : Payload := nodeKey.manifestPayload lengthCrypto advertised (pyInt 100)

def signedClaims : Payload :=
  NodeTrust.admissionClaims lengthCrypto .default (List.replicate 65 68) admissionNonce (pyInt 100)

/-- A signature verifies for the two payloads, and nothing else does. -/
def signingCrypto : Crypto :=
  { lengthCrypto with
    ecdsaVerify := fun _ message _ _ =>
      message == canonicalJsonBytes (.obj signedManifest) ||
        message == canonicalJsonBytes (.obj signedClaims) }

def manifestObject : Payload :=
  nodeKey.signObject lengthCrypto signedManifest (rawSignature zeroPair)

def grantObject : Payload := nodeKey.signObject lengthCrypto signedClaims (rawSignature zeroPair)

/-- The node after one request. -/
def granted : Signer :=
  ⟨some manifestObject, [(100, manifestObject)], [⟨clientKey, admissionNonce, 100, grantObject⟩]⟩

theorem signs_signedManifest : Signer.Signs signingCrypto nodeKey.toNodeTrust zeroPair signedManifest := by
  unfold Signer.Signs
  dsimp only [signingCrypto]
  rw [beq_self_eq_true, Bool.true_or]

theorem signs_signedClaims : Signer.Signs signingCrypto nodeKey.toNodeTrust zeroPair signedClaims := by
  unfold Signer.Signs
  dsimp only [signingCrypto]
  rw [beq_self_eq_true, Bool.or_true]

theorem fromHexChars_fours (n : Nat) :
    fromHexChars (List.replicate (2 * n) '4') = some (List.replicate n 68) := by
  induction n with
  | zero => rfl
  | succ n ih =>
      have hpair : List.replicate (2 * (n + 1)) '4' = '4' :: '4' :: List.replicate (2 * n) '4' := rfl
      rw [hpair, fromHexChars, ih]
      rfl

theorem fromHex_clientKey : fromHex clientKey = some (List.replicate 65 68) := by
  unfold fromHex clientKey
  rw [String.toList_ofList]
  exact fromHexChars_fours 65

theorem admissionRequest_body :
    admissionRequest signingCrypto admissionBody = .ok (clientKey, admissionNonce) := by
  have hfields : admissionBody.hasExactly ["publicKeyHex", "nonce", "protocol"] = true := by decide
  have hlength : clientKey.length = 65 * 2 := String.length_ofList
  have hkey : isHexBytes clientKey 65 = true := by
    rw [isHexBytes, if_pos hlength, fromHex_clientKey]
    rfl
  have hpoint : isP256Point signingCrypto clientKey = true := by
    rw [isP256Point, hkey, fromHex_clientKey]
    rfl
  have hnonce : 16 ≤ admissionNonce.utf8ByteSize ∧ admissionNonce.utf8ByteSize ≤ 128 := by decide
  show (if (!admissionBody.hasExactly ["publicKeyHex", "nonce", "protocol"]) = true then _
    else if (!isHexBytes clientKey 65 || !decide (16 ≤ admissionNonce.utf8ByteSize ∧
      admissionNonce.utf8ByteSize ≤ 128)) = true then _
    else if some sessionV2 ≠ some sessionV2 then _
    else if (!isP256Point signingCrypto clientKey) = true then _ else _) = _
  simp [hfields, hkey, hpoint, hnonce]

theorem manifest_granted :
    nodeKey.manifest signingCrypto advertised none 100 zeroPair = some manifestObject := by
  have hshort : (Json.obj signedManifest).Short := by decide +kernel
  exact signObject?_eq_some.mpr ⟨hshort, rfl⟩

theorem issueAdmission_granted :
    nodeKey.issueAdmission signingCrypto .default clientKey admissionNonce 100 zeroPair =
      some grantObject := by
  have hshort : (Json.obj signedClaims).Short := by decide +kernel
  exact issueAdmission_eq_some.mpr
    ⟨_, fromHex_clientKey, signObject?_eq_some.mpr ⟨hshort, rfl⟩⟩

theorem after_granted :
    Signer.after signingCrypto nodeKey.toNodeTrust advertised ⟨none, [], []⟩
      ⟨100, .admission admissionBody 100 zeroPair zeroPair⟩ = granted := by
  unfold Signer.after
  dsimp only
  rw [admissionRequest_body]
  unfold Signer.callManifest
  dsimp only
  rw [manifest_granted]
  unfold Signer.callGrant
  dsimp only
  rw [show advertised.toConfig = .default from rfl, issueAdmission_granted]
  rfl

theorem reachable_granted :
    ((signingSystem signingCrypto nodeKey advertised).restrict Signer.inOrder).Reachable
      granted := by
  have hstart : ((signingSystem signingCrypto nodeKey advertised).restrict
      Signer.inOrder).Reachable ⟨none, [], []⟩ := .start rfl
  refine hstart.next (e := ⟨100, .admission admissionBody 100 zeroPair zeroPair⟩)
    ⟨nofun, ?_, after_granted.symm⟩
  intro request hrequest
  rw [admissionRequest_body] at hrequest
  rw [← Except.ok.inj hrequest]
  refine ⟨fun _ => signs_signedManifest, fun key hkey => ?_⟩
  rw [fromHex_clientKey] at hkey
  rw [← Option.some.inj hkey]
  exact signs_signedClaims

theorem signed_granted :
    granted.signed = [.obj signedManifest, .obj signedClaims] := rfl

theorem signsOnly_granted : SignsOnly signingCrypto nodeKey.toNodeTrust granted := by
  intro message signature h
  rw [signed_granted]
  unfold verifySignature at h
  dsimp only at h
  split at h
  · cases h
  · rcases Bool.or_eq_true_iff.mp h with h | h
    · exact ⟨_, List.mem_cons_self, beq_iff_eq.mp h⟩
    · exact ⟨_, List.mem_cons_of_mem _ List.mem_cons_self, beq_iff_eq.mp h⟩

end Sample

/-- A grant issued at 100 for sixty seconds verifies for its key until 160 and
not after, and the manifest, signed with the same key, never does. -/
theorem grant_binds_one_request :
    Sample.nodeKey.verifyAdmission Sample.signingCrypto .default 160 Sample.grantObject
        Sample.clientKey = some true ∧
      Sample.nodeKey.verifyAdmission Sample.signingCrypto .default 161 Sample.grantObject
        Sample.clientKey ≠ some true ∧
      ∀ presented, WasRead (.obj presented) → Alike Sample.manifestObject presented →
        Sample.nodeKey.verifyAdmission Sample.signingCrypto .default 100 presented
          Sample.clientKey ≠ some true := by
  obtain ⟨-, hbinds, hexcludes⟩ := grant_binds Sample.reachable_granted.of_restrict
  have hgrant := hbinds _ List.mem_cons_self Sample.grantObject (.members (.refl _))
    Sample.clientKey
  refine ⟨(hgrant 160).mpr ⟨⟨_, _, Sample.fromHex_clientKey, Sample.fromHex_clientKey, rfl⟩, ?_⟩,
    fun h => ?_, fun presented hread halike => ?_⟩
  · decide +kernel
  · obtain ⟨-, -, htime⟩ := (hgrant 161).mp h
    revert htime
    decide +kernel
  · refine hexcludes Sample.signsOnly_granted presented hread ?_ _ _
    rintro ⟨grant, hgrant, hsame⟩
    rw [List.mem_singleton.mp hgrant] at hsame
    -- A manifest has twelve fields, a grant seven.
    have hobject : Payload.get Sample.manifestObject "payload" = .obj Sample.signedManifest := rfl
    obtain ⟨payload, hpayload, halike⟩ := halike.get_obj hobject (by decide)
    have hlength := (Json.names_of_sortKeys_eq halike.sorted).length_eq
    rw [List.length_map, List.length_map] at hlength
    have hclaims : Payload.get Sample.grantObject "payload" = .obj Sample.signedClaims := rfl
    rw [hpayload, hclaims, Json.same, ← hlength] at hsame
    cases hsame

end Masterserver
