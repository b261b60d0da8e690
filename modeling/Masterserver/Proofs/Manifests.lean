import Masterserver.Proofs.Grants
import Masterserver.Proofs.SingleOwner

/-!
# The manifest, from the node that signs it to the node that reads it

A manifest is served again only while more than a minute of it is left, and a
new one lives for a minute at least; so while the clock does not go back, what
a call returns was put together no later than the call and has a minute left.

The node at the other end of a link reads the hello as text. Field by field it
finds what was signed, so what is left of its tests are the two stretches of
time: that of the manifest and that of the key.
-/

namespace Masterserver

open Lib Protocol

variable {cr : Crypto} {trust : NodeTrust} {c : AdvertisedConfig}

/-! ## The calls of a node -/

theorem manifestTtlSeconds_ge (c : Config) : 60 ≤ c.manifestTtlSeconds :=
  (c.bounded_le "manifest_ttl_seconds" _ 60 86400 (by simp [ConfigFields.bounded])).1

theorem manifestTtlSeconds_le (c : Config) : c.manifestTtlSeconds ≤ 86400 :=
  (c.bounded_le "manifest_ttl_seconds" _ 60 86400 (by simp [ConfigFields.bounded])).2

theorem manifestExpiry_signed {issuedAt : Int} {signed : Payload}
    (h : SignedWith cr trust (trust.manifestPayload cr c issuedAt) signed) :
    manifestExpiry signed = some (issuedAt + c.manifestTtlSeconds) := by
  obtain ⟨pair, -, rfl⟩ := h.pair
  rfl

/-- What a call at a reading of the clock returned has begun and lasts for
another minute. -/
structure Lasting (cr : Crypto) (trust : NodeTrust) (c : AdvertisedConfig) (now : Seconds)
    (issuedAt : Int) (signed : Payload) : Prop where
  signed : SignedWith cr trust (trust.manifestPayload cr c issuedAt) signed
  begun : issuedAt ≤ pyInt now
  lasts : pyInt now + 60 ≤ issuedAt + c.manifestTtlSeconds

namespace Signer

variable {s : Signer}

/-- Every call returned a manifest of its time. -/
def Punctual (cr : Crypto) (trust : NodeTrust) (c : AdvertisedConfig) (s : Signer) : Prop :=
  ∀ call ∈ s.manifests, ∃ issuedAt, Lasting cr trust c call.1 issuedAt call.2

theorem lasting_of_manifest (hsound : Sound cr trust c s) (h : Punctual cr trust c s)
    {now : Seconds} (horder : ∀ call ∈ s.manifests, call.1 ≤ now) {pair : EcdsaPair}
    (hsigns : s.signsManifest cr trust c now pair) {signed : Payload}
    (hsigned : trust.manifest cr c s.cached now pair = some signed) :
    ∃ issuedAt, Lasting cr trust c now issuedAt signed := by
  rcases manifest_cases hsigned hsigns with hkept | hfresh
  · -- A manifest that is kept was returned by an earlier call.
    obtain ⟨hcached, expiresAt, hexpiry, hleft⟩ := keptManifest_eq_some.mp hkept
    obtain ⟨earlier, hmem⟩ := hsound.cached signed hcached
    obtain ⟨issuedAt, hlasting⟩ := h _ hmem
    rw [manifestExpiry_signed hlasting.signed, Option.some_inj] at hexpiry
    have hbegun : issuedAt ≤ pyInt earlier := hlasting.begun
    have hmono : pyInt earlier ≤ pyInt now := NodeMesh.pyInt_mono (horder _ hmem)
    exact ⟨issuedAt, hlasting.signed, hbegun.trans hmono, by omega⟩
  · have httl := manifestTtlSeconds_ge c.toConfig
    exact ⟨pyInt now, hfresh, le_rfl, by omega⟩

theorem Punctual.callManifest (h : Punctual cr trust c s) (hsound : Sound cr trust c s)
    {now : Seconds} (horder : ∀ call ∈ s.manifests, call.1 ≤ now) {pair : EcdsaPair}
    (hsigns : s.signsManifest cr trust c now pair) :
    Punctual cr trust c (s.callManifest cr trust c now pair) := by
  unfold Signer.callManifest
  split
  · exact h
  · next signed hsigned =>
      refine List.forall_mem_append.mpr ⟨h, fun call hcall => ?_⟩
      rw [List.mem_singleton.mp hcall]
      exact lasting_of_manifest hsound h horder hsigns hsigned

theorem manifests_callGrant (now : Seconds) (publicKeyHex nonce : String) (pair : EcdsaPair) :
    (s.callGrant cr trust c now publicKeyHex nonce pair).manifests = s.manifests := by
  unfold Signer.callGrant
  split <;> rfl

theorem Punctual.after (h : Punctual cr trust c s) (hsound : Sound cr trust c s) {e : SignerEvent}
    (horder : s.inOrder e) (hallowed : s.allowed cr trust c e) :
    Punctual cr trust c (s.after cr trust c e) := by
  obtain ⟨now, op⟩ := e
  cases op with
  | manifest pair => exact h.callManifest hsound horder hallowed
  | grant publicKeyHex nonce pair =>
      unfold Punctual
      rw [Signer.after, manifests_callGrant]
      exact h
  | admission body later manifestPair grantPair =>
      unfold Signer.after
      dsimp only
      split
      · exact h
      · next publicKeyHex nonce hrequest =>
          have hmanifest := h.callManifest hsound horder (hallowed _ hrequest).1
          unfold Punctual
          rw [manifests_callGrant]
          exact hmanifest

theorem punctual_of_reachable {key : SigningKey}
    (hs : ((signingSystem cr key c).restrict Signer.inOrder).Reachable s) :
    Punctual cr key.toNodeTrust c s := by
  have hboth : Sound cr key.toNodeTrust c s ∧ Punctual cr key.toNodeTrust c s := by
    refine hs.invariant (P := fun s => Sound cr key.toNodeTrust c s ∧
      Punctual cr key.toNodeTrust c s) ?_ ?_
    · intro s hinit
      cases hinit
      exact ⟨⟨nofun, nofun, nofun⟩, nofun⟩
    · intro s e s' h hstep
      obtain ⟨horder, hallowed, hstep⟩ := hstep
      cases hstep
      exact ⟨h.1.after hallowed, h.2.after h.1 horder hallowed⟩
  exact hboth.2

end Signer

/-! ## What the other end reads -/

theorem toLower_hexdigest (d : Digest) : (hexdigest d).toLower = hexdigest d := by
  have hlower : ∀ n, n < 16 → (hexDigit n).toLower = hexDigit n := by decide
  show (hexdigest d).map Char.toLower = hexdigest d
  rw [← String.toList_inj, String.toList_map, hexdigest, String.toList_ofList, List.map_map]
  exact List.map_congr_left fun i _ => hlower _ (Nat.mod_lt _ (by decide))

/-- A peer that trusts the node with the digest of its key as the pin, and is
configured for the same network root. -/
structure PinnedBy (cr : Crypto) (trust : NodeTrust) (c : Config) (p : PinnedConfig) : Prop where
  trusted : c.nodeId ∈ p.trusted
  pin : p.serverKeyPin c.nodeId = hexdigest (cr.sha256 trust.publicKeyRaw)
  rootId : p.networkRootId = c.networkRootId
  rootVersion : p.networkRootVersion = c.networkRootVersion
  rollbackVersion : p.networkRootRollbackVersion = c.networkRootRollbackVersion

/-- The times at which the manifest and the key it is signed with are in force. -/
def InForce (c : AdvertisedConfig) (issuedAt : Int) (clock : Seconds) : Prop :=
  (issuedAt ≤ pyInt clock ∧ pyInt clock ≤ issuedAt + c.manifestTtlSeconds) ∧
    c.signingKeyActivatesAt ≤ pyInt clock ∧ pyInt clock ≤ c.signingKeyExpiresAt

variable {issuedAt : Int} {signed manifest : Payload} {p : PinnedConfig} {clock : Seconds}

/-- The payload of a manifest, as it is read. -/
structure ManifestFields (cr : Crypto) (trust : NodeTrust) (c : AdvertisedConfig) (issuedAt : Int)
    (payload : Payload) : Prop where
  names : payload.hasExactly manifestFields = true
  format : payload.get "format" = .str "particle-node-manifest/2"
  nodeId : payload.get "nodeId" = .str c.nodeId
  rootId : payload.get "networkRootId" = .str c.networkRootId
  rootVersion : payload.get "networkRootVersion" = .int c.networkRootVersion
  rollbackVersion : payload.get "networkRootRollbackVersion" = .int c.networkRootRollbackVersion
  key : payload.get "signingPublicKeyHex" = .str (hex trust.publicKeyRaw)
  keyId : payload.get "signingKeyId" = .str (hexdigest (cr.sha256 trust.publicKeyRaw))
  activatesAt : (payload.get "signingKeyValidity").get? "activatesAt" =
    some (.int c.signingKeyActivatesAt)
  expiresAt : (payload.get "signingKeyValidity").get? "expiresAt" =
    some (.int c.signingKeyExpiresAt)
  issued : payload.get "issuedAt" = .int issuedAt
  expires : payload.get "expiresAt" = .int (issuedAt + c.manifestTtlSeconds)

theorem Alike.fields {payload : Payload}
    (h : Alike (trust.manifestPayload cr c issuedAt) payload) :
    ManifestFields cr trust c issuedAt payload := by
  have hnames : Payload.hasExactly (trust.manifestPayload cr c issuedAt) manifestFields = true :=
    hasExactly_iff.mpr (List.Perm.refl _)
  have hvalidity : Payload.get (trust.manifestPayload cr c issuedAt) "signingKeyValidity" =
      .obj [("activatesAt", .int c.signingKeyActivatesAt),
        ("expiresAt", .int c.signingKeyExpiresAt)] := rfl
  have htimes : ["activatesAt", "expiresAt"].Nodup := by decide
  obtain ⟨validity, hvalidity, hwindow⟩ := h.get_obj hvalidity htimes
  have hget {name : String} {n : Int} (hn : validity.get name = .int n) :
      (payload.get "signingKeyValidity").get? name = some (.int n) := by
    rw [hvalidity]
    exact Payload.get_eq_int.mp hn
  exact {
    names := h.hasExactly hnames
    format := h.get_str rfl
    nodeId := h.get_str rfl
    rootId := h.get_str rfl
    rootVersion := h.get_int rfl
    rollbackVersion := h.get_int rfl
    key := h.get_str rfl
    keyId := h.get_str rfl
    activatesAt := hget (hwindow.get_int rfl)
    expiresAt := hget (hwindow.get_int rfl)
    issued := h.get_int rfl
    expires := h.get_int rfl }

/-- A manifest that was read: its payload, and that it is valid exactly while
the key is in force. -/
theorem parseSignedManifest_read (hraw : trust.publicKeyRaw ≠ [])
    (h : SignedWith cr trust (trust.manifestPayload cr c issuedAt) signed)
    (hmanifest : Alike signed manifest) {pin : String}
    (hpin : pin = hexdigest (cr.sha256 trust.publicKeyRaw)) :
    ∃ payload : Payload, manifest.get "payload" = .obj payload ∧
      ManifestFields cr trust c issuedAt payload ∧
      ∀ clock, parseSignedManifest cr clock (.obj manifest) pin =
        if c.signingKeyActivatesAt ≤ pyInt clock ∧ pyInt clock ≤ c.signingKeyExpiresAt then
          some payload else none := by
  obtain ⟨pair, payload, halike, hfields, hpayload, hkeyId, htext, hsigns⟩ :=
    h.read (plain_manifestPayload h.short).1 hmanifest
  have hread := halike.fields
  have hkey : (payload.get "signingPublicKeyHex").str?.bind fromHex = some trust.publicKeyRaw := by
    rw [hread.key, Json.str?, Option.bind_some, fromHex_hex]
  have hsignature : (manifest.get "signatureHex").str?.bind fromHex =
      some (rawSignature pair) := by
    rw [htext, Json.str?, Option.bind_some, fromHex_hex]
  refine ⟨payload, hpayload, hread, fun clock => ?_⟩
  split
  · next hactive =>
      refine parseSignedManifest_some.mpr ⟨trust.publicKeyRaw, rawSignature pair, ?_⟩
      exact {
        fields := ⟨manifest, rfl, hfields, hpayload, hsignature, hkeyId⟩
        payloadFields := hread.names
        key := hkey
        pinned := by rw [hpin, toLower_hexdigest]
        keyId := hread.keyId
        format := hread.format
        active := ⟨_, _, by rw [hread.activatesAt]; rfl, by rw [hread.expiresAt]; rfl, hactive⟩
        signed := by rw [verifySignature_rawSignature hraw]; exact hsigns }
  · next hactive =>
      refine Option.eq_none_iff_forall_ne_some.mpr fun payload' hparse => hactive ?_
      obtain ⟨rawKey, signature, hsigned⟩ := parseSignedManifest_some.mp hparse
      -- The payload that was parsed is the one that was read.
      obtain ⟨members, hmembers, -, hsame, -⟩ := hsigned.fields
      cases hmembers
      rw [hpayload] at hsame
      cases hsame
      obtain ⟨activatesAt, expiresAt, hfrom, hto, hwindow⟩ := hsigned.active
      rw [hread.activatesAt] at hfrom
      rw [hread.expiresAt] at hto
      cases hfrom
      cases hto
      exact hwindow

theorem manifestCurrent_int {payload : Payload} {expiresAt : Int}
    (hissued : payload.get "issuedAt" = .int issuedAt)
    (hexpires : payload.get "expiresAt" = .int expiresAt) :
    PinnedConfig.manifestCurrent clock payload =
      .ok (decide (issuedAt ≤ pyInt clock ∧ pyInt clock ≤ expiresAt)) := by
  have hcompare (a b : Int) : compareNumbers (Json.int a).number? (Json.int b).number? =
      .ok (decide (a ≤ b)) := by
    have hle : (((a : ℚ)) : WithTop ℚ) ≤ (((b : ℚ)) : WithTop ℚ) ↔ a ≤ b := by
      rw [WithTop.coe_le_coe, Int.cast_le]
    refine congrArg Except.ok (decide_eq_decide.mpr ?_)
    rw [WithBot.coe_le_coe]
    exact hle
  unfold PinnedConfig.manifestCurrent
  dsimp only
  rw [hissued, hexpires, hcompare, hcompare]
  by_cases hle : issuedAt ≤ pyInt clock
  · simp [hle, bind, Except.bind]
  · simp [hle, bind, Except.bind, pure, Except.pure]

/-- The hello of a node, accepted by a peer exactly while the manifest and the
key are in force. -/
theorem authenticateHello_read (hraw : trust.publicKeyRaw ≠ [])
    (h : SignedWith cr trust (trust.manifestPayload cr c issuedAt) signed)
    (hp : PinnedBy cr trust c.toConfig p) {expected : Option TrustedNode}
    (hexpected : expected = none ∨ expected = p.trustedNode? c.nodeId) {message : Json}
    {id : String} {payload : Payload} (hmessage : IsNodeEnvelope message "NODE_HELLO" id payload)
    (hmanifest : payload.get "manifest" = .obj manifest) (halike : Alike signed manifest) :
    p.authenticateHello cr clock expected message = .ok (some c.nodeId) ↔
      InForce c issuedAt clock := by
  obtain ⟨node, htrusted, hid, hpin⟩ : ∃ node, p.trustedNode? c.nodeId = some node ∧
      node.nodeId = c.nodeId ∧ node.serverKeyPin = hexdigest (cr.sha256 trust.publicKeyRaw) :=
    ⟨_, dif_pos hp.trusted, rfl, hp.pin⟩
  obtain ⟨payload', hpayload', hread, hparse⟩ := parseSignedManifest_read hraw h halike hpin
  have hawaited : Awaited p expected node := by
    rcases hexpected with hnone | hsome
    · exact .inr ⟨hnone, hid.symm ▸ htrusted⟩
    · exact .inl (hsome.trans htrusted)
  have hroot : p.sameRoot payload' = true := by
    rw [PinnedConfig.sameRoot, hread.rootId, hread.rootVersion, hread.rollbackVersion, hp.rootId,
      hp.rootVersion, hp.rollbackVersion]
    simp [Json.str?, Json.equalsInt, Json.number?_int]
  rw [authenticateHello_envelope hmessage, hmanifest]
  simp only [getOrEmpty, hpayload', hread.nodeId, bind, Except.bind]
  rw [← hid, nodeToTrust_some.mpr hawaited]
  unfold PinnedConfig.acceptManifest InForce
  dsimp only
  rw [Json.str?, if_neg (not_not.mpr rfl), hparse clock]
  by_cases hactive : c.signingKeyActivatesAt ≤ pyInt clock ∧ pyInt clock ≤ c.signingKeyExpiresAt
  · rw [if_pos hactive]
    dsimp only
    rw [hroot, Bool.not_true, if_neg Bool.false_ne_true,
      manifestCurrent_int hread.issued hread.expires]
    simp [bind, Except.bind, pure, Except.pure, hactive]
  · rw [if_neg hactive]
    simp [hactive]

/-! ## The round trip -/

theorem plain_hello {id : String} (h : (Json.obj signed).Plain) :
    ((NodeMessage.nodeHello (.obj signed)).toJson id).Plain := by
  have hnames : ["manifest"].Nodup := by decide
  exact ⟨NodeMessage.nodup_envelope, trivial, trivial, trivial, ⟨hnames, h, trivial⟩, trivial⟩

/-- What a peer reads of a hello. -/
theorem hello_read {limits : JsonLimits} {id : String} {received : Json}
    (hplain : (Json.obj signed).Plain) (hid : 1 ≤ id.length ∧ id.length ≤ 64)
    (h : loadsStrict limits ((NodeMessage.nodeHello (.obj signed)).toJson id).canonical =
      .ok received) :
    ∃ payload manifest : Payload, IsNodeEnvelope received "NODE_HELLO" id payload ∧
      payload.get "manifest" = .obj manifest ∧ Alike signed manifest := by
  obtain ⟨data, rfl, halike⟩ := alike_of_loads (plain_hello hplain) h
  have hnames : ["manifest"].Nodup := by decide
  have hsent : Payload.get [("protocol", .str node), ("type", .str "NODE_HELLO"), ("id", .str id),
      ("payload", .obj [("manifest", .obj signed)])] "payload" =
        .obj [("manifest", .obj signed)] := rfl
  have hinner : Payload.get [("manifest", .obj signed)] "manifest" = .obj signed := rfl
  obtain ⟨payload, hpayload, halike'⟩ := halike.get_obj hsent hnames
  obtain ⟨manifest, hmanifest, hsigned⟩ := halike'.get_obj hinner hplain.1
  refine ⟨payload, manifest, ⟨⟨data, rfl, ?_, halike.get_str rfl, halike.get_str rfl,
    halike.get_str rfl, hpayload⟩, by decide, hid⟩, hmanifest, hsigned⟩
  exact halike.hasExactly (hasExactly_iff.mpr (List.Perm.refl _))

theorem short_manifestPayload {now : Seconds} (hnow : IsReading now)
    (hactivates : (Json.int c.signingKeyActivatesAt).Short)
    (hexpires : (Json.int c.signingKeyExpiresAt).Short) :
    (Json.obj (trust.manifestPayload cr c (pyInt now))).Short := by
  have hsafe {n : Nat} (h : n ≤ 2 ^ 31 - 1) : (Json.int n).Short :=
    Json.length_toDigits_of_safe (show (n : Int).natAbs < 2 ^ 53 by omega)
  have hversion := (c.bounded_le "network_root_version" c.networkRootVersion 0 (2 ^ 31 - 1)
    (by simp [ConfigFields.bounded])).2
  have hrollback := (c.bounded_le "network_root_rollback_version" c.networkRootRollbackVersion 0
    (2 ^ 31 - 1) (by simp [ConfigFields.bounded])).2
  have hpos : 0 ≤ pyInt now := by
    rw [pyInt_of_nonneg hnow.1]
    exact Int.floor_nonneg.mpr hnow.1
  have httl := manifestTtlSeconds_le c.toConfig
  have hprotocols : Json.ShortItems (c.protocols.map .str) := by
    induction c.protocols with
    | nil => trivial
    | cons protocol rest ih => exact ⟨trivial, ih⟩
  have hendpoints : (Json.obj c.endpoints).Short := by
    unfold AdvertisedConfig.endpoints
    cases c.advertiseV2 <;> cases c.nodeMeshEnabled <;>
      simp [Json.Short, Json.ShortMembers]
  exact ⟨trivial, trivial, trivial, hsafe hversion, hsafe hrollback, hprotocols, hendpoints, trivial,
    trivial, ⟨hactivates, hexpires, trivial⟩, length_toDigits_time hnow hpos (by omega),
    length_toDigits_time hnow (by omega) (by omega), trivial⟩

/-- A call returns a manifest, whatever the time of the day, if the times of the
key can be written at all. -/
theorem manifest_of_reading {now : Seconds} (hnow : IsReading now)
    (hactivates : (Json.int c.signingKeyActivatesAt).Short)
    (hexpires : (Json.int c.signingKeyExpiresAt).Short) (cached : Option Payload)
    (pair : EcdsaPair) : ∃ signed, trust.manifest cr c cached now pair = some signed := by
  unfold NodeTrust.manifest
  split
  · next signed _ => exact ⟨signed, rfl⟩
  · exact ⟨_, signObject?_eq_some.mpr ⟨short_manifestPayload hnow hactivates hexpires, rfl⟩⟩

/-- In a run whose calls of `manifest` do not go back in time, each call returned
a manifest that was issued no later than the call and has sixty seconds left,
by the whole seconds both ends count in. Its hello, under an identifier, can be
read from the text it travels as, and what is read of it, under whatever limits,
authenticates the node at every peer that trusts it with its key's pin and is
configured for the same network root, dialled or dialling, exactly at the
readings of the peer's clock in the manifest's time and in the key's. -/
theorem manifest_hello_round_trip {key : SigningKey} {s : Signer}
    (hs : ((signingSystem cr key c).restrict Signer.inOrder).Reachable s) :
    (∀ now pair, IsReading now → (Json.int c.signingKeyActivatesAt).Short →
      (Json.int c.signingKeyExpiresAt).Short →
        ∃ signed, key.manifest cr c s.cached now pair = some signed) ∧
    ∀ call ∈ s.manifests, ∃ issuedAt expiresAt,
      (Payload.get call.2 "payload").get? "issuedAt" = some (.int issuedAt) ∧
      (Payload.get call.2 "payload").get? "expiresAt" = some (.int expiresAt) ∧
      issuedAt ≤ pyInt call.1 ∧ pyInt call.1 + 60 ≤ expiresAt ∧
      ∀ id : String, 1 ≤ id.length ∧ id.length ≤ 64 →
        (∃ limits received,
          loadsStrict limits ((NodeMessage.nodeHello (.obj call.2)).toJson id).canonical =
            .ok received) ∧
        ∀ limits received,
          loadsStrict limits ((NodeMessage.nodeHello (.obj call.2)).toJson id).canonical =
              .ok received →
            ∀ p, PinnedBy cr key.toNodeTrust c.toConfig p →
              ∀ expected, expected = none ∨ expected = p.trustedNode? c.nodeId → ∀ clock,
                (p.authenticateHello cr clock expected received = .ok (some c.nodeId) ↔
                  (issuedAt ≤ pyInt clock ∧ pyInt clock ≤ expiresAt) ∧
                    c.signingKeyActivatesAt ≤ pyInt clock ∧
                      pyInt clock ≤ c.signingKeyExpiresAt) := by
  refine ⟨fun now pair hnow hactivates hexpires =>
    manifest_of_reading hnow hactivates hexpires s.cached pair, fun call hcall => ?_⟩
  obtain ⟨issuedAt, hlasting⟩ := Signer.punctual_of_reachable hs call hcall
  have hplain := hlasting.signed.plain (plain_manifestPayload hlasting.signed.short)
  obtain ⟨pair, -, hobject⟩ := hlasting.signed.pair
  have hpayload : Payload.get call.2 "payload" =
      .obj (key.manifestPayload cr c issuedAt) := by
    rw [hobject]
    rfl
  refine ⟨issuedAt, issuedAt + c.manifestTtlSeconds, ?_, ?_, hlasting.begun, hlasting.lasts,
    fun id hid => ⟨?_, fun limits received hloads p hp expected hexpected clock => ?_⟩⟩
  · rw [hpayload]
    rfl
  · rw [hpayload]
    rfl
  · obtain ⟨limits, hlimits⟩ := exists_sufficient ((NodeMessage.nodeHello (.obj call.2)).toJson id)
    exact ⟨limits, _, (loadsStrict_canonical_iff (plain_hello hplain)).mpr ⟨hlimits, rfl⟩⟩
  · obtain ⟨payload, manifest, hmessage, hmanifest, halike⟩ := hello_read hplain hid hloads
    exact authenticateHello_read key.raw_ne_nil hlasting.signed hp hexpected hmessage hmanifest halike

namespace Sample

/-- A peer with the node's pin. -/
def peerFields : ConfigFields := { nodeId := "peer" }

theorem nonempty_pinned : ∀ node ∈ ({"particle-node-local"} : Finset String), node ≠ "" := by
  decide

theorem card_pinned : ({"particle-node-local"} : Finset String).card ≤ 7 := by decide

def pinnedPeer : PinnedConfig where
  toConfig := ⟨peerFields, by decide +kernel⟩
  trusted := {"particle-node-local"}
  trusted_nonempty := nonempty_pinned
  trusted_card_le := card_pinned
  local_notMem := by decide
  serverKeyPin _ := hexdigest (lengthCrypto.sha256 nodeKey.publicKeyRaw)
  pins_lowerHex _ _ := isLowerHexText_hexdigest _

theorem pinnedBy_pinnedPeer :
    PinnedBy signingCrypto nodeKey.toNodeTrust advertised.toConfig pinnedPeer where
  trusted := by decide
  pin := rfl
  rootId := rfl
  rootVersion := rfl
  rollbackVersion := rfl

end Sample

/-- The hello with the manifest of 100 is accepted from 100 to 3700, by a peer
that is dialled and by one that dials, and not a second later. -/
theorem manifest_hello_round_trip_once :
    ∃ limits received,
      loadsStrict limits ((NodeMessage.nodeHello (.obj Sample.manifestObject)).toJson "1").canonical =
        .ok received ∧
      Sample.pinnedPeer.authenticateHello Sample.signingCrypto 100 none received =
        .ok (some "particle-node-local") ∧
      Sample.pinnedPeer.authenticateHello Sample.signingCrypto 3700
        (Sample.pinnedPeer.trustedNode? "particle-node-local") received =
          .ok (some "particle-node-local") ∧
      Sample.pinnedPeer.authenticateHello Sample.signingCrypto 3701 none received ≠
        .ok (some "particle-node-local") := by
  obtain ⟨-, hcalls⟩ := manifest_hello_round_trip Sample.reachable_granted
  obtain ⟨issuedAt, expiresAt, hissued, hexpires, -, -, hhello⟩ := hcalls _ List.mem_cons_self
  have hissued : some (Json.int (pyInt 100)) = some (.int issuedAt) := hissued
  have hexpires : some (Json.int (pyInt 100 + 3600)) = some (.int expiresAt) := hexpires
  cases hissued
  cases hexpires
  obtain ⟨⟨limits, received, hloads⟩, haccepted⟩ := hhello "1" (by decide)
  have hpeer := haccepted limits received hloads _ Sample.pinnedBy_pinnedPeer
  refine ⟨limits, received, hloads, (hpeer none (.inl rfl) 100).mpr ?_,
    (hpeer _ (.inr rfl) 3700).mpr ?_, fun h => ?_⟩
  · decide +kernel
  · decide +kernel
  · have htime := (hpeer none (.inl rfl) 3701).mp h
    revert htime
    decide +kernel

end Masterserver
