import Masterserver.Proofs.CanonicalBytes
import Masterserver.Runs.Signing

/-!
# What a node signed, and what others read of it

A signed object reaches its reader as text, with its members in an order of
their own. The reader finds the same fields (`Alike`), and the payload it finds
has the same canonical bytes, so it verifies what was signed.

`Signer.Sound` says of a run what was handed out: each manifest and each grant
is signed, over a payload that was put together at one reading of the clock.
-/

namespace Masterserver

open Lib Protocol

variable {cr : Crypto} {trust : NodeTrust} {c : AdvertisedConfig}

/-! ## Fields in another order -/

theorem Payload.get_eq {payload : Payload} {name : String} {v : Json} (h : v ≠ .null) :
    payload.get name = v ↔ payload.lookup name = some v := by
  unfold Payload.get
  cases payload.lookup name with
  | none => simpa using h.symm
  | some w => simp

theorem Payload.get_eq_str {payload : Payload} {name s : String} :
    payload.get name = .str s ↔ payload.lookup name = some (.str s) := Payload.get_eq nofun

theorem Payload.get_eq_int {payload : Payload} {name : String} {n : Int} :
    payload.get name = .int n ↔ payload.lookup name = some (.int n) := Payload.get_eq nofun

theorem Payload.get_eq_obj {payload : Payload} {name : String} {members : Payload} :
    payload.get name = .obj members ↔ payload.lookup name = some (.obj members) :=
  Payload.get_eq nofun

/-- The members of the one are those of the other, up to the order of members at
any depth. -/
structure Alike (sent received : Payload) : Prop where
  sorted : (Json.obj sent).sortKeys = (Json.obj received).sortKeys
  nodup : (sent.map Prod.fst).Nodup

namespace Alike

variable {sent received : Payload} {name : String}

theorem symm (h : Alike sent received) : Alike received sent :=
  ⟨h.sorted.symm, (Json.names_of_sortKeys_eq h.sorted).nodup_iff.mp h.nodup⟩

theorem sortKeys_get (h : Alike sent received) (name : String) :
    (received.get name).sortKeys = (sent.get name).sortKeys := by
  have hgetD (v : Option Json) : (v.getD .null).sortKeys = (v.map Json.sortKeys).getD .null := by
    cases v <;> rfl
  rw [Payload.get, Payload.get, hgetD, hgetD, Json.lookup_of_sortKeys_eq h.sorted h.nodup]

theorem get_str (h : Alike sent received) {s : String} (hs : sent.get name = .str s) :
    received.get name = .str s := by
  rw [← Json.sortKeys_eq_str, h.sortKeys_get, hs]
  rfl

theorem get_int (h : Alike sent received) {n : Int} (hn : sent.get name = .int n) :
    received.get name = .int n := by
  rw [← Json.sortKeys_eq_int, h.sortKeys_get, hn]
  rfl

theorem get_obj (h : Alike sent received) {inner : Payload} (hinner : sent.get name = .obj inner)
    (hnodup : (inner.map Prod.fst).Nodup) :
    ∃ inner' : Payload, received.get name = .obj inner' ∧ Alike inner inner' := by
  have hsorted := h.sortKeys_get name
  rw [hinner] at hsorted
  obtain ⟨inner', hinner'⟩ := Json.exists_of_sortKeys_eq_obj (hsorted.trans (Json.sortKeys_obj _))
  rw [hinner'] at hsorted
  exact ⟨inner', hinner', hsorted.symm, hnodup⟩

theorem hasExactly (h : Alike sent received) {names : List String}
    (hnames : sent.hasExactly names = true) : received.hasExactly names = true :=
  hasExactly_iff.mpr ((Json.names_of_sortKeys_eq h.sorted).symm.trans (hasExactly_iff.mp hnames))

theorem canonicalJsonBytes_eq (h : Alike sent received) :
    canonicalJsonBytes (.obj sent) = canonicalJsonBytes (.obj received) :=
  congrArg (List.flatMap String.utf8EncodeChar) (congrArg Json.dumps h.sorted)

end Alike

theorem alike_of_reordered {sent received : Payload} (h : (Json.obj sent).Reordered (.obj received))
    (hplain : (Json.obj sent).Plain) : Alike sent received :=
  ⟨h.sortKeys_eq hplain, hplain.1⟩

/-- What is read from a canonical text. -/
theorem alike_of_loads {limits : JsonLimits} {sent : Payload} {data : Json}
    (hplain : (Json.obj sent).Plain)
    (h : loadsStrict limits (Json.obj sent).canonical = .ok data) :
    ∃ received, data = .obj received ∧ Alike sent received := by
  have hdata := loadsStrict_canonical hplain h
  rw [Json.sortKeys_obj] at hdata
  refine ⟨_, hdata, ?_, hplain.1⟩
  rw [← Json.sortKeys_obj, Json.sortKeys_sortKeys]

/-! ## Signatures -/

theorem fromBytesBig_toBytesBig (length n : Nat) :
    fromBytesBig (toBytesBig length n) = n % 256 ^ length := by
  induction length generalizing n with
  | zero => simp [toBytesBig, fromBytesBig, Nat.mod_one]
  | succ length ih =>
      have hstep : fromBytesBig (toBytesBig (length + 1) n) =
          256 * fromBytesBig (toBytesBig length (n / 256)) + n % 256 := by
        unfold fromBytesBig
        rw [toBytesBig, List.foldl_append]
        show _ + (UInt8.ofNat (n % 256)).toNat = _
        rw [UInt8.toNat_ofNat_of_lt' (Nat.mod_lt _ (by decide))]
      rw [hstep, ih, Nat.pow_succ', Nat.mod_mul, Nat.add_comm]

theorem length_toBytesBig (length n : Nat) : (toBytesBig length n).length = length := by
  induction length generalizing n with
  | zero => rfl
  | succ length ih => rw [toBytesBig, List.length_append, ih, List.length_singleton]

theorem length_rawSignature (pair : EcdsaPair) : (rawSignature pair).length = 64 := by
  rw [rawSignature, List.length_append, length_toBytesBig, length_toBytesBig]

/-- The numbers are read back from the bytes of a signature. -/
theorem verifySignature_rawSignature {key : Bytes} (hkey : key ≠ []) (message : Bytes)
    (pair : EcdsaPair) :
    verifySignature cr (some key) message (rawSignature pair) =
      cr.ecdsaVerify key message pair.1.val pair.2.val := by
  have hempty : key.isEmpty = false := by
    rw [List.isEmpty_eq_false_iff]
    exact hkey
  have hnumber (n : Fin (2 ^ 256)) : fromBytesBig (toBytesBig 32 n.val) = n.val := by
    rw [fromBytesBig_toBytesBig, show 256 ^ 32 = 2 ^ 256 by decide, Nat.mod_eq_of_lt n.isLt]
  have hfirst : (rawSignature pair).take 32 = toBytesBig 32 pair.1.val :=
    List.take_left' (length_toBytesBig 32 _)
  have hsecond : (rawSignature pair).drop 32 = toBytesBig 32 pair.2.val :=
    List.drop_left' (length_toBytesBig 32 _)
  simp only [verifySignature]
  rw [hempty, length_rawSignature, hfirst, hsecond, hnumber, hnumber]
  rfl

/-! ## What is signed -/

theorem nodup_endpoints (c : AdvertisedConfig) : (c.endpoints.map Prod.fst).Nodup := by
  unfold AdvertisedConfig.endpoints
  cases c.advertiseV2 <;> cases c.nodeMeshEnabled <;> simp

theorem plain_endpoints (c : AdvertisedConfig) : (Json.obj c.endpoints).Plain := by
  refine Json.plain_obj_iff.mpr ⟨nodup_endpoints c, ?_⟩
  unfold AdvertisedConfig.endpoints
  cases c.advertiseV2 <;> cases c.nodeMeshEnabled <;> simp [Json.Plain]

theorem plain_manifestPayload {issuedAt : Int}
    (h : (Json.obj (trust.manifestPayload cr c issuedAt)).Short) :
    (Json.obj (trust.manifestPayload cr c issuedAt)).Plain := by
  obtain ⟨-, -, -, hversion, hrollback, -, -, -, -, ⟨hactivates, hkeyExpires, -⟩, hissued, hexpires,
    -⟩ := h
  have hnames : manifestFields.Nodup := by decide
  have hprotocols : (Json.arr (c.protocols.map .str)).Plain := by
    refine Json.plainItems_iff.mpr fun v hv => ?_
    obtain ⟨text, -, rfl⟩ := List.mem_map.mp hv
    trivial
  have hvalidity : ["activatesAt", "expiresAt"].Nodup := by decide
  exact ⟨hnames, trivial, trivial, trivial, hversion, hrollback, hprotocols, plain_endpoints c,
    trivial, trivial, ⟨hvalidity, hactivates, hkeyExpires, trivial⟩, hissued, hexpires, trivial⟩

theorem SigningKey.raw_ne_nil (key : SigningKey) : key.publicKeyRaw ≠ [] := by
  intro hnil
  have hlength := key.raw_length
  rw [hnil] at hlength
  cases hlength

/-- The object is a payload with a signature over it. -/
structure SignedWith (cr : Crypto) (trust : NodeTrust) (payload object : Payload) : Prop where
  short : (Json.obj payload).Short
  pair : ∃ pair, Signer.Signs cr trust pair payload ∧
    object = trust.signObject cr payload (rawSignature pair)

theorem signObject?_eq_some {payload object : Payload} {pair : EcdsaPair} :
    trust.signObject? cr payload pair = some object ↔
      (Json.obj payload).Short ∧ object = trust.signObject cr payload (rawSignature pair) := by
  unfold NodeTrust.signObject?
  split
  · next h => simp [h, eq_comm]
  · next h => simp [h]

/-- Of a signed object a reader finds the three fields. -/
theorem SignedWith.read {payload object received : Payload} (h : SignedWith cr trust payload object)
    (hnodup : (payload.map Prod.fst).Nodup) (halike : Alike object received) :
    ∃ pair payload', Alike payload payload' ∧
      received.hasExactly ["payload", "keyId", "signatureHex"] = true ∧
      received.get "payload" = .obj payload' ∧
      received.get "keyId" = .str (hexdigest (cr.sha256 trust.publicKeyRaw)) ∧
      received.get "signatureHex" = .str (hex (rawSignature pair)) ∧
      Signer.Signs cr trust pair payload' := by
  obtain ⟨-, pair, hsigns, rfl⟩ := h
  have hpayload : Payload.get (trust.signObject cr payload (rawSignature pair)) "payload" =
      .obj payload := rfl
  obtain ⟨payload', hpayload', halike'⟩ := halike.get_obj hpayload hnodup
  refine ⟨pair, payload', halike', halike.hasExactly ?_, hpayload', halike.get_str rfl,
    halike.get_str rfl, ?_⟩
  · exact hasExactly_iff.mpr (List.Perm.refl _)
  · unfold Signer.Signs at hsigns ⊢
    rw [← halike'.canonicalJsonBytes_eq]
    exact hsigns

/-! ## Runs -/

/-- What a call of `manifest` returns: what is kept, or the payload of now with
a signature over it. -/
theorem manifest_cases {cached : Option Payload} {now : Seconds} {pair : EcdsaPair}
    {signed : Payload} (h : trust.manifest cr c cached now pair = some signed)
    (hsigns : NodeTrust.keptManifest cached now = none →
      Signer.Signs cr trust pair (trust.manifestPayload cr c (pyInt now))) :
    NodeTrust.keptManifest cached now = some signed ∨
      SignedWith cr trust (trust.manifestPayload cr c (pyInt now)) signed := by
  unfold NodeTrust.manifest at h
  split at h
  · next kept hkept =>
      cases h
      exact .inl hkept
  · next hnone =>
      obtain ⟨hshort, hobject⟩ := signObject?_eq_some.mp h
      exact .inr ⟨hshort, pair, hsigns hnone, hobject⟩

theorem keptManifest_eq_some {cached : Option Payload} {now : Seconds} {signed : Payload} :
    NodeTrust.keptManifest cached now = some signed ↔
      cached = some signed ∧ ∃ expiresAt, manifestExpiry signed = some expiresAt ∧
        pyInt now < expiresAt - 60 := by
  unfold NodeTrust.keptManifest
  rw [Option.filter_eq_some_iff, Option.any_eq_true]
  simp

theorem issueAdmission_eq_some {c : Config} {publicKeyHex nonce : String} {now : Seconds}
    {pair : EcdsaPair} {object : Payload} :
    trust.issueAdmission cr c publicKeyHex nonce now pair = some object ↔
      ∃ key, fromHex publicKeyHex = some key ∧
        trust.signObject? cr (NodeTrust.admissionClaims cr c key nonce (pyInt now)) pair =
          some object := by
  unfold NodeTrust.issueAdmission
  rw [Option.bind_eq_bind, Option.bind_eq_some_iff]

/-- The manifest was put together at some reading of the clock. -/
def IsManifest (cr : Crypto) (trust : NodeTrust) (c : AdvertisedConfig) (signed : Payload) : Prop :=
  ∃ issuedAt, SignedWith cr trust (trust.manifestPayload cr c issuedAt) signed

/-- The grant is for the key and the nonce, from the reading of the clock on. -/
def IssuedGrant.IsSigned (cr : Crypto) (trust : NodeTrust) (c : Config) (grant : IssuedGrant) :
    Prop :=
  ∃ key, fromHex grant.publicKeyHex = some key ∧
    SignedWith cr trust (NodeTrust.admissionClaims cr c key grant.nonce (pyInt grant.now))
      grant.object

namespace Signer

variable {s : Signer}

structure Sound (cr : Crypto) (trust : NodeTrust) (c : AdvertisedConfig) (s : Signer) : Prop where
  cached : ∀ signed, s.cached = some signed → ∃ now, (now, signed) ∈ s.manifests
  manifests : ∀ call ∈ s.manifests, IsManifest cr trust c call.2
  grants : ∀ grant ∈ s.grants, grant.IsSigned cr trust c.toConfig

theorem Sound.callManifest {now : Seconds} {pair : EcdsaPair} (h : Sound cr trust c s)
    (hsigns : s.signsManifest cr trust c now pair) :
    Sound cr trust c (s.callManifest cr trust c now pair) := by
  unfold Signer.callManifest
  split
  · exact h
  · next signed hsigned =>
      have hmanifest : IsManifest cr trust c signed := by
        rcases manifest_cases hsigned hsigns with hkept | hfresh
        · obtain ⟨hcached, -⟩ := keptManifest_eq_some.mp hkept
          obtain ⟨earlier, hmem⟩ := h.cached signed hcached
          exact h.manifests _ hmem
        · exact ⟨_, hfresh⟩
      refine ⟨fun signed' hcached => ?_, List.forall_mem_append.mpr ⟨h.manifests, ?_⟩, h.grants⟩
      · cases hcached
        exact ⟨now, List.mem_append_right _ List.mem_cons_self⟩
      · intro call hcall
        rw [List.mem_singleton.mp hcall]
        exact hmanifest

theorem Sound.callGrant {now : Seconds} {publicKeyHex nonce : String} {pair : EcdsaPair}
    (h : Sound cr trust c s) (hsigns : signsGrant cr trust c now publicKeyHex nonce pair) :
    Sound cr trust c (s.callGrant cr trust c now publicKeyHex nonce pair) := by
  unfold Signer.callGrant
  split
  · exact h
  · next object hobject =>
      obtain ⟨key, hkey, hsigned⟩ := issueAdmission_eq_some.mp hobject
      obtain ⟨hshort, hsigned⟩ := signObject?_eq_some.mp hsigned
      refine ⟨h.cached, h.manifests, List.forall_mem_append.mpr ⟨h.grants, ?_⟩⟩
      intro grant hgrant
      rw [List.mem_singleton.mp hgrant]
      exact ⟨key, hkey, hshort, pair, hsigns key hkey, hsigned⟩

theorem Sound.after {e : SignerEvent} (h : Sound cr trust c s) (hallowed : s.allowed cr trust c e) :
    Sound cr trust c (s.after cr trust c e) := by
  obtain ⟨now, op⟩ := e
  cases op with
  | manifest pair => exact h.callManifest hallowed
  | grant publicKeyHex nonce pair => exact h.callGrant hallowed
  | admission body later manifestPair grantPair =>
      unfold Signer.after
      dsimp only
      split
      · exact h
      · next publicKeyHex nonce hrequest =>
          obtain ⟨hmanifest, hgrant⟩ := hallowed _ hrequest
          exact (h.callManifest hmanifest).callGrant hgrant

theorem sound_of_reachable {key : SigningKey} (hs : (signingSystem cr key c).Reachable s) :
    Sound cr key.toNodeTrust c s := by
  refine hs.invariant ?_ ?_
  · intro s hinit
    cases hinit
    exact ⟨nofun, nofun, nofun⟩
  · intro s e s' h hstep
    obtain ⟨hallowed, hstep⟩ := hstep
    cases hstep
    exact h.after hallowed

end Signer

end Masterserver
