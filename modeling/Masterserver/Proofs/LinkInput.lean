import Masterserver.App.NodeHello
import Masterserver.Proofs.Validation
import Masterserver.Runs.Server

/-!
# What the input of a node link can raise

The handlers of a node link look a value up before they know its type. A list
or an object cannot be looked up in a set or a dictionary; what is no object
has no `get`; what is no number cannot be compared with the clock. Neither the
accept path nor the receive loop catches the errors of these three.

`TrapsEnvelope`, `TrapsHello` and `TrapsMessage` say where they can happen: in
the type of a message, in the manifest of a hello, and in the identifier of an
answer or the envelope of a forwarded signal. `linkInput_completes_iff` says
that nothing else raises, whatever the state of the node.
-/

namespace Masterserver

open Lib Protocol

/-! ## The envelope -/

/-- A message with the fields of an envelope, all of their types. -/
structure IsNodeEnvelope (message : Json) (type id : String) (payload : Payload) : Prop where
  data : ∃ data, message = .obj data ∧
    Payload.hasExactly data ["protocol", "type", "id", "payload"] = true ∧
    Payload.get data "protocol" = .str node ∧ Payload.get data "type" = .str type ∧
    Payload.get data "id" = .str id ∧ Payload.get data "payload" = .obj payload
  type_mem : type ∈ nodeMessageTypes
  id_length : 1 ≤ id.length ∧ id.length ≤ 64

/-- A message that is a node envelope up to its type, which is not hashable. -/
def TrapsEnvelope (message : Json) : Prop :=
  ∃ data, message = .obj data ∧
    Payload.hasExactly data ["protocol", "type", "id", "payload"] = true ∧
    Payload.get data "protocol" = .str node ∧ Unhashable (Payload.get data "type")

theorem str?_eq_some {value : Json} {s : String} : value.str? = some s ↔ value = .str s := by
  cases value <;> simp [Json.str?]

theorem int?_eq_some {value : Json} {n : Int} : value.int? = some n ↔ value = .int n := by
  cases value <;> simp [Json.int?]

theorem validNodeEnvelope_error {message : Json} {e : Raised} :
    validNodeEnvelope message = .error e ↔ TrapsEnvelope message ∧ e = .typeError := by
  unfold validNodeEnvelope TrapsEnvelope
  cases message with
  | obj data =>
      simp only [Json.obj.injEq, ↓existsAndEq, true_and]
      split
      · next h =>
          rw [Bool.or_eq_true, Bool.not_eq_true', bne_iff_ne, Ne, str?_eq_some] at h
          constructor
          · nofun
          · rintro ⟨⟨hnames, hprotocol, -⟩, -⟩
            rcases h with h | h
            · rw [hnames] at h
              cases h
            · exact absurd hprotocol h
      · next h =>
          rw [Bool.or_eq_true, Bool.not_eq_true', bne_iff_ne, Ne, str?_eq_some, not_or,
            Bool.not_eq_false, not_not] at h
          rw [bind_eq_error, notIn_error]
          constructor
          · rintro (⟨htype, rfl⟩ | ⟨unknown, -, hrest⟩)
            · exact ⟨⟨h.1, h.2, htype⟩, rfl⟩
            · revert hrest
              split
              · split <;> nofun
              · nofun
          · intro ⟨⟨_, _, htype⟩, he⟩
            exact .inl ⟨htype, he⟩
  | _ => simp

theorem validNodeEnvelope_some {message : Json} {type id : String} {payload : Payload} :
    validNodeEnvelope message = .ok (some (type, id, payload)) ↔
      IsNodeEnvelope message type id payload := by
  constructor
  · intro h
    unfold validNodeEnvelope at h
    split at h
    · next data =>
        split at h
        · cases h
        · next hshape =>
            rw [Bool.or_eq_true, Bool.not_eq_true', bne_iff_ne, Ne, str?_eq_some, not_or,
              Bool.not_eq_false, not_not] at hshape
            obtain ⟨unknown, hunknown, hrest⟩ := bind_eq_ok.mp h
            split at hrest
            · next htype hid hpayload =>
                split at hrest
                · next hlength =>
                    cases hrest
                    obtain ⟨-, hmem⟩ := notIn_ok.mp hunknown
                    obtain ⟨name, hname, heq⟩ := hmem.mp rfl
                    rw [htype] at heq
                    cases heq
                    exact ⟨⟨data, rfl, hshape.1, hshape.2, htype, hid, hpayload⟩, hname, hlength⟩
                · cases hrest
            · cases hrest
    · cases h
  · rintro ⟨⟨data, rfl, hnames, hprotocol, htype, hid, hpayload⟩, hmem, hlength⟩
    simp [validNodeEnvelope, hnames, hprotocol, htype, hid, hpayload, Json.str?, notIn, hmem,
      hlength, bind, Except.bind]

/-! ## The hello -/

/-- No object, and yet it counts as true. -/
def Unreadable (value : Json) : Prop := value.truthy = true ∧ ∀ members, value ≠ .obj members

theorem getOrEmpty_error {value : Json} {name : String} {e : Uncaught} :
    getOrEmpty value name = .error e ↔ Unreadable value ∧ e = .attributeError := by
  unfold getOrEmpty Unreadable
  split
  · simp
  · next hobj =>
      split
      · next h => simpa [h, eq_comm] using fun _ => hobj
      · next h => simp [h]

/-- What `(value or {}).get(name)` returns. -/
def fieldOf (value : Json) (name : String) : Json := (value.get? name).getD .null

theorem getOrEmpty_ok {value inner : Json} {name : String} :
    getOrEmpty value name = .ok inner ↔ ¬Unreadable value ∧ fieldOf value name = inner := by
  unfold getOrEmpty Unreadable fieldOf
  split
  · simp [Json.get?, Payload.get]
  · next hobj =>
      have hget : value.get? name = none := by
        cases value with
        | obj members => exact absurd rfl (hobj members)
        | _ => rfl
      split
      · next h =>
          simp only [h, true_and, not_forall, not_not, reduceCtorEq, false_iff, not_and,
            forall_exists_index]
          exact fun members hm => absurd hm (hobj members)
      · next h => simp [h, hget]

/-- A manifest signed with the key a pin is the digest of, in force at a
reading of the clock. -/
structure SignedManifest (cr : Crypto) (now : Seconds) (pin : String) (manifest : Json)
    (payload : Payload) (rawKey signature : Bytes) : Prop where
  fields : ∃ members, manifest = .obj members ∧
    Payload.hasExactly members ["payload", "keyId", "signatureHex"] = true ∧
    Payload.get members "payload" = .obj payload ∧
    (Payload.get members "signatureHex").str?.bind fromHex = some signature ∧
    Payload.get members "keyId" = .str (hexdigest (cr.sha256 rawKey))
  payloadFields : Payload.hasExactly payload manifestFields = true
  key : (payload.get "signingPublicKeyHex").str?.bind fromHex = some rawKey
  pinned : hexdigest (cr.sha256 rawKey) = pin.toLower
  keyId : payload.get "signingKeyId" = .str (hexdigest (cr.sha256 rawKey))
  format : payload.get "format" = .str "particle-node-manifest/2"
  active : ∃ activatesAt expiresAt,
    ((payload.get "signingKeyValidity").get? "activatesAt").bind Json.int? = some activatesAt ∧
      ((payload.get "signingKeyValidity").get? "expiresAt").bind Json.int? = some expiresAt ∧
      activatesAt ≤ pyInt now ∧ pyInt now ≤ expiresAt
  signed : verifySignature cr (some rawKey) (canonicalJsonBytes (.obj payload)) signature = true

variable {p : PinnedConfig} {cr : Crypto} {now : Seconds} {expected : Option TrustedNode}

theorem parseSignedManifest_some {manifest : Json} {pin : String} {payload : Payload} :
    parseSignedManifest cr now manifest pin = some payload ↔
      ∃ rawKey signature, SignedManifest cr now pin manifest payload rawKey signature := by
  constructor
  · intro h
    unfold parseSignedManifest at h
    split at h
    · next members =>
        split at h
        · cases h
        · next hfields =>
            split at h
            · next payload' hpayload =>
                split at h
                · cases h
                · next hnames =>
                    split at h
                    · next rawKey signature activatesAt expiresAt hkey hsignature hactivates
                        hexpires =>
                        dsimp only at h
                        split at h
                        · next hvalid =>
                            cases h
                            simp only [Bool.and_eq_true, beq_iff_eq, str?_eq_some] at hvalid
                            obtain ⟨⟨⟨⟨⟨hpin, hkeyId⟩, hsigning⟩, hformat⟩, hactive⟩, hverify⟩ :=
                              hvalid
                            refine ⟨rawKey, signature, ⟨members, rfl, by simpa using hfields,
                              hpayload, hsignature, hkeyId⟩, by simpa using hnames, hkey, hpin,
                              hsigning, hformat, ?_, hverify⟩
                            unfold keyActive at hactive
                            split at hactive
                            · next hactivates' hexpires' =>
                                rw [hactivates, hexpires]
                                exact ⟨_, _, hactivates', hexpires', of_decide_eq_true hactive⟩
                            · cases hactive
                        · cases h
                    · cases h
            · cases h
    · cases h
  · rintro ⟨rawKey, signature, ⟨members, rfl, hfields, hpayload, hsignature, hkeyId⟩, hnames, hkey,
      hpin, hsigning, hformat, ⟨activatesAt, expiresAt, hactivates, hexpires, hactive⟩, hverify⟩
    obtain ⟨activates, hgetActivates, hactivates⟩ := Option.bind_eq_some_iff.mp hactivates
    obtain ⟨expires, hgetExpires, hexpires⟩ := Option.bind_eq_some_iff.mp hexpires
    simp only [parseSignedManifest, hfields, hpayload, hnames, hkey, hsignature, hgetActivates,
      hgetExpires, str?_eq_some.mpr hkeyId, str?_eq_some.mpr hsigning, str?_eq_some.mpr hformat,
      hverify]
    simp [hpin, keyActive, hactivates, hexpires, hactive]

/-- A time of the payload that is no number is compared with the clock. -/
def MisTimed (now : Seconds) (payload : Payload) : Prop :=
  (payload.get "issuedAt").number? = none ∨
    (∃ issuedAt, (payload.get "issuedAt").number? = some issuedAt ∧
      issuedAt ≤ (((pyInt now : ℚ)) : WithTop ℚ)) ∧
      (payload.get "expiresAt").number? = none

theorem manifestCurrent_error {payload : Payload} {e : Uncaught} :
    PinnedConfig.manifestCurrent now payload = .error e ↔
      MisTimed now payload ∧ e = .typeError := by
  unfold PinnedConfig.manifestCurrent MisTimed
  rw [Json.number?_int]
  cases (payload.get "issuedAt").number? with
  | none => simp [compareNumbers, bind, Except.bind, eq_comm]
  | some issuedAt =>
      cases hexpires : (payload.get "expiresAt").number? <;>
        by_cases hle : issuedAt ≤ (((pyInt now : ℚ)) : WithTop ℚ) <;>
          simp [compareNumbers, bind, Except.bind, pure, Except.pure, hle, eq_comm]

/-- The node a hello has to come from. -/
def Awaited (p : PinnedConfig) (expected : Option TrustedNode) (node : TrustedNode) : Prop :=
  expected = some node ∨ expected = none ∧ p.trustedNode? node.nodeId = some node

/-- Where a manifest raises: it is no object, or its payload is none, though
they count as true; the node it names is not hashable; or it is the valid
manifest of the awaited node, and a time in it is no number. -/
inductive TrapsManifest (p : PinnedConfig) (cr : Crypto) (now : Seconds)
    (expected : Option TrustedNode) (manifest : Json) : Prop
  | manifest (h : Unreadable manifest)
  | payload (h : Unreadable (fieldOf manifest "payload"))
  | nodeId (hexpected : expected = none)
      (h : Unhashable (fieldOf (fieldOf manifest "payload") "nodeId"))
  | times {node : TrustedNode} {payload : Payload} {rawKey signature : Bytes}
      (hnode : Awaited p expected node)
      (hclaimed : fieldOf (fieldOf manifest "payload") "nodeId" = .str node.nodeId)
      (hsigned : SignedManifest cr now node.serverKeyPin manifest payload rawKey signature)
      (hroot : p.sameRoot payload = true) (h : MisTimed now payload)

/-- Where a hello raises. -/
def TrapsHello (p : PinnedConfig) (cr : Crypto) (now : Seconds) (expected : Option TrustedNode)
    (message : Json) : Prop :=
  TrapsEnvelope message ∨
    ∃ id payload, IsNodeEnvelope message "NODE_HELLO" id payload ∧
      TrapsManifest p cr now expected (payload.get "manifest")

theorem Unreadable.fieldOf {value : Json} (h : Unreadable value) (name : String) :
    fieldOf value name = .null := by
  cases value with
  | obj members => exact absurd rfl (h.2 members)
  | _ => rfl

theorem not_unreadable_null : ¬Unreadable .null := fun h => by
  cases h.1

/-- A manifest that names anything as its node is read without an error. -/
theorem readable_of_claimed {manifest : Json}
    (h : fieldOf (fieldOf manifest "payload") "nodeId" ≠ .null) :
    ¬Unreadable manifest ∧ ¬Unreadable (fieldOf manifest "payload") := by
  constructor
  · intro hm
    rw [hm.fieldOf] at h
    exact h rfl
  · intro hp
    exact h (hp.fieldOf _)

theorem nodeToTrust_error {claimedId : Json} {e : Uncaught} :
    p.nodeToTrust expected claimedId = .error e ↔
      expected = none ∧ Unhashable claimedId ∧ e = .typeError := by
  unfold PinnedConfig.nodeToTrust PinnedConfig.trustedGet Unhashable
  cases expected <;> cases claimedId <;> simp [eq_comm]

theorem nodeToTrust_some {node : TrustedNode} :
    p.nodeToTrust expected (.str node.nodeId) = .ok (some node) ↔ Awaited p expected node := by
  unfold PinnedConfig.nodeToTrust PinnedConfig.trustedGet Awaited
  cases expected <;> simp

theorem acceptManifest_error {manifest claimedId : Json} {trusted : Option TrustedNode}
    {e : Uncaught} :
    p.acceptManifest cr now manifest claimedId trusted = .error e ↔
      e = .typeError ∧ ∃ node payload rawKey signature, trusted = some node ∧
        claimedId = .str node.nodeId ∧
        SignedManifest cr now node.serverKeyPin manifest payload rawKey signature ∧
        p.sameRoot payload = true ∧ MisTimed now payload := by
  constructor
  · intro h
    unfold PinnedConfig.acceptManifest at h
    split at h
    · cases h
    · next node =>
        split at h
        · cases h
        · next hclaimed =>
            split at h
            · cases h
            · next payload hparse =>
                split at h
                · cases h
                · next hroot =>
                    rw [bind_eq_error, manifestCurrent_error] at h
                    rcases h with ⟨htimes, he⟩ | ⟨current, -, hpure⟩
                    · obtain ⟨rawKey, signature, hsigned⟩ := parseSignedManifest_some.mp hparse
                      rw [not_not, str?_eq_some] at hclaimed
                      exact ⟨he, node, payload, rawKey, signature, rfl, hclaimed, hsigned,
                        by simpa using hroot, htimes⟩
                    · cases hpure
  · rintro ⟨rfl, node, payload, rawKey, signature, rfl, rfl, hsigned, hroot, htimes⟩
    have hparse := parseSignedManifest_some.mpr ⟨rawKey, signature, hsigned⟩
    have hcurrent := manifestCurrent_error.mpr ⟨htimes, rfl⟩
    simp [PinnedConfig.acceptManifest, Json.str?, hparse, hroot, hcurrent, bind, Except.bind]

theorem authenticateHello_envelope {message : Json} {id : String} {payload : Payload}
    (h : IsNodeEnvelope message "NODE_HELLO" id payload) :
    p.authenticateHello cr now expected message = (do
      let claimedId ← getOrEmpty (← getOrEmpty (payload.get "manifest") "payload") "nodeId"
      let trusted ← p.nodeToTrust expected claimedId
      p.acceptManifest cr now (payload.get "manifest") claimedId trusted) := by
  unfold PinnedConfig.authenticateHello
  rw [validNodeEnvelope_some.mpr h]
  rfl

/-- Reading who a manifest is of, and what is made of it. -/
theorem readClaimed_error {α : Type} {manifest : Json} {f : Json → Except Uncaught α}
    {e : Uncaught} :
    (do let claimedId ← getOrEmpty (← getOrEmpty manifest "payload") "nodeId"; f claimedId) =
        .error e ↔
      (Unreadable manifest ∨ Unreadable (fieldOf manifest "payload")) ∧ e = .attributeError ∨
        ¬Unreadable manifest ∧ ¬Unreadable (fieldOf manifest "payload") ∧
          f (fieldOf (fieldOf manifest "payload") "nodeId") = .error e := by
  simp only [bind_eq_error, getOrEmpty_error, getOrEmpty_ok, and_assoc, ↓existsAndEq, true_and]
  by_cases hm : Unreadable manifest
  · have hp : ¬Unreadable (fieldOf manifest "payload") := by
      rw [hm.fieldOf]
      exact not_unreadable_null
    simp [hm]
  · simp [hm]

/-- A node envelope with a hello raises exactly where its manifest does. -/
theorem authenticateHello_trapsManifest {message : Json} {id : String} {payload : Payload}
    (h : IsNodeEnvelope message "NODE_HELLO" id payload) :
    (∃ e, p.authenticateHello cr now expected message = .error e) ↔
      TrapsManifest p cr now expected (payload.get "manifest") := by
  rw [authenticateHello_envelope h]
  generalize payload.get "manifest" = manifest
  simp only [readClaimed_error]
  simp only [bind_eq_error, nodeToTrust_error]
  constructor
  · rintro ⟨e, ⟨hm | hp, -⟩ | ⟨-, -, ⟨hexpected, hid, -⟩ | ⟨trusted, htrusted, he⟩⟩⟩
    · exact .manifest hm
    · exact .payload hp
    · exact .nodeId hexpected hid
    · obtain ⟨-, node, payload', rawKey, signature, rfl, hid, hsigned, hroot, htimes⟩ :=
        acceptManifest_error.mp he
      rw [hid] at htrusted
      exact .times (nodeToTrust_some.mp htrusted) hid hsigned hroot htimes
  · intro hm
    cases hm with
    | manifest hm => exact ⟨_, .inl ⟨.inl hm, rfl⟩⟩
    | payload hp => exact ⟨_, .inl ⟨.inr hp, rfl⟩⟩
    | nodeId hexpected hid =>
        obtain ⟨hm, hp⟩ := readable_of_claimed (by intro hnull; rw [hnull] at hid; exact hid)
        exact ⟨_, .inr ⟨hm, hp, .inl ⟨hexpected, hid, rfl⟩⟩⟩
    | times hnode hclaimed hsigned hroot htimes =>
        obtain ⟨hm, hp⟩ := readable_of_claimed (by rw [hclaimed]; nofun)
        refine ⟨_, .inr ⟨hm, hp, .inr ⟨_, ?_, acceptManifest_error.mpr
          ⟨rfl, _, _, _, _, rfl, hclaimed, hsigned, hroot, htimes⟩⟩⟩⟩
        rw [hclaimed]
        exact nodeToTrust_some.mpr hnode

theorem authenticateHello_traps {message : Json} :
    (∃ e, p.authenticateHello cr now expected message = .error e) ↔
      TrapsHello p cr now expected message := by
  constructor
  · rintro ⟨e, he⟩
    cases henvelope : validNodeEnvelope message with
    | error r => exact .inl (validNodeEnvelope_error.mp henvelope).1
    | ok parts =>
        rcases parts with - | ⟨type, id, payload⟩
        · rw [PinnedConfig.authenticateHello, henvelope] at he
          cases he
        · have hmessage := validNodeEnvelope_some.mp henvelope
          by_cases htype : type = "NODE_HELLO"
          · rw [htype] at hmessage
            exact .inr ⟨id, payload, hmessage, (authenticateHello_trapsManifest hmessage).mp ⟨e, he⟩⟩
          · rw [PinnedConfig.authenticateHello, henvelope] at he
            simp [htype] at he
  · rintro (h | ⟨id, payload, hmessage, hm⟩)
    · have henvelope := validNodeEnvelope_error.mpr ⟨h, rfl⟩
      exact ⟨.typeError, by rw [PinnedConfig.authenticateHello, henvelope]⟩
    · exact (authenticateHello_trapsManifest hmessage).mpr hm

/-! ## The other messages -/

/-- Where a message of a peer raises: in the identifier an answer refers to,
and in the envelope of a forwarded signal. -/
def TrapsMessage (type : String) (payload : Payload) : Prop :=
  type = "ROUTE_RESULT" ∧ Unhashable (payload.get "queryId") ∨
    type = "SIGNAL_FORWARD" ∧ UnhashableEnvelope (payload.get "envelope") ∨
    type = "ACK" ∧ Unhashable (payload.get "requestId")

variable {m : MeshConfig}

theorem requestKey_eq_none {value : Json} :
    NodeMesh.requestKey value = none ↔ Unhashable value := by
  cases value <;> simp [NodeMesh.requestKey, Unhashable]

theorem handleRouteResult_eq_none {mesh : NodeMesh} {payload : Payload} :
    mesh.handleRouteResult m now payload = none ↔ Unhashable (payload.get "queryId") := by
  unfold NodeMesh.handleRouteResult
  rw [← requestKey_eq_none]
  split
  · next h => exact iff_of_true rfl h
  · next h => simp [h]
  · next h => simp [h]

theorem handleAck_eq_none {mesh : NodeMesh} {payload : Payload} :
    mesh.handleAck payload = none ↔ Unhashable (payload.get "requestId") := by
  unfold NodeMesh.handleAck
  rw [← requestKey_eq_none]
  split
  · next h => exact iff_of_true rfl h
  · next h => simp [h]
  · next h => simp [h]

namespace Server

variable {server : Server} {clocks : Clocks} {nodeId : String} {link : Nat}

theorem validForward_eq_none {payload : Payload} :
    validForward payload = none ↔ UnhashableEnvelope (payload.get "envelope") := by
  have hraises := not_iff_not.mp
    (raises_answered_iff.symm.trans (@validateV2Message_answered (payload.get "envelope")))
  rw [← hraises]
  unfold validForward
  split
  · next envelope henvelope =>
      rw [henvelope]
      split
      · next h => simp [h]
      · next h => simp [h]
      · next h => simp [h]
      · next h => simp [h]
  · next hobj =>
      cases henvelope : payload.get "envelope" with
      | obj envelope => exact absurd henvelope (hobj envelope)
      | _ => simp [validateV2Message, validateEnvelope, fail, bind, Except.bind]

theorem handleSignalForward_eq_none {payload : Payload} :
    server.handleSignalForward m clocks link payload = none ↔
      UnhashableEnvelope (payload.get "envelope") := by
  unfold handleSignalForward
  rw [← validForward_eq_none]
  split
  · next h => exact iff_of_true rfl h
  · next h =>
      dsimp only
      split
      · split <;> simp [h]
      · simp [h]

theorem handleMessage_eq_none {type : String} {payload : Payload} :
    server.handleMessage m cr clocks nodeId link type payload = none ↔
      TrapsMessage type payload := by
  unfold handleMessage TrapsMessage
  split
  · next h => simp [h]
  split
  · next h => simp [h]
  split
  · next h => simp [h]
  split
  · next h => simp [h, handleRouteResult_eq_none]
  split
  · next h => simp [h, handleSignalForward_eq_none]
  split
  · next h => simp [h, handleAck_eq_none]
  split
  · next h => simp [h]
  · simp [*]

/-- The input of a node link is handled to the end exactly where it does not
trap, on every message, with and without an expected node, and in every state
of the node. -/
theorem linkInput_completes_iff (p : PinnedConfig) (cr : Crypto) (clocks : Clocks)
    (expected : Option TrustedNode) (message : Json) (server : Server) (nodeId : String)
    (link : Nat) (type : String) (payload : Payload) :
    ((∃ verdict, validNodeEnvelope message = .ok verdict) ↔ ¬TrapsEnvelope message) ∧
      ((∃ answer, p.authenticateHello cr clocks.wall expected message = .ok answer) ↔
        ¬TrapsHello p cr clocks.wall expected message) ∧
      ((∃ step, server.handleMessage p.toMeshConfig cr clocks nodeId link type payload =
          some step) ↔
        ¬TrapsMessage type payload) := by
  refine ⟨?_, ?_, ?_⟩
  · cases h : validNodeEnvelope message with
    | ok verdict =>
        have hnot : ¬TrapsEnvelope message := by
          intro htraps
          rw [validNodeEnvelope_error.mpr ⟨htraps, rfl⟩] at h
          cases h
        simp [hnot]
    | error e => simp [(validNodeEnvelope_error.mp h).1]
  · rw [← authenticateHello_traps]
    cases p.authenticateHello cr clocks.wall expected message <;> simp
  · rw [← handleMessage_eq_none (m := p.toMeshConfig)]
    cases server.handleMessage p.toMeshConfig cr clocks nodeId link type payload <;> simp

namespace Sample

/-- A message whose type is a list. -/
def typeless : Json :=
  .obj [("protocol", .str node), ("type", .arr []), ("id", .str "1"), ("payload", .obj [])]

/-- A hello whose manifest is a text. -/
def textHello : Json :=
  .obj [("protocol", .str node), ("type", .str "NODE_HELLO"), ("id", .str "1"),
    ("payload", .obj [("manifest", .str "m")])]

end Sample

/-- The frame of a message without a proper type passes the strict decoder and
raises in the first test of its envelope, before anything is authenticated; a
hello with a text for a manifest raises in the next; and an answer with a list
for a request raises in the handler. -/
theorem linkInput_traps :
    (loadsStrict MeshConfig.alone.jsonLimits Sample.typeless.dumps).toOption.map Json.dumps =
        some Sample.typeless.dumps ∧
      validNodeEnvelope Sample.typeless = .error .typeError ∧
      PinnedConfig.alone.authenticateHello default 0 none Sample.typeless = .error .typeError ∧
      PinnedConfig.alone.authenticateHello default 0 none Sample.textHello =
        .error .attributeError ∧
      (ServerRun.new .alone "i" ⟨0, 0⟩).server.handleMessage .alone default ⟨0, 0⟩ "peer" 1 "ACK"
        [("requestId", .arr []), ("delivered", .bool true)] = none := by
  refine ⟨by decide +kernel, rfl, rfl, ?_, rfl⟩
  decide +kernel

end Server

end Masterserver
