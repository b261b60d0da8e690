import Masterserver.App.Protocol
import Masterserver.Lib.Outcome

/-!
# What the validators raise

A field's validator only ever raises a `ProtocolError`, whatever the field
holds. The one exception is the envelope: its namespace and its type are
looked up in sets, and a list or an object cannot be. So a message makes a
validator raise anything else exactly when it has no unexpected envelope
field and is `Unhashable`.
-/

namespace Masterserver.Protocol

open Lib

/-- An error the endpoints answer. -/
def Raised.answered : Raised → Prop
  | .protocolError _ _ => True
  | .typeError => False

def envelopeNames : List String := ["protocol", "type", "id", "payload"]

/-- Not hashable: a list or an object. -/
def Unhashable : Json → Prop
  | .arr _ | .obj _ => True
  | _ => False

instance : DecidablePred Unhashable := fun v => by
  cases v <;> unfold Unhashable <;> infer_instance

/-- A message with envelope fields alone whose namespace, or under a known
namespace whose type, is not hashable. -/
def UnhashableEnvelope : Json → Prop
  | .obj data =>
      (∀ member ∈ data, member.1 ∈ envelopeNames) ∧
        (Unhashable (Payload.get data "protocol") ∨
          (∃ protocol ∈ knownProtocols, Payload.get data "protocol" = .str protocol) ∧
            Unhashable (Payload.get data "type"))
  | _ => False

/-! ## The fields -/

theorem raises_fail {α : Type} (code message : String) :
    Raises Raised.answered (fail code message : Except Raised α) := raises_error trivial

theorem raises_exactText (value : Json) (field : String) (exact : Nat) :
    Raises Raised.answered (exactText value field exact) := by
  unfold exactText
  split
  · split
    · exact raises_fail _ _
    · exact raises_ok _
  · exact raises_fail _ _

theorem raises_boundedText (value : Json) (field : String) (maximum : Nat) :
    Raises Raised.answered (boundedText value field maximum) := by
  unfold boundedText
  split
  · split
    · exact raises_fail _ _
    · exact raises_ok _
  · exact raises_fail _ _

theorem raises_hexField (value : Json) (field : String) (byteLength : Nat) :
    Raises Raised.answered (hexField value field byteLength) := by
  unfold hexField
  refine (raises_exactText _ _ _).bind fun text => ?_
  split
  · exact raises_fail _ _
  · split
    · exact raises_fail _ _
    · exact raises_ok _

theorem raises_hexFieldText (value : Json) (field : String) (byteLength : Nat) :
    Raises Raised.answered (hexFieldText value field byteLength) :=
  (raises_hexField _ _ _).bind fun _ => raises_ok _

theorem raises_validateTtl (payload : Payload) : Raises Raised.answered (validateTtl payload) := by
  unfold validateTtl
  split
  · exact raises_ok _
  · split
    · exact raises_ok _
    · exact raises_fail _ _
  · exact raises_fail _ _

theorem raises_validateRouteTag (payload : Payload) :
    Raises Raised.answered (validateRouteTag payload) := by
  unfold validateRouteTag
  refine (raises_exactText _ _ _).bind fun routeTag => ?_
  split
  · exact raises_pure _
  · exact raises_fail _ _

theorem raises_validateCiphertext (value : Json) :
    Raises Raised.answered (validateCiphertext value) := by
  unfold validateCiphertext
  refine (raises_boundedText _ _ _).bind fun ciphertext => ?_
  split
  · exact .unless trivial (raises_fail _ _)
  · exact .unless trivial (raises_pure _)

theorem raises_validateSequence (value : Json) :
    Raises Raised.answered (validateSequence value) := by
  unfold validateSequence
  split
  · split
    · exact raises_ok _
    · exact raises_fail _ _
  · exact raises_fail _ _

theorem raises_validateExpiry (value : Json) : Raises Raised.answered (validateExpiry value) := by
  unfold validateExpiry
  split
  · exact raises_ok _
  · exact raises_fail _ _

/-! ## The payloads -/

theorem raises_validateRelayV1 (type : RelayType) (e : Envelope) :
    Raises Raised.answered (validateRelayV1 type e) :=
  (raises_boundedText _ _ _).bind fun _ =>
    (raises_validateTtl e.payload).bind fun _ => raises_pure _

theorem raises_validateRouteRequestV1 (make : String → V1Message) (e : Envelope) :
    Raises Raised.answered (validateRouteRequestV1 make e) := by
  refine (raises_boundedText _ _ _).bind fun routeId => ?_
  split
  · exact raises_pure _
  · exact raises_fail _ _

theorem raises_validateRouteRequestV2 (make : String → V2Request) (e : Envelope) :
    Raises Raised.answered (validateRouteRequestV2 make e) := by
  refine (raises_validateRouteTag _).bind fun routeTag => ?_
  split
  · exact raises_pure _
  · exact raises_fail _ _

theorem raises_validateHelloV2 (payload : Payload) :
    Raises Raised.answered (validateHelloV2 payload) := by
  unfold validateHelloV2
  split
  · exact .unless trivial ((raises_hexFieldText _ _ _).bind fun _ =>
      (raises_hexFieldText _ _ _).bind fun _ => raises_pure _)
  · exact .unless trivial (raises_fail _ _)

theorem raises_validateSignalV2 (payload : Payload) :
    Raises Raised.answered (validateSignalV2 payload) := by
  unfold validateSignalV2
  refine (raises_validateRouteTag _).bind fun routeTag => ?_
  exact .unless trivial ((raises_boundedText _ _ _).bind fun _ =>
    (raises_boundedText _ _ _).bind fun _ => (raises_boundedText _ _ _).bind fun _ =>
    (raises_boundedText _ _ _).bind fun _ => (raises_exactText _ _ _).bind fun _ =>
    (raises_hexFieldText _ _ _).bind fun _ => (raises_hexFieldText _ _ _).bind fun _ =>
    (raises_hexFieldText _ _ _).bind fun _ => (raises_validateCiphertext _).bind fun _ =>
    (raises_validateSequence _).bind fun _ => (raises_validateExpiry _).bind fun _ =>
    raises_pure _)

theorem raises_validateV2Request (e : Envelope) :
    Raises Raised.answered (validateV2Request e) := by
  unfold validateV2Request
  split
  · exact raises_validateHelloV2 _
  split
  · split
    · exact (raises_hexFieldText _ _ _).map _
    · exact raises_fail _ _
  split
  · split
    · exact raises_pure _
    · exact raises_fail _ _
  split
  · exact raises_validateRouteRequestV2 _ e
  split
  · exact raises_validateRouteRequestV2 _ e
  split
  · exact raises_validateRouteRequestV2 _ e
  · exact (raises_validateSignalV2 _).map _


/-! ## The envelope -/

/-- The identifier of an envelope. -/
def validateId : Json → Except Raised (Option String)
  | .null => .ok none
  | .str s =>
      if 1 ≤ s.utf8ByteSize ∧ s.utf8ByteSize ≤ maxIdBytes then .ok (some s)
      else fail "bad-id" "message id must be bounded UTF-8 text"
  | _ => fail "bad-id" "message id must be bounded UTF-8 text"

/-- The payload of an envelope, none read as an empty one. -/
def validatePayload : Json → Except Raised Payload
  | .null => .ok []
  | .obj payload => .ok payload
  | _ => fail "bad-payload" "payload must be a JSON object"

/-- The fields of an envelope whose names, namespace and type have passed. -/
def envelopeFields (data : Payload) : Except Raised Envelope := do
  let id ← validateId (data.get "id")
  let payload ← validatePayload (data.get "payload")
  pure ⟨data, (data.get "protocol").str?.getD "", (data.get "type").str?.getD "", id, payload⟩

/-- The checks of an envelope, one after the other. -/
def envelopeChecks (data : Payload) : Except Raised Envelope :=
  if data.any fun member => decide (member.1 ∉ envelopeNames) then
    fail "bad-envelope" "message contains unexpected envelope fields"
  else do
    let unknown ← notIn knownProtocols (data.get "protocol")
    if unknown then
      fail "unknown-protocol"
        ("unknown/unversioned protocol namespace: " ++ reprScalar (data.get "protocol"))
    else do
      let unknown ← notIn messageTypes (data.get "type")
      if unknown then
        fail "unknown-type" ("unknown message type: " ++ reprScalar (data.get "type"))
      else envelopeFields data

theorem fail_bind {α β : Type} (code message : String) (f : α → Except Raised β) :
    (fail code message >>= f) = fail code message := rfl

theorem validateEnvelope_obj (data : Payload) :
    validateEnvelope (.obj data) = envelopeChecks data := by
  unfold validateEnvelope envelopeChecks envelopeNames
  simp only [fail_bind]
  split
  · rfl
  · congr 1
    funext unknown
    split
    · rfl
    · congr 1
      funext unknown
      split
      · rfl
      · unfold envelopeFields validateId
        cases data.get "id" with
        | str s =>
            simp only
            split <;> cases data.get "payload" <;> rfl
        | _ => cases data.get "payload" <;> rfl

theorem notIn_error {names : List String} {v : Json} {e : Raised} :
    notIn names v = .error e ↔ Unhashable v ∧ e = .typeError := by
  cases v <;> simp [notIn, Unhashable, eq_comm]

theorem notIn_ok {names : List String} {v : Json} {unknown : Bool} :
    notIn names v = .ok unknown ↔ ¬Unhashable v ∧ (unknown = false ↔ ∃ s ∈ names, v = .str s) := by
  cases v <;> cases unknown <;> simp [notIn, Unhashable]

theorem raises_validateId (v : Json) : Raises Raised.answered (validateId v) := by
  unfold validateId
  split
  · exact raises_ok _
  · split
    · exact raises_ok _
    · exact raises_fail _ _
  · exact raises_fail _ _

theorem raises_validatePayload (v : Json) : Raises Raised.answered (validatePayload v) := by
  unfold validatePayload
  split
  · exact raises_ok _
  · exact raises_ok _
  · exact raises_fail _ _

theorem raises_envelopeFields (data : Payload) : Raises Raised.answered (envelopeFields data) :=
  (raises_validateId _).bind fun _ => (raises_validatePayload _).bind fun _ => raises_pure _

theorem ne_typeError {α : Type} {x : Except Raised α} (h : Raises Raised.answered x) :
    x ≠ .error .typeError := fun he => h _ he

/-- The envelope is what raises the `TypeError`. -/
theorem validateEnvelope_typeError {data : Json} :
    validateEnvelope data = .error .typeError ↔ UnhashableEnvelope data := by
  cases data with
  | obj data =>
      rw [validateEnvelope_obj]
      unfold envelopeChecks UnhashableEnvelope
      have hnames : (∀ member ∈ data, member.1 ∈ envelopeNames) ↔
          ¬(data.any fun member => decide (member.1 ∉ envelopeNames)) = true := by
        simp
      split
      · next h =>
          refine ⟨fun he => (ne_typeError (raises_fail _ _) he).elim, fun hu => ?_⟩
          exact absurd h (hnames.mp hu.1)
      · next h =>
          rw [bind_eq_error, notIn_error]
          simp only [and_true]
          refine ⟨?_, ?_⟩
          · rintro (hu | ⟨unknown, hok, he⟩)
            · exact ⟨hnames.mpr h, .inl hu⟩
            · cases unknown with
              | true => exact (ne_typeError (raises_fail _ _) he).elim
              | false =>
                obtain ⟨-, hknown⟩ := notIn_ok.mp hok
                obtain ⟨protocol, hmem, hp⟩ := hknown.mp rfl
                obtain hu | ⟨unknown, -, he⟩ := bind_eq_error.mp he
                · exact ⟨hnames.mpr h, .inr ⟨⟨protocol, hmem, hp⟩, (notIn_error.mp hu).1⟩⟩
                · cases unknown with
                  | true => exact (ne_typeError (raises_fail _ _) he).elim
                  | false =>
                    exact (ne_typeError (raises_envelopeFields data) he).elim
          · rintro ⟨-, hu | ⟨hp, hu⟩⟩
            · exact .inl hu
            · refine .inr ⟨false, ?_, ?_⟩
              · obtain ⟨p, hmem, hp⟩ := hp
                exact notIn_ok.mpr ⟨by rw [hp]; exact id, by simpa using ⟨p, hmem, hp⟩⟩
              · exact bind_eq_error.mpr (.inl (notIn_error.mpr ⟨hu, rfl⟩))
  | _ => simp [validateEnvelope, UnhashableEnvelope, fail]

/-! ## The messages -/

theorem raises_requiresOnly {α : Type} (type field : String) :
    Raises Raised.answered (requiresOnly type field : Except Raised α) := raises_error trivial

theorem raises_wrongNamespace {α : Type} (e : Envelope) :
    Raises Raised.answered (wrongNamespace e : Except Raised α) := raises_error trivial

/-- The part of `validate_v1_message` after the envelope. -/
theorem validateV1Message_bind (data : Json) :
    ∃ f, validateV1Message data = validateEnvelope data >>= f ∧
      ∀ e, Raises Raised.answered (f e) := by
  refine ⟨_, rfl, fun e => ?_⟩
  split
  · exact raises_wrongNamespace e
  split
  · exact raises_wrongNamespace e
  split
  · split
    · exact (raises_hexFieldText _ _ _).map _
    · exact raises_requiresOnly _ _
  split
  · split
    · exact (raises_hexFieldText _ _ _).map _
    · exact raises_requiresOnly _ _
  split
  · split
    · exact raises_pure _
    · exact raises_fail _ _
  split
  · exact raises_validateRouteRequestV1 _ e
  split
  · exact raises_validateRouteRequestV1 _ e
  split
  · exact raises_validateRouteRequestV1 _ e
  split
  · exact raises_validateRelayV1 _ e
  split
  · exact raises_validateRelayV1 _ e
  · exact raises_validateRelayV1 _ e

theorem validateV2Message_bind (data : Json) :
    ∃ f, validateV2Message data = validateEnvelope data >>= f ∧
      ∀ e, Raises Raised.answered (f e) := by
  refine ⟨_, rfl, fun e => ?_⟩
  have hrequest := (raises_validateV2Request e).bind fun request =>
    raises_pure (P := Raised.answered) (⟨e.id, request⟩ : V2Message)
  exact .unless trivial (.unless trivial hrequest)

theorem bind_typeError {α : Type} {data : Json} {f : Envelope → Except Raised α}
    (hf : ∀ e, Raises Raised.answered (f e)) :
    (validateEnvelope data >>= f) = .error .typeError ↔ UnhashableEnvelope data := by
  rw [bind_eq_error, validateEnvelope_typeError]
  exact ⟨fun h => h.elim id fun ⟨e, _, he⟩ => (ne_typeError (hf e) he).elim, .inl⟩

theorem raises_answered_iff {α : Type} {x : Except Raised α} :
    Raises Raised.answered x ↔ x ≠ .error .typeError := by
  constructor
  · exact ne_typeError
  · intro h e he
    cases e with
    | protocolError code message => trivial
    | typeError => exact absurd he h

theorem validateV1Message_answered {data : Json} :
    Raises Raised.answered (validateV1Message data) ↔ ¬UnhashableEnvelope data := by
  obtain ⟨f, hf, hraises⟩ := validateV1Message_bind data
  rw [hf, raises_answered_iff, Ne, bind_typeError hraises]

theorem validateV2Message_answered {data : Json} :
    Raises Raised.answered (validateV2Message data) ↔ ¬UnhashableEnvelope data := by
  obtain ⟨f, hf, hraises⟩ := validateV2Message_bind data
  rw [hf, raises_answered_iff, Ne, bind_typeError hraises]

end Masterserver.Protocol
