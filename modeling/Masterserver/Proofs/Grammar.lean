import Masterserver.Proofs.Fields

/-!
# The grammar of the second endpoint

`V2Grammar` says what a message is: its envelope, its type and namespace from
the table, and the payload of its type, field by field. The validator's
chained branches accept exactly that, with one exception. A ciphertext is
decoded by a decoder that skips blanks, so a SIGNAL can have them in it.
-/

namespace Masterserver.Protocol

open Lib

/-- The payload of a SIGNAL, over a notion of ciphertext. -/
structure SignalPayload (ciphertext : Json → Prop) (payload : Payload) : Prop where
  fields : (payload.map Prod.fst).Perm signalFields
  routeTag : ∃ text, TagText (payload.get "routeTag") text
  toSessionId : ∃ text, TextOf 1 64 (payload.get "toSessionId") text
  fromSessionId : ∃ text, TextOf 1 64 (payload.get "fromSessionId") text
  messageId : ∃ text, TextOf 1 128 (payload.get "messageId") text
  keyId : ∃ text, TextOf 1 128 (payload.get "keyId") text
  senderKeyId : ∃ text, TextOf 64 64 (payload.get "senderKeyId") text
  senderIdentityKeyHex : ∃ text, HexText 130 (payload.get "senderIdentityKeyHex") text
  encHex : ∃ text, HexText 130 (payload.get "encHex") text
  signatureHex : ∃ text, HexText 128 (payload.get "signatureHex") text
  ciphertextHex : ciphertext (payload.get "ciphertextHex")
  sequence : ∃ n : Nat, payload.get "sequence" = .int n ∧ n ≤ 2 ^ 32 - 1
  expiresAt : ∃ n : Int, payload.get "expiresAt" = .int n

/-- The payload of each type of message. -/
def PayloadGrammar (ciphertext : Json → Prop) (payload : Payload) : String → Prop
  | "HELLO" =>
      (payload.map Prod.fst).Perm ["grant", "identityKeyHex", "encryptionKeyHex"] ∧
        (∃ grant, payload.get "grant" = .obj grant) ∧
        (∃ text, HexText 130 (payload.get "identityKeyHex") text) ∧
        ∃ text, HexText 130 (payload.get "encryptionKeyHex") text
  | "PROVE" =>
      (payload.map Prod.fst).Perm ["signatureHex"] ∧
        ∃ text, HexText 128 (payload.get "signatureHex") text
  | "PING" => payload = []
  | "ATTACH_ROUTE" | "DETACH_ROUTE" | "DISCOVER" =>
      (payload.map Prod.fst).Perm ["routeTag"] ∧ ∃ text, TagText (payload.get "routeTag") text
  | "SIGNAL" => SignalPayload ciphertext payload
  | _ => False

/-- The types of the second endpoint, each with its namespace. -/
def v2Table : List (String × String) :=
  [("HELLO", sessionV2), ("PROVE", sessionV2), ("PING", sessionV2), ("ATTACH_ROUTE", routeV2),
    ("DETACH_ROUTE", routeV2), ("DISCOVER", routeV2), ("SIGNAL", signalV2)]

/-- A payload that is absent or null is an empty one. -/
def payloadOf : Json → Option Payload
  | .null => some []
  | .obj payload => some payload
  | _ => none

/-- A message of the second endpoint. -/
structure V2Grammar (ciphertext : Json → Prop) (data : Payload) (type : String) : Prop where
  names : ∀ member ∈ data, member.1 ∈ envelopeNames
  typed : data.get "type" = .str type
  inNamespace : ∃ protocol, data.get "protocol" = .str protocol ∧ (type, protocol) ∈ v2Table
  id : data.get "id" = .null ∨ ∃ text, TextOf 1 128 (data.get "id") text
  payload : ∃ payload, payloadOf (data.get "payload") = some payload ∧
    PayloadGrammar ciphertext payload type

theorem expectedProtocolV2_iff {type protocol : String} :
    expectedProtocolV2 type = some protocol ↔ (type, protocol) ∈ v2Table := by
  unfold expectedProtocolV2 v2Table
  simp only [List.mem_cons, List.not_mem_nil, or_false, Prod.mk.injEq]
  split
  · next h =>
      rcases h with rfl | rfl | rfl <;> simp [eq_comm]
  · next h1 =>
      split
      · next h =>
          rcases h with rfl | rfl | rfl <;> simp [eq_comm]
      · next h2 =>
          split
          · next h =>
              subst h
              simp [eq_comm]
          · next h3 => 
              rw [not_or, not_or] at h1 h2
              simp [h1, h2, h3]

theorem validateId_ok {v : Json} :
    (∃ id, validateId v = .ok id) ↔ v = .null ∨ ∃ text, TextOf 1 128 v text := by
  unfold validateId TextOf maxIdBytes
  cases v with
  | str s =>
      simp only
      split
      · next h => exact ⟨fun _ => .inr ⟨s, rfl, h⟩, fun _ => ⟨_, rfl⟩⟩
      · next h =>
          refine ⟨nofun, ?_⟩
          rintro (h' | ⟨text, heq, h'⟩)
          · cases h'
          · cases heq
            exact absurd h' h
  | null => simp
  | _ => simp [fail]

theorem validatePayload_ok {v : Json} {payload : Payload} :
    validatePayload v = .ok payload ↔ payloadOf v = some payload := by
  cases v <;> simp [validatePayload, payloadOf, fail]

theorem validateEnvelope_ok {data : Payload} {e : Envelope} :
    validateEnvelope (.obj data) = .ok e ↔ (∀ member ∈ data, member.1 ∈ envelopeNames) ∧
      (data.get "protocol" = .str e.protocol ∧ e.protocol ∈ knownProtocols) ∧
      (data.get "type" = .str e.type ∧ e.type ∈ messageTypes) ∧
      validateId (data.get "id") = .ok e.id ∧
      payloadOf (data.get "payload") = some e.payload ∧ e.data = data := by
  rw [validateEnvelope_obj]
  unfold envelopeChecks
  have hnames : (∀ member ∈ data, member.1 ∈ envelopeNames) ↔
      ¬(data.any fun member => decide (member.1 ∉ envelopeNames)) = true := by
    simp
  rw [hnames]
  split
  · next h => exact ⟨nofun, fun h' => absurd h h'.1⟩
  · next h =>
    constructor
    · intro he
      obtain ⟨unknown, hprotocol, he⟩ := bind_eq_ok.mp he
      cases unknown with
      | true => cases he
      | false =>
        obtain ⟨unknown, htype, he⟩ := bind_eq_ok.mp he
        cases unknown with
        | true => cases he
        | false =>
          obtain ⟨id, hid, he⟩ := bind_eq_ok.mp he
          obtain ⟨payload, hpayload, he⟩ := bind_eq_ok.mp he
          cases he
          obtain ⟨protocol, hmem, hp⟩ := (notIn_ok.mp hprotocol).2.mp rfl
          obtain ⟨type, hmem', ht⟩ := (notIn_ok.mp htype).2.mp rfl
          simp only [hp, ht]
          exact ⟨h, ⟨rfl, hmem⟩, ⟨rfl, hmem'⟩, hid, validatePayload_ok.mp hpayload, trivial⟩
    · rintro ⟨-, ⟨hp, hmem⟩, ⟨ht, hmem'⟩, hid, hpayload, rfl⟩
      have hunhash : ∀ s, ¬Unhashable (.str s) := fun _ => id
      refine bind_eq_ok.mpr ⟨false, notIn_ok.mpr ⟨hp ▸ hunhash _, by simpa using ⟨_, hmem, hp⟩⟩, ?_⟩
      refine bind_eq_ok.mpr ⟨false, notIn_ok.mpr ⟨ht ▸ hunhash _, by simpa using ⟨_, hmem', ht⟩⟩, ?_⟩
      refine bind_eq_ok.mpr ⟨e.id, hid, ?_⟩
      refine bind_eq_ok.mpr ⟨e.payload, validatePayload_ok.mpr hpayload, ?_⟩
      rw [hp, ht]
      rfl

/-- The ciphertexts that pass. -/
def AnyCiphertext (value : Json) : Prop := HexCiphertext value ∨ SpacedCiphertext value

theorem signalPayload_iff {payload : Payload} :
    SignalPayload AnyCiphertext payload ↔ ∃ signal, validateSignalV2 payload = .ok signal := by
  constructor
  · intro h
    obtain ⟨routeTag, hroute⟩ := h.routeTag
    obtain ⟨toSessionId, hto⟩ := h.toSessionId
    obtain ⟨fromSessionId, hfrom⟩ := h.fromSessionId
    obtain ⟨messageId, hmessage⟩ := h.messageId
    obtain ⟨keyId, hkey⟩ := h.keyId
    obtain ⟨senderKeyId, hsender⟩ := h.senderKeyId
    obtain ⟨senderIdentityKeyHex, hidentity⟩ := h.senderIdentityKeyHex
    obtain ⟨signatureHex, hsignature⟩ := h.signatureHex
    obtain ⟨sequence, hsequence, hle⟩ := h.sequence
    obtain ⟨expiresAt, hexpires⟩ := h.expiresAt
    refine ⟨⟨payload, routeTag, fromSessionId, toSessionId, messageId, sequence, expiresAt, keyId,
      senderKeyId, senderIdentityKeyHex, signatureHex⟩, validateSignalV2_ok.mpr ?_⟩
    exact ⟨rfl, h.fields, hroute, hto, hfrom, hmessage, hkey, hsender, hidentity, h.encHex,
      hsignature, h.ciphertextHex, ⟨hsequence, hle⟩, hexpires⟩
  · rintro ⟨signal, hsignal⟩
    have h := validateSignalV2_ok.mp hsignal
    exact ⟨h.fields, ⟨_, h.routeTag⟩, ⟨_, h.toSessionId⟩, ⟨_, h.fromSessionId⟩, ⟨_, h.messageId⟩,
      ⟨_, h.keyId⟩, ⟨_, h.senderKeyId⟩, ⟨_, h.senderIdentityKeyHex⟩, h.encHex,
      ⟨_, h.signatureHex⟩, h.ciphertextHex, ⟨_, h.sequence⟩, ⟨_, h.expiresAt⟩⟩

theorem validateRouteRequestV2_ok {make : String → V2Request} {e : Envelope} :
    (∃ request, validateRouteRequestV2 make e = .ok request) ↔
      (e.payload.map Prod.fst).Perm ["routeTag"] ∧
        ∃ text, TagText (e.payload.get "routeTag") text := by
  unfold validateRouteRequestV2
  simp only [bind_eq_ok, validateRouteTag_ok]
  constructor
  · rintro ⟨request, tag, htag, h⟩
    split at h
    · next hfields => exact ⟨hasExactly_iff.mp hfields, tag, htag⟩
    · cases h
  · rintro ⟨hfields, tag, htag⟩
    refine ⟨make tag, tag, htag, ?_⟩
    rw [if_pos (hasExactly_iff.mpr hfields)]
    rfl

theorem validateHelloV2_ok {payload : Payload} :
    (∃ request, validateHelloV2 payload = .ok request) ↔
      (payload.map Prod.fst).Perm ["grant", "identityKeyHex", "encryptionKeyHex"] ∧
        (∃ grant, payload.get "grant" = .obj grant) ∧
        (∃ text, HexText 130 (payload.get "identityKeyHex") text) ∧
        ∃ text, HexText 130 (payload.get "encryptionKeyHex") text := by
  unfold validateHelloV2
  cases payload.get "grant" with
  | obj grant =>
      simp only [bind_unless_ok, bind_eq_ok, hexFieldText_ok (show 0 < 65 by decide),
        Bool.not_eq_true', Bool.not_eq_false, hasExactly_iff]
      constructor
      · rintro ⟨request, hfields, identity, hidentity, encryption, hencryption, -⟩
        exact ⟨hfields, ⟨grant, rfl⟩, ⟨identity, hidentity⟩, encryption, hencryption⟩
      · rintro ⟨hfields, -, ⟨identity, hidentity⟩, encryption, hencryption⟩
        exact ⟨_, hfields, identity, hidentity, encryption, hencryption, rfl⟩
  | _ =>
      simp only [bind_unless_ok]
      refine ⟨?_, nofun⟩
      rintro ⟨request, -, h⟩
      cases h

theorem validateV2Request_ok {e : Envelope} {protocol : String} (h : (e.type, protocol) ∈ v2Table) :
    (∃ request, validateV2Request e = .ok request) ↔
      PayloadGrammar AnyCiphertext e.payload e.type := by
  obtain ⟨data, protocol', type, id, payload⟩ := e
  simp only [v2Table, List.mem_cons, List.not_mem_nil, or_false, Prod.mk.injEq] at h
  unfold validateV2Request
  simp only
  rcases h with ⟨rfl, -⟩ | ⟨rfl, -⟩ | ⟨rfl, -⟩ | ⟨rfl, -⟩ | ⟨rfl, -⟩ | ⟨rfl, -⟩ | ⟨rfl, -⟩
  · exact validateHelloV2_ok
  · show (∃ request, (if payload.hasExactly ["signatureHex"] then
        V2Request.prove <$> hexFieldText (payload.get "signatureHex") "payload.signatureHex" 64
      else requiresOnly "PROVE" "signatureHex") = .ok request) ↔ _
    split
    · next hfields =>
        simp only [map_eq_ok, hexFieldText_ok (show 0 < 64 by decide)]
        refine ⟨?_, ?_⟩
        · rintro ⟨request, text, htext, -⟩
          exact ⟨hasExactly_iff.mp hfields, text, htext⟩
        · rintro ⟨-, text, htext⟩
          exact ⟨_, text, htext, rfl⟩
    · next hfields => exact ⟨nofun, fun h => absurd (hasExactly_iff.mpr h.1) hfields⟩
  · show (∃ request, (if payload.isEmpty then pure .ping
      else fail "bad-payload" "PING payload must be empty" : Except Raised V2Request) =
        .ok request) ↔ payload = []
    cases payload with
    | nil => exact ⟨fun _ => rfl, fun _ => ⟨_, rfl⟩⟩
    | cons member rest => exact ⟨nofun, nofun⟩
  · exact validateRouteRequestV2_ok
  · exact validateRouteRequestV2_ok
  · exact validateRouteRequestV2_ok
  · show (∃ request, V2Request.signal <$> validateSignalV2 payload = .ok request) ↔
      SignalPayload AnyCiphertext payload
    rw [signalPayload_iff]
    simp only [map_eq_ok]
    refine ⟨?_, ?_⟩
    · rintro ⟨request, signal, hsignal, -⟩
      exact ⟨signal, hsignal⟩
    · rintro ⟨signal, hsignal⟩
      exact ⟨_, signal, hsignal, rfl⟩

theorem mem_of_mem_v2Table {type protocol : String} (h : (type, protocol) ∈ v2Table) :
    type ∈ messageTypes ∧ protocol ∈ knownProtocols ∧
      protocol ∈ [sessionV2, routeV2, signalV2] := by
  revert h
  simp only [v2Table, List.mem_cons, List.not_mem_nil, or_false, Prod.mk.injEq]
  rintro (⟨rfl, rfl⟩ | ⟨rfl, rfl⟩ | ⟨rfl, rfl⟩ | ⟨rfl, rfl⟩ | ⟨rfl, rfl⟩ | ⟨rfl, rfl⟩ | ⟨rfl, rfl⟩) <;>
    decide

/-- What the validator accepts. -/
theorem validateV2Message_ok {data : Payload} :
    (∃ message, validateV2Message (.obj data) = .ok message) ↔
      ∃ type, V2Grammar AnyCiphertext data type := by
  unfold validateV2Message
  simp only [wrongNamespace, bind_eq_ok, bind_unless_ok, not_not, expectedProtocolV2_iff,
    validateEnvelope_ok, ne_eq]
  constructor
  · rintro ⟨message, e, ⟨hnames, ⟨hp, -⟩, ⟨ht, -⟩, hid, hpayload, -⟩, -, htable, request, hrequest, -⟩
    refine ⟨e.type, hnames, ht, ⟨e.protocol, hp, htable⟩, validateId_ok.mp ⟨_, hid⟩, e.payload,
      hpayload, (validateV2Request_ok htable).mp ⟨request, hrequest⟩⟩
  · rintro ⟨type, hnames, ht, ⟨protocol, hp, htable⟩, hid, payload, hpayload, hgrammar⟩
    obtain ⟨id, hid⟩ := validateId_ok.mpr hid
    obtain ⟨htype, hknown, hv2⟩ := mem_of_mem_v2Table htable
    obtain ⟨request, hrequest⟩ :=
      (validateV2Request_ok (e := ⟨data, protocol, type, id, payload⟩) htable).mpr hgrammar
    exact ⟨_, ⟨data, protocol, type, id, payload⟩,
      ⟨hnames, ⟨hp, hknown⟩, ⟨ht, htype⟩, hid, hpayload, rfl⟩, hv2, htable, request, hrequest, rfl⟩

/-- A ciphertext with a blank in it is no hexadecimal text. -/
theorem not_hexCiphertext_of_spaced {value : Json} (h : SpacedCiphertext value) :
    ¬HexCiphertext value := by
  obtain ⟨text, rfl, -, -, -, c, hc, hblank⟩ := h
  rintro ⟨text', heq, -, -, -, hdigits⟩
  cases heq
  exact not_isHexDigit_of_isAsciiSpace hblank (hdigits c hc)

theorem SignalPayload.imp {P Q : Json → Prop} {payload : Payload} (h : SignalPayload P payload)
    (hpq : P (payload.get "ciphertextHex") → Q (payload.get "ciphertextHex")) :
    SignalPayload Q payload :=
  { h with ciphertextHex := hpq h.ciphertextHex }

/-- Only the payload of a SIGNAL has a ciphertext. -/
theorem payloadGrammar_congr {P Q : Json → Prop} {payload : Payload} {type : String}
    (hne : type ≠ "SIGNAL") : PayloadGrammar P payload type ↔ PayloadGrammar Q payload type := by
  unfold PayloadGrammar
  split <;> first | exact Iff.rfl | exact absurd rfl hne

theorem anyCiphertext_iff {data : Payload} :
    (∃ type, V2Grammar AnyCiphertext data type) ↔
      (∃ type, V2Grammar HexCiphertext data type) ∨ V2Grammar SpacedCiphertext data "SIGNAL" := by
  constructor
  · rintro ⟨type, h⟩
    obtain ⟨payload, hpayload, hgrammar⟩ := h.payload
    by_cases hsignal : type = "SIGNAL"
    · subst hsignal
      have hs : SignalPayload AnyCiphertext payload := hgrammar
      rcases hs.ciphertextHex with hhex | hspaced
      · exact .inl ⟨_, { h with payload := ⟨payload, hpayload, hs.imp fun _ => hhex⟩ }⟩
      · exact .inr { h with payload := ⟨payload, hpayload, hs.imp fun _ => hspaced⟩ }
    · exact .inl ⟨type, { h with
        payload := ⟨payload, hpayload, (payloadGrammar_congr hsignal).mp hgrammar⟩ }⟩
  · rintro (⟨type, h⟩ | h)
    · obtain ⟨payload, hpayload, hgrammar⟩ := h.payload
      refine ⟨type, { h with payload := ⟨payload, hpayload, ?_⟩ }⟩
      by_cases hsignal : type = "SIGNAL"
      · subst hsignal
        have hs : SignalPayload HexCiphertext payload := hgrammar
        exact hs.imp .inl
      · exact (payloadGrammar_congr hsignal).mp hgrammar
    · obtain ⟨payload, hpayload, hgrammar⟩ := h.payload
      have hs : SignalPayload SpacedCiphertext payload := hgrammar
      exact ⟨_, { h with payload := ⟨payload, hpayload, hs.imp .inr⟩ }⟩

theorem not_spaced_of_hex {data : Payload} {type : String} (h : V2Grammar HexCiphertext data type) :
    ¬V2Grammar SpacedCiphertext data "SIGNAL" := by
  intro hspaced
  have htype : Json.str type = .str "SIGNAL" := h.typed.symm.trans hspaced.typed
  cases htype
  obtain ⟨payload, hpayload, hgrammar⟩ := h.payload
  obtain ⟨payload', hpayload', hgrammar'⟩ := hspaced.payload
  rw [hpayload] at hpayload'
  cases hpayload'
  have hs : SignalPayload HexCiphertext payload := hgrammar
  have hs' : SignalPayload SpacedCiphertext payload := hgrammar'
  exact not_hexCiphertext_of_spaced hs'.ciphertextHex hs.ciphertextHex

/-- The validator accepts exactly the grammar, but for the SIGNALs in whose
ciphertext the hexadecimal decoder skips a blank. -/
theorem v2_grammar_iff (data : Payload) :
    ((∃ message, validateV2Message (.obj data) = .ok message) ↔
        ∃ type, V2Grammar HexCiphertext data type) ↔
      ¬V2Grammar SpacedCiphertext data "SIGNAL" := by
  rw [validateV2Message_ok, anyCiphertext_iff]
  constructor
  · intro h hspaced
    obtain ⟨type, hhex⟩ := h.mp (.inr hspaced)
    exact not_spaced_of_hex hhex hspaced
  · intro hspaced
    exact ⟨fun h => h.resolve_right hspaced, .inl⟩

/-- A SIGNAL whose ciphertext is two pairs of digits, each with a blank after it. -/
def spacedSignal : Payload :=
  [("protocol", .str signalV2), ("type", .str "SIGNAL"), ("payload", .obj
    [("routeTag", .str (String.ofList (List.replicate 64 'a'))), ("fromSessionId", .str "s"),
      ("toSessionId", .str "t"), ("messageId", .str "m"), ("sequence", .int 0),
      ("expiresAt", .int 0), ("keyId", .str "k"),
      ("senderKeyId", .str (String.ofList (List.replicate 64 'a'))),
      ("senderIdentityKeyHex", .str (String.ofList (List.replicate 130 'a'))),
      ("encHex", .str (String.ofList (List.replicate 130 'a'))), ("ciphertextHex", .str "ab cd "),
      ("signatureHex", .str (String.ofList (List.replicate 128 'a')))])]

/-- It is accepted. -/
theorem spacedSignal_accepted :
    ¬((∃ message, validateV2Message (.obj spacedSignal) = .ok message) ↔
      ∃ type, V2Grammar HexCiphertext spacedSignal type) := by
  have haccepted : (validateV2Message (.obj spacedSignal)).toBool = true := by decide +kernel
  have hmessage : ∃ message, validateV2Message (.obj spacedSignal) = .ok message := by
    cases h : validateV2Message (.obj spacedSignal) with
    | ok message => exact ⟨message, rfl⟩
    | error e =>
        rw [h] at haccepted
        cases haccepted
  intro hiff
  obtain ⟨type, h⟩ := hiff.mp hmessage
  have htype : Json.str type = .str "SIGNAL" := h.typed.symm
  cases htype
  obtain ⟨payload, hpayload, hgrammar⟩ := h.payload
  cases hpayload
  obtain ⟨text, heq, -, -, -, hdigits⟩ := SignalPayload.ciphertextHex hgrammar
  cases heq
  exact absurd (hdigits ' ' (by decide)) (by decide)

end Masterserver.Protocol
