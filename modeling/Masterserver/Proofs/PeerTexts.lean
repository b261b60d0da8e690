import Masterserver.Lib.JsonCanonical
import Masterserver.Lib.JsonDigits
import Masterserver.Proofs.Grammar
import Masterserver.Proofs.IdleRecipient
import Masterserver.Proofs.LinkInput
import Masterserver.Runs.Exchange

/-!
# What a peer reads

A message to another node travels as its canonical text. Whatever the limits
of the peer, what it reads from the text, if it reads anything, is the message
with its members sorted, so its fields are those that were sent. The envelope
of a signal was read from a text itself, which is why it can be written and
read again.
-/

namespace Masterserver

open Lib Protocol

/-! ## Reading a canonical text -/

theorem pairs_strictHooks (members : List (CodePoints × Decoded))
    (h : (members.map Prod.fst).Nodup) : strictHooks.pairs members = .ok () :=
  uniqueObject_ok.mpr ⟨h, fun _ _ => List.not_mem_nil⟩

theorem loadsStrict_canonical {limits : JsonLimits} {v data : Json} (h : v.Plain)
    (hloads : loadsStrict limits v.canonical = .ok data) : data = v.sortKeys := by
  obtain ⟨-, -, decoded, hdecoded, -, rfl⟩ := loadsStrict_ok.mp hloads
  obtain ⟨decoded', hdecoded', hsorted⟩ := Json.decodeJson_canonical pairs_strictHooks h
  rw [hdecoded'] at hdecoded
  cases hdecoded
  exact hsorted

/-- A field of a payload that was sent. -/
theorem get_sortedMembers {members : Payload} (h : (members.map Prod.fst).Nodup) (name : String) :
    Payload.get (Json.sortedMembers members) name = (members.get name).sortKeys := by
  unfold Payload.get
  rw [Json.lookup_sortedMembers h]
  cases members.lookup name <;> rfl

/-- What is read from the text of a message is its type, its identifier and
its payload. -/
theorem readNodeFrame_text {c : Config} {p : Posted} {type id : String} {payload : Payload}
    (h : (p.message.toJson p.id).Plain)
    (hread : readNodeFrame c p.text = some (type, id, payload)) :
    type = p.message.type ∧ id = p.id ∧
      Json.obj payload = p.message.payload.sortKeys := by
  unfold readNodeFrame at hread
  split at hread
  · cases hread
  next data hloads =>
  split at hread
  · cases hread
  next parts hvalid =>
  subst hread
  have hdata := loadsStrict_canonical h hloads
  obtain ⟨⟨members, hmembers, -, -, htype, hid, hpayload⟩, -, -⟩ :=
    validNodeEnvelope_some.mp hvalid
  have hsorted : members = Json.sortedMembers [("protocol", .str "particle-node/1"),
      ("type", .str p.message.type), ("id", .str p.id), ("payload", p.message.payload)] := by
    rw [hmembers, NodeMessage.toJson, Json.sortKeys_obj] at hdata
    exact Json.obj.inj hdata
  rw [hsorted, get_sortedMembers h.1] at htype hid hpayload
  exact ⟨(Json.str.inj htype).symm, (Json.str.inj hid).symm, hpayload.symm⟩

/-! ## The messages about signals -/

namespace NodeMessage

theorem nodup_envelope : ["protocol", "type", "id", "payload"].Nodup := by decide

theorem nodup_signalForward : ["requestId", "routeTag", "targetSessionId", "envelope"].Nodup := by
  decide

theorem nodup_ack : ["requestId", "delivered"].Nodup := by decide

theorem plain_signalForward {requestId routeTag target id : String} {envelope : Json}
    (h : envelope.Plain) :
    ((signalForward requestId routeTag target envelope).toJson id).Plain :=
  ⟨nodup_envelope, trivial, trivial, trivial,
    ⟨nodup_signalForward, trivial, trivial, trivial, h, trivial⟩, trivial⟩

theorem plain_ack {requestId id : String} {delivered : Bool} :
    ((ack (.str requestId) delivered).toJson id).Plain :=
  ⟨nodup_envelope, trivial, trivial, trivial, ⟨nodup_ack, trivial, trivial, trivial⟩, trivial⟩

end NodeMessage

/-- What is read from the text of a request. -/
theorem read_signalForward {c : Config} {source node id requestId routeTag target : String}
    {envelope : Json} (h : envelope.Plain) {type messageId : String} {payload : Payload}
    (hread : readNodeFrame c
      (Posted.mk source node id (.signalForward requestId routeTag target envelope)).text =
        some (type, messageId, payload)) :
    type = "SIGNAL_FORWARD" ∧ messageId = id ∧ payload.get "requestId" = .str requestId ∧
      payload.get "targetSessionId" = .str target ∧
      payload.get "envelope" = envelope.sortKeys := by
  obtain ⟨htype, hid, hpayload⟩ :=
    readNodeFrame_text (NodeMessage.plain_signalForward h) hread
  have hnames : (([("requestId", .str requestId), ("routeTag", .str routeTag),
      ("targetSessionId", .str target), ("envelope", envelope)] : Payload).map Prod.fst).Nodup :=
    NodeMessage.nodup_signalForward
  rw [NodeMessage.payload, Json.sortKeys_obj] at hpayload
  rw [Json.obj.inj hpayload]
  exact ⟨htype, hid, get_sortedMembers hnames _, get_sortedMembers hnames _,
    get_sortedMembers hnames _⟩

theorem read_ack {c : Config} {source node id requestId : String} {delivered : Bool}
    {type messageId : String} {payload : Payload}
    (hread : readNodeFrame c
      (Posted.mk source node id (.ack (.str requestId) delivered)).text =
        some (type, messageId, payload)) :
    type = "ACK" ∧ payload.get "requestId" = .str requestId ∧
      payload.get "delivered" = .bool delivered := by
  obtain ⟨htype, -, hpayload⟩ := readNodeFrame_text NodeMessage.plain_ack hread
  have hnames : (([("requestId", .str requestId), ("delivered", .bool delivered)] :
      Payload).map Prod.fst).Nodup := NodeMessage.nodup_ack
  rw [NodeMessage.payload, Json.sortKeys_obj] at hpayload
  rw [Json.obj.inj hpayload]
  exact ⟨htype, get_sortedMembers hnames _, get_sortedMembers hnames _⟩

/-! ## The envelope of a signal -/

theorem get_of_mem {payload : Payload} (hnames : (payload.map Prod.fst).Nodup)
    {member : String × Json} (hmem : member ∈ payload) : payload.get member.1 = member.2 := by
  have hlookup : payload.lookup member.1 = some member.2 :=
    Dict.mem_entries.mp (show member ∈ (⟨payload, hnames⟩ : Dict String Json).entries from hmem)
  unfold Payload.get
  rw [hlookup]
  rfl

/-- The members that are named are texts and numbers. -/
def Payload.Plainly (payload : Payload) : Prop :=
  ∀ name ∈ payload.map Prod.fst,
    (∃ text, payload.get name = .str text) ∨ ∃ n, payload.get name = .int n

/-- An object of texts and short integers is plain. -/
theorem plain_of_flat {payload : Payload} (hnames : (payload.map Prod.fst).Nodup)
    (hshort : Json.ShortMembers payload) (hflat : payload.Plainly) : (Json.obj payload).Plain := by
  refine ⟨hnames, Json.plainMembers_iff.mpr ?_⟩
  intro member hmem
  have hlookup : payload.lookup member.1 = some member.2 :=
    Dict.mem_entries.mp (show member ∈ (⟨payload, hnames⟩ : Dict String Json).entries from hmem)
  have hvalue := get_of_mem hnames hmem
  rcases hflat member.1 (List.mem_map_of_mem hmem) with ⟨text, htext⟩ | ⟨n, hn⟩
  · rw [← hvalue, htext]
    trivial
  · have hfits := hshort.lookup hlookup
    rw [← hvalue, hn] at hfits ⊢
    exact hfits

theorem plainly_of_signalPayload {payload : Payload} (h : SignalPayload AnyCiphertext payload) :
    payload.Plainly := by
  intro name hname
  have hname : name ∈ signalFields := h.fields.mem_iff.mp hname
  simp only [signalFields, List.mem_cons, List.not_mem_nil, or_false] at hname
  rcases hname with rfl | rfl | rfl | rfl | rfl | rfl | rfl | rfl | rfl | rfl | rfl | rfl
  · exact .inl (h.routeTag.imp fun _ => And.left)
  · exact .inl (h.fromSessionId.imp fun _ => And.left)
  · exact .inl (h.toSessionId.imp fun _ => And.left)
  · exact .inl (h.messageId.imp fun _ => And.left)
  · obtain ⟨n, hn, -⟩ := h.sequence
    exact .inr ⟨n, hn⟩
  · exact .inr h.expiresAt
  · exact .inl (h.keyId.imp fun _ => And.left)
  · exact .inl (h.senderKeyId.imp fun _ => And.left)
  · exact .inl (h.senderIdentityKeyHex.imp fun _ => And.left)
  · exact .inl (h.encHex.imp fun _ => And.left)
  · rcases h.ciphertextHex with hhex | hspaced
    · exact .inl (hhex.imp fun _ => And.left)
    · exact .inl (hspaced.imp fun _ => And.left)
  · exact .inl (h.signatureHex.imp fun _ => And.left)

theorem plain_of_signalPayload {payload : Payload} (h : SignalPayload AnyCiphertext payload)
    (hshort : Json.ShortMembers payload) : (Json.obj payload).Plain :=
  plain_of_flat (h.fields.nodup_iff.mpr (by decide)) hshort (plainly_of_signalPayload h)

/-- The envelope a checked signal goes out in. -/
theorem plain_outgoing {limits : JsonLimits} {raw : List Char} {data : Json} {id : Option String}
    {signal : Signal} (hloads : loadsStrict limits raw = .ok data)
    (hvalid : validateV2Message data = .ok ⟨id, .signal signal⟩) :
    (V2.outgoing (idJson id) signal).Plain := by
  obtain ⟨-, -, decoded, hdecoded, -, rfl⟩ := loadsStrict_ok.mp hloads
  have hshort := (decodeJson_strictHooks.mp hdecoded).1.short
  obtain ⟨members, hmembers, -, -, -, -, hpayload⟩ := signal_of_message hvalid
  rw [hmembers] at hshort
  have hgrammar : SignalPayload AnyCiphertext signal.payload :=
    signalPayload_iff.mpr ⟨signal, validateSignalV2_of_message hvalid rfl⟩
  have hid : (idJson id).Plain := by
    cases id <;> trivial
  refine ⟨?_, trivial, trivial, hid, plain_of_signalPayload hgrammar ?_, trivial⟩
  · show ["protocol", "type", "id", "payload"].Nodup
    decide
  · exact Json.ShortMembers.lookup hshort hpayload

end Masterserver
