import Masterserver.Lib.JsonInjective
import Masterserver.Proofs.CanonicalBytes
import Masterserver.Proofs.FiniteNumbers
import Masterserver.Proofs.Registrable
import Masterserver.Proofs.Requests

/-!
# The keys of the dedupe cache

One table of seen keys serves three kinds of messages. A relay of the first
endpoint is marked under the digest of its canonical bytes, a signal of the
second under `v2:`, its session, its identifier and its sequence number, a
message of a peer under `node:`, the peer and its identifier, joined by colons.

No key belongs to two kinds. Of a signal's parts the first has a fixed length
and the last is a number, so that the colons in the identifier between them do
no harm. The two parts of a peer's key are both free texts: a node whose name
goes on with a colon after the name of another shares keys with it, as long as
what comes after the colon is short enough to be the beginning of an
identifier.
-/

namespace Masterserver

open Lib Protocol

/-! ## Texts with colons -/

theorem append_colon_inj {before before' after after' : List Char} (h : ':' ∉ after)
    (h' : ':' ∉ after') (heq : before ++ ':' :: after = before' ++ ':' :: after') :
    before = before' ∧ after = after' := by
  obtain ⟨more, rfl, hafter⟩ | ⟨more, rfl, hafter⟩ := List.append_eq_append_iff.mp heq
  · cases more with
    | nil =>
        rw [List.nil_append] at hafter
        exact ⟨(List.append_nil _).symm, (List.cons.inj hafter).2⟩
    | cons c more =>
        rw [List.cons_append] at hafter
        exact absurd ((List.cons.inj hafter).2 ▸ List.mem_append_right more List.mem_cons_self) h
  · cases more with
    | nil =>
        rw [List.nil_append] at hafter
        exact ⟨List.append_nil _, (List.cons.inj hafter).2.symm⟩
    | cons c more =>
        rw [List.cons_append] at hafter
        exact absurd ((List.cons.inj hafter).2 ▸ List.mem_append_right more List.mem_cons_self) h'

theorem toList_replayKey (sid : String) (signal : Signal) :
    (V2.replayKey sid signal).toList = "v2:".toList ++ (sid.toList ++
      ':' :: (signal.messageId.toList ++ ':' :: (toString signal.sequence).toList)) := by
  show ("v2:" ++ sid ++ ":" ++ signal.messageId ++ ":" ++ toString signal.sequence).toList = _
  simp only [String.toList_append, List.append_assoc]
  rfl

theorem toList_messageKey (nodeId id : String) :
    (Server.messageKey nodeId id).toList =
      "node:".toList ++ (nodeId.toList ++ ':' :: id.toList) := by
  show ("node:" ++ nodeId ++ ":" ++ id).toList = _
  simp only [String.toList_append, List.append_assoc]
  rfl

/-! ## What marks the table -/

/-- A message that is marked as seen. -/
inductive Mark
  | signal (sessionId : String) (signal : Signal)
  | frame (nodeId id : String)
  | relay (type : RelayType) (payload : Payload) (routeId : String)

namespace Mark

/-- The key it is marked under. -/
def key (cr : Crypto) : Mark → String
  | .signal sessionId s => V2.replayKey sessionId s
  | .frame nodeId id => Server.messageKey nodeId id
  | .relay type payload routeId => V1.relayKey cr type payload routeId

/-- What comes in and is accepted: a validated signal of a session, an envelope
from a trusted node, a validated relay out of a frame. -/
inductive Accepted (m : MeshConfig) : Mark → Prop
  | signal {sessionId : String} {message : Json} {id : Option String} {signal : Signal}
      (hsession : IsSessionId sessionId)
      (hvalid : validateV2Message message = .ok ⟨id, .signal signal⟩) :
      Accepted m (.signal sessionId signal)
  | frame {nodeId type id : String} {message : Json} {payload : Payload}
      (htrusted : nodeId ∈ m.trusted)
      (hvalid : validNodeEnvelope message = .ok (some (type, id, payload))) :
      Accepted m (.frame nodeId id)
  | relay {limits : JsonLimits} {raw : List Char} {message : Json} {type : RelayType}
      {data payload : Payload} {routeId : String} (hread : loadsStrict limits raw = .ok message)
      (hvalid : validateV1Message message = .ok (.relay type data payload routeId)) :
      Accepted m (.relay type payload routeId)

/-- Of one kind, with the same components: a payload is the same in whatever
order its members are. -/
inductive Same : Mark → Mark → Prop
  | signal {sessionId : String} {signal signal' : Signal}
      (hmessage : signal.messageId = signal'.messageId)
      (hsequence : signal.sequence = signal'.sequence) :
      Same (.signal sessionId signal) (.signal sessionId signal')
  | frame (nodeId id : String) : Same (.frame nodeId id) (.frame nodeId id)
  | relay {type : RelayType} {payload payload' : Payload} {routeId : String}
      (hpayload : (Json.obj payload).sortKeys = (Json.obj payload').sortKeys) :
      Same (.relay type payload routeId) (.relay type payload' routeId)

/-- The bytes a relay is hashed as. -/
def relayBytes (type : RelayType) (payload : Payload) (routeId : String) : Bytes :=
  canonicalJsonBytes
    (.obj [("routeId", .str routeId), ("type", .str type.name), ("payload", .obj payload)])

/-- If it is hashed, it is one of these messages. -/
def Hashed (messages : Set Bytes) : Mark → Prop
  | .relay type payload routeId => relayBytes type payload routeId ∈ messages
  | _ => True

variable {m : MeshConfig} {cr : Crypto} {messages : Set Bytes} {mark mark' : Mark}

/-! ## Signals and the messages of peers -/

theorem colon_notMem_toString (n : Nat) : ':' ∉ (toString n).toList := by
  intro hmem
  rw [toList_toString_nat] at hmem
  exact absurd (Nat.isDigit_of_mem_toDigits (by decide) (by decide) hmem) (by decide)

theorem same_of_replayKey {sid sid' : String} {signal signal' : Signal} (hsid : IsSessionId sid)
    (hsid' : IsSessionId sid')
    (h : V2.replayKey sid signal = V2.replayKey sid' signal') :
    Same (.signal sid signal) (.signal sid' signal') := by
  have hkeys := congrArg String.toList h
  rw [toList_replayKey, toList_replayKey, List.append_cancel_left_eq] at hkeys
  have hlength : sid.toList.length = sid'.toList.length := by
    rw [String.length_toList, String.length_toList, length_of_isSessionId hsid,
      length_of_isSessionId hsid']
  obtain ⟨hsids, hrest⟩ := List.append_inj hkeys hlength
  obtain rfl := String.toList_injective hsids
  obtain ⟨hmessage, hsequence⟩ := append_colon_inj (colon_notMem_toString _)
    (colon_notMem_toString _) (List.cons.inj hrest).2
  refine .signal (String.toList_injective hmessage) ?_
  have hint : ((signal.sequence : Nat) : Int) = signal'.sequence := toString_int_injective hsequence
  exact_mod_cast hint

/-- Two nodes that share a key are one, or the name of one goes on with a colon
after the name of the other. -/
theorem frame_cases {nodeId nodeId' id id' : String}
    (h : Server.messageKey nodeId id = Server.messageKey nodeId' id') :
    (nodeId = nodeId' ∧ id = id') ∨
      (∃ rest, nodeId' = nodeId ++ ":" ++ rest ∧ id = rest ++ ":" ++ id') ∨
      ∃ rest, nodeId = nodeId' ++ ":" ++ rest ∧ id' = rest ++ ":" ++ id := by
  have hkeys := congrArg String.toList h
  rw [toList_messageKey, toList_messageKey, List.append_cancel_left_eq] at hkeys
  have hextends {name name' text text' : String} (more : List Char)
      (hname : name'.toList = name.toList ++ more)
      (htext : ':' :: text.toList = more ++ ':' :: text'.toList) :
      (name = name' ∧ text = text') ∨
        ∃ rest, name' = name ++ ":" ++ rest ∧ text = rest ++ ":" ++ text' := by
    cases more with
    | nil =>
        rw [List.append_nil] at hname
        exact .inl ⟨(String.toList_injective hname).symm,
          String.toList_injective (List.cons.inj htext).2⟩
    | cons c more =>
        rw [List.cons_append] at htext
        obtain ⟨rfl, htail⟩ := List.cons.inj htext
        refine .inr ⟨String.ofList more, String.toList_injective ?_, String.toList_injective ?_⟩
        · simp [hname]
        · simp [htail]
  obtain ⟨more, hname, htext⟩ | ⟨more, hname, htext⟩ := List.append_eq_append_iff.mp hkeys
  · exact (hextends more hname htext).imp_right .inl
  · obtain ⟨rfl, rfl⟩ | hrest := hextends more hname htext
    · exact .inl ⟨rfl, rfl⟩
    · exact .inr (.inr hrest)

/-! ## Relays -/

theorem floats_of_loads {limits : JsonLimits} {raw : List Char} {message : Json}
    (h : loadsStrict limits raw = .ok message) : message.Floats Json.Distinct := by
  obtain ⟨-, -, v, -, -, rfl⟩ := loadsStrict_ok.mp h
  have hfloats : v.toJson.Floats Json.Distinct ↔ ∀ u ∈ v.visits, True :=
    Decoded.floats_toJson (fun negative digits exponent =>
      iff_of_true (distinct_printLiteral negative digits exponent) trivial) (fun _ _ => trivial) v
  exact hfloats.mpr fun _ _ => trivial

theorem Accepted.floats {type : RelayType} {payload : Payload} {routeId : String}
    (h : Accepted m (.relay type payload routeId)) : (Json.obj payload).Floats Json.Distinct := by
  cases h with
  | relay hread hvalid =>
      obtain ⟨rfl, hpayload, -⟩ := relay_of_message hvalid
      obtain ⟨before, after, hdata, -⟩ := List.lookup_eq_some_iff.mp hpayload
      have hmembers := Json.floatsMembers_iff.mp (floats_of_loads hread)
      exact hmembers ("payload", .obj payload) (hdata ▸ List.mem_append_right _ List.mem_cons_self)

theorem sortKeys_relay (type : RelayType) (payload : Payload) (routeId : String) :
    (Json.obj [("routeId", .str routeId), ("type", .str type.name),
      ("payload", .obj payload)]).sortKeys =
      .obj [("payload", (Json.obj payload).sortKeys), ("routeId", .str routeId),
        ("type", .str type.name)] := by
  have hnames : ¬ ("type" ≤ "payload" : Prop) ∧ ¬ ("routeId" ≤ "payload" : Prop) ∧
      ("routeId" ≤ "type" : Prop) := by decide
  obtain ⟨htype, hroute, hordered⟩ := hnames
  simp [Json.sortKeys, Json.sortMembers, List.insertionSort_cons, List.orderedInsert, htype, hroute,
    hordered]

theorem RelayType.name_injective {type type' : RelayType} (h : type.name = type'.name) :
    type = type' := by
  cases type <;> cases type' <;> first | rfl | exact absurd h (by decide)

theorem same_of_relayKey (hash : Set.InjOn cr.sha256 messages) {type type' : RelayType}
    {payload payload' : Payload} {routeId routeId' : String}
    (hfloats : (Json.obj payload).Floats Json.Distinct)
    (hfloats' : (Json.obj payload').Floats Json.Distinct)
    (hhashed : relayBytes type payload routeId ∈ messages)
    (hhashed' : relayBytes type' payload' routeId' ∈ messages)
    (h : V1.relayKey cr type payload routeId = V1.relayKey cr type' payload' routeId') :
    Same (.relay type payload routeId) (.relay type' payload' routeId') := by
  have hbytes : relayBytes type payload routeId = relayBytes type' payload' routeId' :=
    hash hhashed hhashed' (hexdigest_inj h)
  have hrelay {type : RelayType} {payload : Payload} {routeId : String}
      (hfloats : (Json.obj payload).Floats Json.Distinct) :
      (Json.obj [("routeId", .str routeId), ("type", .str type.name),
        ("payload", .obj payload)]).Floats Json.Distinct := ⟨trivial, trivial, hfloats, trivial⟩
  have hsorted := Json.sortKeys_of_canonical (hrelay hfloats) (hrelay hfloats')
    (canonical_of_bytes hbytes)
  rw [sortKeys_relay, sortKeys_relay] at hsorted
  simp only [Json.obj.injEq, List.cons.injEq, Prod.mk.injEq, Json.str.injEq, true_and,
    and_true] at hsorted
  obtain ⟨hpayload, rfl, htype⟩ := hsorted
  obtain rfl := RelayType.name_injective htype
  exact .relay hpayload

/-! ## Different kinds -/

/-- A digest is written in digits and the letters up to `f`. -/
theorem relayKey_ne {type : RelayType} {payload : Payload} {routeId text : String}
    (h : ∃ c ∈ text.toList, isLowerHex c = false) : V1.relayKey cr type payload routeId ≠ text := by
  rintro rfl
  obtain ⟨c, hc, hnot⟩ := h
  have hdigits := isLowerHexText_hexdigest (cr.sha256 (relayBytes type payload routeId))
  rw [isLowerHexText, Bool.and_eq_true, List.all_eq_true] at hdigits
  rw [hdigits.2 c hc] at hnot
  cases hnot

theorem relayKey_ne_replayKey (type : RelayType) (payload : Payload) (routeId sid : String)
    (signal : Signal) : V1.relayKey cr type payload routeId ≠ V2.replayKey sid signal := by
  refine relayKey_ne ⟨'v', ?_, by decide⟩
  rw [toList_replayKey]
  exact List.mem_cons_self

theorem relayKey_ne_messageKey (type : RelayType) (payload : Payload) (routeId nodeId id : String) :
    V1.relayKey cr type payload routeId ≠ Server.messageKey nodeId id := by
  refine relayKey_ne ⟨'n', ?_, by decide⟩
  rw [toList_messageKey]
  exact List.mem_cons_self

theorem replayKey_ne_messageKey (sid nodeId id : String) (signal : Signal) :
    V2.replayKey sid signal ≠ Server.messageKey nodeId id := by
  intro h
  have hkeys := congrArg String.toList h
  rw [toList_replayKey, toList_messageKey] at hkeys
  exact absurd (List.cons.inj hkeys).1 (by decide)

/-! ## No collisions -/

/-- Equal keys of accepted messages, of which those that are hashed do not
collide, are keys of one message. -/
def KeysDistinct (m : MeshConfig) (cr : Crypto) (messages : Set Bytes) : Prop :=
  ∀ mark mark', Accepted m mark → Accepted m mark' → mark.Hashed messages →
    mark'.Hashed messages → mark.key cr = mark'.key cr → Same mark mark'

/-- A name that goes on after the name of another trusted node with a colon
goes on with more characters than an identifier can have besides. -/
def NamesApart (m : MeshConfig) : Prop :=
  ∀ nodeId ∈ m.trusted, ∀ rest, nodeId ++ ":" ++ rest ∈ m.trusted → 62 < rest.length

theorem length_of_validNodeEnvelope {message : Json} {type id : String} {payload : Payload}
    (h : validNodeEnvelope message = .ok (some (type, id, payload))) :
    1 ≤ id.length ∧ id.length ≤ 64 := by
  unfold validNodeEnvelope at h
  split at h
  · split at h
    · cases h
    obtain ⟨unknown, -, h⟩ := bind_eq_ok.mp h
    split at h
    · split at h
      · next hlength =>
          cases h
          exact hlength
      · cases h
    · cases h
  · cases h

theorem length_colon (name text : String) :
    (name ++ ":" ++ text).length = name.length + 1 + text.length := by
  rw [String.length_append, String.length_append]
  rfl

/-- An identifier that begins with what follows the colon. -/
theorem same_of_messageKey (hapart : NamesApart m) {nodeId nodeId' id id' : String}
    (htrusted : nodeId ∈ m.trusted) (htrusted' : nodeId' ∈ m.trusted)
    (hid : 1 ≤ id.length ∧ id.length ≤ 64) (hid' : 1 ≤ id'.length ∧ id'.length ≤ 64)
    (h : Server.messageKey nodeId id = Server.messageKey nodeId' id') :
    Same (.frame nodeId id) (.frame nodeId' id') := by
  obtain ⟨rfl, rfl⟩ | ⟨rest, rfl, rfl⟩ | ⟨rest, rfl, rfl⟩ := frame_cases h
  · exact .frame nodeId id
  · have hlong := hapart nodeId htrusted rest htrusted'
    rw [length_colon] at hid
    omega
  · have hlong := hapart nodeId' htrusted' rest htrusted
    rw [length_colon] at hid'
    omega

theorem keysDistinct_of_namesApart (hash : Set.InjOn cr.sha256 messages) (hapart : NamesApart m) :
    KeysDistinct m cr messages := by
  intro mark mark' haccepted haccepted' hhashed hhashed' hkeys
  cases haccepted with
  | signal hsession hvalid =>
      cases haccepted' with
      | signal hsession' hvalid' => exact same_of_replayKey hsession hsession' hkeys
      | frame htrusted' hvalid' => exact absurd hkeys (replayKey_ne_messageKey _ _ _ _)
      | relay hread' hvalid' => exact absurd hkeys.symm (relayKey_ne_replayKey _ _ _ _ _)
  | frame htrusted hvalid =>
      cases haccepted' with
      | signal hsession' hvalid' => exact absurd hkeys.symm (replayKey_ne_messageKey _ _ _ _)
      | frame htrusted' hvalid' =>
          exact same_of_messageKey hapart htrusted htrusted' (length_of_validNodeEnvelope hvalid)
            (length_of_validNodeEnvelope hvalid') hkeys
      | relay hread' hvalid' => exact absurd hkeys.symm (relayKey_ne_messageKey _ _ _ _ _)
  | relay hread hvalid =>
      cases haccepted' with
      | signal hsession' hvalid' => exact absurd hkeys (relayKey_ne_replayKey _ _ _ _ _)
      | frame htrusted' hvalid' => exact absurd hkeys (relayKey_ne_messageKey _ _ _ _ _)
      | relay hread' hvalid' =>
          exact same_of_relayKey hash (Accepted.relay hread hvalid : Accepted m _).floats
            (Accepted.relay hread' hvalid' : Accepted m _).floats hhashed hhashed' hkeys

/-- An acknowledgement with this identifier. -/
def ackOf (id : String) : Json :=
  .obj [("protocol", .str node), ("type", .str "ACK"), ("id", .str id), ("payload", .obj [])]

theorem accepted_ackOf {nodeId id : String} (htrusted : nodeId ∈ m.trusted)
    (hid : 1 ≤ id.length ∧ id.length ≤ 64) : Accepted m (.frame nodeId id) := by
  have hvalid : validNodeEnvelope (ackOf id) = .ok (some ("ACK", id, [])) := by
    show (if 1 ≤ id.length ∧ id.length ≤ 64 then Except.ok (some ("ACK", id, [])) else .ok none) = _
    exact if_pos hid
  exact .frame htrusted hvalid

theorem Same.node_eq {nodeId nodeId' id id' : String}
    (h : Same (.frame nodeId id) (.frame nodeId' id')) : nodeId = nodeId' := by
  cases h
  rfl

/-- Two nodes of which the names are not far enough apart share a key. -/
theorem shared_key {nodeId rest : String} (htrusted : nodeId ∈ m.trusted)
    (htrusted' : nodeId ++ ":" ++ rest ∈ m.trusted) (hshort : rest.length ≤ 62) :
    ¬ KeysDistinct m cr messages := by
  intro hdistinct
  have hid : 1 ≤ (rest ++ ":" ++ "x").length ∧ (rest ++ ":" ++ "x").length ≤ 64 := by
    have hone : "x".length = 1 := rfl
    rw [length_colon]
    omega
  have hkeys : Server.messageKey nodeId (rest ++ ":" ++ "x") =
      Server.messageKey (nodeId ++ ":" ++ rest) "x" := by
    refine String.toList_injective ?_
    rw [toList_messageKey, toList_messageKey]
    simp
  have hsame := hdistinct _ _ (accepted_ackOf htrusted hid) (accepted_ackOf htrusted' (by decide))
    trivial trivial hkeys
  have hlength := congrArg String.length hsame.node_eq
  rw [length_colon] at hlength
  omega

/-- No two messages share a key if and only if the names of the trusted nodes
are far enough apart. -/
theorem replay_keys_distinct_iff (m : MeshConfig) (cr : Crypto) (messages : Set Bytes)
    (hash : Set.InjOn cr.sha256 messages) : KeysDistinct m cr messages ↔ NamesApart m := by
  constructor
  · intro hdistinct nodeId htrusted rest htrusted'
    by_contra hshort
    exact shared_key htrusted htrusted' (Nat.le_of_not_lt hshort) hdistinct
  · exact keysDistinct_of_namesApart hash

/-! ## Two nodes -/

/-- Two relays on one route. -/
def lobby (data : Int) : Payload := [("data", .int data), ("routeId", .str "lobby")]

def lobbyRelays : Set Bytes :=
  {relayBytes .signal (lobby 1) "lobby", relayBytes .signal (lobby 2) "lobby"}

/-- The digests of these two. -/
def lobbyDigests : Crypto where
  sha256 data :=
    if data = relayBytes .signal (lobby 1) "lobby" then
      0x0c74b677d75d404b3c5e9293f6dbd49450b59b7535af78651bc83d52a2c0a808
    else 0xcf20ab83835b6a6d17002bdbb83ae09dad16daca22f6cb8b89ddd94cb4fcc1ae
  isPoint _ := true
  ecdsaVerify _ _ _ _ := true

theorem injOn_lobbyDigests : Set.InjOn lobbyDigests.sha256 lobbyRelays := by
  have hfirst : lobbyDigests.sha256 (relayBytes .signal (lobby 1) "lobby") ≠
      lobbyDigests.sha256 (relayBytes .signal (lobby 2) "lobby") := by decide +kernel
  rintro _ (rfl | rfl) _ (rfl | rfl) h
  · rfl
  · exact absurd h hfirst
  · exact absurd h.symm hfirst
  · rfl

/-- Names of one length are far enough apart. -/
theorem keysDistinct_trio : KeysDistinct .trio lobbyDigests lobbyRelays := by
  refine (replay_keys_distinct_iff _ _ _ injOn_lobbyDigests).mpr ?_
  have hnames : ∀ nodeId ∈ MeshConfig.trio.trusted, nodeId.length = 6 := by decide
  intro nodeId htrusted rest htrusted'
  have hlength := hnames _ htrusted'
  rw [length_colon, hnames nodeId htrusted] at hlength
  omega

/-- A node that trusts `a` and `a:b`. -/
def colonNames : MeshConfig where
  toConfig := .default
  trusted := {"a", "a:b"}
  trusted_nonempty := by decide
  trusted_card_le := by decide
  local_notMem := by decide

/-- The message `b:c` of the one is marked under the key of the message `c` of
the other. -/
theorem colon_collides :
    Accepted colonNames (.frame "a" "b:c") ∧ Accepted colonNames (.frame "a:b" "c") ∧
      (Mark.frame "a" "b:c").key default = (Mark.frame "a:b" "c").key default ∧
      ¬ Same (.frame "a" "b:c") (.frame "a:b" "c") := by
  refine ⟨accepted_ackOf (by decide) (by decide), accepted_ackOf (by decide) (by decide),
    by decide, fun hsame => ?_⟩
  exact absurd hsame.node_eq (by decide)

end Mark

end Masterserver
