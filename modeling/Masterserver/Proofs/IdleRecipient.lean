import Masterserver.Proofs.Directed
import Masterserver.Proofs.StrictLanguage

/-!
# Relaying to an idle recipient

A frame is checked for its size as it arrives, a relayed message as it is
queued, and in between it is decoded, changed and encoded again. The decoded
message written compactly has a size of its own, `encodedBytes`, and what the
endpoint changes adds to it exactly `Endpoint.growth`: a hop limit the sender
left out, or an identifier it left out. A recipient with nothing queued is
spared if and only if the sum is within the queue.
-/

namespace Masterserver

open Lib Protocol

/-! ## Sizes -/

/-- A member of an object with the colon in it and a comma or bracket after it. -/
def memberBytes (member : String × Json) : Nat :=
  String.utf8Len (quote member.1) + encodedBytes member.2 + 2

theorem utf8Len_dumpsMembers (members : Payload) :
    String.utf8Len (Json.dumpsMembers members) = 1 + (members.map memberBytes).sum := by
  induction members with
  | nil => decide
  | cons member rest ih =>
      obtain ⟨name, v⟩ := member
      rw [Json.dumpsMembers]
      simp only [String.utf8Len_cons, String.utf8Len_append, ih, List.map_cons, List.sum_cons,
        memberBytes, encodedBytes]
      have hcomma : ','.utf8Size = 1 := by decide
      have hcolon : ':'.utf8Size = 1 := by decide
      omega

theorem encodedBytes_obj {members : Payload} (h : members ≠ []) :
    encodedBytes (.obj members) = 1 + (members.map memberBytes).sum := by
  cases members with
  | nil => exact absurd rfl h
  | cons member rest =>
      obtain ⟨name, v⟩ := member
      unfold encodedBytes
      rw [Json.dumps]
      simp only [String.utf8Len_cons, String.utf8Len_append, utf8Len_dumpsMembers, List.map_cons,
        List.sum_cons, memberBytes, encodedBytes]
      have hbrace : '\x7b'.utf8Size = 1 := by decide
      have hcolon : ':'.utf8Size = 1 := by decide
      omega

theorem put_ne_nil (name : String) (v : Json) (members : Payload) :
    Dict.put name v members ≠ [] := by
  cases members with
  | nil => exact List.cons_ne_nil _ _
  | cons member rest =>
      rw [Dict.put]
      split
      · exact List.cons_ne_nil _ _
      · exact List.cons_ne_nil _ _

/-- A member written anew changes the sum by the sizes of its values. -/
theorem sum_put {name : String} {v old : Json} {members : Payload}
    (h : members.lookup name = some old) :
    ((Dict.put name v members).map memberBytes).sum + encodedBytes old =
      (members.map memberBytes).sum + encodedBytes v := by
  induction members with
  | nil => cases h
  | cons member rest ih =>
      obtain ⟨n, w⟩ := member
      rw [List.lookup_cons] at h
      by_cases hn : n = name
      · subst hn
        simp only [beq_self_eq_true, Option.some.injEq] at h
        subst h
        simp only [Dict.put, if_true, List.map_cons, List.sum_cons, memberBytes]
        omega
      · have hbeq : (name == n) = false := beq_eq_false_iff_ne.mpr fun heq => hn heq.symm
        rw [hbeq] at h
        have hrest := ih h
        simp only [Dict.put, if_neg hn, List.map_cons, List.sum_cons]
        omega

theorem sum_put_new {name : String} (v : Json) {members : Payload}
    (h : members.lookup name = none) :
    ((Dict.put name v members).map memberBytes).sum =
      (members.map memberBytes).sum + memberBytes (name, v) := by
  induction members with
  | nil => simp [Dict.put]
  | cons member rest ih =>
      obtain ⟨n, w⟩ := member
      rw [List.lookup_cons] at h
      by_cases hn : n = name
      · subst hn
        simp at h
      · have hbeq : (name == n) = false := beq_eq_false_iff_ne.mpr fun heq => hn heq.symm
        rw [hbeq] at h
        have hrest := ih h
        simp only [Dict.put, if_neg hn, List.map_cons, List.sum_cons]
        omega

/-! ## What an endpoint changes -/

/-- The payload of a message that has one. -/
def payloadMembers (message : Json) : Payload :=
  match message.get? "payload" with
  | some (.obj payload) => payload
  | _ => []

/-- The bytes a relayed message has over the message it came from: a hop limit
is added with its name and two separators, or counted down; `"id":null` is
added with its comma. -/
def Endpoint.growth (c : Config) (message : Json) : Endpoint → Int
  | .v1 =>
      match (payloadMembers message).lookup "ttl" with
      | none => 7 + encodedBytes (.int (c.maxHops - 1))
      | some (.int n) => encodedBytes (.int (n - 1)) - encodedBytes (.int n)
      | some _ => 0
  | .v2 => if (message.get? "id").isSome then 0 else 10

theorem encodedBytes_relayed {c : Config} {data payload : Payload}
    (hdata : data.lookup "payload" = some (.obj payload)) (hne : payload ≠ []) :
    (encodedBytes (V1.relayed c data payload) : Int) =
      encodedBytes (.obj data) + Endpoint.growth c (.obj data) .v1 := by
  have hpayload : payloadMembers (.obj data) = payload := by
    show (match data.lookup "payload" with | some (.obj payload) => payload | _ => []) = payload
    rw [hdata]
  have hdne : data ≠ [] := by
    rintro rfl
    cases hdata
  unfold V1.relayed V1.hopLimit Endpoint.growth
  rw [hpayload]
  simp only
  generalize hout : (Dict.put "ttl" _ payload) = out
  have houter := sum_put (v := .obj out) hdata
  rw [encodedBytes_obj (put_ne_nil _ _ _), encodedBytes_obj hdne]
  have hinner := encodedBytes_obj hne
  have hout' : encodedBytes (.obj out) = 1 + (out.map memberBytes).sum :=
    encodedBytes_obj (hout ▸ put_ne_nil _ _ _)
  have hmember (v : Json) : memberBytes ("ttl", v) = 7 + encodedBytes v := by
    have hname : String.utf8Len (quote "ttl") = 5 := by decide
    show String.utf8Len (quote "ttl") + encodedBytes v + 2 = _
    omega
  have hsame {old : Json} (httl : payload.lookup "ttl" = some old)
      (hold : Dict.put "ttl" old payload = out) :
      (out.map memberBytes).sum = (payload.map memberBytes).sum := by
    have hsum := sum_put (v := old) httl
    rw [hold] at hsum
    omega
  cases httl : payload.lookup "ttl" with
  | none =>
      rw [httl] at hout
      have hsum := sum_put_new (.int (c.maxHops - 1)) httl
      have heq : out = Dict.put "ttl" (.int (c.maxHops - 1)) payload := hout.symm
      rw [← heq, hmember] at hsum
      simp only
      omega
  | some old =>
      rw [httl] at hout
      cases old with
      | int n =>
          have hsum := sum_put (v := .int (n - 1)) httl
          have heq : out = Dict.put "ttl" (.int (n - 1)) payload := hout.symm
          rw [← heq] at hsum
          simp only
          omega
      | _ =>
          have hsize := hsame httl hout
          simp only
          omega

/-! ## The decoded message -/

/-- A text without a zero character is what its own code points stand for, and
nothing else. -/
theorem codes_of_textOf {codes : CodePoints} {s : String} (h : textOf codes = s)
    (hzero : ∀ c ∈ s.toList, c ≠ Char.ofNat 0) : codes = codePoints s := by
  have hlist : codes.map Char.ofNat = s.toList := by
    rw [← h, textOf, String.toList_ofList]
  have hcode : ∀ code ∈ codes, (Char.ofNat code).toNat = code := by
    intro code hcode
    have hmem : Char.ofNat code ∈ s.toList := hlist ▸ List.mem_map_of_mem hcode
    have hne := hzero _ hmem
    by_cases hvalid : code.isValidChar
    · have hof : Char.ofNat code = Char.ofNatAux code hvalid := dif_pos hvalid
      exact congrArg Char.toNat hof
    · have hof : Char.ofNat code = Char.ofNat 0 := dif_neg hvalid
      exact absurd hof hne
  calc codes = codes.map id := (List.map_id codes).symm
    _ = codes.map (Char.toNat ∘ Char.ofNat) :=
        List.map_congr_left fun code hmem => (hcode code hmem).symm
    _ = codePoints s := by rw [codePoints, ← hlist, List.map_map]

theorem toJsonMembers_eq_map (members : List (CodePoints × Decoded)) :
    Decoded.toJsonMembers members = members.map fun member => (textOf member.1, member.2.toJson) := by
  induction members with
  | nil => rfl
  | cons member rest ih =>
      obtain ⟨codes, v⟩ := member
      rw [Decoded.toJsonMembers, ih, List.map_cons]

/-- The names of a decoded envelope are distinct. -/
theorem nodup_envelope {limits : JsonLimits} {raw : List Char} {data : Payload}
    (h : loadsStrict limits raw = .ok (.obj data))
    (hnames : ∀ member ∈ data, member.1 ∈ envelopeNames) : (data.map Prod.fst).Nodup := by
  obtain ⟨-, -, v, hdecode, -, hvalue⟩ := loadsStrict_ok.mp h
  have hobjects := (decodeJson_strictHooks.mp hdecode).2
  cases v with
  | obj members =>
      have hunique : UniqueNames members := hobjects.1
      rw [Decoded.toJson, Json.obj.injEq, toJsonMembers_eq_map] at hvalue
      subst hvalue
      rw [List.map_map]
      have hall : (envelopeNames.all fun name => name.toList.all (· ≠ Char.ofNat 0)) = true := by
        decide +kernel
      have hzero : ∀ name ∈ envelopeNames, ∀ c ∈ name.toList, c ≠ Char.ofNat 0 := by
        simpa using hall
      have hcodes : ∀ member ∈ members, member.1 = codePoints (textOf member.1) := by
        intro member hmem
        exact codes_of_textOf rfl (hzero _ (hnames _ (List.mem_map_of_mem hmem)))
      have hmap : (members.map fun member => textOf member.1) =
          (members.map Prod.fst).map textOf := by rw [List.map_map]; rfl
      show (members.map fun member => textOf member.1).Nodup
      rw [hmap]
      refine List.Nodup.map_on ?_ hunique
      intro a ha b hb heq
      obtain ⟨x, hx, rfl⟩ := List.mem_map.mp ha
      obtain ⟨y, hy, rfl⟩ := List.mem_map.mp hb
      rw [hcodes x hx, hcodes y hy, heq]
  | _ => cases hvalue

/-- An envelope with its four members, or all but the identifier, in whatever
order they came. -/
theorem encodedBytes_outgoing {c : Config} {data : Payload} {signal : Signal} {id : Json}
    (hnodup : (data.map Prod.fst).Nodup) (hnames : ∀ member ∈ data, member.1 ∈ envelopeNames)
    (hprotocol : data.lookup "protocol" = some (.str signalV2))
    (htype : data.lookup "type" = some (.str "SIGNAL")) (hid : (data.lookup "id").getD .null = id)
    (hpayload : data.lookup "payload" = some (.obj signal.payload)) :
    (encodedBytes (V2.outgoing id signal) : Int) =
      encodedBytes (.obj data) + Endpoint.growth c (.obj data) .v2 := by
  let out : Payload := [("protocol", .str signalV2), ("type", .str "SIGNAL"), ("id", id),
    ("payload", .obj signal.payload)]
  have hget (name : String) (v : Json) : (name, v) ∈ data ↔ data.lookup name = some v :=
    Dict.mem_entries (d := ⟨data, hnodup⟩)
  have hperm (out' : Payload) (hout : (out'.map Prod.fst).Nodup)
      (hmem : ∀ name v, (name, v) ∈ out' ↔ (name, v) ∈ data) :
      (out'.map memberBytes).sum = (data.map memberBytes).sum := by
    have hd : data.Nodup := hnodup.of_map
    have ho : out'.Nodup := hout.of_map
    exact (((List.perm_ext_iff_of_nodup ho hd).mpr fun e => hmem e.1 e.2).map memberBytes).sum_eq
  have hdne : data ≠ [] := by
    rintro rfl
    cases hpayload
  -- A member of the message is one of the four, with the value it has there.
  have hcases (name : String) (v : Json) : (name, v) ∈ data ↔
      name = "protocol" ∧ v = .str signalV2 ∨ name = "type" ∧ v = .str "SIGNAL" ∨
        name = "id" ∧ data.lookup "id" = some v ∨
        name = "payload" ∧ v = .obj signal.payload := by
    rw [hget]
    constructor
    · intro hlookup
      have hname : name ∈ envelopeNames := hnames _ ((hget name v).mpr hlookup)
      simp only [envelopeNames, List.mem_cons, List.not_mem_nil, or_false] at hname
      rcases hname with rfl | rfl | rfl | rfl
      · exact .inl ⟨rfl, Option.some.inj (hlookup.symm.trans hprotocol)⟩
      · exact .inr (.inl ⟨rfl, Option.some.inj (hlookup.symm.trans htype)⟩)
      · exact .inr (.inr (.inl ⟨rfl, hlookup⟩))
      · exact .inr (.inr (.inr ⟨rfl, Option.some.inj (hlookup.symm.trans hpayload)⟩))
    · rintro (⟨rfl, rfl⟩ | ⟨rfl, rfl⟩ | ⟨rfl, h⟩ | ⟨rfl, rfl⟩)
      · exact hprotocol
      · exact htype
      · exact h
      · exact hpayload
  show ((encodedBytes (.obj out) : Nat) : Int) = _
  rw [encodedBytes_obj (List.cons_ne_nil _ _), encodedBytes_obj hdne]
  show _ = _ + (if (data.lookup "id").isSome = true then (0 : Int) else 10)
  cases hfound : data.lookup "id" with
  | some v =>
      rw [hfound, Option.getD_some] at hid
      subst hid
      have hout : (out.map Prod.fst).Nodup := by
        show ["protocol", "type", "id", "payload"].Nodup
        decide
      rw [hperm out hout fun name w => by
        rw [hcases, hfound]
        simp [out, eq_comm]]
      simp
  | none =>
      rw [hfound, Option.getD_none] at hid
      subst hid
      have hout : (["protocol", "type", "payload"] : List String).Nodup := by decide
      have hrest := hperm [("protocol", .str signalV2), ("type", .str "SIGNAL"),
        ("payload", .obj signal.payload)] hout fun name w => by
          rw [hcases, hfound]
          simp
      have hmember : memberBytes ("id", .null) = 10 := by decide
      simp only [List.map_cons, List.map_nil, List.sum_cons, List.sum_nil, hmember,
        Option.isSome_none, Bool.false_eq_true, if_false] at hrest ⊢
      omega

/-! ## The relayed message -/

/-- A frame that the endpoint accepts is relayed as `out`: the legacy endpoint
leaves it to the tasks of the relay, the second endpoint hands it to a session
or to the mesh. -/
inductive Relays (m : MeshConfig) (cr : Crypto) (trust : NodeTrust) (now : Clocks) (sid : String)
    (draws : Draws) (raw : List Char) (server : Server) (out : Json) : Endpoint → Prop
  | legacy (subscribers : List String) :
      (V1.receiveFrame m.toConfig cr now.monotonic sid draws raw server).next =
        .waiting (.relay subscribers out) →
      Relays m cr trust now sid draws raw server out .v1
  | direct (target : String) (delivered : Bool) :
      .sendSession target out delivered ∈
        (V2.receiveFrame m cr trust now sid draws raw server).effects →
      Relays m cr trust now sid draws raw server out .v2
  | forwarded (routeTag target : String) :
      .forwardSignal routeTag target out ∈
        (V2.receiveFrame m cr trust now sid draws raw server).effects →
      Relays m cr trust now sid draws raw server out .v2

theorem lookup_of_get {data : Payload} {name : String} {v : Json} (h : data.get name = v)
    (hv : v ≠ .null) : data.lookup name = some v := by
  unfold Payload.get at h
  cases hlookup : data.lookup name with
  | none =>
      rw [hlookup] at h
      exact absurd h.symm hv
  | some w =>
      rw [hlookup] at h
      exact congrArg some h

theorem lookup_payload {data payload : Payload} (h : payloadOf (data.get "payload") = some payload)
    (hne : payload ≠ []) : data.lookup "payload" = some (.obj payload) := by
  refine lookup_of_get ?_ nofun
  cases hget : data.get "payload" with
  | null =>
      rw [hget] at h
      cases h
      exact absurd rfl hne
  | obj members =>
      rw [hget] at h
      cases h
      rfl
  | _ =>
      rw [hget] at h
      cases h

/-- The envelope is an object. -/
theorem validateEnvelope_data {message : Json} {e : Envelope}
    (h : validateEnvelope message = .ok e) : message = .obj e.data := by
  cases message with
  | obj data => rw [(validateEnvelope_ok.mp h).2.2.2.2.2]
  | _ => cases h

theorem validateRelayV1_ok {type type' : RelayType} {e : Envelope} {data payload : Payload}
    {routeId : String} (h : validateRelayV1 type e = .ok (.relay type' data payload routeId)) :
    data = e.data ∧ payload = e.payload ∧ payload ≠ [] := by
  unfold validateRelayV1 at h
  obtain ⟨text, htext, h⟩ := bind_eq_ok.mp h
  obtain ⟨_, -, h⟩ := bind_eq_ok.mp h
  cases h
  refine ⟨rfl, rfl, ?_⟩
  intro hnil
  rw [hnil] at htext
  cases htext

/-- A message that the legacy endpoint relays was validated as one. -/
theorem validateRelayV1_of_message {message : Json} {type : RelayType} {data payload : Payload}
    {routeId : String} (h : validateV1Message message = .ok (.relay type data payload routeId)) :
    ∃ e type', validateEnvelope message = .ok e ∧
      validateRelayV1 type' e = .ok (.relay type data payload routeId) := by
  unfold validateV1Message at h
  obtain ⟨e, he, hrest⟩ := bind_eq_ok.mp h
  have hroute {make : String → V1Message} (hne : ∀ text, make text ≠ .relay type data payload routeId) :
      validateRouteRequestV1 make e ≠ .ok (.relay type data payload routeId) := by
    unfold validateRouteRequestV1
    intro h
    obtain ⟨text, -, h⟩ := bind_eq_ok.mp h
    split at h
    · exact hne text (Except.ok.inj h)
    · cases h
  refine ⟨e, ?_⟩
  split at hrest
  · cases hrest
  split at hrest
  · cases hrest
  split at hrest
  · split at hrest
    · obtain ⟨text, -, hrest⟩ := map_eq_ok.mp hrest
      cases hrest
    · cases hrest
  split at hrest
  · split at hrest
    · obtain ⟨text, -, hrest⟩ := map_eq_ok.mp hrest
      cases hrest
    · cases hrest
  split at hrest
  · split at hrest <;> cases hrest
  split at hrest
  · exact absurd hrest (hroute fun _ => nofun)
  split at hrest
  · exact absurd hrest (hroute fun _ => nofun)
  split at hrest
  · exact absurd hrest (hroute fun _ => nofun)
  split at hrest
  · exact ⟨_, he, hrest⟩
  split at hrest
  · exact ⟨_, he, hrest⟩
  · exact ⟨_, he, hrest⟩

/-- It has its route in its payload. -/
theorem relay_of_message {message : Json} {type : RelayType} {data payload : Payload}
    {routeId : String} (h : validateV1Message message = .ok (.relay type data payload routeId)) :
    message = .obj data ∧ data.lookup "payload" = some (.obj payload) ∧ payload ≠ [] := by
  obtain ⟨e, _, he, hrelay⟩ := validateRelayV1_of_message h
  obtain ⟨rfl, rfl, hne⟩ := validateRelayV1_ok hrelay
  obtain rfl := validateEnvelope_data he
  have hpayload := (validateEnvelope_ok.mp he).2.2.2.2.1
  exact ⟨rfl, lookup_payload hpayload hne, hne⟩

theorem eq_idJson {value : Json} {id : Option String} (h : validateId value = .ok id) :
    value = idJson id := by
  unfold validateId at h
  split at h
  · cases h
    rfl
  · split at h
    · cases h
      rfl
    · cases h
  · cases h

/-- Only a SIGNAL is read as one. -/
theorem signal_of_request {e : Envelope} {signal : Signal}
    (h : validateV2Request e = .ok (.signal signal)) (htable : (e.type, e.protocol) ∈ v2Table) :
    e.type = "SIGNAL" ∧ e.protocol = signalV2 ∧ e.payload = signal.payload := by
  unfold validateV2Request at h
  split at h
  · exact absurd h validateHelloV2_ne_signal
  next hhello =>
  split at h
  · split at h
    · obtain ⟨text, -, h⟩ := map_eq_ok.mp h
      cases h
    · cases h
  next hprove =>
  split at h
  · split at h <;> cases h
  next hping =>
  split at h
  · exact absurd h (validateRouteRequestV2_ne_signal nofun)
  next hattach =>
  split at h
  · exact absurd h (validateRouteRequestV2_ne_signal nofun)
  next hdetach =>
  split at h
  · exact absurd h (validateRouteRequestV2_ne_signal nofun)
  next hdiscover =>
  obtain ⟨signal', hsignal, heq⟩ := map_eq_ok.mp h
  cases heq
  simp only [v2Table, List.mem_cons, List.not_mem_nil, or_false, Prod.mk.injEq, hhello, hprove,
    hping, hattach, hdetach, hdiscover, false_and, false_or] at htable
  exact ⟨htable.1, htable.2, (validateSignalV2_ok.mp hsignal).payload_eq.symm⟩

theorem signal_of_message {message : Json} {id : Option String} {signal : Signal}
    (h : validateV2Message message = .ok ⟨id, .signal signal⟩) :
    ∃ data, message = .obj data ∧ (∀ member ∈ data, member.1 ∈ envelopeNames) ∧
      data.lookup "protocol" = some (.str signalV2) ∧ data.lookup "type" = some (.str "SIGNAL") ∧
      (data.lookup "id").getD .null = idJson id ∧
      data.lookup "payload" = some (.obj signal.payload) := by
  unfold validateV2Message at h
  simp only [wrongNamespace, bind_eq_ok, bind_unless_ok, not_not, expectedProtocolV2_iff] at h
  obtain ⟨e, he, -, htable, request, hrequest, heq⟩ := h
  cases heq
  obtain rfl := validateEnvelope_data he
  obtain ⟨hnames, ⟨hprotocol, -⟩, ⟨htype, -⟩, hid, hpayload, -⟩ := validateEnvelope_ok.mp he
  obtain ⟨hsignal, hv2, hsame⟩ := signal_of_request hrequest htable
  rw [hv2] at hprotocol
  rw [hsignal] at htype
  rw [hsame] at hpayload
  have hsome : ∀ {text : String}, Json.str text ≠ .null := fun h => by cases h
  refine ⟨e.data, rfl, hnames, lookup_of_get hprotocol hsome, lookup_of_get htype hsome, ?_,
    lookup_payload hpayload ?_⟩
  · exact eq_idJson hid
  · intro hnil
    have hfields := (validateSignalV2_ok.mp (validateSignalV2_of_request hrequest)).fields
    rw [hnil] at hfields
    exact absurd hfields.length_eq (by decide)

theorem V2.Relayed.handover {now : Clocks} {sid : String} {id out : Json} {signal : Signal}
    {server : Server} {effects : List Effect} (h : Relayed now sid id signal server effects)
    {e : Effect} (he : e ∈ effects) (hout : e.handover? = some out) : out = outgoing id signal := by
  have hno {rest : List Effect} (hrest : ∀ e ∈ rest, e.quiet = true ∧ e.handover? = none)
      (hmem : e ∈ rest) : out = outgoing id signal := by
    rw [(hrest e hmem).2] at hout
    cases hout
  cases h with
  | answered hrest => exact hno hrest he
  | delivered delivered hrest _ =>
      rcases List.mem_cons.mp he with rfl | he
      · exact (Option.some.inj hout).symm
      · exact hno hrest he
  | forwarded hrest =>
      rcases List.mem_cons.mp he with rfl | he
      · exact (Option.some.inj hout).symm
      · exact hno hrest he

theorem Relays.encodedBytes {m : MeshConfig} {cr : Crypto} {trust : NodeTrust} {now : Clocks}
    {sid : String} {draws : Draws} {raw : List Char} {server : Server} {out data : Json}
    {endpoint : Endpoint} (h : Relays m cr trust now sid draws raw server out endpoint)
    (hdata : loadsStrict m.jsonLimits raw = .ok data) :
    (Masterserver.encodedBytes out : Int) =
      Masterserver.encodedBytes data + endpoint.growth m.toConfig data := by
  have hsignal (hmem : ∃ e ∈ (V2.receiveFrame m cr trust now sid draws raw server).effects,
      e.handover? = some out) :
      (Masterserver.encodedBytes out : Int) =
        Masterserver.encodedBytes data + Endpoint.growth m.toConfig data .v2 := by
    obtain ⟨e, hmem, hhandover⟩ := hmem
    obtain hsettled | ⟨-, message, id, signal, sess, hdecoded, hmessage, -, -, haccepted⟩ :=
      V2.receiveFrame_cases m cr trust now sid draws raw server
    · have hsilent := hsettled.silent e hmem
      cases e with
      | sendSession target message delivered => cases hsilent
      | forwardSignal routeTag target message => cases hsilent
      | _ => cases hhandover
    · rw [hdata] at hdecoded
      cases hdecoded
      obtain ⟨d, rfl, hnames, hprotocol, htype, hid, hpayload⟩ := signal_of_message hmessage
      obtain ⟨server', rest, -, -, heffects, hrelayed⟩ := haccepted.relayed
      rw [heffects] at hmem
      obtain rfl : out = V2.outgoing (idJson id) signal := by
        obtain rfl | hmem := List.mem_cons.mp hmem
        · cases hhandover
        · exact hrelayed.handover hmem hhandover
      exact encodedBytes_outgoing (nodup_envelope hdata hnames) hnames hprotocol htype hid hpayload
  cases h with
  | legacy subscribers hnext =>
      obtain hsettled | ⟨message, type, d, payload, routeId, sess, hdecoded, hmessage, -, -, hleft⟩ :=
        V1.receiveFrame_cases m.toConfig cr now.monotonic sid draws raw server
      · exact absurd hnext (hsettled.next subscribers out)
      · rw [hdata] at hdecoded
        cases hdecoded
        obtain ⟨rfl, hpayload, hne⟩ := relay_of_message hmessage
        have hout := hleft.next.symm.trans hnext
        cases hout
        exact encodedBytes_relayed hpayload hne
  | direct target delivered hmem => exact hsignal ⟨_, hmem, rfl⟩
  | forwarded routeTag target hmem => exact hsignal ⟨_, hmem, rfl⟩

theorem Hub.sendSession_idle {c : Config} {hub : Hub} {target : String} {sess : Session}
    (hsess : hub.sessions.get? target = some sess) (hqueue : sess.outboundQueue = [])
    (hbytes : sess.outboundBytes = 0) (out : Json) :
    (hub.sendSession c target out).2 = true ↔ (encodedBytes out : Int) ≤ c.outboundQueueBytes := by
  rw [Hub.sendSession_eq_true, Hub.HasRoom]
  have hroom := c.outboundQueueFrames_pos
  simp only [hsess, Option.some.injEq, exists_eq_left', hqueue, hbytes, List.length_nil, hroom,
    true_and, zero_add]

/-- A frame that its endpoint accepts and relays finds room at an idle
recipient if and only if the decoded message, written compactly, and what the
endpoint adds to it are within the queue. -/
theorem idle_recipient_accepts_iff {m : MeshConfig} {cr : Crypto} {trust : NodeTrust} {now : Clocks}
    {sid : String} {draws : Draws} {raw : List Char} {server : Server} {out data : Json}
    {endpoint : Endpoint} (h : Relays m cr trust now sid draws raw server out endpoint)
    (hdata : loadsStrict m.jsonLimits raw = .ok data) {hub : Hub} {target : String} {sess : Session}
    (hsess : hub.sessions.get? target = some sess) (hqueue : sess.outboundQueue = [])
    (hbytes : sess.outboundBytes = 0) :
    (hub.sendSession m.toConfig target out).2 = true ↔
      encodedBytes data + endpoint.growth m.toConfig data ≤ m.outboundQueueBytes := by
  rw [Hub.sendSession_idle hsess hqueue hbytes, h.encodedBytes hdata]

namespace Sample

/-- An outbound queue that holds one frame of the largest size. -/
def tight : MeshConfig where
  toConfig := ⟨{ maxFrameBytes := 1024, outboundQueueBytes := 1024 }, by decide +kernel⟩
  trusted := ∅
  trusted_nonempty := MeshConfig.alone.trusted_nonempty
  trusted_card_le := MeshConfig.alone.trusted_card_le
  local_notMem h := by cases h

/-- Two proven sessions of the legacy endpoint are attached to a route. -/
def legacyServer : Server :=
  let hub := ((Hub.new tight.toConfig 0).createSession 0 "s").createSession 0 "t"
  let proven (hub : Hub) (sid : String) : Hub :=
    ((hub.updateSession sid fun sess => { sess with proven := true }).attachRoute tight.toConfig 0
      sid "r" none none).1
  ⟨proven (proven hub "s") "t", .new .alone "", .new 1 1 0⟩

/-- A message of `83 + 10 * n` bytes without a hop limit. -/
def filling (n : Nat) : Json :=
  messageOf Protocol.signal "SIGNAL" [("payload", .obj [("routeId", .str "r"),
    ("data", .arr (List.replicate n (.int 123456789)))])]

/-- Such a message is relayed, and with what is added to it it has this size. -/
def relayedBytes (n : Nat) : Option Int :=
  match (V1.receiveFrame tight.toConfig crypto 0 "s" draws (filling n).dumps legacyServer).next,
      loadsStrict tight.jsonLimits (filling n).dumps with
  | .waiting (.relay _ _), .ok data => some (encodedBytes data + Endpoint.growth tight.toConfig data .v1)
  | _, _ => none

theorem relays_of_relayedBytes {n : Nat} {size : Int} (h : relayedBytes n = some size) :
    ∃ out data, Relays tight crypto trust ⟨0, 0⟩ "s" draws (filling n).dumps legacyServer out .v1 ∧
      loadsStrict tight.jsonLimits (filling n).dumps = .ok data ∧
      encodedBytes data + Endpoint.growth tight.toConfig data .v1 = size := by
  unfold relayedBytes at h
  split at h
  · next subscribers out data hnext hdata =>
      exact ⟨out, data, .legacy subscribers hnext, hdata, Option.some.inj h⟩
  · cases h

/-- Nothing is queued to the recipient. -/
theorem idle_recipient : ∃ sess, legacyServer.hub.sessions.get? "t" = some sess ∧
    sess.outboundQueue = [] ∧ sess.outboundBytes = 0 := by
  have hidle : (legacyServer.hub.sessions.get? "t").any
      (fun sess => sess.outboundQueue.isEmpty && sess.outboundBytes == 0) = true := by
    decide +kernel
  obtain ⟨sess, hsess, hidle⟩ := (Option.any_eq_true _ _).mp hidle
  rw [Bool.and_eq_true, List.isEmpty_iff, beq_iff_eq] at hidle
  exact ⟨sess, hsess, hidle⟩

end Sample

/-- A short message is queued. -/
theorem idle_recipient_accepts_short :
    ∃ out, Relays Sample.tight Sample.crypto Sample.trust ⟨0, 0⟩ "s" Sample.draws
        (Sample.filling 1).dumps Sample.legacyServer out .v1 ∧
      (Sample.legacyServer.hub.sendSession Sample.tight.toConfig "t" out).2 = true := by
  have hsize : Sample.relayedBytes 1 = some 101 := by decide +kernel
  obtain ⟨out, data, hrelays, hdata, hbytes⟩ := Sample.relays_of_relayedBytes hsize
  obtain ⟨sess, hsess, hqueue, hidle⟩ := Sample.idle_recipient
  refine ⟨out, hrelays, (idle_recipient_accepts_iff hrelays hdata hsess hqueue hidle).mpr ?_⟩
  rw [hbytes]
  decide

/-- A message within the frame size is refused with its hop limit. -/
theorem idle_recipient_closed :
    ∃ out sess, Relays Sample.tight Sample.crypto Sample.trust ⟨0, 0⟩ "s" Sample.draws
        (Sample.filling 94).dumps Sample.legacyServer out .v1 ∧
      String.utf8Len (Sample.filling 94).dumps ≤ Sample.tight.maxFrameBytes ∧
      Sample.legacyServer.hub.sessions.get? "t" = some sess ∧ sess.outboundQueue = [] ∧
      sess.outboundBytes = 0 ∧
      (Sample.legacyServer.hub.sendSession Sample.tight.toConfig "t" out).2 = false := by
  have hrun : Sample.relayedBytes 94 = some 1031 ∧
      String.utf8Len (Sample.filling 94).dumps ≤ Sample.tight.maxFrameBytes := by decide +kernel
  obtain ⟨out, data, hrelays, hdata, hbytes⟩ := Sample.relays_of_relayedBytes hrun.1
  obtain ⟨sess, hsess, hqueue, hidle⟩ := Sample.idle_recipient
  refine ⟨out, sess, hrelays, hrun.2, hsess, hqueue, hidle, ?_⟩
  rw [Bool.eq_false_iff, ne_eq, Hub.sendSession_idle hsess hqueue hidle, hrelays.encodedBytes hdata,
    hbytes]
  decide

end Masterserver
