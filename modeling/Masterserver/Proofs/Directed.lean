import Masterserver.Proofs.Isolation

/-!
# Directed delivery

What `_handle_v2_signal` has established when it queues a signal, said about
the hub it finds. The recipient's key is looked up in the hub or, failing
that, in the mesh, and the delivery reads the route table: that the two agree
follows from the records of the sessions, since a subscriber is a proven
session and every proven session of the second endpoint has a descriptor.

The handler of a peer's SIGNAL_FORWARD takes the same decision from the route
table alone. `forwarded_to_recipient_iff` says for which messages and states
it comes to the same.
-/

namespace Masterserver

open Lib Hub Protocol

namespace ServerRun

variable {m : MeshConfig} {cr : Crypto} {trust : NodeTrust} {s s' : ServerRun} {sid : String}

/-- The keys of a proven session of the second endpoint. -/
structure ProvenKeys (cr : Crypto) (sess : Session) (key encryptionKey : String) : Prop where
  proven : sess.proven = true
  protocolVersion : sess.protocolVersion = 2
  identityKeyHex : sess.identityKeyHex = some key
  publicKeyRaw : sess.publicKeyRaw = fromHex key
  encryptionKeyHex : sess.encryptionKeyHex = some encryptionKey
  encryptionKeyId : sess.encryptionKeyId = keyIdOf cr encryptionKey

theorem Sound.provenKeys (h : Sound m cr trust s) {sess : Session} {conn : Connection}
    (hs : s.server.hub.sessions.get? sid = some sess)
    (hconn : s.connections.get? sid = some conn) (hv2 : conn.endpoint = .v2)
    (hp : sess.proven = true) : ∃ key encryptionKey, ProvenKeys cr sess key encryptionKey := by
  obtain ⟨conn', hello, signature, hconn', hby⟩ := h.provenBy hs hp
  rw [hconn] at hconn'
  cases hconn'
  have hadm := hby.admitted
  rw [hv2] at hadm
  obtain ⟨grant, now, key, encryptionKey, -, hkey, henc, hraw, -⟩ := hadm
  have hcred := hby.credentials
  refine ⟨key, encryptionKey, hp, ?_, ?_, ?_, ?_, ?_⟩
  · have hversion := congrArg Credentials.protocolVersion hcred
    simpa [Hello.credentials, hkey, Session.credentials] using hversion
  · exact (congrArg Credentials.identityKeyHex hcred).trans hkey
  · exact (congrArg Credentials.publicKeyRaw hcred).trans hraw
  · exact (congrArg Credentials.encryptionKeyHex hcred).trans henc
  · have hid := congrArg Credentials.encryptionKeyId hcred
    simpa [Hello.credentials, henc, Session.credentials] using hid

/-- A proven session of the second endpoint has a descriptor. -/
theorem ProvenKeys.peerDescriptor {hub : Hub} {sess : Session} {key encryptionKey : String}
    (h : ProvenKeys cr sess key encryptionKey) (hs : hub.sessions.get? sid = some sess) :
    hub.peerDescriptor sid = some ⟨sid, some encryptionKey, keyIdOf cr encryptionKey⟩ := by
  unfold Hub.peerDescriptor
  rw [hs]
  simp only [h.proven, h.protocolVersion, h.encryptionKeyHex, h.encryptionKeyId]
  rfl

theorem recipientKeyId_eq {now : Clocks} {target : String} {server : Server}
    {d : PeerDescriptor} (h : server.hub.peerDescriptor target = some d) :
    (V2.recipientKeyId now target server).2.bind Json.str? = d.keyId := by
  unfold V2.recipientKeyId
  rw [h]
  obtain ⟨_, _, keyId⟩ := d
  cases keyId with
  | none => rfl
  | some keyId => rfl

/-- The new watermark changes nothing that a descriptor shows. -/
theorem peerDescriptor_watermarked (sid : String) (signal : Signal) (server : Server)
    (target : String) :
    (V2.watermarked sid signal server).hub.peerDescriptor target =
      server.hub.peerDescriptor target := by
  unfold V2.watermarked Hub.peerDescriptor
  rw [get?_updateSession]
  by_cases heq : target = sid
  · rw [if_pos heq]
    cases server.hub.sessions.get? target with
    | none => rfl
    | some sess => rfl
  · rw [if_neg heq]

/-- What holds of a signal when it is queued to a session here. -/
structure DirectedTo (cr : Crypto) (now : Clocks) (hub : Hub) (sid : String) (signal : Signal)
    (sender recipient : Session) : Prop where
  other : signal.toSessionId ≠ sid
  recipient_get : hub.sessions.get? signal.toSessionId = some recipient
  proven : recipient.proven = true
  protocolVersion : recipient.protocolVersion = 2
  leased : hub.Leased now.monotonic signal.routeTag signal.toSessionId
  keyId : ∃ encryptionKey, recipient.encryptionKeyHex = some encryptionKey ∧
    keyIdOf cr encryptionKey = some signal.keyId
  fromSessionId : signal.fromSessionId = sid
  sender_get : hub.sessions.get? sid = some sender
  signature : ∃ key signature, sender.identityKeyHex = some key ∧
    signal.senderIdentityKeyHex = key ∧ fromHex signal.signatureHex = some signature ∧
    verifySignature cr (fromHex key) (V2.signedBytes signal.payload) signature = true

theorem Sound.directedTo (h : Sound m cr trust s) (hsecond : ∀ sid conn,
      s.connections.get? sid = some conn → conn.endpoint = .v2)
    {now : Clocks} {sender : Session} {signal : Signal} {server : Server}
    (hs : s.server.hub.sessions.get? sid = some sender) (hproven : sender.proven = true)
    (hchecked : V2.SignalChecked cr sid sender signal)
    (htables : s.server.hub.SameTables server.hub)
    (hlocal : V2.LocalRecipient now sid signal (V2.watermarked sid signal server)) :
    ∃ recipient, DirectedTo cr now s.server.hub sid signal sender recipient := by
  obtain ⟨hsub, hother⟩ := mem_routeSubscribers.mp hlocal.subscribed
  have hleased : s.server.hub.Leased now.monotonic signal.routeTag signal.toSessionId := by
    unfold Leased V2.watermarked at hsub
    rw [routes_updateSession, htables.routes] at hsub
    exact hsub
  obtain ⟨recipient, hrecipient, hp⟩ := h.proven_of_subscribed hleased.subscribed
  obtain ⟨conn, hconn⟩ := h.connected _ _ hrecipient
  obtain ⟨_, encryptionKey, hkeys⟩ :=
    h.provenKeys hrecipient hconn (hsecond _ _ hconn) hp
  have hdescriptor : (V2.watermarked sid signal server).hub.peerDescriptor signal.toSessionId =
      some ⟨signal.toSessionId, some encryptionKey, keyIdOf cr encryptionKey⟩ := by
    rw [peerDescriptor_watermarked]
    exact hkeys.peerDescriptor (by rw [htables.sessions]; exact hrecipient)
  have hkeyId := hlocal.keyId
  rw [recipientKeyId_eq hdescriptor] at hkeyId
  obtain ⟨conn', hconn'⟩ := h.connected _ _ hs
  obtain ⟨key, _, hsender⟩ := h.provenKeys hs hconn' (hsecond _ _ hconn') hproven
  obtain ⟨signature, hsignature, hverified⟩ := hchecked.signature
  rw [hsender.publicKeyRaw] at hverified
  have hidentity := hchecked.senderIdentityKeyHex
  rw [hsender.identityKeyHex] at hidentity
  exact ⟨recipient, fun heq => hother (heq ▸ rfl), hrecipient, hp, hkeys.protocolVersion, hleased,
    ⟨encryptionKey, hkeys.encryptionKeyHex, hkeyId⟩, hchecked.fromSessionId, hs,
    key, signature, hsender.identityKeyHex, Option.some.inj hidentity, hsignature, hverified⟩

/-- In every run of clients of the second endpoint: a signal that the endpoint
queues to a session is directed to it. -/
theorem directed_delivery_safe (h : (secondSystem m cr trust).Reachable s) {e : ServerEvent}
    (hstep : (secondSystem m cr trust).step s e s') {target : String} {message : Json}
    {delivered : Bool}
    (hmem : ⟨.client .v2 sid, .sendSession target message delivered⟩ ∈
      s'.log.drop s.log.length) :
    ∃ id signal sender recipient, message = V2.outgoing id signal ∧
      validateSignalV2 signal.payload = .ok signal ∧ signal.toSessionId = target ∧
      ProvenUnder m cr trust (s.effectsOf sid) sender ∧
      DirectedTo cr e.now s.server.hub sid signal sender recipient := by
  obtain ⟨-, -, rfl⟩ := hstep
  have hsecond : ∀ sid conn, s.connections.get? sid = some conn → conn.endpoint = .v2 :=
    fun sid conn hconn => second_of_reachable h hconn
  have hsound := sound_of_reachable h.of_restrict
  obtain ⟨entries, hlog, hover⟩ := handover_after m cr trust s e
  rw [hlog, List.drop_left] at hmem
  cases hover with
  | silent hsilent => cases hsilent _ hmem
  | @signal other _ _ conn data id signal sender effects _ hconn hv2 hmessage hs hproven haccepted =>
      obtain ⟨server', rest, htables, -, rfl, hrelayed⟩ := haccepted.relayed
      obtain ⟨effect, heffect, heq⟩ := List.mem_map.mp hmem
      cases heq
      rcases List.mem_cons.mp heffect with heq | heffect
      · cases heq
      obtain ⟨rfl, rfl, hlocal⟩ := Relayed.sendSession_mem hrelayed heffect
      obtain ⟨recipient, hdirected⟩ :=
        hsound.directedTo hsecond hs hproven haccepted.checked htables hlocal
      exact ⟨idJson id, signal, sender, recipient, rfl, validateSignalV2_of_message hmessage rfl, rfl,
        hsound.provenUnder hs hconn hv2 hproven, hdirected⟩
  | relay hop hrelay hphase =>
      have hv1 := relays_legacy h.of_restrict _ _ _ _ hrelay hphase
      rw [hsecond _ _ hrelay] at hv1
      cases hv1
  | forward =>
      obtain ⟨effect, -, heq⟩ := List.mem_map.mp hmem
      cases heq

/-- The signal of one session of a pair to the other. -/
theorem directed_delivery_safe_pair :
    ∃ id signal sender recipient message, message = V2.outgoing id signal ∧
      signal.toSessionId = "t" ∧
      DirectedTo Sample.crypto ⟨0, 0⟩ Sample.beforeDirected.server.hub "s" signal sender
        recipient := by
  obtain ⟨hreach, hstep, ⟨message, hmem⟩, -⟩ := Sample.directed_delivered
  obtain ⟨id, signal, sender, recipient, hmessage, -, hto, -, hdirected⟩ :=
    directed_delivery_safe hreach hstep hmem
  exact ⟨id, signal, sender, recipient, message, hmessage, hto, hdirected⟩

end ServerRun

/-! ## The same decision for a peer -/

/-- The recipient a signal may be delivered to: a proven session of the second
endpoint with a live lease on the route and the key the signal is for. -/
structure Hub.Recipient (hub : Hub) (now : Seconds) (target routeTag keyId : String) : Prop where
  leased : hub.Leased now routeTag target
  session : ∃ sess, hub.sessions.get? target = some sess ∧ sess.proven = true ∧
    sess.protocolVersion = 2 ∧ sess.encryptionKeyId = some keyId

/-- Whether a message of this size can be queued to a session. -/
def Hub.HasRoom (hub : Hub) (c : Config) (target : String) (size : Nat) : Prop :=
  ∃ sess, hub.sessions.get? target = some sess ∧
    sess.outboundQueue.length < c.outboundQueueFrames ∧
    sess.outboundBytes + size ≤ c.outboundQueueBytes

theorem Hub.sendSession_eq_true {hub : Hub} {c : Config} {target : String} {message : Json} :
    (hub.sendSession c target message).2 = true ↔ hub.HasRoom c target (encodedBytes message) := by
  unfold Hub.sendSession Hub.HasRoom
  split
  · next hs => simp [hs]
  · next sess hs =>
      simp only [hs, Option.some.injEq, exists_eq_left']
      split
      · next hfull =>
          refine ⟨(fun h => by cases h), fun hroom => ?_⟩
          omega
      · next hroom =>
          rw [not_or, not_le, not_lt] at hroom
          exact ⟨fun _ => hroom, fun _ => rfl⟩

theorem Hub.peerDescriptor_keyId {hub : Hub} {target keyId : String} :
    (∃ d, hub.peerDescriptor target = some d ∧ d.keyId = some keyId) ↔
      ∃ sess, hub.sessions.get? target = some sess ∧ sess.proven = true ∧
        sess.protocolVersion = 2 ∧ sess.encryptionKeyId = some keyId := by
  unfold Hub.peerDescriptor
  cases hub.sessions.get? target with
  | none => simp
  | some sess =>
      simp only [Option.some.injEq, exists_eq_left']
      split
      · next h =>
          refine ⟨nofun, fun ⟨hp, hv, _⟩ => ?_⟩
          simp [hp, hv] at h
      · next h =>
          simp only [Bool.or_eq_true, not_or, Bool.not_eq_true', Bool.not_eq_false, bne_iff_ne,
            ne_eq, not_not] at h
          simp [h.1, h.2]

namespace Server

variable {m : MeshConfig} {now : Clocks} {link : Nat} {server : Server} {payload : Payload}

/-- The handler of a SIGNAL_FORWARD queues the envelope to a session. -/
def QueuesForward (m : MeshConfig) (now : Clocks) (link : Nat) (server : Server)
    (payload : Payload) (target : String) : Prop :=
  ∃ step, server.handleSignalForward m now link payload = some step ∧
    .sendSession target (payload.get "envelope") true ∈ step.effects

/-- A SIGNAL_FORWARD as the handler checks it: its envelope is a signal for the
session and the route it names, and the session has a live lease there. -/
structure Forwards (now : Clocks) (server : Server) (payload : Payload) (signal : Signal) :
    Prop where
  message : ∃ id, validateV2Message (payload.get "envelope") = .ok ⟨id, .signal signal⟩
  target : payload.get "targetSessionId" = .str signal.toSessionId
  routeTag : payload.get "routeTag" = .str signal.routeTag
  leased : server.hub.Leased now.monotonic signal.routeTag signal.toSessionId

theorem validForward_of_signal {id : Option String} {signal : Signal}
    (h : validateV2Message (payload.get "envelope") = .ok ⟨id, .signal signal⟩)
    (htarget : payload.get "targetSessionId" = .str signal.toSessionId)
    (htag : payload.get "routeTag" = .str signal.routeTag) :
    validForward payload = some true := by
  unfold validForward
  cases henvelope : payload.get "envelope" with
  | obj envelope =>
      rw [henvelope] at h
      simp only [h, htarget, htag, Json.str?, beq_self_eq_true, Bool.and_self]
  | _ =>
      rw [henvelope] at h
      cases h

theorem queuesForward_iff {target : String} :
    QueuesForward m now link server payload target ↔
      ∃ signal, Forwards now server payload signal ∧ signal.toSessionId = target ∧
        server.hub.HasRoom m.toConfig target (encodedBytes (payload.get "envelope")) := by
  constructor
  · rintro ⟨step, hstep, hmem⟩
    obtain hsilent | ⟨target', routeTag, ack, hforward, heffects⟩ :=
      handleSignalForward_handsOver hstep
    · cases hsilent _ hmem
    rw [heffects] at hmem
    rcases List.mem_cons.mp hmem with heq | hmem
    · obtain ⟨rfl, -, hroom⟩ := Effect.sendSession.injEq .. ▸ heq
      obtain ⟨id, signal, hmessage, hto, htag⟩ := ServerRun.ForwardTo.signal hforward
      subst hto htag
      exact ⟨signal, ⟨⟨id, hmessage⟩, hforward.names, hforward.route,
        (mem_routeSubscribers.mp hforward.subscribed).1⟩, rfl,
        Hub.sendSession_eq_true.mp hroom.symm⟩
    · cases List.mem_singleton.mp hmem
  · rintro ⟨signal, hforwards, rfl, hroom⟩
    obtain ⟨id, hmessage⟩ := hforwards.message
    have hvalid := validForward_of_signal hmessage hforwards.target hforwards.routeTag
    have hsub : signal.toSessionId ∈
        server.hub.routeSubscribers now.monotonic signal.routeTag none :=
      mem_routeSubscribers.mpr ⟨hforwards.leased, nofun⟩
    have hsend := Hub.sendSession_eq_true.mpr hroom
    unfold QueuesForward handleSignalForward
    simp only [hvalid, hforwards.target, hforwards.routeTag, hsub, decide_true, Bool.and_self,
      if_true, hsend]
    exact ⟨_, rfl, List.mem_cons_self⟩

/-- The handler queues envelopes to recipients the second endpoint would
deliver to, and to no others, exactly when the recipient's descriptor names the
key of every signal it is about to queue. -/
theorem forwarded_to_recipient_iff :
    (∀ target, QueuesForward m now link server payload target →
      ∃ id signal, validateV2Message (payload.get "envelope") = .ok ⟨id, .signal signal⟩ ∧
        server.hub.Recipient now.monotonic target signal.routeTag signal.keyId) ↔
    ∀ signal, Forwards now server payload signal →
      server.hub.HasRoom m.toConfig signal.toSessionId
        (encodedBytes (payload.get "envelope")) →
      ∃ d, server.hub.peerDescriptor signal.toSessionId = some d ∧
        d.keyId = some signal.keyId := by
  constructor
  · intro h signal hforwards hroom
    obtain ⟨id, hmessage⟩ := hforwards.message
    obtain ⟨id', signal', hmessage', hrecipient⟩ := h signal.toSessionId
      (queuesForward_iff.mpr ⟨signal, hforwards, rfl, hroom⟩)
    rw [hmessage] at hmessage'
    cases hmessage'
    exact Hub.peerDescriptor_keyId.mpr hrecipient.session
  · intro h target hqueues
    obtain ⟨signal, hforwards, rfl, hroom⟩ := queuesForward_iff.mp hqueues
    obtain ⟨id, hmessage⟩ := hforwards.message
    exact ⟨id, signal, hmessage, hforwards.leased,
      Hub.peerDescriptor_keyId.mp (h signal hforwards hroom)⟩

end Server

namespace Sample

/-- A hub where a proven session of the second endpoint is attached to the
route of zeros. The identifier of its key is zeros. -/
def hub : Hub :=
  let hub := ((Hub.new .default 0).createSession 0 "t").updateSession "t" fun sess =>
    { sess with
      proven := true
      protocolVersion := 2
      encryptionKeyHex := some (String.ofList (List.replicate 130 '0'))
      encryptionKeyId := some (String.ofList (List.replicate 64 '0')) }
  (hub.attachRoute .default 0 "t" (String.ofList (List.replicate 64 '0')) none none).1

def server : Server := ⟨hub, .new .alone "", .new 1 1 0⟩

/-- A peer forwards a signal for another key. -/
def forwardPayload : Payload :=
  [("requestId", .str "q"), ("routeTag", zeros 64), ("targetSessionId", .str "t"),
    ("envelope", signalWith (.str "k") "s" "t" 1)]

/-- Whether a step queued something to a session. -/
def queues (target : String) (step : Step) : Bool :=
  step.effects.any fun
    | .sendSession session _ delivered => session == target && delivered
    | _ => false

/-- The key a message is for. -/
def keyIdOf? (data : Json) : Option String :=
  match validateV2Message data with
  | .ok ⟨_, .signal signal⟩ => some signal.keyId
  | _ => none

theorem queuesForward_of_queues {m : MeshConfig} {now : Clocks} {link : Nat} {server : Server}
    {payload : Payload} {target : String}
    (h : (server.handleSignalForward m now link payload).any (queues target) = true) :
    Server.QueuesForward m now link server payload target := by
  obtain ⟨step, hstep, hqueues⟩ := (Option.any_eq_true _ _).mp h
  obtain ⟨effect, hmem, heffect⟩ := List.any_eq_true.mp hqueues
  obtain hsilent | ⟨target', routeTag, ack, -, heffects⟩ :=
    Server.handleSignalForward_handsOver hstep
  · have hsilent := hsilent effect hmem
    cases effect with
    | sendSession session message delivered => cases hsilent
    | _ => cases heffect
  rw [heffects] at hmem
  rcases List.mem_cons.mp hmem with rfl | hmem
  · simp only [Bool.and_eq_true, beq_iff_eq] at heffect
    obtain ⟨rfl, hdelivered⟩ := heffect
    refine ⟨step, hstep, ?_⟩
    rw [heffects, hdelivered]
    exact List.mem_cons_self
  · rcases List.mem_singleton.mp hmem with rfl
    cases heffect

end Sample

/-- A signal for another key is queued. -/
theorem forwarded_to_wrong_key :
    Server.QueuesForward .alone ⟨0, 0⟩ 0 Sample.server Sample.forwardPayload "t" ∧
      ∀ id signal, validateV2Message (Sample.forwardPayload.get "envelope") =
          .ok ⟨id, .signal signal⟩ →
        ¬Sample.server.hub.Recipient 0 "t" signal.routeTag signal.keyId := by
  have hrun : (Sample.server.handleSignalForward .alone ⟨0, 0⟩ 0 Sample.forwardPayload).any
        (Sample.queues "t") = true ∧
      Sample.keyIdOf? (Sample.forwardPayload.get "envelope") = some "k" ∧
      (Sample.server.hub.sessions.get? "t").any
        (fun sess => sess.encryptionKeyId ≠ some "k") = true := by
    decide +kernel
  obtain ⟨hqueues, hkeyId, hother⟩ := hrun
  refine ⟨Sample.queuesForward_of_queues hqueues, fun id signal hmessage hrecipient => ?_⟩
  rw [Sample.keyIdOf?, hmessage] at hkeyId
  obtain ⟨sess, hs, -, -, hsess⟩ := hrecipient.session
  rw [hs, Option.any_some, decide_eq_true_eq] at hother
  exact hother (hsess.trans hkeyId)

end Masterserver
