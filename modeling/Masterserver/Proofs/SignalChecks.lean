import Masterserver.Proofs.Endpoints
import Masterserver.Proofs.Fields

/-!
# What a SIGNAL goes through

`_handle_v2_signal` returns early a dozen times. `handleSignal_cases` says once
what it comes to: either the signal is turned down and nothing is handed over,
or it is `SignalChecked` and goes to `relaySignal`. `relaySignal_cases` does
the same for the recipient.
-/

namespace Masterserver

open Lib Hub Protocol

/-- The two tables the delivery decision reads. -/
structure Hub.SameTables (hub hub' : Hub) : Prop where
  sessions : hub'.sessions = hub.sessions
  routes : hub'.routes = hub.routes

namespace V2

variable {m : MeshConfig} {cr : Crypto} {sid : String} {id : Json}

/-- A signal that passed every check up to the window cache's. -/
structure SignalChecked (cr : Crypto) (sid : String) (sess : Session) (signal : Signal) :
    Prop where
  attached : signal.routeTag ∈ sess.routes
  fromSessionId : signal.fromSessionId = sid
  senderKeyId : some signal.senderKeyId = sess.identityKeyId
  senderIdentityKeyHex : some signal.senderIdentityKeyHex = sess.identityKeyHex
  signature : ∃ signature, fromHex signal.signatureHex = some signature ∧
    verifySignature cr sess.publicKeyRaw (signedBytes signal.payload) signature = true
  sequence : sess.lastSignalSequence < signal.sequence

theorem plain_refuse (id : Json) (server : Server) (code message : String) :
    (refuse id server code message).Plain := by
  simp [Step.Plain, refuse, Server.done, Effect.quiet, Effect.handover?]

/-- The server a checked signal is relayed from: its sequence number is the
new watermark. -/
def watermarked (sid : String) (signal : Signal) (server : Server) : Server :=
  { server with
    hub := server.hub.updateSession sid fun sess =>
      { sess with lastSignalSequence := signal.sequence } }

theorem handleSignal_cases (m : MeshConfig) (cr : Crypto) (now : Clocks) (sid : String)
    (id : Json) (draws : Draws) (sess : Session) (signal : Signal) (server : Server) :
    ((handleSignal m cr now sid id draws sess signal server).Plain ∧
        server.hub.Quiet (handleSignal m cr now sid id draws sess signal server).server.hub) ∨
      SignalChecked cr sid sess signal ∧ ∃ server', server.hub.SameTables server'.hub ∧
        server.hub.Quiet server'.hub ∧ server'.mesh = server.mesh ∧
        handleSignal m cr now sid id draws sess signal server =
          relaySignal m now sid id draws signal (watermarked sid signal server') := by
  have hrate : server.hub.Quiet (server.hub.checkRate now.monotonic sid .signalV2).1 :=
    quiet_checkRate now.monotonic sid (by decide)
  have hseen := hrate.trans (quiet_checkAndMarkSeen m.toConfig now.monotonic
    (replayKey sid signal) m.dedupeWindowSeconds)
  unfold handleSignal
  simp only
  split
  · exact .inl ⟨plain_refuse id _ _ _, .refl _⟩
  next hattached =>
  split
  · exact .inl ⟨plain_refuse id _ _ _, .refl _⟩
  next hbinding =>
  split
  · exact .inl ⟨plain_refuse id _ _ _, .refl _⟩
  split
  · exact .inl ⟨plain_refuse id _ _ _, hrate⟩
  split
  · exact .inl ⟨plain_refuse id _ _ _, hrate⟩
  split
  · exact .inl ⟨nofun, hrate⟩
  next signature hsignature =>
  split
  · exact .inl ⟨plain_refuse id _ _ _, hrate⟩
  next hverified =>
  split
  · exact .inl ⟨plain_refuse id _ _ _, hrate⟩
  next hsequence =>
  split
  · exact .inl ⟨plain_refuse id _ _ _, hseen⟩
  rw [not_or, not_or, not_not, not_not, not_not] at hbinding
  rw [Bool.not_eq_true', Bool.not_eq_false] at hverified
  obtain ⟨seen, heq⟩ := checkAndMarkSeen_hub (server.hub.checkRate now.monotonic sid .signalV2).1
    m.toConfig now.monotonic (replayKey sid signal) m.dedupeWindowSeconds
  refine .inr ⟨⟨not_not.mp hattached, hbinding.1, hbinding.2.1, hbinding.2.2,
    ⟨signature, hsignature, hverified⟩, not_le.mp hsequence⟩, ?_⟩
  refine ⟨{ server with
    hub := ((server.hub.checkRate now.monotonic sid .signalV2).1.checkAndMarkSeen m.toConfig
      now.monotonic (replayKey sid signal) m.dedupeWindowSeconds).1
    signalGlobalLimiter := (server.signalGlobalLimiter.tryConsume now.monotonic 1).2 },
    ?_, hseen, rfl, rfl⟩
  simp only [heq]
  exact ⟨rfl, rfl⟩

/-! ## The recipient -/

/-- Looking up the recipient leaves the hub alone. -/
theorem hub_recipientKeyId (now : Clocks) (target : String) (server : Server) :
    (recipientKeyId now target server).1.hub = server.hub := by
  unfold recipientKeyId
  split <;> rfl

/-- The signal's recipient is attached here and the key the signal is meant for
was found for it. -/
structure LocalRecipient (now : Clocks) (sid : String) (signal : Signal) (server : Server) :
    Prop where
  keyId : (recipientKeyId now signal.toSessionId server).2.bind Json.str? = some signal.keyId
  subscribed : signal.toSessionId ∈
    server.hub.routeSubscribers now.monotonic signal.routeTag (some sid)

/-- What becomes of an accepted signal: it is answered alone, handed to a
session here, or handed to the mesh. -/
inductive Relayed (now : Clocks) (sid : String) (id : Json) (signal : Signal) (server : Server) :
    List Effect → Prop
  | answered {rest : List Effect} (h : ∀ e ∈ rest, e.quiet = true ∧ e.handover? = none) :
      Relayed now sid id signal server rest
  | delivered {rest : List Effect} (delivered : Bool)
      (h : ∀ e ∈ rest, e.quiet = true ∧ e.handover? = none)
      (hr : LocalRecipient now sid signal server) :
      Relayed now sid id signal server
        (.sendSession signal.toSessionId (outgoing id signal) delivered :: rest)
  | forwarded {rest : List Effect} (h : ∀ e ∈ rest, e.quiet = true ∧ e.handover? = none) :
      Relayed now sid id signal server
        (.forwardSignal signal.routeTag signal.toSessionId (outgoing id signal) :: rest)

theorem relaySignal_cases (m : MeshConfig) (now : Clocks) (sid : String) (id : Json)
    (draws : Draws) (signal : Signal) (server : Server) :
    server.hub.Quiet (relaySignal m now sid id draws signal server).server.hub ∧
      ∃ effects, (relaySignal m now sid id draws signal server).effects =
          .signalAccepted signal :: effects ∧ Relayed now sid id signal server effects := by
  have hhub := hub_recipientKeyId now signal.toSessionId server
  unfold relaySignal
  simp only [hhub]
  split
  · refine ⟨by rw [Server.done, hhub]; exact .refl _, _, rfl, .answered ?_⟩
    simp [Effect.quiet, Effect.handover?]
  next hkey =>
  split
  · next hsub =>
      refine ⟨quiet_sendSession _ _ _, _, rfl, .delivered _ ?_ ⟨not_not.mp hkey, hsub⟩⟩
      simp [signalAck, answer, Effect.quiet, Effect.handover?]
  split
  · refine ⟨.refl _, _, rfl, .forwarded ?_⟩
    simp [signalAck, answer, Effect.quiet, Effect.handover?]
  · refine ⟨.refl _, _, rfl, .forwarded ?_⟩
    simp [Effect.quiet, Effect.handover?]

theorem Relayed.quiet {now : Clocks} {signal : Signal} {server : Server} {effects : List Effect}
    (h : Relayed now sid id signal server effects) : ∀ e ∈ effects, e.quiet = true := by
  cases h with
  | answered h => exact fun e he => (h e he).1
  | delivered _ h _ =>
      intro e he
      rcases List.mem_cons.mp he with rfl | he
      · rfl
      · exact (h e he).1
  | forwarded h =>
      intro e he
      rcases List.mem_cons.mp he with rfl | he
      · rfl
      · exact (h e he).1

end V2

/-! ## The validated signal -/

namespace Protocol

theorem validateRouteRequestV2_ne_signal {make : String → V2Request} {e : Envelope}
    {signal : Signal} (hmake : ∀ tag, make tag ≠ .signal signal) :
    validateRouteRequestV2 make e ≠ .ok (.signal signal) := by
  intro h
  obtain ⟨tag, -, h⟩ := bind_eq_ok.mp h
  split at h
  · exact hmake tag (Except.ok.inj h)
  · cases h

theorem validateHelloV2_ne_signal {payload : Payload} {signal : Signal} :
    validateHelloV2 payload ≠ .ok (.signal signal) := by
  unfold validateHelloV2
  split
  · intro h
    obtain ⟨-, h⟩ := bind_unless_ok.mp h
    obtain ⟨identity, -, h⟩ := bind_eq_ok.mp h
    obtain ⟨encryption, -, h⟩ := bind_eq_ok.mp h
    cases h
  · intro h
    obtain ⟨-, h⟩ := bind_unless_ok.mp h
    cases h

/-- The payload of a validated SIGNAL is valid as it stands. -/
theorem validateSignalV2_of_request {e : Envelope} {signal : Signal}
    (h : validateV2Request e = .ok (.signal signal)) :
    validateSignalV2 signal.payload = .ok signal := by
  unfold validateV2Request at h
  split at h
  · exact absurd h validateHelloV2_ne_signal
  split at h
  · split at h
    · obtain ⟨text, -, h⟩ := map_eq_ok.mp h
      cases h
    · cases h
  split at h
  · split at h <;> cases h
  split at h
  · exact absurd h (validateRouteRequestV2_ne_signal nofun)
  split at h
  · exact absurd h (validateRouteRequestV2_ne_signal nofun)
  split at h
  · exact absurd h (validateRouteRequestV2_ne_signal nofun)
  · obtain ⟨signal', hsignal, heq⟩ := map_eq_ok.mp h
    cases heq
    rw [(validateSignalV2_ok.mp hsignal).payload_eq]
    exact hsignal

theorem validateSignalV2_of_message {data : Json} {message : V2Message} {signal : Signal}
    (h : validateV2Message data = .ok message) (hr : message.request = .signal signal) :
    validateSignalV2 signal.payload = .ok signal := by
  unfold validateV2Message at h
  simp only [wrongNamespace, bind_eq_ok, bind_unless_ok] at h
  obtain ⟨e, -, -, -, request, hrequest, heq⟩ := h
  cases heq
  simp only at hr
  subst hr
  exact validateSignalV2_of_request hrequest

end Protocol

end Masterserver
