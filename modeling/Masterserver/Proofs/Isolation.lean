import Masterserver.Proofs.Grammar
import Masterserver.Proofs.SignalOnce

/-!
# Who may send a session of the second endpoint what

The two endpoints share one route table, and three places hand messages over.
Two of them hand over valid signals only, to the session they name and on a
route it is attached to. The third, the relay of the legacy endpoint, takes
every subscriber of the route: its frames reach a session of the second
endpoint exactly when such a session is among them.
-/

namespace Masterserver

open Lib Hub Protocol

theorem validateId_idJson {value : Json} {id : Option String}
    (h : validateId value = .ok id) : validateId (idJson id) = .ok id := by
  cases value with
  | null =>
      cases h
      rfl
  | str text =>
      unfold validateId at h
      simp only at h
      split at h
      · next hbound =>
          cases h
          simp only [idJson, Option.map_some, Option.getD_some, validateId, if_pos hbound]
      · cases h
  | _ => cases h

/-- What a recipient gets is as valid as what the sender sent. -/
theorem validateV2Message_outgoing {data : Json} {id : Option String} {signal : Signal}
    (h : validateV2Message data = .ok ⟨id, .signal signal⟩) :
    validateV2Message (V2.outgoing (idJson id) signal) = .ok ⟨id, .signal signal⟩ := by
  have hvalid := validateSignalV2_of_message h rfl
  have hid : validateId (idJson id) = .ok id := by
    cases data with
    | obj members =>
        unfold validateV2Message at h
        simp only [wrongNamespace, bind_eq_ok, bind_unless_ok, validateEnvelope_ok] at h
        obtain ⟨e, ⟨-, -, -, hid, -⟩, -, -, request, -, heq⟩ := h
        cases heq
        exact validateId_idJson hid
    | _ => cases h
  have hknown : signalV2 ∈ knownProtocols := by decide
  have htype : "SIGNAL" ∈ messageTypes := by decide
  have hexpected : expectedProtocolV2 "SIGNAL" = some signalV2 := by decide
  have hv2 : ¬signalV2 ∉ [sessionV2, routeV2, signalV2] := by decide
  unfold validateV2Message
  simp only [wrongNamespace, bind_eq_ok, bind_unless_ok, V2.outgoing, messageOf, validateEnvelope_ok]
  refine ⟨⟨_, signalV2, "SIGNAL", id, signal.payload⟩,
    ⟨by simp [envelopeNames], ⟨rfl, hknown⟩, ⟨rfl, htype⟩, hid, rfl, rfl⟩, hv2, ?_,
    .signal signal, ?_, rfl⟩
  · exact not_not.mpr hexpected
  · show V2Request.signal <$> validateSignalV2 signal.payload = _
    rw [hvalid]
    rfl

/-- A frame for a session of the second endpoint as it should be: a valid
SIGNAL, addressed to the session, on a route it is attached to, and from no
legacy client. -/
structure SignalFor (hub : Hub) (actor : Actor) (target : String) (message : Json) : Prop where
  valid : ∃ id signal, validateV2Message message = .ok ⟨id, .signal signal⟩ ∧
    signal.toSessionId = target ∧ hub.Attached signal.routeTag target
  sender : ∀ sid, actor ≠ .client .v1 sid

/-- Whether an event lets a legacy client in. -/
def ServerEvent.legacy (e : ServerEvent) : Bool :=
  match e.op with
  | .connect .v1 _ => true
  | _ => false

namespace ServerRun

variable {m : MeshConfig} {cr : Crypto} {trust : NodeTrust} {s s' : ServerRun} {sid : String}

/-- A legacy message that is to be relayed while a session of the second
endpoint holds a lease on its route. -/
def CrossRelay (m : MeshConfig) (s : ServerRun) (e : ServerEvent) : Prop :=
  ∃ sid targets, RelayFrame m s e sid targets ∧ ∃ target ∈ targets, ∃ conn,
    s.connections.get? target = some conn ∧ conn.endpoint = .v2

/-- The targets of the waiting relays are sessions of the legacy endpoint that
were let in, some of which may have left. -/
def RelaysStay (s : ServerRun) : Prop :=
  ∀ sid conn subscribers outgoing, s.connections.get? sid = some conn →
    conn.phase = .waiting (.relay subscribers outgoing) → ∀ target ∈ subscribers,
      target ∈ s.issued ∧ ∀ conn', s.connections.get? target = some conn' → conn'.endpoint = .v1

theorem Sound.issued (h : Sound m cr trust s) {conn : Connection}
    (hconn : s.connections.get? sid = some conn) : sid ∈ s.issued := by
  by_contra hnot
  rw [(h.fresh sid hnot).1] at hconn
  cases hconn

/-- A subscriber of a route has a connection. -/
theorem Sound.connection_of_leased (h : Sound m cr trust s) {now : Seconds} {rid : String}
    (hleased : s.server.hub.Leased now rid sid) :
    s.server.hub.Attached rid sid ∧ ∃ conn, s.connections.get? sid = some conn := by
  obtain ⟨sess, hs, hrid⟩ := (h.consistent.subscribed_iff_attached rid sid).mp hleased.subscribed
  exact ⟨⟨sess, hs, hrid⟩, h.connected sid sess hs⟩

/-- A session that was let in keeps its endpoint. -/
theorem endpoint_after {e : ServerEvent} (hallowed : s.allowed m e.op) (hissued : sid ∈ s.issued)
    {conn' : Connection} (h : (s.after m cr trust e).connections.get? sid = some conn') :
    ∃ conn, s.connections.get? sid = some conn ∧ conn'.endpoint = conn.endpoint := by
  have happly : (s.apply m cr trust e.now e.op).connections.get? sid = some conn' := h
  unfold ServerRun.apply at happly
  split at happly
  · by_cases hop : ∃ endpoint other, e.op = .connect endpoint other
    · obtain ⟨endpoint, other, hop⟩ := hop
      rw [hop] at hallowed
      simp only [hop, ServerRun.serverEvent, ServerRun.connect] at happly
      split at happly
      · exact ⟨conn', happly, rfl⟩
      · have hne : sid ≠ other := fun heq => hallowed (heq ▸ hissued)
        rw [Dict.get?_set_of_ne _ _ hne] at happly
        exact ⟨conn', happly, rfl⟩
    · have hcalm : Calm s (s.serverEvent m cr e.now e.op) :=
        calm_serverEvent m cr s e.now fun endpoint other heq => hop ⟨endpoint, other, heq⟩
      rw [hcalm.connections] at happly
      exact ⟨conn', happly, rfl⟩
  split at happly
  · exact ⟨conn', happly, rfl⟩
  next conn hconn =>
  obtain ⟨effects, hmoved⟩ := moved_clientEvent m cr trust e.now hconn e.op
  exact hmoved.connections sid conn' happly

theorem issued_after {e : ServerEvent} (hissued : sid ∈ s.issued) :
    sid ∈ (s.after m cr trust e).issued := by
  show sid ∈ (s.apply m cr trust e.now e.op).issued
  unfold ServerRun.apply
  split
  · by_cases hop : ∃ endpoint other, e.op = .connect endpoint other
    · obtain ⟨endpoint, other, hop⟩ := hop
      simp only [hop, ServerRun.serverEvent, ServerRun.connect]
      split
      · exact hissued
      · exact Finset.mem_insert_of_mem hissued
    · have hcalm : Calm s (s.serverEvent m cr e.now e.op) :=
        calm_serverEvent m cr s e.now fun endpoint other heq => hop ⟨endpoint, other, heq⟩
      rw [hcalm.issued]
      exact hissued
  split
  · exact hissued
  next conn hconn =>
  obtain ⟨effects, hmoved⟩ := moved_clientEvent m cr trust e.now hconn e.op
  rw [hmoved.issued]
  exact hissued

theorem RelaysStay.next (h : RelaysStay s) (hs : Sound m cr trust s) {e : ServerEvent}
    (hallowed : s.allowed m e.op) (hcross : ¬CrossRelay m s e) :
    RelaysStay (s.after m cr trust e) := by
  intro sid conn subscribers outgoing hconn hphase target htarget
  have hbefore : target ∈ s.issued ∧
      ∀ conn', s.connections.get? target = some conn' → conn'.endpoint = .v1 := by
    obtain hkept | ⟨-, hframe⟩ := relay_after hconn hphase
    · exact h sid conn subscribers outgoing hkept hphase target htarget
    · obtain ⟨_, _, _, _, _, _, routeId, _, -, -, -, -, -, -, -, htargets⟩ := hframe.message
      have hleased : s.server.hub.Leased e.now.monotonic routeId target := by
        rw [htargets] at htarget
        exact (mem_routeSubscribers.mp (List.mem_of_mem_take htarget)).1
      obtain ⟨-, conn₀, hconn₀⟩ := hs.connection_of_leased hleased
      refine ⟨hs.issued hconn₀, fun conn' hconn' => ?_⟩
      cases hend : conn'.endpoint with
      | v1 => rfl
      | v2 => exact absurd ⟨sid, subscribers, hframe, target, htarget, conn', hconn', hend⟩ hcross
  refine ⟨issued_after hbefore.1, fun conn' hconn' => ?_⟩
  obtain ⟨conn₀, hconn₀, heq⟩ := endpoint_after hallowed hbefore.1 hconn'
  rw [heq]
  exact hbefore.2 conn₀ hconn₀

/-- The runs in which no legacy message is sent where a session of the second
endpoint would get it. -/
def uncrossed (m : MeshConfig) (cr : Crypto) (trust : NodeTrust) : System ServerRun ServerEvent :=
  (serverSystem m cr trust).restrict fun s e => ¬CrossRelay m s e

theorem relaysStay_of_reachable (h : (uncrossed m cr trust).Reachable s) : RelaysStay s := by
  obtain ⟨es, htrace⟩ := h
  induction htrace with
  | start hi =>
      obtain ⟨incarnation, clocks, rfl⟩ := hi
      intro sid conn subscribers outgoing hconn
      cases hconn
  | snoc htrace hstep ih =>
      obtain ⟨hcross, ⟨-, hallowed⟩, rfl⟩ := hstep
      exact ih.next (sound_of_reachable htrace.reachable.of_restrict) hallowed hcross

/-! ## The frames of one step -/

/-- Where a frame of the log was handed over. -/
theorem Relayed.sendSession_mem {now : Clocks} {id : Json} {signal : Signal} {server : Server}
    {rest : List Effect} {target : String} {message : Json} {delivered : Bool}
    (h : V2.Relayed now sid id signal server rest)
    (hmem : .sendSession target message delivered ∈ rest) :
    target = signal.toSessionId ∧ message = V2.outgoing id signal ∧
      V2.LocalRecipient now sid signal server := by
  have hplain : ∀ rest : List Effect, (∀ e ∈ rest, e.quiet = true ∧ e.handover? = none) →
      Effect.sendSession target message delivered ∉ rest := by
    intro rest h hmem
    cases (h _ hmem).2
  cases h with
  | answered h => exact absurd hmem (hplain _ h)
  | delivered _ h hr =>
      rcases List.mem_cons.mp hmem with heq | hmem
      · cases heq
        exact ⟨rfl, rfl, hr⟩
      · exact absurd hmem (hplain _ h)
  | forwarded h =>
      rcases List.mem_cons.mp hmem with heq | hmem
      · cases heq
      · exact absurd hmem (hplain _ h)

/-- The envelope of a forwarded signal is valid, for its target and its route. -/
theorem ForwardTo.signal {now : Clocks} {payload : Payload} {target routeTag : String}
    {server : Server} (h : Server.ForwardTo now payload target routeTag server) :
    ∃ id signal, validateV2Message (payload.get "envelope") = .ok ⟨id, .signal signal⟩ ∧
      signal.toSessionId = target ∧ signal.routeTag = routeTag := by
  have hvalid := h.valid
  unfold Server.validForward at hvalid
  rw [h.names, h.route] at hvalid
  split at hvalid
  · next envelope henvelope =>
      split at hvalid
      · cases hvalid
      · cases hvalid
      · next id signal hmessage =>
          rw [henvelope]
          simp only [Json.str?, Option.some.injEq, Bool.and_eq_true, beq_iff_eq] at hvalid
          exact ⟨id, signal, hmessage, hvalid.2.symm, hvalid.1.symm⟩
      · cases hvalid
  · cases hvalid

theorem Sound.signalFor (h : Sound m cr trust s) {e : ServerEvent} {entries : List Entry}
    (hover : Handover m cr s e entries) (hstay : RelaysStay s) {actor : Actor} {target : String}
    {message : Json} {delivered : Bool} {conn : Connection}
    (hmem : ⟨actor, .sendSession target message delivered⟩ ∈ entries)
    (hconn : s.connections.get? target = some conn) (hv2 : conn.endpoint = .v2) :
    SignalFor s.server.hub actor target message := by
  cases hover with
  | silent hsilent => cases hsilent _ hmem
  | @signal sid _ _ _ data id signal sess effects _ _ _ hmessage _ _ haccepted =>
      obtain ⟨server', rest, htables, -, rfl, hrelayed⟩ := haccepted.relayed
      obtain ⟨effect, heffect, heq⟩ := List.mem_map.mp hmem
      cases heq
      rcases List.mem_cons.mp heffect with heq | heffect
      · cases heq
      obtain ⟨rfl, rfl, hlocal⟩ := Relayed.sendSession_mem hrelayed heffect
      have hleased : s.server.hub.Leased e.now.monotonic signal.routeTag signal.toSessionId := by
        have hsub := (mem_routeSubscribers.mp hlocal.subscribed).1
        unfold Leased V2.watermarked at hsub
        rw [routes_updateSession, htables.routes] at hsub
        exact hsub
      exact ⟨⟨id, signal, validateV2Message_outgoing hmessage, rfl,
        (h.connection_of_leased hleased).1⟩, nofun⟩
  | relay hop hrelay hphase =>
      obtain ⟨effect, heffect, heq⟩ := List.mem_map.mp hmem
      cases heq
      obtain ⟨target', htarget', _, heq⟩ := V1.mem_relayTo heffect
      cases heq
      have hv1 := (hstay _ _ _ _ hrelay hphase target htarget').2 conn hconn
      rw [hv2] at hv1
      cases hv1
  | forward hop hlink htables hhands =>
      obtain ⟨effect, heffect, heq⟩ := List.mem_map.mp hmem
      cases heq
      obtain hsilent | ⟨target', routeTag, ack, hforward, rfl⟩ := hhands
      · cases hsilent _ heffect
      · rcases List.mem_cons.mp heffect with heq | heffect
        · cases heq
          obtain ⟨id, signal, hmessage, hto, htag⟩ := ForwardTo.signal hforward
          have hleased : s.server.hub.Leased e.now.monotonic routeTag target := by
            have hsub := (mem_routeSubscribers.mp hforward.subscribed).1
            unfold Leased at hsub
            rw [htables.routes] at hsub
            exact hsub
          exact ⟨⟨id, signal, hmessage, hto, htag ▸ (h.connection_of_leased hleased).1⟩, nofun⟩
        · cases List.mem_singleton.mp heffect

/-- In every run in which no legacy message crosses over: whatever a step hands
to a session of the second endpoint is a SIGNAL for it. -/
theorem relays_isolate_v2 (h : (uncrossed m cr trust).Reachable s) {e : ServerEvent}
    (hstep : (uncrossed m cr trust).step s e s') {actor : Actor} {target : String}
    {message : Json} {delivered : Bool} {conn : Connection}
    (hmem : ⟨actor, .sendSession target message delivered⟩ ∈ s'.log.drop s.log.length)
    (hconn : s.connections.get? target = some conn) (hv2 : conn.endpoint = .v2) :
    SignalFor s.server.hub actor target message := by
  obtain ⟨-, -, rfl⟩ := hstep
  obtain ⟨entries, hlog, hover⟩ := handover_after m cr trust s e
  rw [hlog, List.drop_left] at hmem
  exact (sound_of_reachable h.of_restrict).signalFor hover (relaysStay_of_reachable h) hmem hconn hv2

/-! ## Runs with one kind of client -/

/-- The runs all of whose clients use the second endpoint. -/
def secondSystem (m : MeshConfig) (cr : Crypto) (trust : NodeTrust) :
    System ServerRun ServerEvent :=
  (serverSystem m cr trust).restrict fun _ e => e.legacy = false

theorem second_of_reachable (h : (secondSystem m cr trust).Reachable s) {conn : Connection}
    (hconn : s.connections.get? sid = some conn) : conn.endpoint = .v2 := by
  revert sid conn
  refine h.invariant (P := fun s => ∀ {sid : String} {conn : Connection},
    s.connections.get? sid = some conn → conn.endpoint = .v2) ?_ ?_
  · rintro s ⟨incarnation, clocks, rfl⟩ sid conn hconn
    cases hconn
  · rintro s e s' ih ⟨hlegacy, -, rfl⟩ sid conn' hconn'
    have happly : (s.apply m cr trust e.now e.op).connections.get? sid = some conn' := hconn'
    unfold ServerRun.apply at happly
    split at happly
    · by_cases hop : ∃ endpoint other, e.op = .connect endpoint other
      · obtain ⟨endpoint, other, hop⟩ := hop
        have hend : endpoint = .v2 := by
          cases endpoint with
          | v1 =>
              rw [ServerEvent.legacy, hop] at hlegacy
              cases hlegacy
          | v2 => rfl
        simp only [hop, ServerRun.serverEvent, ServerRun.connect] at happly
        split at happly
        · exact ih happly
        · rw [Dict.get?_set] at happly
          split at happly
          · cases happly
            exact hend
          · exact ih happly
      · have hcalm : Calm s (s.serverEvent m cr e.now e.op) :=
          calm_serverEvent m cr s e.now fun endpoint other heq => hop ⟨endpoint, other, heq⟩
        rw [hcalm.connections] at happly
        exact ih happly
    split at happly
    · exact ih happly
    next conn hconn =>
    obtain ⟨effects, hmoved⟩ := moved_clientEvent m cr trust e.now hconn e.op
    obtain ⟨conn₀, hconn₀, heq⟩ := hmoved.connections sid conn' happly
    rw [heq]
    exact ih hconn₀

/-- Without legacy clients no legacy message crosses over. -/
theorem not_crossRelay_of_second (h : (secondSystem m cr trust).Reachable s) (e : ServerEvent) :
    ¬CrossRelay m s e := by
  rintro ⟨sid, targets, ⟨⟨conn, hconn, hv1⟩, -⟩, -⟩
  rw [second_of_reachable h hconn] at hv1
  cases hv1

theorem uncrossed_of_second (h : (secondSystem m cr trust).Reachable s) :
    (uncrossed m cr trust).Reachable s := by
  obtain ⟨es, htrace⟩ := h
  induction htrace with
  | start hi => exact .start hi
  | snoc htrace hstep ih =>
      exact ih.next ⟨not_crossRelay_of_second htrace.reachable _, hstep.2⟩

end ServerRun

/-! ## Runs that cross and that do not -/

namespace Sample

/-- Two clients of the second endpoint on the route of zeros. -/
def pair (m : MeshConfig) : List ServerEvent := attachedClient m "s" ++ attachedClient m "t"

/-- The first signals the other; the last event is the signal's frame. -/
def directed (m : MeshConfig) : List ServerEvent := pair m ++ [event 0 (.loop "s")]

def directedFrame : ServerEvent := event 0 (.frame "s" (signalV2 "s" "t" 1).dumps draws)

def helloV1 : Json := messageOf session "HELLO" [("payload", .obj [("publicKeyHex", zeros 130)])]

def proveV1 : Json := messageOf session "PROVE" [("payload", .obj [("signatureHex", zeros 128)])]

def attachV1 : Json := messageOf route "ATTACH_ROUTE" [("payload", .obj [("routeId", zeros 64)])]

def signalV1 : Json := messageOf signal "SIGNAL" [("payload", .obj [("routeId", zeros 64)])]

/-- A legacy client attaches to the route of zeros, where a client of the
second endpoint is, and sends a message there. -/
def crossing (m : MeshConfig) : List ServerEvent :=
  attachedClient m "t" ++ event 0 (.connect .v1 "a") ::
    (message 0 "a" helloV1 ++ message 0 "a" proveV1 ++ message 0 "a" attachV1 ++
      message 0 "a" signalV1)

/-- Whether an entry hands a message of a sender to a session. -/
def hands (sender : Actor) (target : String) (entry : Entry) : Bool :=
  match entry.effect with
  | .sendSession session _ delivered => entry.actor = sender && session == target && delivered
  | _ => false

theorem eq_of_hands {sender : Actor} {target : String} {entry : Entry}
    (h : hands sender target entry = true) :
    ∃ message, entry = ⟨sender, .sendSession target message true⟩ := by
  unfold hands at h
  split at h
  · next session message delivered heq =>
      simp only [Bool.and_eq_true, decide_eq_true_eq, beq_iff_eq] at h
      obtain ⟨⟨hactor, rfl⟩, rfl⟩ := h
      exact ⟨message, by rw [← hactor, ← heq]⟩
  · cases h

theorem mem_of_any_hands {sender : Actor} {target : String} {entries : List Entry}
    (h : entries.any (hands sender target) = true) :
    ∃ message, ⟨sender, .sendSession target message true⟩ ∈ entries := by
  obtain ⟨entry, hmem, hhands⟩ := List.any_eq_true.mp h
  obtain ⟨message, rfl⟩ := eq_of_hands hhands
  exact ⟨message, hmem⟩

theorem reachable_second (m : MeshConfig) (events : List ServerEvent)
    (h : System.Meets
      (fun s e => (s.clocks.before e.now ∧ s.allowed m e.op) ∧ e.legacy = false)
      (ServerRun.after m crypto trust) (start m) events) :
    (ServerRun.secondSystem m crypto trust).Reachable (run m events) := by
  refine System.Reachable.restrict_restrict (System.reachable_foldl (.start ?_) events h)
  exact ⟨"", ⟨0, 0⟩, rfl⟩

/-- The state before the signal of the pair arrives, and the state after. -/
def beforeDirected : ServerRun := run .alone (directed .alone)

def afterDirected : ServerRun := beforeDirected.after .alone crypto trust directedFrame

theorem directed_delivered :
    (ServerRun.secondSystem .alone crypto trust).Reachable beforeDirected ∧
      (ServerRun.secondSystem .alone crypto trust).step beforeDirected directedFrame
        afterDirected ∧
      (∃ message, ⟨.client .v2 "s", .sendSession "t" message true⟩ ∈
        afterDirected.log.drop beforeDirected.log.length) ∧
      ∃ conn, beforeDirected.connections.get? "t" = some conn := by
  have hrun : System.Meets
        (fun s e => (s.clocks.before e.now ∧ s.allowed .alone e.op) ∧ e.legacy = false)
        (ServerRun.after .alone crypto trust) (start .alone) (directed .alone) ∧
      (directedFrame.legacy = false ∧ beforeDirected.clocks.before directedFrame.now ∧
        beforeDirected.allowed .alone directedFrame.op) ∧
      (afterDirected.log.drop beforeDirected.log.length).any
        (hands (.client .v2 "s") "t") = true ∧
      beforeDirected.connections.contains "t" = true := by
    decide +kernel
  obtain ⟨hmeets, hallowed, hhands, hconn⟩ := hrun
  exact ⟨reachable_second .alone _ hmeets, ⟨hallowed.1, hallowed.2, rfl⟩, mem_of_any_hands hhands,
    Dict.contains_iff.mp hconn⟩

end Sample

namespace ServerRun

/-- A signal from one session of the second endpoint to another. -/
theorem relays_isolate_v2_directed :
    ∃ message, ⟨.client .v2 "s", .sendSession "t" message true⟩ ∈
        Sample.afterDirected.log.drop Sample.beforeDirected.log.length ∧
      SignalFor Sample.beforeDirected.server.hub (.client .v2 "s") "t" message := by
  obtain ⟨hreach, hstep, ⟨message, hmem⟩, conn, hconn⟩ := Sample.directed_delivered
  exact ⟨message, hmem, relays_isolate_v2 (uncrossed_of_second hreach)
    ⟨not_crossRelay_of_second hreach _, hstep.2⟩ hmem hconn (second_of_reachable hreach hconn)⟩

/-- A legacy client's message reaches a session of the second endpoint. -/
theorem legacy_relay_crosses :
    ∃ (s s' : ServerRun) (e : ServerEvent) (message : Json) (conn : Connection),
      (serverSystem .alone Sample.crypto Sample.trust).Reachable s ∧
      (serverSystem .alone Sample.crypto Sample.trust).step s e s' ∧
      ⟨.client .v1 "a", .sendSession "t" message true⟩ ∈ s'.log.drop s.log.length ∧
      s.connections.get? "t" = some conn ∧ conn.endpoint = .v2 ∧
      ¬SignalFor s.server.hub (.client .v1 "a") "t" message := by
  have hrun : System.Meets (fun s e => s.clocks.before e.now ∧ s.allowed .alone e.op)
        (ServerRun.after .alone Sample.crypto Sample.trust) (Sample.start .alone)
        (Sample.crossing .alone) ∧
      ((Sample.run .alone (Sample.crossing .alone)).clocks.before ⟨0, 0⟩ ∧
        (Sample.run .alone (Sample.crossing .alone)).allowed .alone (.resume "a" true)) ∧
      ((((Sample.run .alone (Sample.crossing .alone)).after .alone Sample.crypto Sample.trust
        (Sample.event 0 (.resume "a" true))).log.drop
          (Sample.run .alone (Sample.crossing .alone)).log.length).any
            (Sample.hands (.client .v1 "a") "t")) = true ∧
      ((Sample.run .alone (Sample.crossing .alone)).connections.get? "t").any
        (fun conn => conn.endpoint = .v2) = true := by
    decide +kernel
  obtain ⟨hmeets, hallowed, hhands, hconn⟩ := hrun
  obtain ⟨message, hmem⟩ := Sample.mem_of_any_hands hhands
  obtain ⟨conn, hconn, hv2⟩ := (Option.any_eq_true _ _).mp hconn
  exact ⟨_, _, _, message, conn, Sample.reachable_run .alone _ hmeets, ⟨hallowed, rfl⟩, hmem, hconn,
    of_decide_eq_true hv2, fun h => h.sender "a" rfl⟩

end ServerRun

end Masterserver
