import Masterserver.Proofs.ProofSafety
import Masterserver.Proofs.Relays

/-!
# No signal is relayed twice

The replay protection is a watermark for each session and a window cache that
forgets. The watermark alone decides: the sequence numbers a session's machine
accepts increase, a payload names the session it comes from and its sequence
number, and nothing is handed over that was not accepted.
-/

namespace Masterserver

open Lib Hub Protocol

/-- The payload of a message that a session of the second endpoint handed
over. -/
def Entry.relayed? (entry : Entry) : Option Json :=
  match entry.actor with
  | .client .v2 _ => entry.effect.handover?.bind (·.get? "payload")
  | _ => none

theorem Effect.handover?_of_silent {e : Effect} (h : e.silent = true) : e.handover? = none := by
  cases e with
  | sendSession target message delivered => cases h
  | forwardSignal routeTag target message => cases h
  | _ => rfl

theorem Entry.relayed?_of_silent {entry : Entry} (h : entry.effect.silent = true) :
    entry.relayed? = none := by
  unfold relayed?
  split
  · rw [Effect.handover?_of_silent h]
    rfl
  · rfl

namespace ServerRun

variable {m : MeshConfig} {cr : Crypto} {trust : NodeTrust} {s s' : ServerRun} {sid : String}

/-- The payloads that sessions of the second endpoint handed over, in order. -/
def relayedPayloads (s : ServerRun) : List Json := s.log.filterMap Entry.relayed?

theorem filterMap_relayed?_silent {entries : List Entry}
    (h : ∀ entry ∈ entries, entry.effect.silent = true) :
    entries.filterMap Entry.relayed? = [] :=
  List.filterMap_eq_nil_iff.mpr fun entry hentry => Entry.relayed?_of_silent (h entry hentry)

theorem filterMap_relayed?_other {actor : Actor} (h : ∀ sid, actor ≠ .client .v2 sid)
    (effects : List Effect) : (effects.map (Entry.mk actor)).filterMap Entry.relayed? = [] := by
  rw [List.filterMap_eq_nil_iff]
  intro entry hentry
  obtain ⟨effect, -, rfl⟩ := List.mem_map.mp hentry
  unfold Entry.relayed?
  split
  · next sid heq => exact absurd heq (h sid)
  · rfl

theorem relayed?_outgoing {id : Json} {signal : Signal} {effect : Effect}
    (h : effect.handover? = some (V2.outgoing id signal)) :
    Entry.relayed? ⟨.client .v2 sid, effect⟩ = some (.obj signal.payload) := by
  simp only [Entry.relayed?, h, Option.bind_some]
  rfl

/-- At most its own payload is handed over for an accepted signal. -/
theorem filterMap_relayed?_relayed {now : Clocks} {id : Json} {signal : Signal} {server : Server}
    {rest : List Effect} (h : V2.Relayed now sid id signal server rest) :
    (rest.map (Entry.mk (.client .v2 sid))).filterMap Entry.relayed? = [] ∨
      (rest.map (Entry.mk (.client .v2 sid))).filterMap Entry.relayed? = [.obj signal.payload] := by
  have hplain : ∀ rest : List Effect, (∀ e ∈ rest, e.quiet = true ∧ e.handover? = none) →
      (rest.map (Entry.mk (.client .v2 sid))).filterMap Entry.relayed? = [] := fun rest h =>
    filterMap_relayed?_silent (silent_map fun e he => Effect.silent_of_plain (h e he))
  cases h with
  | answered h => exact .inl (hplain _ h)
  | delivered _ h _ =>
      refine .inr ?_
      rw [List.map_cons, List.filterMap_cons_some (relayed?_outgoing rfl), hplain _ h]
  | forwarded h =>
      refine .inr ?_
      rw [List.map_cons, List.filterMap_cons_some (relayed?_outgoing rfl), hplain _ h]

theorem Sound.signals (h : Sound m cr trust s) (sid : String) :
    ∃ watermark, SignalRecords sid (acceptedSignals (s.effectsOf sid)) watermark := by
  obtain ⟨endpoint, ⟨state, htrace, -⟩, -⟩ := h.represented sid
  exact ⟨state.watermark, (records_of_trace htrace).signals⟩

theorem effectsOf_append {entries : List Entry} (h : s'.log = s.log ++ entries) (sid : String) :
    s'.effectsOf sid = s.effectsOf sid ++ entries.filterMap (Entry.effectOf? sid) := by
  unfold effectsOf
  rw [h, List.filterMap_append]

/-- What was handed over was accepted, and nothing was handed over twice. -/
structure RelayedOnce (s : ServerRun) : Prop where
  accepted : ∀ payload ∈ s.relayedPayloads, ∃ sid, ∃ signal ∈ acceptedSignals (s.effectsOf sid),
    payload = .obj signal.payload
  nodup : s.relayedPayloads.Nodup

/-- Nothing more is handed over. -/
theorem RelayedOnce.of_eq (h : RelayedOnce s) (hp : s'.relayedPayloads = s.relayedPayloads)
    (hextends : ∀ sid, s.effectsOf sid <+: s'.effectsOf sid) : RelayedOnce s' where
  accepted payload hpayload := by
    rw [hp] at hpayload
    obtain ⟨sid, signal, hsignal, heq⟩ := h.accepted payload hpayload
    obtain ⟨more, hmore⟩ := hextends sid
    refine ⟨sid, signal, ?_, heq⟩
    rw [← hmore, acceptedSignals_append]
    exact List.mem_append_left _ hsignal
  nodup := hp ▸ h.nodup

/-- A signal that a session accepts now was not handed over before. -/
theorem RelayedOnce.fresh (h : RelayedOnce s) (hs : Sound m cr trust s)
    (hs' : Sound m cr trust s') {signal : Signal} {rest : List Effect}
    (hvalid : validateSignalV2 signal.payload = .ok signal) (hfrom : signal.fromSessionId = sid)
    (heffects : s'.effectsOf sid = s.effectsOf sid ++ .signalAccepted signal :: rest) :
    Json.obj signal.payload ∉ s.relayedPayloads := by
  intro hmem
  obtain ⟨sid', signal', hsignal', heq⟩ := h.accepted _ hmem
  obtain ⟨_, hrecords⟩ := hs.signals sid'
  have hpayload : signal.payload = signal'.payload := Json.obj.inj heq
  have hvalid' := hrecords.valid signal' hsignal'
  rw [← hpayload, hvalid] at hvalid'
  obtain rfl := Except.ok.inj hvalid'
  have hsid : sid' = sid := (hrecords.sender _ hsignal').symm.trans hfrom
  subst hsid
  obtain ⟨_, hrecords'⟩ := hs'.signals sid'
  have hincreasing := hrecords'.increasing
  rw [heffects, acceptedSignals_append, List.pairwise_append] at hincreasing
  have hlt := hincreasing.2.2 signal hsignal' signal List.mem_cons_self
  omega

theorem RelayedOnce.next (h : RelayedOnce s) (hreach : (serverSystem m cr trust).Reachable s)
    {e : ServerEvent} (hstep : (serverSystem m cr trust).step s e s') : RelayedOnce s' := by
  have hs := sound_of_reachable hreach
  have hs' := sound_of_reachable (hreach.next hstep)
  obtain ⟨-, rfl⟩ := hstep
  have hextends : ∀ sid, s.effectsOf sid <+: (s.after m cr trust e).effectsOf sid :=
    fun sid => effectsOf_extends_after s e sid
  obtain ⟨entries, hlog, hover⟩ := handover_after m cr trust s e
  have hpayloads : (s.after m cr trust e).relayedPayloads =
      s.relayedPayloads ++ entries.filterMap Entry.relayed? := by
    unfold relayedPayloads
    rw [hlog, List.filterMap_append]
  have hnone : entries.filterMap Entry.relayed? = [] →
      RelayedOnce (s.after m cr trust e) := fun hnil =>
    h.of_eq (by rw [hpayloads, hnil, List.append_nil]) hextends
  cases hover with
  | silent hsilent => exact hnone (filterMap_relayed?_silent hsilent)
  | @signal sid _ _ _ data id signal sess effects _ _ _ hmessage _ _ haccepted =>
      obtain ⟨server', rest, -, -, rfl, hrelayed⟩ := haccepted.relayed
      have heffects := effectsOf_append hlog sid
      rw [filterMap_effectOf?_client, if_pos rfl] at heffects
      have hfresh := h.fresh hs hs' (validateSignalV2_of_message hmessage rfl)
        haccepted.checked.fromSessionId heffects
      have hcons : ((.signalAccepted signal :: rest).map (Entry.mk (.client .v2 sid))).filterMap
          Entry.relayed? = (rest.map (Entry.mk (.client .v2 sid))).filterMap Entry.relayed? := rfl
      obtain hnil | hone := filterMap_relayed?_relayed hrelayed
      · exact hnone (hcons.trans hnil)
      · rw [hcons, hone] at hpayloads
        refine ⟨?_, ?_⟩
        · intro payload hpayload
          rw [hpayloads] at hpayload
          rcases List.mem_append.mp hpayload with hpayload | hpayload
          · obtain ⟨sid', signal', hsignal', heq⟩ := h.accepted payload hpayload
            obtain ⟨more, hmore⟩ := hextends sid'
            refine ⟨sid', signal', ?_, heq⟩
            rw [← hmore, acceptedSignals_append]
            exact List.mem_append_left _ hsignal'
          · refine ⟨sid, signal, ?_, List.mem_singleton.mp hpayload⟩
            rw [heffects, acceptedSignals_append]
            exact List.mem_append_right _ List.mem_cons_self
        · rw [hpayloads]
          exact h.nodup.append (List.nodup_singleton _) (List.disjoint_singleton.mpr hfresh)
  | @relay _ _ conn _ _ _ hconn hphase =>
      have hv1 := relays_legacy hreach _ _ _ _ hconn hphase
      exact hnone (filterMap_relayed?_other (by rw [hv1]; nofun) _)
  | @forward _ _ link _ _ _ _ _ _ _ =>
      have hnode : ∀ sid, Actor.node link.nodeId ≠ .client .v2 sid := fun _ => nofun
      exact hnone (filterMap_relayed?_other hnode _)

theorem relayedOnce_of_reachable (h : (serverSystem m cr trust).Reachable s) : RelayedOnce s := by
  obtain ⟨es, htrace⟩ := h
  induction htrace with
  | start hi =>
      obtain ⟨incarnation, clocks, rfl⟩ := hi
      exact ⟨nofun, List.nodup_nil⟩
  | snoc htrace hstep ih => exact ih.next htrace.reachable hstep

/-- In every run: the sequence numbers of the signals a session has accepted
increase, and no payload was handed over twice by the second endpoint. -/
theorem signals_relayed_once (h : (serverSystem m cr trust).Reachable s) :
    (∀ sid, (acceptedSignals (s.effectsOf sid)).Pairwise fun a b => a.sequence < b.sequence) ∧
      s.relayedPayloads.Nodup := by
  refine ⟨fun sid => ?_, (relayedOnce_of_reachable h).nodup⟩
  obtain ⟨_, hrecords⟩ := (sound_of_reachable h).signals sid
  exact hrecords.increasing

end ServerRun

namespace Sample

/-- A signal on the route of zeros, from one session to another, for the key
with the given identifier. -/
def signalWith (keyId : Json) (fromSessionId toSessionId : String) (sequence : Nat) : Json :=
  messageOf Protocol.signalV2 "SIGNAL" [("payload", .obj [("routeTag", zeros 64),
    ("fromSessionId", .str fromSessionId), ("toSessionId", .str toSessionId),
    ("messageId", .str "m"), ("sequence", .int sequence), ("expiresAt", .int 0),
    ("keyId", keyId), ("senderKeyId", zeros 64), ("senderIdentityKeyHex", zeros 130),
    ("encHex", zeros 130), ("ciphertextHex", zeros 2), ("signatureHex", zeros 128)])]

def signalV2 (fromSessionId toSessionId : String) (sequence : Nat) : Json :=
  signalWith (zeros 64) fromSessionId toSessionId sequence

/-- A session signals itself twice. -/
def signals (m : MeshConfig) : List ServerEvent :=
  attachedClient m "s" ++ message 0 "s" (signalV2 "s" "s" 1) ++ message 0 "s" (signalV2 "s" "s" 2)

end Sample

namespace ServerRun

theorem signals_relayed_once_both :
    ∃ s : ServerRun, (serverSystem .alone Sample.crypto Sample.trust).Reachable s ∧
      s.relayedPayloads.length = 2 ∧ s.relayedPayloads.Nodup := by
  have hrun : System.Meets (fun s e => s.clocks.before e.now ∧ s.allowed .alone e.op)
        (ServerRun.after .alone Sample.crypto Sample.trust) (Sample.start .alone)
        (Sample.signals .alone) ∧
      (Sample.run .alone (Sample.signals .alone)).relayedPayloads.length = 2 := by
    decide +kernel
  have hreach := Sample.reachable_run .alone _ hrun.1
  exact ⟨_, hreach, hrun.2, (signals_relayed_once hreach).2⟩

end ServerRun

end Masterserver
