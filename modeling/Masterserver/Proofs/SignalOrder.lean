import Masterserver.Proofs.Deliveries
import Masterserver.Proofs.RouteAuthority
import Masterserver.Proofs.SignalOnce

/-!
# Signals arrive in the order of their numbers

The watermark makes the numbers of the signals a session accepts increase, and
the queue of the recipient keeps their order. So what one session has sent to
another leaves the recipient's socket with increasing sequence numbers, however
the two connections, the writer and everybody else take turns.
-/

namespace Masterserver

open Lib Hub Protocol

/-- The message an entry queued for a session, with who had it queued. -/
def Entry.queued? (target : String) (entry : Entry) : Option (Actor × Json) :=
  match entry.effect with
  | .sendSession other message true => if other = target then some (entry.actor, message) else none
  | _ => none

theorem Entry.queued?_of_silent {target : String} {entry : Entry}
    (h : entry.effect.silent = true) : entry.queued? target = none := by
  obtain ⟨actor, effect⟩ := entry
  cases effect with
  | sendSession other message delivered => cases h
  | _ => rfl

namespace ServerRun

variable {m : MeshConfig} {cr : Crypto} {trust : NodeTrust} {s s' : ServerRun}
variable {sid target : String}

/-- The messages queued for a session so far, each with who had it queued. -/
def queuedBy (s : ServerRun) (target : String) : List (Actor × Json) :=
  s.log.filterMap (Entry.queued? target)

theorem queuedBy_messages (s : ServerRun) (target : String) :
    (s.queuedBy target).map Prod.snd = s.queuedFor target := by
  unfold queuedBy queuedFor queuedIn sentIn
  rw [List.map_filterMap, List.filterMap_map, List.filterMap_filterMap]
  refine List.filterMap_congr fun entry _ => ?_
  obtain ⟨actor, effect⟩ := entry
  cases effect with
  | sendSession other message delivered =>
      by_cases hother : other = target <;> cases delivered <;>
        simp [Entry.queued?, Effect.sent?, hother]
  | _ => rfl

/-- The messages a session of the second endpoint had queued. -/
def relayedBy (sid : String) (queued : List (Actor × Json)) : List Json :=
  (queued.filter fun q => q.1 = .client .v2 sid).map Prod.snd

theorem relayedBy_append (queued queued' : List (Actor × Json)) :
    relayedBy sid (queued ++ queued') = relayedBy sid queued ++ relayedBy sid queued' := by
  unfold relayedBy
  rw [List.filter_append, List.map_append]

theorem relayedBy_of_others {queued : List (Actor × Json)}
    (h : ∀ q ∈ queued, q.1 ≠ .client .v2 sid) : relayedBy sid queued = [] := by
  unfold relayedBy
  rw [List.filter_eq_nil_iff.mpr fun q hq => by simpa using h q hq, List.map_nil]

/-- What one actor's effects had queued. -/
theorem queued_of_actor {actor : Actor} {effects : List Effect} :
    ∀ q ∈ (effects.map (Entry.mk actor)).filterMap (Entry.queued? target), q.1 = actor := by
  intro q hq
  obtain ⟨entry, hentry, hqueued⟩ := List.mem_filterMap.mp hq
  obtain ⟨effect, -, rfl⟩ := List.mem_map.mp hentry
  cases effect with
  | sendSession other message delivered =>
      cases delivered with
      | true =>
          simp only [Entry.queued?] at hqueued
          split at hqueued
          · rw [← Option.some.inj hqueued]
          · cases hqueued
      | false => cases hqueued
  | _ => cases hqueued

theorem queued_of_silent {entries : List Entry} (h : ∀ entry ∈ entries, entry.effect.silent = true) :
    entries.filterMap (Entry.queued? target) = [] :=
  List.filterMap_eq_nil_iff.mpr fun entry hentry => Entry.queued?_of_silent (h entry hentry)

/-- The message is the envelope of a signal of one session to another. -/
def Carries (sid target : String) (message : Json) (signal : Signal) : Prop :=
  signal.fromSessionId = sid ∧ signal.toSessionId = target ∧
    ∃ id, message = V2.outgoing id signal

/-- What a session had queued for another are some of the signals it has had
accepted, in the order they were accepted. -/
def Relays (sid target : String) (s : ServerRun) : Prop :=
  ∃ signals : List Signal, signals.Sublist (acceptedSignals (s.effectsOf sid)) ∧
    List.Forall₂ (Carries sid target) (relayedBy sid (s.queuedBy target)) signals

theorem Relays.of_same (h : Relays sid target s) (hextends : s.effectsOf sid <+: s'.effectsOf sid)
    (hsame : relayedBy sid (s'.queuedBy target) = relayedBy sid (s.queuedBy target)) :
    Relays sid target s' := by
  obtain ⟨signals, hsub, hall⟩ := h
  obtain ⟨more, hmore⟩ := hextends
  refine ⟨signals, ?_, by rw [hsame]; exact hall⟩
  rw [← hmore, acceptedSignals_append]
  exact hsub.trans (List.sublist_append_left _ _)

/-- A message that is queued for a session by a signal's handler is that signal. -/
theorem relayed_signal (target : String) {now : Clocks} {id : Json} {signal : Signal}
    {server : Server} {rest : List Effect} (h : V2.Relayed now sid id signal server rest) :
    (rest.map (Entry.mk (.client .v2 sid))).filterMap (Entry.queued? target) = [] ∨
      signal.toSessionId = target ∧
        (rest.map (Entry.mk (.client .v2 sid))).filterMap (Entry.queued? target) =
          [(.client .v2 sid, V2.outgoing id signal)] := by
  have hplain : ∀ rest : List Effect, (∀ e ∈ rest, e.quiet = true ∧ e.handover? = none) →
      (rest.map (Entry.mk (.client .v2 sid))).filterMap (Entry.queued? target) = [] := fun rest h =>
    queued_of_silent (silent_map fun e he => Effect.silent_of_plain (h e he))
  cases h with
  | answered h => exact .inl (hplain _ h)
  | @delivered rest delivered h _ =>
      cases delivered with
      | false =>
          rw [List.map_cons, List.filterMap_cons_none rfl]
          exact .inl (hplain _ h)
      | true =>
          by_cases htarget : signal.toSessionId = target
          · refine .inr ⟨htarget, ?_⟩
            have hqueued : Entry.queued? target ⟨.client .v2 sid,
                .sendSession signal.toSessionId (V2.outgoing id signal) true⟩ =
                  some (.client .v2 sid, V2.outgoing id signal) := if_pos htarget
            rw [List.map_cons, List.filterMap_cons_some hqueued, hplain _ h]
          · have hqueued : Entry.queued? target ⟨.client .v2 sid,
                .sendSession signal.toSessionId (V2.outgoing id signal) true⟩ = none :=
              if_neg htarget
            rw [List.map_cons, List.filterMap_cons_none hqueued]
            exact .inl (hplain _ h)
  | forwarded h =>
      rw [List.map_cons, List.filterMap_cons_none rfl]
      exact .inl (hplain _ h)

theorem Relays.next (h : Relays sid target s) (hreach : (serverSystem m cr trust).Reachable s)
    {e : ServerEvent} (hstep : (serverSystem m cr trust).step s e s') : Relays sid target s' := by
  obtain ⟨-, rfl⟩ := hstep
  have hextends : s.effectsOf sid <+: (s.after m cr trust e).effectsOf sid :=
    effectsOf_extends_after s e sid
  obtain ⟨entries, hlog, hover⟩ := handover_after m cr trust s e
  have hqueued : relayedBy sid ((s.after m cr trust e).queuedBy target) =
      relayedBy sid (s.queuedBy target) ++
        relayedBy sid (entries.filterMap (Entry.queued? target)) := by
    unfold queuedBy
    rw [hlog, List.filterMap_append, relayedBy_append]
  have hnone : relayedBy sid (entries.filterMap (Entry.queued? target)) = [] →
      Relays sid target (s.after m cr trust e) := fun hnil =>
    h.of_same hextends (by rw [hqueued, hnil, List.append_nil])
  have hother : ∀ {actor : Actor} {effects : List Effect}, actor ≠ .client .v2 sid →
      relayedBy sid ((effects.map (Entry.mk actor)).filterMap (Entry.queued? target)) = [] :=
    fun hne => relayedBy_of_others fun q hq => by rw [queued_of_actor q hq]; exact hne
  cases hover with
  | silent hsilent =>
      refine hnone ?_
      rw [queued_of_silent hsilent]
      rfl
  | @signal sender _ _ _ data id signal sess effects _ _ _ _ _ _ haccepted =>
      by_cases hsender : sender = sid
      · subst hsender
        obtain ⟨server', rest, -, -, rfl, hrelayed⟩ := haccepted.relayed
        have heffects := effectsOf_append hlog sender
        rw [filterMap_effectOf?_client, if_pos rfl] at heffects
        rw [List.map_cons, List.filterMap_cons_none rfl] at hnone hqueued
        obtain hnil | ⟨htarget, hone⟩ := relayed_signal target hrelayed
        · refine hnone ?_
          rw [hnil]
          rfl
        · obtain ⟨signals, hsub, hall⟩ := h
          refine ⟨signals ++ [signal], ?_, ?_⟩
          · rw [heffects, acceptedSignals_append]
            exact hsub.append (List.singleton_sublist.mpr List.mem_cons_self)
          · rw [hqueued, hone]
            have hlast : relayedBy sender [(.client .v2 sender, V2.outgoing (idJson id) signal)] =
                [V2.outgoing (idJson id) signal] := by simp [relayedBy]
            rw [hlast]
            exact List.rel_append hall
              (.cons ⟨haccepted.checked.fromSessionId, htarget, _, rfl⟩ .nil)
      · exact hnone (hother fun heq => hsender (by cases heq; rfl))
  | @relay _ _ conn _ _ _ hconn hphase =>
      have hv1 := relays_legacy hreach _ _ _ _ hconn hphase
      exact hnone (hother (by rw [hv1]; intro heq; cases heq))
  | @forward _ _ link _ _ _ _ _ _ _ => exact hnone (hother fun heq => by cases heq)

theorem relays_of_reachable (h : (serverSystem m cr trust).Reachable s) (sid target : String) :
    Relays sid target s := by
  obtain ⟨es, htrace⟩ := h
  induction htrace with
  | start hi =>
      obtain ⟨incarnation, clocks, rfl⟩ := hi
      exact ⟨[], List.nil_sublist _, .nil⟩
  | snoc htrace hstep ih => exact ih.next htrace.reachable hstep

end ServerRun

end Masterserver
