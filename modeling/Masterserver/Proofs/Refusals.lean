import Masterserver.Proofs.RouteAuthority
import Masterserver.Proofs.SignalOnce

/-!
# What a refused request changes

A handler of the second endpoint that answers with an ERROR has checked first
and changed nothing, with one exception. A SIGNAL is recorded, under its
message identifier and by its sequence number, before its recipient is looked
up, and a SIGNAL for an unknown recipient is refused all the same. `Recorded`
lists the checks before that point, in the order in which they are made.
-/

namespace Masterserver

open Lib Hub Protocol

/-- The state is the same but for spent rate tokens and for entries of the
dedupe table that had expired. -/
structure Server.Intact (now : Seconds) (server server' : Server) : Prop where
  sessions : server'.hub.sessions = server.hub.sessions
  routes : server'.hub.routes = server.hub.routes
  outboundQueuedBytes : server'.hub.outboundQueuedBytes = server.hub.outboundQueuedBytes
  writers : server'.hub.writers = server.hub.writers
  seen : ∀ key expiresAt, now < expiresAt →
    (server'.hub.seen.get? key = some expiresAt ↔ server.hub.seen.get? key = some expiresAt)
  mesh : server'.mesh = server.mesh

/-- An ERROR is sent. -/
def Step.Refused (step : Step) : Prop := ∃ e ∈ step.effects, e.errorCode?.isSome = true

/-- The checks of a SIGNAL before it is recorded. -/
structure V2.Recorded (m : MeshConfig) (cr : Crypto) (now : Clocks) (sid : String)
    (sess : Session) (signal : Signal) (server : Server) : Prop where
  proven : sess.proven = true
  attached : signal.routeTag ∈ sess.routes
  sender : signal.fromSessionId = sid ∧ some signal.senderKeyId = sess.identityKeyId ∧
    some signal.senderIdentityKeyHex = sess.identityKeyHex
  window : pyInt now.wall - 5 ≤ signal.expiresAt ∧ signal.expiresAt ≤ pyInt now.wall + 300
  rate : (server.hub.checkRate now.monotonic sid .signalV2).2 = true
  capacity : (server.signalGlobalLimiter.tryConsume now.monotonic 1).1 = true
  signature : ∃ signature, fromHex signal.signatureHex = some signature ∧
    verifySignature cr sess.publicKeyRaw (signedBytes signal.payload) signature = true
  sequence : sess.lastSignalSequence < signal.sequence
  fresh : (server.hub.checkAndMarkSeen m.toConfig now.monotonic (replayKey sid signal)
    m.dedupeWindowSeconds).2 = true

section Intact

variable {now : Seconds} {server : Server}

theorem Server.Intact.refl : server.Intact now server :=
  ⟨rfl, rfl, rfl, rfl, fun _ _ _ => Iff.rfl, rfl⟩

theorem intact_checkRate (server : Server) (now : Seconds) (sid : String) (op : Operation)
    (limiter : TokenBucket) :
    server.Intact now { server with
      hub := (server.hub.checkRate now sid op).1
      signalGlobalLimiter := limiter } :=
  ⟨rfl, rfl, rfl, rfl, fun _ _ _ => Iff.rfl, rfl⟩

/-- A key that is not fresh is not recorded; the table may be rid of what had
expired. -/
theorem seen_of_not_fresh {c : Config} {hub : Hub} {key : String} {ttl : Seconds}
    (h : (hub.checkAndMarkSeen c now key ttl).2 = false) (k : String) {expiresAt : Seconds}
    (hlive : now < expiresAt) :
    (hub.checkAndMarkSeen c now key ttl).1.seen.get? k = some expiresAt ↔
      hub.seen.get? k = some expiresAt := by
  have hpruned : (hub.pruneDedupe now).seen.get? k = some expiresAt ↔
      hub.seen.get? k = some expiresAt := by
    unfold pruneDedupe
    rw [Dict.get?_filter_eq_some, decide_eq_true_eq]
    exact ⟨And.left, fun hget => ⟨hget, hlive⟩⟩
  revert h
  unfold checkAndMarkSeen
  split
  · split
    · exact fun _ => Iff.rfl
    · exact fun h => by cases h
  · by_cases hfull : c.maxDedupeEntries ≤ hub.seen.size
    · simp only [if_pos hfull]
      split
      · exact fun _ => hpruned
      · exact fun h => by cases h
    · simp only [if_neg hfull]
      exact fun h => by cases h

end Intact

/-! ## The handlers -/

/-- If the step sends an ERROR it leaves the state as it was. -/
def Step.Spares (now : Seconds) (server : Server) (step : Step) : Prop :=
  step.Refused → server.Intact now step.server

theorem Step.spares_of_accepts {now : Seconds} {server : Server} {step : Step}
    (h : ∀ e ∈ step.effects, e.errorCode? = none) : step.Spares now server := by
  rintro ⟨e, he, hcode⟩
  rw [h e he] at hcode
  cases hcode

namespace V2

variable {m : MeshConfig} {cr : Crypto} {trust : NodeTrust} {now : Clocks} {sid : String}
variable {id : Json} {server server' : Server} {draws : Draws} {sess : Session}

theorem spares_refuse (h : server.Intact now.monotonic server') (code message : String) :
    (refuse id server' code message).Spares now.monotonic server := fun _ => h

theorem spares_leave : (server'.leave []).Spares now.monotonic server :=
  Step.spares_of_accepts nofun

theorem spares_answer {protocol type : String} {payload : List (String × Json)} :
    (server'.done [answer id protocol type payload]).Spares now.monotonic server := by
  refine Step.spares_of_accepts fun e he => ?_
  rcases List.mem_singleton.mp he with rfl
  rfl

theorem spares_handleHello (grant : Payload) (identityKeyHex encryptionKeyHex : String) :
    (handleHello m cr trust now sid id draws sess grant identityKeyHex encryptionKeyHex
      server).Spares now.monotonic server := by
  unfold handleHello
  split
  · exact spares_refuse .refl _ _
  split
  · exact spares_refuse .refl _ _
  split
  · exact spares_leave
  · exact spares_refuse .refl _ _
  · simp only
    split
    · refine Step.spares_of_accepts fun e he => ?_
      simp only [Server.done, List.mem_cons, List.not_mem_nil, or_false] at he
      rcases he with rfl | rfl
      · rfl
      · rfl
    · exact spares_leave

theorem spares_handleProve (signatureHex : String) :
    (handleProve m cr now sid id sess signatureHex server).Spares now.monotonic server := by
  have hrate := intact_checkRate server now.monotonic sid .prove server.signalGlobalLimiter
  unfold handleProve
  split
  · exact spares_refuse .refl _ _
  simp only
  split
  · exact fun _ => hrate
  split
  · exact spares_leave
  split
  · exact spares_refuse hrate _ _
  split
  · exact fun _ => hrate
  · refine Step.spares_of_accepts fun e he => ?_
    simp only [Server.done, List.mem_cons, List.not_mem_nil, or_false] at he
    rcases he with rfl | rfl
    · rfl
    · rfl

theorem spares_handlePing : (handlePing now sid id server).Spares now.monotonic server := by
  unfold handlePing
  simp only
  split
  · exact spares_refuse (intact_checkRate server now.monotonic sid .heartbeat server.signalGlobalLimiter) _ _
  · refine Step.spares_of_accepts fun e he => ?_
    rcases List.mem_singleton.mp he with rfl
    rfl

/-- The limit on a session's routes is checked before anything is stored. -/
theorem attachRoute_of_error {hub : Hub} {c : Config} {now : Seconds} {routeId : String}
    {error : AttachError} (h : (hub.attachRoute c now sid routeId none none).2 = some error) :
    (hub.attachRoute c now sid routeId none none).1 = hub := by
  revert h
  unfold attachRoute
  split
  · exact fun _ => rfl
  · simp only
    split
    · exact fun _ => rfl
    · exact fun h => by cases h

theorem not_error_sends (sends : List Send) {effects : List Effect}
    (h : ∀ e ∈ effects, e.errorCode? = none) :
    ∀ e ∈ sends.map .toNode ++ effects, e.errorCode? = none := by
  intro e he
  rcases List.mem_append.mp he with he | he
  · obtain ⟨send, -, rfl⟩ := List.mem_map.mp he
    rfl
  · exact h e he

theorem spares_handleAttachRoute (routeTag : String) :
    (handleAttachRoute m cr now sid id routeTag server).Spares now.monotonic server := by
  have hrate := intact_checkRate server now.monotonic sid .attachRoute server.signalGlobalLimiter
  unfold handleAttachRoute
  simp only
  split
  · exact spares_refuse hrate _ _
  split
  · exact spares_leave
  · next herror =>
      rw [attachRoute_of_error herror]
      exact spares_refuse hrate _ _
  · refine Step.spares_of_accepts (not_error_sends _ fun e he => ?_)
    rcases List.mem_singleton.mp he with rfl
    rfl

theorem spares_handleDetachRoute (routeTag : String) :
    (handleDetachRoute m cr now sid id routeTag server).Spares now.monotonic server := by
  unfold handleDetachRoute
  refine Step.spares_of_accepts (not_error_sends _ fun e he => ?_)
  rcases List.mem_singleton.mp he with rfl
  rfl

theorem spares_handleDiscover (routeTag : String) :
    (handleDiscover m cr now sid id sess routeTag server).Spares now.monotonic server := by
  have hrate := intact_checkRate server now.monotonic sid .discover server.signalGlobalLimiter
  unfold handleDiscover
  simp only
  split
  · exact spares_refuse hrate _ _
  split
  · exact spares_refuse hrate _ _
  split
  · exact spares_answer
  · exact Step.spares_of_accepts nofun

/-- A recorded signal has left its mark on its session, whatever the recipient. -/
theorem sequence_relaySignal {signal : Signal} (hs : server.hub.sessions.get? sid = some sess)
    (h : (relaySignal m now sid id draws signal (watermarked sid signal server)).Refused) :
    ∃ sess', (relaySignal m now sid id draws signal
        (watermarked sid signal server)).server.hub.sessions.get? sid = some sess' ∧
      sess'.lastSignalSequence = signal.sequence := by
  have hmarked : (watermarked sid signal server).hub.sessions.get? sid =
      some { sess with lastSignalSequence := signal.sequence } := by
    unfold watermarked updateSession
    rw [hs]
    exact Dict.get?_set_self _ _ _
  have haccepts {effects : List Effect} {server' : Server} {next : Next}
      (he : ∀ e ∈ effects, e.errorCode? = none) : ¬(⟨server', effects, next⟩ : Step).Refused := by
    rintro ⟨e, hmem, hcode⟩
    rw [he e hmem] at hcode
    cases hcode
  revert h
  unfold relaySignal
  simp only
  split
  · intro _
    refine ⟨{ sess with lastSignalSequence := signal.sequence }, ?_, rfl⟩
    show (recipientKeyId now signal.toSessionId
      (watermarked sid signal server)).1.hub.sessions.get? sid = _
    rw [hub_recipientKeyId]
    exact hmarked
  split
  · refine fun h => absurd h (haccepts fun e he => ?_)
    simp only [List.mem_cons, List.not_mem_nil, or_false] at he
    rcases he with rfl | rfl | rfl
    · rfl
    · rfl
    · rfl
  split
  · refine fun h => absurd h (haccepts fun e he => ?_)
    simp only [List.cons_append, List.nil_append, List.mem_cons, List.not_mem_nil, or_false] at he
    rcases he with rfl | rfl | rfl
    · rfl
    · rfl
    · rfl
  · refine fun h => absurd h (haccepts fun e he => ?_)
    simp only [List.cons_append, List.nil_append, List.mem_cons, List.not_mem_nil, or_false] at he
    rcases he with rfl | rfl | rfl
    · rfl
    · rfl
    · rfl

/-- The dedupe table is the same after a rate check. -/
theorem fresh_checkRate (hub : Hub) (op : Operation) (c : Config) (t : Seconds) (key : String)
    (ttl : Seconds) :
    ((hub.checkRate t sid op).1.checkAndMarkSeen c t key ttl).2 =
      (hub.checkAndMarkSeen c t key ttl).2 := by
  have hseen : (hub.checkRate t sid op).1.seen = hub.seen := rfl
  unfold checkAndMarkSeen
  rw [hseen]
  split
  · split
    · rfl
    · rfl
  · by_cases hfull : c.maxDedupeEntries ≤ hub.seen.size
    · simp only [if_pos hfull, pruneDedupe, hseen]
      split
      · rfl
      · rfl
    · simp only [if_neg hfull, hseen]

/-- Past the last check the signal is recorded and relayed. -/
theorem handleSignal_of_recorded (id : Json) (draws : Draws) {signal : Signal}
    (h : Recorded m cr now sid sess signal server) :
    ∃ server', server'.hub.sessions = server.hub.sessions ∧
      handleSignal m cr now sid id draws sess signal server =
        relaySignal m now sid id draws signal (watermarked sid signal server') := by
  obtain ⟨signature, hsignature, hverified⟩ := h.signature
  have hsender : ¬(signal.fromSessionId ≠ sid ∨ some signal.senderKeyId ≠ sess.identityKeyId ∨
      some signal.senderIdentityKeyHex ≠ sess.identityKeyHex) := by
    rw [not_or, not_or, not_not, not_not, not_not]
    exact h.sender
  obtain ⟨seen, hseen⟩ := checkAndMarkSeen_hub (server.hub.checkRate now.monotonic sid .signalV2).1
    m.toConfig now.monotonic (replayKey sid signal) m.dedupeWindowSeconds
  have hfresh : ((server.hub.checkRate now.monotonic sid .signalV2).1.checkAndMarkSeen m.toConfig
      now.monotonic (replayKey sid signal) m.dedupeWindowSeconds).2 = true :=
    (fresh_checkRate _ _ _ _ _ _).trans h.fresh
  refine ⟨{ server with
    hub := ((server.hub.checkRate now.monotonic sid .signalV2).1.checkAndMarkSeen m.toConfig
      now.monotonic (replayKey sid signal) m.dedupeWindowSeconds).1
    signalGlobalLimiter := (server.signalGlobalLimiter.tryConsume now.monotonic 1).2 }, ?_, ?_⟩
  · simp only [hseen]
    rfl
  · unfold handleSignal
    simp only [h.attached, hsender, h.window, h.rate, h.capacity, hsignature, hverified,
      not_le.mpr h.sequence, hfresh, not_true_eq_false, Bool.not_true,
      Bool.false_eq_true, and_self, if_false]
    rfl

/-- Before it the signal is refused, or the handler raises. -/
theorem spares_handleSignal {signal : Signal} (hproven : sess.proven = true)
    (h : ¬Recorded m cr now sid sess signal server) :
    (handleSignal m cr now sid id draws sess signal server).Spares now.monotonic server := by
  have hrate := intact_checkRate server now.monotonic sid .signalV2
  unfold handleSignal
  simp only
  split
  · exact spares_refuse .refl _ _
  next hattached =>
  split
  · exact spares_refuse .refl _ _
  next hsender =>
  split
  · exact spares_refuse .refl _ _
  next hwindow =>
  split
  · exact spares_refuse (hrate _) _ _
  next hallowed =>
  split
  · exact spares_refuse (hrate _) _ _
  next hcapacity =>
  split
  · exact spares_leave
  next signature hsignature =>
  split
  · exact spares_refuse (hrate _) _ _
  next hverified =>
  split
  · exact spares_refuse (hrate _) _ _
  next hsequence =>
  split
  · next hfresh =>
      rw [Bool.not_eq_true'] at hfresh
      obtain ⟨seen, hseen⟩ := checkAndMarkSeen_hub
        (server.hub.checkRate now.monotonic sid .signalV2).1 m.toConfig now.monotonic
        (replayKey sid signal) m.dedupeWindowSeconds
      have hlive : ∀ key expiresAt, now.monotonic < expiresAt →
          (seen.get? key = some expiresAt ↔ server.hub.seen.get? key = some expiresAt) := by
        intro key expiresAt hlt
        have hkept := seen_of_not_fresh hfresh key hlt
        rw [hseen] at hkept
        exact hkept
      rw [hseen]
      intro _
      exact ⟨rfl, rfl, rfl, rfl, hlive, rfl⟩
  next hfresh =>
  refine absurd ?_ h
  rw [not_or, not_or, not_not, not_not, not_not] at hsender
  simp only [Bool.not_eq_true', Bool.not_eq_false] at hallowed hcapacity hverified hfresh
  have hfresh := (fresh_checkRate _ _ _ _ _ _).symm.trans hfresh
  exact ⟨hproven, not_not.mp hattached, hsender, not_not.mp hwindow, hallowed, hcapacity,
    ⟨signature, hsignature, hverified⟩, not_le.mp hsequence, hfresh⟩

theorem spares_handle {request : V2Request}
    (h : ∀ signal, request = .signal signal → ¬Recorded m cr now sid sess signal server) :
    (handle m cr trust now sid id draws sess request server).Spares now.monotonic server := by
  unfold handle
  split
  · exact spares_refuse .refl _ _
  next hproven =>
  cases request with
  | hello grant identityKeyHex encryptionKeyHex =>
      exact spares_handleHello grant identityKeyHex encryptionKeyHex
  | prove signatureHex => exact spares_handleProve signatureHex
  | ping => exact spares_handlePing
  | attachRoute routeTag => exact spares_handleAttachRoute routeTag
  | detachRoute routeTag => exact spares_handleDetachRoute routeTag
  | discover routeTag => exact spares_handleDiscover routeTag
  | signal signal =>
      exact spares_handleSignal (by simpa [beforeProof] using hproven) (h signal rfl)

/-- A recorded signal shows in its session. -/
theorem not_intact_handle {signal : Signal} (hs : server.hub.sessions.get? sid = some sess)
    (hrecorded : Recorded m cr now sid sess signal server)
    (h : (handle m cr trust now sid id draws sess (.signal signal) server).Refused) :
    ¬server.Intact now.monotonic
      (handle m cr trust now sid id draws sess (.signal signal) server).server := by
  obtain ⟨server', hsessions, heq⟩ :=
    handleSignal_of_recorded id draws hrecorded
  have hhandle : handle m cr trust now sid id draws sess (.signal signal) server =
      relaySignal m now sid id draws signal (watermarked sid signal server') := by
    rw [← heq, handle, hrecorded.proven]
    rfl
  rw [hhandle] at h ⊢
  rw [← hsessions] at hs
  obtain ⟨sess', hs', hsequence⟩ := sequence_relaySignal hs h
  intro hintact
  rw [hintact.sessions, ← hsessions, hs, Option.some.injEq] at hs'
  subst hs'
  have hlt := hrecorded.sequence
  omega

/-- A message answered with an ERROR leaves the state as it was if and only if
it is not a SIGNAL that passes every check before it is recorded. -/
theorem refusal_leaves_intact_iff {request : V2Request}
    (hs : server.hub.sessions.get? sid = some sess)
    (h : (handle m cr trust now sid id draws sess request server).Refused) :
    server.Intact now.monotonic (handle m cr trust now sid id draws sess request server).server ↔
      ¬∃ signal, request = .signal signal ∧ Recorded m cr now sid sess signal server := by
  constructor
  · rintro hintact ⟨signal, rfl, hrecorded⟩
    exact not_intact_handle hs hrecorded h hintact
  · intro hno
    exact spares_handle (fun signal hrequest hrecorded => hno ⟨signal, hrequest, hrecorded⟩) h

end V2

namespace Sample

open ServerRun

def signalOf? (data : Json) : Option Signal :=
  match validateV2Message data with
  | .ok ⟨_, .signal signal⟩ => some signal
  | _ => none

/-- What becomes of the first signal of a client to a session that is not
there: whether it is refused, and its sequence number before and after. -/
def misdirected (s : ServerRun) : Option (Bool × Int × Option Int) := do
  let sess ← s.server.hub.sessions.get? "s"
  let signal ← signalOf? (signalV2 "s" "t" 1)
  let step := V2.handle .alone crypto trust ⟨0, 0⟩ "s" .null draws sess (.signal signal) s.server
  pure (step.effects.any fun e => e.errorCode?.isSome, sess.lastSignalSequence,
    (step.server.hub.sessions.get? "s").map Session.lastSignalSequence)

end Sample

/-- A client is refused before its proof and nothing is changed. -/
theorem refusal_leaves_intact_unproven :
    ∃ sess, (Hub.createSession (.new .default 0) 0 "s").sessions.get? "s" = some sess ∧
      let server : Server := ⟨.createSession (.new .default 0) 0 "s", .new .alone "", .new 1 1 0⟩
      server.Intact 0 (V2.handle .alone Sample.crypto Sample.trust ⟨0, 0⟩ "s" .null Sample.draws sess
        (.discover "r") server).server := by
  have hrefused : (V2.handle .alone Sample.crypto Sample.trust ⟨0, 0⟩ "s" .null Sample.draws
      { lastHeartbeat := 0 } (.discover "r")
      ⟨.createSession (.new .default 0) 0 "s", .new .alone "", .new 1 1 0⟩).Refused :=
    ⟨_, List.mem_singleton_self _, rfl⟩
  refine ⟨{ lastHeartbeat := 0 }, rfl, (V2.refusal_leaves_intact_iff rfl hrefused).mpr ?_⟩
  rintro ⟨signal, hrequest, -⟩
  cases hrequest

/-- A signal to nobody is refused and recorded. -/
theorem refused_signal_recorded :
    ∃ s sess signal, (serverSystem .alone Sample.crypto Sample.trust).Reachable s ∧
      s.server.hub.sessions.get? "s" = some sess ∧
      (V2.handle .alone Sample.crypto Sample.trust ⟨0, 0⟩ "s" .null Sample.draws sess
        (.signal signal) s.server).Refused ∧
      ¬s.server.Intact 0 (V2.handle .alone Sample.crypto Sample.trust ⟨0, 0⟩ "s" .null
        Sample.draws sess (.signal signal) s.server).server := by
  have hrun : System.Meets (fun s e => s.clocks.before e.now ∧ s.allowed .alone e.op)
        (ServerRun.after .alone Sample.crypto Sample.trust) (Sample.start .alone)
        (Sample.attachedClient .alone "s") ∧
      Sample.misdirected (Sample.run .alone (Sample.attachedClient .alone "s")) =
        some (true, -1, some 1) := by
    decide +kernel
  obtain ⟨hmeets, hmisdirected⟩ := hrun
  have hreach := Sample.reachable_run .alone _ hmeets
  generalize Sample.run .alone (Sample.attachedClient .alone "s") = s at hmisdirected hreach
  unfold Sample.misdirected at hmisdirected
  simp only [Option.bind_eq_bind, Option.bind_eq_some_iff, Option.pure_def, Option.some.injEq,
    Prod.mk.injEq] at hmisdirected
  obtain ⟨sess, hs, signal, -, hrefused, hbefore, hafter⟩ := hmisdirected
  refine ⟨s, sess, signal, hreach, hs, List.any_eq_true.mp hrefused, fun hintact => ?_⟩
  rw [hintact.sessions, hs, Option.map_some, hbefore] at hafter
  cases hafter

end Masterserver
