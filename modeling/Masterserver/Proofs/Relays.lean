import Masterserver.Proofs.Handovers

/-!
# Legacy relays that wait for their tasks

A FORWARD, SIGNAL or PUBLISH of the legacy endpoint is checked in one step and
handed over in another: the handler picks the subscribers of the route and
waits for one task for each. What a waiting relay says about its targets is an
invariant of the runs, since no session identifier is used twice.
-/

namespace Masterserver

open Lib Hub Protocol

namespace Hub

/-- A lease that has not run out. -/
def Leased (hub : Hub) (now : Seconds) (rid sid : String) : Prop :=
  ∃ route expiresAt, hub.routes.get? rid = some route ∧ route.get? sid = some expiresAt ∧
    now < expiresAt

theorem mem_routeSubscribers {hub : Hub} {now : Seconds} {rid sid : String}
    {exclude : Option String} :
    sid ∈ hub.routeSubscribers now rid exclude ↔ hub.Leased now rid sid ∧ some sid ≠ exclude := by
  unfold routeSubscribers Leased Dict.getD
  simp only [Dict.mem_keys, Dict.get?_filter_eq_some, Bool.and_eq_true, decide_eq_true_eq]
  cases hub.routes.get? rid with
  | none => simp
  | some route =>
      simp only [Option.getD_some, Option.some.injEq]
      constructor
      · rintro ⟨expiresAt, hlease, hlive, hne⟩
        exact ⟨⟨route, expiresAt, rfl, hlease, hlive⟩, hne⟩
      · rintro ⟨⟨route', expiresAt, rfl, hlease, hlive⟩, hne⟩
        exact ⟨expiresAt, hlease, hlive, hne⟩

theorem Leased.subscribed {hub : Hub} {now : Seconds} {rid sid : String}
    (h : hub.Leased now rid sid) : hub.Subscribed rid sid := by
  obtain ⟨route, expiresAt, hroute, hlease, -⟩ := h
  exact subscribed_iff.mpr ⟨route, expiresAt, hroute, hlease⟩

end Hub

/-- The tasks of a relay hand the message to its targets. -/
theorem V1.mem_relayTo {c : Config} {outgoing : Json} {subscribers : List String}
    {server : Server} {e : Effect} (h : e ∈ (V1.relayTo c outgoing subscribers server).effects) :
    ∃ target ∈ subscribers, ∃ delivered, e = .sendSession target outgoing delivered := by
  have hall : ∀ e ∈ (subscribers.foldl (relayTask c outgoing) (server, [])).2,
      ∃ target ∈ subscribers, ∃ delivered, e = .sendSession target outgoing delivered := by
    refine foldl_invariant (P := fun acc : Server × List Effect => ∀ e ∈ acc.2,
      ∃ target ∈ subscribers, ∃ delivered, e = .sendSession target outgoing delivered)
      subscribers nofun ?_
    intro acc target htarget ih e he
    rcases List.mem_append.mp he with he | he
    · exact ih e he
    · rcases List.mem_singleton.mp he with rfl
      exact ⟨target, htarget, _, rfl⟩
  exact hall e h

namespace ServerRun

variable {m : MeshConfig} {cr : Crypto} {trust : NodeTrust} {s s' : ServerRun} {sid : String}

/-- A legacy message that is to be relayed, from a session that may, and whom
it would go to. -/
structure RelayFrame (m : MeshConfig) (s : ServerRun) (e : ServerEvent) (sid : String)
    (targets : List String) : Prop where
  legacy : ∃ conn, s.connections.get? sid = some conn ∧ conn.endpoint = .v1
  message : ∃ raw draws message type data payload routeId sess, e.op = .frame sid raw draws ∧
    loadsStrict m.toConfig.jsonLimits raw = .ok message ∧
    validateV1Message message = .ok (.relay type data payload routeId) ∧
    s.server.hub.sessions.get? sid = some sess ∧ sess.proven = true ∧ routeId ∈ sess.routes ∧
    (V1.hopLimit m.toConfig payload).int?.any (· ≤ 0) = false ∧
    targets = (s.server.hub.routeSubscribers e.now.monotonic routeId (some sid)).take m.maxFanout

/-- Where a waiting relay comes from: it was there, or the event is its message. -/
def RelayFrom (m : MeshConfig) (s : ServerRun) (e : ServerEvent) (sid : String)
    (conn : Connection) (subscribers : List String) : Prop :=
  s.connections.get? sid = some conn ∨ conn.endpoint = .v1 ∧ RelayFrame m s e sid subscribers

section Origin

variable {e : ServerEvent} {conn conn' : Connection} {other : String}
variable {subscribers : List String} {outgoing : Json}

theorem relayFrom_setPhase {phase : Phase} (hs : s'.connections = s.connections)
    (h : (s'.setPhase sid conn phase).connections.get? other = some conn')
    (hphase : conn'.phase = .waiting (.relay subscribers outgoing))
    (hne : ∀ subscribers outgoing, phase ≠ .waiting (.relay subscribers outgoing)) :
    RelayFrom m s e other conn' subscribers := by
  rw [setPhase, hs, Dict.get?_set] at h
  split at h
  · cases h
    exact absurd hphase (hne subscribers outgoing)
  · exact .inl h

theorem relayFrom_settled {step : Step}
    (h : (s.applyStep sid conn step).connections.get? other = some conn')
    (hphase : conn'.phase = .waiting (.relay subscribers outgoing))
    (hne : ∀ subscribers outgoing, step.next ≠ .waiting (.relay subscribers outgoing)) :
    RelayFrom m s e other conn' subscribers := by
  refine relayFrom_setPhase rfl h hphase ?_
  intro subscribers outgoing heq
  cases hnext : step.next with
  | goOn =>
      rw [hnext] at heq
      cases heq
  | ended =>
      rw [hnext] at heq
      cases heq
  | waiting on =>
      rw [hnext] at heq
      cases heq
      exact hne subscribers outgoing hnext

theorem relayFrom_clientEvent (hclient : e.op.client? = some sid)
    (hconn : s.connections.get? sid = some conn)
    (h : (s.clientEvent m cr trust e.now sid conn e.op).connections.get? other = some conn')
    (hphase : conn'.phase = .waiting (.relay subscribers outgoing)) :
    RelayFrom m s e other conn' subscribers := by
  cases hop : e.op with
  | loop _ =>
      simp only [hop, clientEvent] at h
      split at h
      · unfold ServerRun.loop at h
        split at h
        · exact relayFrom_setPhase rfl h hphase fun _ _ h => by cases h
        split at h
        · exact relayFrom_setPhase rfl h hphase fun _ _ h => by cases h
        split at h
        · exact relayFrom_settled h hphase fun _ _ h => by cases h
        · exact relayFrom_setPhase rfl h hphase fun _ _ h => by cases h
      · exact .inl h
  | frame _ raw draws =>
      rw [hop] at hclient
      cases hclient
      simp only [hop, clientEvent] at h
      split at h
      · unfold ServerRun.frame at h
        split at h
        · next hv1 =>
          obtain hsettled | ⟨message, type, data, payload, routeId, sess, hdecoded, hmessage, hs,
              hproven, hleft⟩ :=
            V1.receiveFrame_cases m.toConfig cr e.now.monotonic sid draws raw s.server
          · exact relayFrom_settled h hphase hsettled.next
          · rw [applyStep, setPhase, hleft.next] at h
            simp only [Dict.get?_set, phaseAfter] at h
            split at h
            · next heq =>
                subst heq
                cases h
                cases hphase
                exact .inr ⟨hv1, ⟨conn, hconn, hv1⟩, raw, draws, message, type, data, payload,
                  routeId, sess, hop, hdecoded, hmessage, hs, hproven, hleft.attached, hleft.hops,
                  rfl⟩
            · exact .inl h
        · obtain hsettled | ⟨hnext, -⟩ := V2.receiveFrame_cases m cr trust e.now sid draws raw s.server
          · exact relayFrom_settled h hphase hsettled.next
          · exact relayFrom_settled h hphase hnext
      · exact .inl h
  | timeout _ =>
      simp only [hop, clientEvent] at h
      split at h
      · split at h
        · exact relayFrom_settled h hphase fun _ _ h => by cases h
        · exact .inl h
      · exact .inl h
  | disconnect _ =>
      simp only [hop, clientEvent] at h
      split at h
      · exact relayFrom_setPhase rfl h hphase fun _ _ h => by cases h
      · exact relayFrom_setPhase rfl h hphase fun _ _ h => by cases h
      · exact .inl h
  | ask _ queryIds =>
      simp only [hop, clientEvent, ServerRun.ask] at h
      split at h
      · exact relayFrom_setPhase rfl h hphase fun _ _ h => by cases h
      · exact .inl h
  | answered _ queryId arrived =>
      simp only [hop, clientEvent, ServerRun.answered] at h
      split at h
      · split at h
        · exact relayFrom_setPhase rfl h hphase fun _ _ h => by cases h
        · exact .inl h
      · exact .inl h
  | resume _ arrived =>
      simp only [hop, clientEvent, ServerRun.resume] at h
      split at h
      · exact relayFrom_settled h hphase fun _ _ h => by cases h
      · split at h
        · exact relayFrom_settled h hphase fun _ _ h => by cases h
        · exact .inl h
      · exact relayFrom_settled h hphase fun _ _ h => by cases h
      · exact .inl h
  | finish _ =>
      simp only [hop, clientEvent, ServerRun.finish] at h
      split at h
      · exact relayFrom_setPhase rfl h hphase fun _ _ h => by cases h
      · exact relayFrom_setPhase rfl h hphase fun _ _ h => by cases h
      · exact relayFrom_setPhase rfl h hphase fun _ _ h => by cases h
      · exact .inl (Dict.get?_erase_eq_some.mp h).2
      · exact .inl h
  | _ =>
      rw [hop] at hclient
      cases hclient

theorem relay_after (h : (s.after m cr trust e).connections.get? other = some conn')
    (hphase : conn'.phase = .waiting (.relay subscribers outgoing)) :
    RelayFrom m s e other conn' subscribers := by
  have happly : (s.apply m cr trust e.now e.op).connections.get? other = some conn' := h
  unfold ServerRun.apply at happly
  split at happly
  · by_cases hop : ∃ endpoint sid, e.op = .connect endpoint sid
    · obtain ⟨endpoint, sid, hop⟩ := hop
      simp only [hop, ServerRun.serverEvent, ServerRun.connect] at happly
      split at happly
      · exact .inl happly
      · rw [Dict.get?_set] at happly
        split at happly
        · cases happly
          cases hphase
        · exact .inl happly
    · have hcalm : Calm s (s.serverEvent m cr e.now e.op) :=
        calm_serverEvent m cr s e.now fun endpoint sid heq => hop ⟨endpoint, sid, heq⟩
      rw [hcalm.connections] at happly
      exact .inl happly
  next sid hclient =>
  split at happly
  · exact .inl happly
  next conn hconn =>
  exact relayFrom_clientEvent hclient hconn happly hphase

end Origin

/-- Only legacy sessions wait for a relay. -/
theorem relays_legacy (h : (serverSystem m cr trust).Reachable s) :
    ∀ sid conn subscribers outgoing, s.connections.get? sid = some conn →
      conn.phase = .waiting (.relay subscribers outgoing) → conn.endpoint = .v1 := by
  refine h.invariant (P := fun s => ∀ sid conn subscribers outgoing,
    s.connections.get? sid = some conn → conn.phase = .waiting (.relay subscribers outgoing) →
      conn.endpoint = .v1) ?_ ?_
  · rintro s ⟨incarnation, clocks, rfl⟩ sid conn subscribers outgoing hconn
    cases hconn
  · rintro s e s' ih ⟨-, rfl⟩ sid conn subscribers outgoing hconn hphase
    obtain hkept | ⟨hv1, -⟩ := relay_after hconn hphase
    · exact ih sid conn subscribers outgoing hkept hphase
    · exact hv1

end ServerRun

end Masterserver
