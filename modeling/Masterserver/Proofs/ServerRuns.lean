import Masterserver.Proofs.EndpointsV1
import Masterserver.Proofs.EndpointsV2
import Masterserver.Runs.Server

/-!
# Every session of a running server is a run of its machine

An event either belongs to a connection, and then its session's machine goes
on with what the handler recorded, or it is quiet for all of them. By
induction over the run every session the log speaks about is represented.
-/

namespace Masterserver

open Lib Hub

/-- The effect of an entry that a session's handlers wrote. -/
def Entry.effectOf? (sid : String) (entry : Entry) : Option Effect :=
  match entry.actor with
  | .client _ s => if s = sid then some entry.effect else none
  | _ => none

namespace ServerRun

variable {m : MeshConfig} {cr : Crypto} {trust : NodeTrust} {s s' : ServerRun} {sid : String}

/-- What the handlers of a session did so far. -/
def effectsOf (s : ServerRun) (sid : String) : List Effect :=
  s.log.filterMap (Entry.effectOf? sid)

theorem filterMap_effectOf?_client (endpoint : Endpoint) (sid other : String)
    (effects : List Effect) :
    (effects.map (Entry.mk (.client endpoint sid))).filterMap (Entry.effectOf? other) =
      if other = sid then effects else [] := by
  induction effects with
  | nil => split <;> rfl
  | cons e rest ih =>
      by_cases h : other = sid
      · subst h
        simpa [Entry.effectOf?] using ih
      · have h' : sid ≠ other := fun heq => h heq.symm
        simp [Entry.effectOf?, h, h']

theorem filterMap_effectOf?_other {actor : Actor} (h : ∀ endpoint s, actor ≠ .client endpoint s)
    (other : String) (effects : List Effect) :
    (effects.map (Entry.mk actor)).filterMap (Entry.effectOf? other) = [] := by
  rw [List.filterMap_eq_nil_iff]
  intro entry hmem
  obtain ⟨effect, -, rfl⟩ := List.mem_map.mp hmem
  cases actor with
  | client endpoint s => exact absurd rfl (h endpoint s)
  | node nodeId => rfl
  | itself => rfl

structure Sound (m : MeshConfig) (cr : Crypto) (trust : NodeTrust) (s : ServerRun) : Prop where
  represented : ∀ sid, ∃ endpoint,
    Represented m.toConfig cr trust endpoint s.server.hub sid (s.effectsOf sid) ∧
      ∀ conn, s.connections.get? sid = some conn → conn.endpoint = endpoint
  consistent : s.server.hub.Consistent
  connected : ∀ sid sess, s.server.hub.sessions.get? sid = some sess →
    ∃ conn, s.connections.get? sid = some conn
  fresh : ∀ sid, sid ∉ s.issued → s.connections.get? sid = none ∧ s.effectsOf sid = [] ∧
    s.server.hub.rateLimiter.buckets.get? (sid, .prove) = none

/-! ## What an event changes -/

/-- An event of a connection. -/
structure Moved (m : MeshConfig) (cr : Crypto) (trust : NodeTrust) (endpoint : Endpoint)
    (sid : String) (effects : List Effect) (s s' : ServerRun) : Prop where
  keeps : Keeps m.toConfig cr trust endpoint sid s.server.hub s'.server.hub effects
  effectsOf : ∀ other, s'.effectsOf other =
    s.effectsOf other ++ if other = sid then effects else []
  connections : ∀ other conn', s'.connections.get? other = some conn' →
    ∃ conn, s.connections.get? other = some conn ∧ conn'.endpoint = conn.endpoint
  connected : ∀ other sess, s'.server.hub.sessions.get? other = some sess →
    s.connections.contains other = true → s'.connections.contains other = true
  issued : s'.issued = s.issued

/-- An event that is none's. -/
structure Calm (s s' : ServerRun) : Prop where
  quiet : s.server.hub.Quiet s'.server.hub
  effectsOf : ∀ other, s'.effectsOf other = s.effectsOf other
  connections : s'.connections = s.connections
  issued : s'.issued = s.issued

theorem Calm.refl (s : ServerRun) : Calm s s := ⟨.refl _, fun _ => rfl, rfl, rfl⟩

theorem Calm.trans {s'' : ServerRun} (h : Calm s s') (h' : Calm s' s'') : Calm s s'' :=
  ⟨h.quiet.trans h'.quiet, fun other => (h'.effectsOf other).trans (h.effectsOf other),
    h'.connections.trans h.connections, h'.issued.trans h.issued⟩

theorem Calm.moved (h : Calm s s') (endpoint : Endpoint) (sid : String) :
    Moved m cr trust endpoint sid [] s s' where
  keeps := .of_quiet h.quiet nofun
  effectsOf other := by
    rw [h.effectsOf other]
    split <;> rw [List.append_nil]
  connections other conn' hc := ⟨conn', h.connections ▸ hc, rfl⟩
  connected _ _ _ hc := h.connections ▸ hc
  issued := h.issued

theorem Sound.moved {conn : Connection} {effects : List Effect} (h : Sound m cr trust s)
    (hconn : s.connections.get? sid = some conn)
    (hm : Moved m cr trust conn.endpoint sid effects s s') : Sound m cr trust s' where
  represented other := by
    obtain ⟨endpoint, hrep, hend⟩ := h.represented other
    refine ⟨endpoint, ?_, ?_⟩
    · rw [hm.effectsOf other]
      by_cases hne : other = sid
      · subst hne
        rw [if_pos rfl]
        have heq := hend conn hconn
        subst heq
        exact hm.keeps.represented _ hrep
      · rw [if_neg hne]
        exact hrep.quiet (hm.keeps.others other hne) nofun
    · intro conn' hc'
      obtain ⟨conn₀, hc₀, heq⟩ := hm.connections other conn' hc'
      rw [heq, hend conn₀ hc₀]
  consistent := hm.keeps.consistent h.consistent
  connected other sess hs := by
    have hbefore : ∃ sess₀, s.server.hub.sessions.get? other = some sess₀ ∨ other = sid := by
      by_cases hne : other = sid
      · exact ⟨sess, .inr hne⟩
      · obtain ⟨sess₀, hs₀, -⟩ := (hm.keeps.others other hne).session sess hs
        exact ⟨sess₀, .inl hs₀⟩
    have hcontains : s.connections.contains other = true := by
      obtain ⟨sess₀, hs₀ | rfl⟩ := hbefore
      · exact Dict.contains_iff.mpr (h.connected other sess₀ hs₀)
      · exact Dict.contains_iff.mpr ⟨conn, hconn⟩
    exact Dict.contains_iff.mp (hm.connected other sess hs hcontains)
  fresh other hnot := by
    rw [hm.issued] at hnot
    obtain ⟨hc, he, hb⟩ := h.fresh other hnot
    have hne : other ≠ sid := by
      rintro rfl
      rw [hc] at hconn
      cases hconn
    refine ⟨?_, ?_, ?_⟩
    · rw [Option.eq_none_iff_forall_ne_some]
      intro conn' hc'
      obtain ⟨conn₀, hc₀, -⟩ := hm.connections other conn' hc'
      rw [hc] at hc₀
      cases hc₀
    · rw [hm.effectsOf other, he, if_neg hne]
      rfl
    · obtain heq | ⟨-, hnone⟩ := (hm.keeps.others other hne).bucket
      · rw [heq, hb]
      · exact hnone

theorem Sound.calm (h : Sound m cr trust s) (hc : Calm s s') : Sound m cr trust s' where
  represented other := by
    obtain ⟨endpoint, hrep, hend⟩ := h.represented other
    refine ⟨endpoint, ?_, ?_⟩
    · rw [hc.effectsOf other]
      exact hrep.quiet_nil (hc.quiet.quietAt other)
    · rw [hc.connections]
      exact hend
  consistent := hc.quiet.consistent h.consistent
  connected other sess hs := by
    obtain ⟨sess₀, hs₀, -⟩ := (hc.quiet.quietAt other).session sess hs
    rw [hc.connections]
    exact h.connected other sess₀ hs₀
  fresh other hnot := by
    rw [hc.issued] at hnot
    obtain ⟨hconn, he, hb⟩ := h.fresh other hnot
    rw [hc.connections, hc.effectsOf other]
    refine ⟨hconn, he, ?_⟩
    obtain heq | ⟨-, hnone⟩ := (hc.quiet.quietAt other).bucket
    · rw [heq, hb]
    · exact hnone

/-! ## Connections -/

theorem moved_setPhase {conn : Connection} {endpoint : Endpoint} {effects : List Effect}
    (hconn : s.connections.get? sid = some conn)
    (h : Moved m cr trust endpoint sid effects s s') (hc : s'.connections = s.connections)
    (phase : Phase) :
    Moved m cr trust endpoint sid effects s (s'.setPhase sid conn phase) where
  keeps := h.keeps
  effectsOf := h.effectsOf
  connections other conn' hget := by
    rw [setPhase, hc, Dict.get?_set] at hget
    split at hget
    · next heq =>
        cases hget
        exact ⟨conn, heq ▸ hconn, rfl⟩
    · exact ⟨conn', hget, rfl⟩
  connected other sess _ hcon := by
    rw [setPhase, hc, Dict.contains_set, hcon, Bool.or_true]
  issued := h.issued

theorem moved_applyStep {conn : Connection} {step : Step}
    (hconn : s.connections.get? sid = some conn)
    (h : Keeps m.toConfig cr trust conn.endpoint sid s.server.hub step.server.hub step.effects) :
    Moved m cr trust conn.endpoint sid step.effects s (s.applyStep sid conn step) := by
  have hstep : Moved m cr trust conn.endpoint sid step.effects s
      { s with
        server := step.server
        log := s.log ++ step.effects.map (Entry.mk (.client conn.endpoint sid)) } := by
    refine ⟨h, ?_, fun other conn' hc => ⟨conn', hc, rfl⟩, fun _ _ _ hc => hc, rfl⟩
    intro other
    unfold effectsOf
    rw [List.filterMap_append, filterMap_effectOf?_client]
  exact moved_setPhase hconn hstep rfl (phaseAfter step.next)

theorem calm_withMesh (s : ServerRun) (mesh : NodeMesh) (sends : List Send) :
    Calm s (s.withMesh mesh sends) := by
  refine ⟨.refl _, ?_, rfl, rfl⟩
  intro other
  unfold effectsOf withMesh
  rw [List.filterMap_append]
  have hnil : (sends.map fun send => Entry.mk .itself (.toNode send)).filterMap
      (Entry.effectOf? other) = [] := by
    rw [List.filterMap_eq_nil_iff]
    intro entry hmem
    obtain ⟨send, -, rfl⟩ := List.mem_map.mp hmem
    rfl
  rw [hnil, List.append_nil]

theorem keeps_proofTimeout (endpoint : Endpoint) (error : String → String → Json)
    (server : Server) :
    Keeps m.toConfig cr trust endpoint sid server.hub (server.proofTimeout error).server.hub
      (server.proofTimeout error).effects :=
  .of_quiet (.refl _) (by simp [Server.proofTimeout, Server.leave, Effect.quiet])

/-- Every event of a connection moves its session's machine. -/
theorem moved_clientEvent (m : MeshConfig) (cr : Crypto) (trust : NodeTrust) (now : Clocks) {conn : Connection}
    (hconn : s.connections.get? sid = some conn) (op : ServerOp) :
    ∃ effects, Moved m cr trust conn.endpoint sid effects s
      (s.clientEvent m cr trust now sid conn op) := by
  have hrefl : ∃ effects, Moved m cr trust conn.endpoint sid effects s s :=
    ⟨[], (Calm.refl s).moved conn.endpoint sid⟩
  have hphase : ∀ phase, ∃ effects, Moved m cr trust conn.endpoint sid effects s
      (s.setPhase sid conn phase) := fun phase =>
    ⟨[], moved_setPhase hconn ((Calm.refl s).moved conn.endpoint sid) rfl phase⟩
  have hmesh : ∀ mesh sends phase, ∃ effects, Moved m cr trust conn.endpoint sid effects s
      ((s.withMesh mesh sends).setPhase sid conn phase) := fun mesh sends phase =>
    ⟨[], moved_setPhase hconn ((calm_withMesh s mesh sends).moved conn.endpoint sid) rfl phase⟩
  have hstep : ∀ step : Step, Keeps m.toConfig cr trust conn.endpoint sid s.server.hub
      step.server.hub step.effects → ∃ effects, Moved m cr trust conn.endpoint sid effects s
        (s.applyStep sid conn step) := fun step h => ⟨_, moved_applyStep hconn h⟩
  cases op with
  | loop _ =>
      simp only [clientEvent]
      split
      · unfold ServerRun.loop
        split
        · exact hphase _
        · split
          · exact hphase _
          · split
            · exact hstep _ (keeps_proofTimeout _ _ _)
            · exact hphase _
      · exact hrefl
  | frame _ raw draws =>
      simp only [clientEvent]
      split
      · unfold ServerRun.frame
        split
        · next hend => exact hstep _ (hend ▸ V1.keeps_receiveFrame now.monotonic draws raw s.server)
        · next hend => exact hstep _ (hend ▸ V2.keeps_receiveFrame now draws raw s.server)
      · exact hrefl
  | timeout _ =>
      simp only [clientEvent]
      split
      · split
        · exact hstep _ (keeps_proofTimeout _ _ _)
        · exact hrefl
      · exact hrefl
  | disconnect _ =>
      simp only [clientEvent]
      split
      · exact hphase _
      · exact hphase _
      · exact hrefl
  | ask _ queryIds =>
      simp only [clientEvent, ServerRun.ask]
      split
      · exact hmesh _ _ _
      · exact hrefl
  | answered _ queryId arrived =>
      simp only [clientEvent, ServerRun.answered]
      split
      · split
        · exact hmesh _ _ _
        · exact hrefl
      · exact hrefl
  | resume _ arrived =>
      simp only [clientEvent, ServerRun.resume]
      split
      · next subscribers outgoing _ =>
          obtain ⟨hq, he⟩ := V1.quiet_relayTo (c := m.toConfig) outgoing subscribers s.server
          exact hstep _ (.of_quiet hq he)
      · split
        · exact hstep _ (.of_quiet (.refl _)
            (by simp [V2.finishDiscover, Server.done, V2.peersReply, V2.answer, Effect.quiet]))
        · exact hrefl
      · exact hstep _ (.of_quiet (.refl _)
          (by simp [V2.finishSignal, Server.done, V2.signalAck, V2.answer, Effect.quiet]))
      · exact hrefl
  | finish _ =>
      simp only [clientEvent, ServerRun.finish]
      split
      · exact hphase _
      · exact hphase _
      · next _ _ routeTag rest _ =>
          have hkeeps : Keeps m.toConfig cr trust conn.endpoint sid s.server.hub
              (V2.removeRoute m cr now sid routeTag s.server).server.hub
              (V2.removeRoute m cr now sid routeTag s.server).effects := by
            refine .of_quiet (.refl _) ?_
            intro e he
            obtain ⟨send, -, rfl⟩ := List.mem_map.mp he
            rfl
          have hmoved := moved_applyStep hconn hkeeps
          refine ⟨_, hmoved.keeps, hmoved.effectsOf, ?_, ?_, hmoved.issued⟩
          · intro other conn' hget
            simp only at hget
            rw [Dict.get?_set] at hget
            split at hget
            · next heq =>
                cases hget
                exact ⟨conn, heq ▸ hconn, rfl⟩
            · exact ⟨conn', hget, rfl⟩
          · intro other sess _ hcon
            simp only
            rw [Dict.contains_set, hcon, Bool.or_true]
      · refine ⟨[], .of_quiet (quiet_removeSessionBy clamp sid) (List.forall_mem_nil _), ?_, ?_, ?_, rfl⟩
        · intro other
          split <;> exact (List.append_nil _).symm
        · intro other conn' hget
          exact ⟨conn', (Dict.get?_erase_eq_some.mp hget).2, rfl⟩
        · intro other sess hs hcon
          have hs' : (s.server.hub.removeSessionBy clamp sid).sessions.get? other = some sess := hs
          rw [sessions_removeSessionBy] at hs'
          have hne := (Dict.get?_erase_eq_some.mp hs').1
          simp only
          rw [Dict.contains_erase, hcon, decide_eq_false hne]
          rfl
      · exact hrefl
  | _ => exact hrefl

/-! ## Peers and the cleanup loop -/

theorem calm_withHub {hub : Hub} (h : s.server.hub.Quiet hub) : Calm s (s.withHub hub) :=
  ⟨h, fun _ => rfl, rfl, rfl⟩

/-- Only the mesh, the links and the rebalancings changed. -/
theorem Calm.of_eq (hh : s'.server.hub = s.server.hub) (hl : s'.log = s.log)
    (hc : s'.connections = s.connections) (hi : s'.issued = s.issued) : Calm s s' :=
  ⟨hh ▸ .refl _, fun other => by simp only [ServerRun.effectsOf, hl], hc, hi⟩

theorem calm_linkDown (s : ServerRun) (now : Clocks) (socket : Nat) :
    Calm s (s.linkDown m cr now socket) := by
  unfold linkDown
  split
  · exact .refl s
  · simp only
    split
    · exact .of_eq rfl rfl rfl rfl
    · exact .of_eq rfl rfl rfl rfl

/-- A message of a peer only fills a queue. -/
theorem handleMessage_quiet (now : Clocks) (nodeId : String) (link : Nat) (server : Server)
    (type : String) (payload : Payload) {step : Step}
    (h : server.handleMessage m cr now nodeId link type payload = some step) :
    server.hub.Quiet step.server.hub := by
  unfold Server.handleMessage at h
  simp only at h
  split at h
  · cases h
    exact .refl _
  split at h
  · cases h
    exact .refl _
  split at h
  · cases h
    exact .refl _
  split at h
  · obtain ⟨mesh, -, rfl⟩ := Option.map_eq_some_iff.mp h
    exact .refl _
  split at h
  · unfold Server.handleSignalForward at h
    split at h
    · cases h
    · simp only at h
      split at h
      · split at h
        · cases h
          exact quiet_sendSession _ _ _
        · cases h
          exact .refl _
      · cases h
        exact .refl _
  split at h
  · obtain ⟨mesh, -, rfl⟩ := Option.map_eq_some_iff.mp h
    exact .refl _
  split at h
  · cases h
    exact .refl _
  · cases h
    exact .refl _

theorem receiveNodeFrame_quiet (m : MeshConfig) (cr : Crypto) (now : Clocks) (nodeId : String) (link : Nat) (bucket : TokenBucket)
    (raw : List Char) (server : Server) :
    server.hub.Quiet (server.receiveNodeFrame m cr now nodeId link bucket raw).2.server.hub := by
  unfold Server.receiveNodeFrame
  split
  · exact .refl _
  · simp only
    split
    · exact .refl _
    · split
      · exact .refl _
      · split
        · exact .refl _
        · exact .refl _
        · next type id payload _ =>
            simp only
            have hseen : server.hub.Quiet (server.hub.checkAndMarkSeen m.toConfig now.monotonic
                s!"node:{nodeId}:{id}" m.dedupeWindowSeconds).1 :=
              quiet_checkAndMarkSeen m.toConfig now.monotonic _ _
            split
            · exact hseen
            · cases hstep : ({ server with
                hub := (server.hub.checkAndMarkSeen m.toConfig now.monotonic
                  s!"node:{nodeId}:{id}" m.dedupeWindowSeconds).1 } : Server).handleMessage m cr now
                  nodeId link type payload with
              | none => exact hseen
              | some step =>
                  exact hseen.trans (handleMessage_quiet now nodeId link _ type payload hstep)

theorem calm_nodeFrame (s : ServerRun) (now : Clocks) (socket : Nat) (raw : List Char) :
    Calm s (s.nodeFrame m cr now socket raw) := by
  unfold nodeFrame
  split
  · exact .refl s
  · next link _ =>
      have hquiet := receiveNodeFrame_quiet m cr now link.nodeId socket link.bucket
        raw s.server
      simp only
      have hframe : Calm s
          { s with
            server := (s.server.receiveNodeFrame m cr now link.nodeId socket link.bucket raw).2.server
            links := s.links.set socket
              { link with
                bucket :=
                  (s.server.receiveNodeFrame m cr now link.nodeId socket link.bucket raw).1 }
            log := s.log ++
              (s.server.receiveNodeFrame m cr now link.nodeId socket link.bucket raw).2.effects.map
                (Entry.mk (.node link.nodeId)) } := by
        refine ⟨hquiet, ?_, rfl, rfl⟩
        intro other
        unfold effectsOf
        rw [List.filterMap_append, filterMap_effectOf?_other (by simp), List.append_nil]
      split
      · exact hframe
      · exact hframe.trans (calm_linkDown _ now socket)

theorem calm_rebalance (s : ServerRun) (now : Clocks) (index : Nat) :
    Calm s (s.rebalance m cr now index) := by
  unfold rebalance
  split
  · exact .refl s
  · next task _ =>
      unfold rebalanceStep
      split
      · exact (calm_withMesh s _ _).trans (.of_eq rfl rfl rfl rfl)
      · exact .of_eq rfl rfl rfl rfl
      · exact (calm_withMesh s _ _).trans (.of_eq rfl rfl rfl rfl)

/-- A new session is in the initial state of its machine. -/
theorem Sound.connect (h : Sound m cr trust s) (now : Clocks) (endpoint : Endpoint)
    (hfresh : sid ∉ s.issued) : Sound m cr trust (s.connect m now endpoint sid) := by
  unfold ServerRun.connect
  split
  · exact h
  · obtain ⟨hconn, heffects, hbucket⟩ := h.fresh sid hfresh
    have hnone : s.server.hub.sessions.get? sid = none := by
      rw [Option.eq_none_iff_forall_ne_some]
      intro sess hs
      obtain ⟨conn, hc⟩ := h.connected sid sess hs
      rw [hconn] at hc
      cases hc
    have hothers : ∀ other, other ≠ sid →
        QuietAt other s.server.hub (s.server.hub.createSession now.monotonic sid) := by
      intro other hne
      refine ⟨fun t ht => ⟨t, ?_, rfl, rfl, Finset.Subset.refl _⟩, .inl rfl⟩
      rwa [createSession, Dict.get?_set_of_ne _ _ hne] at ht
    refine ⟨?_, consistent_createSession h.consistent now.monotonic hnone, ?_, ?_⟩
    · intro other
      by_cases hne : other = sid
      · subst hne
        refine ⟨endpoint, ⟨⟨.connected, 0, -1⟩, ?_, ?_⟩, ?_⟩
        · have heq : ∀ s' : ServerRun, s'.log = s.log → s'.effectsOf other = [] := by
            intro s' hlog
            simp only [ServerRun.effectsOf] at heffects ⊢
            rw [hlog, heffects]
          have htrace : (sessionMachine m.toConfig cr trust endpoint other).Trace []
              ⟨.connected, 0, -1⟩ := .start rfl
          convert htrace
          exact heq _ rfl
        · intro sess hs
          simp only [createSession, Dict.get?_set_self] at hs
          cases hs
          refine ⟨rfl, rfl, ?_, ?_⟩
          · intro hempty
            exact absurd hempty Finset.not_nonempty_empty
          · simp only [createSession]
            rw [hbucket]
            rfl
        · intro conn hc
          simp only [Dict.get?_set_self] at hc
          cases hc
          rfl
      · obtain ⟨endpoint', hrep, hend⟩ := h.represented other
        refine ⟨endpoint', hrep.quiet_nil (hothers other hne), ?_⟩
        intro conn hc
        simp only [Dict.get?_set_of_ne _ _ hne] at hc
        exact hend conn hc
    · intro other sess hs
      by_cases hne : other = sid
      · subst hne
        exact ⟨_, Dict.get?_set_self _ _ _⟩
      · obtain ⟨sess₀, hs₀, -⟩ := (hothers other hne).session sess hs
        obtain ⟨conn, hc⟩ := h.connected other sess₀ hs₀
        exact ⟨conn, by simpa only [Dict.get?_set_of_ne _ _ hne] using hc⟩
    · intro other hnot
      rw [Finset.mem_insert, not_or] at hnot
      obtain ⟨hc, he, hb⟩ := h.fresh other hnot.2
      exact ⟨by simpa only [Dict.get?_set_of_ne _ _ hnot.1] using hc, he, hb⟩

/-- Every event that is no connection's and opens none is calm. -/
theorem calm_serverEvent (m : MeshConfig) (cr : Crypto) (s : ServerRun) (now : Clocks)
    {op : ServerOp} (hop : ∀ endpoint sid, op ≠ .connect endpoint sid) :
    Calm s (s.serverEvent m cr now op) := by
  cases op with
  | connect endpoint sid => exact absurd rfl (hop endpoint sid)
  | pruneRoutes => exact calm_withHub (quiet_pruneRoutes now.monotonic)
  | pruneStaleSessions => exact calm_withHub (quiet_pruneStaleSessions m.toConfig now.monotonic)
  | pruneDedupe => exact calm_withHub (quiet_pruneDedupe now.monotonic)
  | writerDequeue sid => exact calm_withHub (quiet_writerDequeue sid)
  | writerSent sid => exact calm_withHub (quiet_writerSent sid)
  | writerFailed sid => exact calm_withHub (quiet_writerFailed sid)
  | linkUp nodeId socket =>
      simp only [ServerRun.serverEvent, ServerRun.linkUp]
      split
      · exact .of_eq rfl rfl rfl rfl
      · exact .refl s
  | linkDown socket => exact calm_linkDown s now socket
  | nodeFrame socket raw => exact calm_nodeFrame s now socket raw
  | rebalance index => exact calm_rebalance s now index
  | membershipTick => exact calm_withMesh s _ _
  | _ => exact .refl s

theorem Sound.serverEvent (h : Sound m cr trust s) (now : Clocks) {op : ServerOp}
    (hallowed : s.allowed m op) : Sound m cr trust (s.serverEvent m cr now op) := by
  by_cases hop : ∃ endpoint sid, op = .connect endpoint sid
  · obtain ⟨endpoint, sid, rfl⟩ := hop
    exact h.connect now endpoint hallowed
  · refine h.calm (calm_serverEvent m cr s now fun endpoint sid heq => ?_)
    exact hop ⟨endpoint, sid, heq⟩

theorem Sound.after (h : Sound m cr trust s) {e : ServerEvent} (hallowed : s.allowed m e.op) :
    Sound m cr trust (s.after m cr trust e) := by
  have happly : Sound m cr trust (s.apply m cr trust e.now e.op) := by
    unfold ServerRun.apply
    split
    · exact h.serverEvent e.now hallowed
    · next sid _ =>
        split
        · exact h
        · next conn hconn =>
            obtain ⟨effects, hmoved⟩ := moved_clientEvent m cr trust e.now hconn e.op
            exact h.moved hconn hmoved
  exact happly.calm (.of_eq rfl rfl rfl rfl)

/-- What a session's handlers did is never taken back. -/
theorem effectsOf_extends_after (s : ServerRun) (e : ServerEvent) (sid : String) :
    s.effectsOf sid <+: (s.after m cr trust e).effectsOf sid := by
  show s.effectsOf sid <+: (s.apply m cr trust e.now e.op).effectsOf sid
  unfold ServerRun.apply
  split
  · by_cases hop : ∃ endpoint other, e.op = .connect endpoint other
    · obtain ⟨endpoint, other, heq⟩ := hop
      rw [heq]
      simp only [ServerRun.serverEvent, ServerRun.connect]
      split
      · exact List.prefix_refl _
      · exact List.prefix_refl _
    · have hcalm : Calm s (s.serverEvent m cr e.now e.op) :=
        calm_serverEvent m cr s e.now fun endpoint other heq => hop ⟨endpoint, other, heq⟩
      rw [hcalm.effectsOf sid]
  · split
    · exact List.prefix_refl _
    · next conn hconn =>
        obtain ⟨effects, hmoved⟩ := moved_clientEvent m cr trust e.now hconn e.op
        rw [hmoved.effectsOf sid]
        exact List.prefix_append _ _

theorem effectsOf_extends (h : (serverSystem m cr trust).Leads s s') (sid : String) :
    s.effectsOf sid <+: s'.effectsOf sid :=
  h.monotone (R := fun s s' => s.effectsOf sid <+: s'.effectsOf sid)
    (fun _ => List.prefix_refl _) (fun _ _ _ => List.IsPrefix.trans)
    fun s e _ hstep => hstep.2 ▸ effectsOf_extends_after s e sid

theorem sound_new (incarnation : String) (clocks : Clocks) :
    Sound m cr trust (.new m incarnation clocks) where
  represented sid := by
    refine ⟨.v1, ⟨⟨.connected, 0, -1⟩, .start rfl, ?_⟩, ?_⟩
    · intro sess hs
      cases hs
    · intro conn hc
      cases hc
  consistent := consistent_new m.toConfig clocks.monotonic
  connected sid sess hs := by cases hs
  fresh sid _ := ⟨rfl, rfl, rfl⟩

/-- Every reachable state is sound. -/
theorem sound_of_reachable (h : (serverSystem m cr trust).Reachable s) : Sound m cr trust s := by
  refine h.invariant ?_ ?_
  · rintro s ⟨incarnation, clocks, rfl⟩
    exact sound_new incarnation clocks
  · rintro s e s' hs ⟨⟨-, hallowed⟩, rfl⟩
    exact hs.after hallowed

end ServerRun

end Masterserver
