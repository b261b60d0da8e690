import Masterserver.Proofs.HubCalls

/-!
# What an event does to the hub

The events of a server touch its hub in ten ways: a handler or a link makes
its calls, a session comes or goes, the cleanup loop prunes one of three
tables, or a writer goes on. `hubMove_after` says so once for every event,
with what the event adds to the log.
-/

namespace Masterserver

open Lib Hub

/-- The session whose send an event ends. -/
def ServerOp.settles? : ServerOp → Option String
  | .writerSent sid | .writerFailed sid => some sid
  | _ => none

namespace ServerRun

variable {m : MeshConfig} {cr : Crypto} {trust : NodeTrust} {s : ServerRun} {e : ServerEvent}

/-- The hub after an event, with what is added to the log. -/
inductive HubMove (m : MeshConfig) (s : ServerRun) (e : ServerEvent) : Hub → List Entry → Prop
  /-- The calls of a connection's handler, or of a link's, which are nobody's. -/
  | calls {sid : String} {calls : List Hub.Call} {hub : Hub} {entries : List Entry}
      (hop : e.op.settles? = none)
      (hcaller : (∃ conn, s.connections.get? sid = some conn) ∨
        ∀ other, Calls m.toConfig e.now.monotonic other s.server.hub calls hub)
      (h : Calls m.toConfig e.now.monotonic sid s.server.hub calls hub)
      (hsent : calls.filterMap Hub.Call.sent? = sentIn (entries.map Entry.effect)) :
      HubMove m s e hub entries
  | create {endpoint : Endpoint} {sid : String} (hop : e.op = .connect endpoint sid) :
      HubMove m s e (s.server.hub.createSession e.now.monotonic sid) []
  | remove {sid : String} (hop : e.op = .finish sid) :
      HubMove m s e (s.server.hub.removeSession sid) []
  | pruneRoutes (hop : e.op = .pruneRoutes) :
      HubMove m s e (s.server.hub.pruneRoutes e.now.monotonic) []
  | pruneStaleSessions (hop : e.op = .pruneStaleSessions) :
      HubMove m s e (s.server.hub.pruneStaleSessions m.toConfig e.now.monotonic) []
  | pruneDedupe (hop : e.op = .pruneDedupe) :
      HubMove m s e (s.server.hub.pruneDedupe e.now.monotonic) []
  | dequeue {sid : String} (hop : e.op = .writerDequeue sid) :
      HubMove m s e (s.server.hub.writerDequeue sid) []
  | sent {sid : String} (hop : e.op = .writerSent sid) :
      HubMove m s e (s.server.hub.writerSent sid) []
  | failed {sid : String} (hop : e.op = .writerFailed sid) :
      HubMove m s e (s.server.hub.writerFailed sid) []

theorem effect_map_mk (actor : Actor) (effects : List Effect) :
    (effects.map (Entry.mk actor)).map Entry.effect = effects := by
  rw [List.map_map]
  exact List.map_id effects

/-- The state after an event moved the hub and added to the log. -/
def Moves (m : MeshConfig) (s : ServerRun) (e : ServerEvent) (s' : ServerRun) : Prop :=
  ∃ entries, s'.log = s.log ++ entries ∧ HubMove m s e s'.server.hub entries

/-- Nothing is asked of the hub and nobody is sent anything. -/
theorem Moves.still {s' : ServerRun} {entries : List Entry} (hop : e.op.settles? = none)
    (hhub : s'.server.hub = s.server.hub) (hlog : s'.log = s.log ++ entries)
    (hsent : sentIn (entries.map Entry.effect) = []) : Moves m s e s' := by
  refine ⟨entries, hlog, ?_⟩
  rw [hhub]
  exact .calls hop (.inr fun _ => .nil) (.nil : Calls _ _ "" _ [] _) hsent.symm

theorem Moves.same {s' : ServerRun} (hop : e.op.settles? = none)
    (hhub : s'.server.hub = s.server.hub) (hlog : s'.log = s.log) : Moves m s e s' :=
  .still hop hhub (hlog.trans (List.append_nil _).symm) rfl

theorem Moves.sends {s' : ServerRun} (hop : e.op.settles? = none)
    (hhub : s'.server.hub = s.server.hub) {sends : List Send}
    (hlog : s'.log = s.log ++ sends.map fun send => Entry.mk .itself (.toNode send)) :
    Moves m s e s' := by
  refine .still hop hhub hlog ?_
  rw [List.map_map]
  exact sentIn_toNode sends

/-- A step of a handler. -/
theorem Moves.applyStep {sid : String} {conn : Connection} {step : Step}
    (hconn : s.connections.get? sid = some conn) (hop : e.op.settles? = none)
    (h : Traces m.toConfig e.now.monotonic sid s.server.hub step) :
    Moves m s e (s.applyStep sid conn step) := by
  obtain ⟨calls, hcalls, hsent⟩ := h
  refine ⟨_, log_applyStep sid conn step, .calls hop (.inl ⟨conn, hconn⟩) hcalls ?_⟩
  rw [effect_map_mk]
  exact hsent

theorem moves_clientEvent (m : MeshConfig) (cr : Crypto) (trust : NodeTrust) (s : ServerRun)
    (e : ServerEvent) {sid : String} {conn : Connection} (hclient : e.op.client? = some sid)
    (hconn : s.connections.get? sid = some conn) :
    Moves m s e (s.clientEvent m cr trust e.now sid conn e.op) := by
  have hsettles : e.op.settles? = none := by
    cases hop : e.op with
    | writerSent other =>
        rw [hop] at hclient
        cases hclient
    | writerFailed other =>
        rw [hop] at hclient
        cases hclient
    | _ => rfl
  cases hop : e.op with
  | loop _ =>
      simp only [clientEvent]
      split
      · unfold ServerRun.loop
        split
        · exact .same hsettles rfl rfl
        split
        · exact .same hsettles rfl rfl
        split
        · exact .applyStep hconn hsettles (calls_proofTimeout _ _)
        · exact .same hsettles rfl rfl
      · exact .same hsettles rfl rfl
  | frame _ raw draws =>
      simp only [clientEvent]
      split
      · unfold ServerRun.frame
        split
        · exact .applyStep hconn hsettles (V1.calls_receiveFrame draws raw s.server)
        · exact .applyStep hconn hsettles (V2.calls_receiveFrame draws raw s.server)
      · exact .same hsettles rfl rfl
  | timeout _ =>
      simp only [clientEvent]
      split
      · split
        · exact .applyStep hconn hsettles (calls_proofTimeout _ _)
        · exact .same hsettles rfl rfl
      · exact .same hsettles rfl rfl
  | disconnect _ =>
      simp only [clientEvent]
      split
      · exact .same hsettles rfl rfl
      · exact .same hsettles rfl rfl
      · exact .same hsettles rfl rfl
  | ask _ queryIds =>
      simp only [clientEvent, ServerRun.ask]
      split
      · exact .sends hsettles rfl rfl
      · exact .same hsettles rfl rfl
  | answered _ queryId arrived =>
      simp only [clientEvent, ServerRun.answered]
      split
      · split
        · exact .sends hsettles rfl rfl
        · exact .same hsettles rfl rfl
      · exact .same hsettles rfl rfl
  | resume _ arrived =>
      simp only [clientEvent, ServerRun.resume]
      split
      · next subscribers outgoing _ =>
          exact .applyStep hconn hsettles (V1.calls_relayTo outgoing subscribers s.server)
      · split
        · exact .applyStep hconn hsettles ⟨[], .nil, rfl⟩
        · exact .same hsettles rfl rfl
      · exact .applyStep hconn hsettles ⟨[], .nil, rfl⟩
      · exact .same hsettles rfl rfl
  | finish other =>
      rw [hop] at hclient
      cases hclient
      simp only [clientEvent, ServerRun.finish]
      split
      · exact .same hsettles rfl rfl
      · exact .same hsettles rfl rfl
      · next routeTag rest _ =>
          have hremoved : Moves m s e
              (s.applyStep sid conn (V2.removeRoute m cr e.now sid routeTag s.server)) :=
            .applyStep hconn hsettles ((Server.calls_withMesh s.server _ _).traces sid)
          obtain ⟨entries, hlog, hmove⟩ := hremoved
          exact ⟨entries, hlog, hmove⟩
      · exact ⟨[], (List.append_nil _).symm, .remove hop⟩
      · exact .same hsettles rfl rfl
  | _ => exact .same hsettles rfl rfl

theorem moves_linkDown (s' : ServerRun) {socket : Nat} (h : Moves m s e s') :
    Moves m s e (s'.linkDown m cr e.now socket) := by
  obtain ⟨entries, hlog, hmove⟩ := h
  have hhub : (s'.linkDown m cr e.now socket).server.hub = s'.server.hub := by
    unfold linkDown
    split
    · rfl
    simp only
    split
    · rfl
    · rfl
  refine ⟨entries, ?_, ?_⟩
  · rw [log_linkDown, hlog]
  · rw [hhub]
    exact hmove

theorem moves_serverEvent (m : MeshConfig) (cr : Crypto) (s : ServerRun) (e : ServerEvent) :
    Moves m s e (s.serverEvent m cr e.now e.op) := by
  cases hop : e.op with
  | connect endpoint sid =>
      simp only [ServerRun.serverEvent, ServerRun.connect]
      split
      · exact .same (by rw [hop]; rfl) rfl rfl
      · exact ⟨[], (List.append_nil _).symm, .create hop⟩
  | pruneRoutes => exact ⟨[], (List.append_nil _).symm, .pruneRoutes hop⟩
  | pruneStaleSessions => exact ⟨[], (List.append_nil _).symm, .pruneStaleSessions hop⟩
  | pruneDedupe => exact ⟨[], (List.append_nil _).symm, .pruneDedupe hop⟩
  | writerDequeue sid => exact ⟨[], (List.append_nil _).symm, .dequeue hop⟩
  | writerSent sid => exact ⟨[], (List.append_nil _).symm, .sent hop⟩
  | writerFailed sid => exact ⟨[], (List.append_nil _).symm, .failed hop⟩
  | linkUp nodeId socket =>
      simp only [ServerRun.serverEvent, ServerRun.linkUp]
      split
      · exact .same (by rw [hop]; rfl) rfl rfl
      · exact .same (by rw [hop]; rfl) rfl rfl
  | linkDown socket =>
      exact moves_linkDown s (.same (by rw [hop]; rfl) rfl rfl)
  | nodeFrame socket raw =>
      have hsettles : e.op.settles? = none := by
        rw [hop]
        rfl
      simp only [ServerRun.serverEvent, ServerRun.nodeFrame]
      split
      · exact .same hsettles rfl rfl
      next link _ =>
      obtain ⟨calls, hcalls, hsent⟩ := Server.calls_receiveNodeFrame m cr e.now link.nodeId socket
        link.bucket raw s.server
      have hentries :=
        hsent.trans (congrArg sentIn (effect_map_mk (.node link.nodeId) _).symm)
      split
      · exact ⟨_, rfl, .calls hsettles (.inr hcalls) (hcalls "") hentries⟩
      · exact moves_linkDown _ ⟨_, rfl, .calls hsettles (.inr hcalls) (hcalls "") hentries⟩
  | rebalance index =>
      have hsettles : e.op.settles? = none := by
        rw [hop]
        rfl
      simp only [ServerRun.serverEvent, ServerRun.rebalance]
      split
      · exact .same hsettles rfl rfl
      unfold rebalanceStep
      split
      · exact .sends hsettles rfl rfl
      · exact .same hsettles rfl rfl
      · exact .sends hsettles rfl rfl
  | membershipTick => exact .sends (by rw [hop]; rfl) rfl rfl
  | _ => exact .same (by rw [hop]; rfl) rfl rfl

/-- What an event does to the hub and adds to the log. -/
theorem hubMove_after (m : MeshConfig) (cr : Crypto) (trust : NodeTrust) (s : ServerRun)
    (e : ServerEvent) : Moves m s e (s.after m cr trust e) := by
  have happly : Moves m s e (s.apply m cr trust e.now e.op) := by
    unfold ServerRun.apply
    split
    · exact moves_serverEvent m cr s e
    next sid hclient =>
    split
    · refine .same ?_ rfl rfl
      cases hop : e.op with
      | writerSent other =>
          rw [hop] at hclient
          cases hclient
      | writerFailed other =>
          rw [hop] at hclient
          cases hclient
      | _ => rfl
    next conn hconn =>
    exact moves_clientEvent m cr trust s e hclient hconn
  exact happly

end ServerRun

end Masterserver
