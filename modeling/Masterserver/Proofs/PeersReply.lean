import Masterserver.Proofs.Relays

/-!
# Where the replies to DISCOVER come from

A DISCOVER is answered in the step of its message or, if other owners of the
route are asked, in the step in which the last answer is there. `discovery_after`
says of every event that it does one of the two, begins a wait, or has nothing
to do with the DISCOVERs under way.
-/

namespace Masterserver

open Lib Hub Protocol

/-- A reply whose `type` is PEERS. -/
def Effect.isPeers : Effect → Bool
  | .reply message => (message.get? "type").bind Json.str? == some "PEERS"
  | _ => false

@[simp] theorem Effect.isPeers_of_ne_reply {e : Effect} (h : ∀ message, e ≠ .reply message) :
    e.isPeers = false := by
  cases e with
  | reply message => exact absurd rfl (h message)
  | _ => rfl

/-- A step that answers no DISCOVER and begins none. -/
structure Step.Aside (step : Step) : Prop where
  effects : ∀ e ∈ step.effects, e.isPeers = false
  next : ∀ id routeTag peers found queries,
    step.next ≠ .waiting (.discover id routeTag peers found queries)

theorem Server.aside_done (server : Server) {effects : List Effect}
    (h : ∀ e ∈ effects, e.isPeers = false) : (server.done effects).Aside := ⟨h, nofun⟩

theorem Server.aside_leave (server : Server) {effects : List Effect}
    (h : ∀ e ∈ effects, e.isPeers = false) : (server.leave effects).Aside := ⟨h, nofun⟩

theorem isPeers_toNode (sends : List Send) {effects : List Effect}
    (h : ∀ e ∈ effects, e.isPeers = false) :
    ∀ e ∈ sends.map .toNode ++ effects, e.isPeers = false := by
  intro e he
  rcases List.mem_append.mp he with he | he
  · obtain ⟨send, -, rfl⟩ := List.mem_map.mp he
    rfl
  · exact h e he

namespace V2

variable {m : MeshConfig} {cr : Crypto} {trust : NodeTrust} {sid : String} {id : Json}

@[simp] theorem isPeers_v2Error (code message : String) (id : Json) :
    (Effect.reply (v2Error code message id)).isPeers = false := rfl

@[simp] theorem isPeers_answer (id : Json) (protocol type : String)
    (payload : List (String × Json)) :
    (answer id protocol type payload).isPeers = (type == "PEERS") := by
  show (some type == some "PEERS") = (type == "PEERS")
  rfl

@[simp] theorem isPeers_signalAck (id : Json) (messageId : String) (delivered : Bool) :
    (signalAck id messageId delivered).isPeers = false := by
  unfold signalAck
  rw [isPeers_answer]
  rfl

@[simp] theorem isPeers_pong (id : Json) :
    (Effect.reply (messageOf sessionV2 "PONG" [("inReplyTo", id)])).isPeers = false := rfl

theorem aside_refuse (id : Json) (server : Server) (code message : String) :
    (refuse id server code message).Aside := server.aside_done (by simp)

theorem aside_admitFrame {c : Config} {now : Seconds} {raw : List Char} {server : Server}
    {step : Step} (h : server.admitFrame c (fun code message => v2Error code message .null) now sid
      raw = .error step) : step.Aside := by
  unfold Server.admitFrame at h
  split at h
  · cases h
    exact Server.aside_done _ (by simp)
  simp only at h
  split at h
  · cases h
    exact Server.aside_leave _ (by simp)
  split at h
  · cases h
    exact Server.aside_leave _ (by simp)
  split at h
  · cases h
    exact Server.aside_done _ (by simp)
  · cases h
    exact Server.aside_leave _ nofun
  · cases h

theorem aside_handleHello (now : Clocks) (draws : Draws) (sess : Session) (grant : Payload)
    (identityKeyHex encryptionKeyHex : String) (server : Server) :
    (handleHello m cr trust now sid id draws sess grant identityKeyHex encryptionKeyHex
      server).Aside := by
  unfold handleHello
  split
  · exact aside_refuse _ _ _ _
  split
  · exact aside_refuse _ _ _ _
  split
  · exact Server.aside_leave _ nofun
  · exact aside_refuse _ _ _ _
  simp only
  split
  · exact Server.aside_done _ (by simp)
  · exact Server.aside_leave _ nofun

theorem aside_handleProve (now : Clocks) (sess : Session) (signatureHex : String)
    (server : Server) : (handleProve m cr now sid id sess signatureHex server).Aside := by
  unfold handleProve
  split
  · exact aside_refuse _ _ _ _
  simp only
  split
  · exact Server.aside_done _ (by simp)
  split
  · exact Server.aside_leave _ nofun
  split
  · exact aside_refuse _ _ _ _
  split
  · exact Server.aside_done _ (by simp)
  · exact Server.aside_done _ (by simp)

theorem aside_handlePing (now : Clocks) (server : Server) :
    (handlePing now sid id server).Aside := by
  unfold handlePing
  simp only
  split
  · exact aside_refuse _ _ _ _
  · exact Server.aside_done _ (by simp)

theorem aside_handleAttachRoute (now : Clocks) (routeTag : String) (server : Server) :
    (handleAttachRoute m cr now sid id routeTag server).Aside := by
  unfold handleAttachRoute
  simp only
  split
  · exact aside_refuse _ _ _ _
  split
  · exact Server.aside_leave _ nofun
  · exact aside_refuse _ _ _ _
  · exact Server.aside_done _ (isPeers_toNode _ (by simp))

theorem aside_relaySignal (now : Clocks) (draws : Draws) (signal : Signal) (server : Server) :
    (relaySignal m now sid id draws signal server).Aside := by
  unfold relaySignal
  simp only
  split
  · exact Server.aside_done _ (by simp)
  split
  · exact Server.aside_done _ (by simp)
  split
  · exact Server.aside_done _ (by simp)
  · exact ⟨by simp, nofun⟩

theorem aside_handleSignal (now : Clocks) (draws : Draws) (sess : Session) (signal : Signal)
    (server : Server) : (handleSignal m cr now sid id draws sess signal server).Aside := by
  unfold handleSignal
  simp only
  split
  · exact aside_refuse _ _ _ _
  split
  · exact aside_refuse _ _ _ _
  split
  · exact aside_refuse _ _ _ _
  split
  · exact aside_refuse _ _ _ _
  split
  · exact aside_refuse _ _ _ _
  split
  · exact Server.aside_leave _ nofun
  split
  · exact aside_refuse _ _ _ _
  split
  · exact aside_refuse _ _ _ _
  split
  · exact aside_refuse _ _ _ _
  · exact aside_relaySignal now draws signal _

/-- A DISCOVER that is carried out: it is answered at once, or waits for the
other owners' answers. The rate limit has been charged for it. -/
inductive Discovers (m : MeshConfig) (cr : Crypto) (now : Clocks) (sid : String)
    (server : Server) (step : Step) : Prop
  | answered {hub : Hub} {id : Json} {routeTag : String}
      (hsessions : hub.sessions = server.hub.sessions) (hroutes : hub.routes = server.hub.routes)
      (heffects : step.effects = [peersReply m sid id routeTag
        (hub.routePeerDescriptors now.monotonic routeTag (some sid))
        (server.mesh.discover m cr hub now.wall routeTag).2.1])
      (hnext : step.next = .goOn) : Discovers m cr now sid server step
  | waits {hub : Hub} {id : Json} {routeTag : String}
      (hsessions : hub.sessions = server.hub.sessions) (hroutes : hub.routes = server.hub.routes)
      (heffects : step.effects = [])
      (hnext : step.next = .waiting (.discover id routeTag
        (hub.routePeerDescriptors now.monotonic routeTag (some sid))
        (server.mesh.discover m cr hub now.wall routeTag).2.1
        (server.mesh.discover m cr hub now.wall routeTag).2.2)) :
      Discovers m cr now sid server step

theorem handleDiscover_cases (m : MeshConfig) (cr : Crypto) (now : Clocks) (sid : String)
    (id : Json) (sess : Session) (routeTag : String) {server server' : Server}
    (htables : server.hub.SameTables server'.hub) (hmesh : server'.mesh = server.mesh) :
    (handleDiscover m cr now sid id sess routeTag server').Aside ∨
      Discovers m cr now sid server (handleDiscover m cr now sid id sess routeTag server') := by
  have hsessions : (server'.hub.checkRate now.monotonic sid .discover).1.sessions =
      server.hub.sessions := htables.sessions
  have hroutes : (server'.hub.checkRate now.monotonic sid .discover).1.routes =
      server.hub.routes := htables.routes
  unfold handleDiscover
  simp only [hmesh]
  split
  · exact .inl (aside_refuse _ _ _ _)
  split
  · exact .inl (aside_refuse _ _ _ _)
  split
  · exact .inr (.answered hsessions hroutes rfl rfl)
  · exact .inr (.waits hsessions hroutes rfl rfl)

theorem receiveFrame_discover (m : MeshConfig) (cr : Crypto) (trust : NodeTrust) (now : Clocks)
    (sid : String) (draws : Draws) (raw : List Char) (server : Server) :
    (receiveFrame m cr trust now sid draws raw server).Aside ∨
      Discovers m cr now sid server (receiveFrame m cr trust now sid draws raw server) := by
  unfold receiveFrame
  split
  · next step heq => exact .inl (aside_admitFrame heq)
  next server' data heq =>
  obtain ⟨-, htables, hmesh⟩ := admitFrame_ok heq
  split
  · exact .inl (Server.aside_done _ (by simp))
  · exact .inl (Server.aside_leave _ nofun)
  next message _ =>
  split
  · exact .inl (Server.aside_leave _ nofun)
  next sess _ =>
  unfold handle
  split
  · exact .inl (aside_refuse _ _ _ _)
  cases message.request with
  | hello grant identityKeyHex encryptionKeyHex =>
      exact .inl (aside_handleHello now draws sess grant identityKeyHex encryptionKeyHex server')
  | prove signatureHex => exact .inl (aside_handleProve now sess signatureHex server')
  | ping => exact .inl (aside_handlePing now server')
  | attachRoute routeTag => exact .inl (aside_handleAttachRoute now routeTag server')
  | detachRoute routeTag => exact .inl (Server.aside_done _ (isPeers_toNode _ (by simp)))
  | discover routeTag =>
      exact handleDiscover_cases m cr now sid _ sess routeTag htables hmesh
  | signal signal => exact .inl (aside_handleSignal now draws sess signal server')

end V2

/-! ## Event by event -/

namespace ServerRun

variable {m : MeshConfig} {cr : Crypto} {trust : NodeTrust} {s s' : ServerRun} {sid : String}
variable {e : ServerEvent} {conn : Connection}

/-- The waiting DISCOVERs of the second state are there in the first, with
what they found here. -/
def Waits (s s' : ServerRun) : Prop :=
  ∀ sid conn' id routeTag peers found queries', s'.connections.get? sid = some conn' →
    conn'.endpoint = .v2 → conn'.phase = .waiting (.discover id routeTag peers found queries') →
    ∃ conn queries, s.connections.get? sid = some conn ∧ conn.endpoint = .v2 ∧
      conn.phase = .waiting (.discover id routeTag peers found queries)

/-- No session of the second endpoint gets an answer. -/
def Unanswered (s s' : ServerRun) : Prop :=
  ∀ sid conn effect, s.connections.get? sid = some conn → conn.endpoint = .v2 →
    effect ∈ (s'.effectsOf sid).drop (s.effectsOf sid).length → effect.isPeers = false

structure StandBy (s s' : ServerRun) : Prop where
  waits : Waits s s'
  unanswered : Unanswered s s'

inductive Discovery (m : MeshConfig) (cr : Crypto) (s : ServerRun) (e : ServerEvent)
    (s' : ServerRun) : Prop
  | standBy (h : StandBy s s')
  | message {sid : String} {raw : List Char} {draws : Draws} {conn : Connection} {step : Step}
      (hop : e.op = .frame sid raw draws) (hconn : s.connections.get? sid = some conn)
      (hstep : V2.Discovers m cr e.now sid s.server step)
      (hconnections : s'.connections = (s.applyStep sid conn step).connections)
      (hlog : s'.log = (s.applyStep sid conn step).log)
  | resumed {sid : String} {conn : Connection} {arrived : Bool} {id : Json} {routeTag : String}
      {peers : List Hub.PeerDescriptor} {found : Dict String Descriptor} {queries : List Query}
      (hop : e.op = .resume sid arrived) (hconn : s.connections.get? sid = some conn)
      (hphase : conn.phase = .waiting (.discover id routeTag peers found queries))
      (hanswered : allAnswered queries = true)
      (hconnections : s'.connections = (s.applyStep sid conn
        (V2.finishDiscover m e.now sid id routeTag peers found queries s.server)).connections)
      (hlog : s'.log = (s.applyStep sid conn
        (V2.finishDiscover m e.now sid id routeTag peers found queries s.server)).log)

theorem effectsOf_applyStep (s : ServerRun) (sid : String) (conn : Connection) (step : Step)
    (other : String) : (s.applyStep sid conn step).effectsOf other =
      s.effectsOf other ++ if other = sid then step.effects else [] := by
  unfold effectsOf applyStep
  rw [List.filterMap_append, filterMap_effectOf?_client]

theorem Waits.of_eq (h : s'.connections = s.connections) : Waits s s' := by
  intro sid conn' id routeTag peers found queries' hget hv2 hphase
  rw [h] at hget
  exact ⟨conn', queries', hget, hv2, hphase⟩

theorem Waits.of_setPhase {phase : Phase} (hconn : s.connections.get? sid = some conn)
    (h : s'.connections = s.connections.set sid { conn with phase := phase })
    (hphase : conn.endpoint = .v2 → ∀ id routeTag peers found queries',
      phase = .waiting (.discover id routeTag peers found queries') →
      ∃ queries, conn.phase = .waiting (.discover id routeTag peers found queries)) :
    Waits s s' := by
  intro other conn' id routeTag peers found queries' hget hv2 hwaiting
  rw [h, Dict.get?_set] at hget
  split at hget
  · next heq =>
      subst heq
      cases hget
      obtain ⟨queries, hbefore⟩ := hphase hv2 id routeTag peers found queries' hwaiting
      exact ⟨conn, queries, hconn, hv2, hbefore⟩
  · exact ⟨conn', queries', hget, hv2, hwaiting⟩

theorem Unanswered.of_effectsOf (h : ∀ sid, s'.effectsOf sid = s.effectsOf sid) :
    Unanswered s s' := by
  intro sid conn effect _ _ hmem
  rw [h, List.drop_length] at hmem
  cases hmem

theorem Unanswered.of_step {step : Step} (hconn : s.connections.get? sid = some conn)
    (hlog : s'.log = (s.applyStep sid conn step).log)
    (h : conn.endpoint = .v2 → ∀ e ∈ step.effects, e.isPeers = false) : Unanswered s s' := by
  intro other conn' effect hconn' hv2 hmem
  have heffects : s'.effectsOf other = (s.applyStep sid conn step).effectsOf other := by
    unfold effectsOf
    rw [hlog]
  rw [heffects, effectsOf_applyStep, List.drop_left] at hmem
  split at hmem
  · next heq =>
      subst heq
      rw [hconn] at hconn'
      cases hconn'
      exact h hv2 effect hmem
  · cases hmem

theorem StandBy.refl : StandBy s s := ⟨.of_eq rfl, .of_effectsOf fun _ => rfl⟩

/-- The connection goes on to a phase that is no wait of a DISCOVER. -/
theorem StandBy.of_setPhase {phase : Phase} (hconn : s.connections.get? sid = some conn)
    (hne : ∀ id routeTag peers found queries,
      phase ≠ .waiting (.discover id routeTag peers found queries)) :
    StandBy s (s.setPhase sid conn phase) := by
  refine ⟨.of_setPhase hconn rfl fun _ id routeTag peers found queries heq => ?_,
    .of_effectsOf fun _ => rfl⟩
  exact absurd heq (hne id routeTag peers found queries)

theorem StandBy.of_step {step : Step} (hconn : s.connections.get? sid = some conn)
    (h : conn.endpoint = .v2 → step.Aside) : StandBy s (s.applyStep sid conn step) := by
  refine ⟨.of_setPhase hconn rfl fun hv2 id routeTag peers found queries heq => ?_,
    .of_step hconn rfl fun hv2 => (h hv2).effects⟩
  cases hnext : step.next with
  | goOn =>
      rw [hnext] at heq
      cases heq
  | ended =>
      rw [hnext] at heq
      cases heq
  | waiting on =>
      rw [hnext] at heq
      cases heq
      exact absurd hnext ((h hv2).next id routeTag peers found queries)

theorem aside_proofTimeout (server : Server) : (server.proofTimeout (errorOf .v2)).Aside :=
  Server.aside_leave _ (by simp [errorOf])

theorem discovery_clientEvent (m : MeshConfig) (cr : Crypto) (trust : NodeTrust)
    (hclient : e.op.client? = some sid) (hconn : s.connections.get? sid = some conn) :
    Discovery m cr s e (s.clientEvent m cr trust e.now sid conn e.op) := by
  have htimeout : StandBy s
      (s.applyStep sid conn (s.server.proofTimeout (errorOf conn.endpoint))) :=
    .of_step hconn fun hv2 => by
      rw [hv2]
      exact aside_proofTimeout s.server
  cases hop : e.op with
  | loop _ =>
      simp only [clientEvent]
      split
      · unfold ServerRun.loop
        split
        · exact .standBy (.of_setPhase hconn fun _ _ _ _ _ h => by cases h)
        split
        · exact .standBy (.of_setPhase hconn fun _ _ _ _ _ h => by cases h)
        split
        · exact .standBy htimeout
        · exact .standBy (.of_setPhase hconn fun _ _ _ _ _ h => by cases h)
      · exact .standBy .refl
  | frame _ raw draws =>
      rw [hop] at hclient
      cases hclient
      simp only [clientEvent]
      split
      · unfold ServerRun.frame
        split
        · next hv1 =>
          refine .standBy (.of_step hconn fun hv2 => ?_)
          rw [hv1] at hv2
          cases hv2
        · obtain haside | hdiscovers :=
            V2.receiveFrame_discover m cr trust e.now sid draws raw s.server
          · exact .standBy (.of_step hconn fun _ => haside)
          · exact .message hop hconn hdiscovers rfl rfl
      · exact .standBy .refl
  | timeout _ =>
      simp only [clientEvent]
      split
      · split
        · exact .standBy htimeout
        · exact .standBy .refl
      · exact .standBy .refl
  | disconnect _ =>
      simp only [clientEvent]
      split
      · exact .standBy (.of_setPhase hconn fun _ _ _ _ _ h => by cases h)
      · exact .standBy (.of_setPhase hconn fun _ _ _ _ _ h => by cases h)
      · exact .standBy .refl
  | ask _ queryIds =>
      simp only [clientEvent, ServerRun.ask]
      split
      · next id routeTag peers found queries hphase =>
        refine .standBy ⟨.of_setPhase hconn rfl ?_, .of_effectsOf fun other =>
          (calm_withMesh s s.server.mesh _).effectsOf other⟩
        intro _ _ _ _ _ _ heq
        cases heq
        exact ⟨queries, hphase⟩
      · exact .standBy .refl
  | answered _ queryId arrived =>
      simp only [clientEvent, ServerRun.answered]
      split
      · next id routeTag peers found queries hphase =>
        split
        · refine .standBy ⟨.of_setPhase hconn rfl ?_, .of_effectsOf fun other =>
            (calm_withMesh s s.server.mesh _).effectsOf other⟩
          intro _ _ _ _ _ _ heq
          cases heq
          exact ⟨queries, hphase⟩
        · exact .standBy .refl
      · exact .standBy .refl
  | resume _ arrived =>
      rw [hop] at hclient
      cases hclient
      simp only [clientEvent, ServerRun.resume]
      split
      · refine .standBy (.of_step hconn fun _ => ⟨fun effect heffect => ?_, fun _ _ _ _ _ h => by cases h⟩)
        obtain ⟨target, -, delivered, rfl⟩ := V1.mem_relayTo heffect
        rfl
      · next hphase =>
        split
        · next hanswered => exact .resumed hop hconn hphase hanswered rfl rfl
        · exact .standBy .refl
      · exact .standBy (.of_step hconn fun _ => Server.aside_done _ (by simp))
      · exact .standBy .refl
  | finish _ =>
      rw [hop] at hclient
      cases hclient
      simp only [clientEvent, ServerRun.finish]
      split
      · exact .standBy (.of_setPhase hconn fun _ _ _ _ _ h => by cases h)
      · exact .standBy (.of_setPhase hconn fun _ _ _ _ _ h => by cases h)
      · refine .standBy ⟨.of_setPhase hconn rfl (fun _ _ _ _ _ _ h => by cases h), .of_step hconn rfl ?_⟩
        intro _ effect heffect
        obtain ⟨send, -, rfl⟩ := List.mem_map.mp heffect
        rfl
      · refine .standBy ⟨fun other conn' id routeTag peers found queries hget hv2 hphase => ?_,
          .of_effectsOf fun _ => rfl⟩
        exact ⟨conn', queries, (Dict.get?_erase_eq_some.mp hget).2, hv2, hphase⟩
      · exact .standBy .refl
  | _ =>
      rw [hop] at hclient
      cases hclient

theorem discovery_after (m : MeshConfig) (cr : Crypto) (trust : NodeTrust) (s : ServerRun)
    (e : ServerEvent) : Discovery m cr s e (s.after m cr trust e) := by
  have happly : Discovery m cr s e (s.apply m cr trust e.now e.op) := by
    unfold ServerRun.apply
    split
    · by_cases hop : ∃ endpoint sid, e.op = .connect endpoint sid
      · obtain ⟨endpoint, sid, hop⟩ := hop
        simp only [hop, ServerRun.serverEvent, ServerRun.connect]
        split
        · exact .standBy .refl
        · refine .standBy ⟨?_, .of_effectsOf fun _ => rfl⟩
          intro other conn' id routeTag peers found queries hget hv2 hphase
          rw [Dict.get?_set] at hget
          split at hget
          · cases hget
            cases hphase
          · exact ⟨conn', queries, hget, hv2, hphase⟩
      · have hcalm : Calm s (s.serverEvent m cr e.now e.op) :=
          calm_serverEvent m cr s e.now fun endpoint sid heq => hop ⟨endpoint, sid, heq⟩
        exact .standBy ⟨.of_eq hcalm.connections, .of_effectsOf hcalm.effectsOf⟩
    next sid hclient =>
    split
    · exact .standBy .refl
    next conn hconn =>
    exact discovery_clientEvent m cr trust hclient hconn
  cases happly with
  | standBy h => exact .standBy ⟨h.waits, h.unanswered⟩
  | message hop hconn hstep hconnections hlog => exact .message hop hconn hstep hconnections hlog
  | resumed hop hconn hphase hanswered hconnections hlog =>
      exact .resumed hop hconn hphase hanswered hconnections hlog

end ServerRun

end Masterserver
