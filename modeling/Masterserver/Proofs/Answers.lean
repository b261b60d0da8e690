import Masterserver.Proofs.Isolation
import Masterserver.Proofs.Lookups
import Masterserver.Proofs.MessageRate
import Masterserver.Proofs.PeersReply
import Masterserver.Proofs.SignalOnce

/-!
# Every request has its answer

A client of the second endpoint numbers its messages itself and finds the
number again in the reply. Every frame the loop takes is answered once, in the
order of the frames, before the next one is taken: at once, or when the nodes a
DISCOVER or a SIGNAL waits for are heard of. Only an exception leaves the last
request without an answer, and the only reply nobody asked for is that of the
proof deadline.
-/

namespace Masterserver

open Lib Protocol

/-- The request a reply is for, null where it names none. -/
def Effect.inReplyTo? : Effect → Option Json
  | .reply message => some ((message.get? "inReplyTo").getD .null)
  | _ => none

/-- The requests that were replied to. -/
def repliesIn (effects : List Effect) : List Json := effects.filterMap Effect.inReplyTo?

theorem repliesIn_append (effects effects' : List Effect) :
    repliesIn (effects ++ effects') = repliesIn effects ++ repliesIn effects' :=
  List.filterMap_append

theorem repliesIn_toNode (sends : List Send) : repliesIn (sends.map .toNode) = [] := by
  rw [repliesIn, List.filterMap_eq_nil_iff]
  intro e he
  obtain ⟨send, -, rfl⟩ := List.mem_map.mp he
  rfl

theorem repliesIn_error (code message : String) (id : Json) :
    repliesIn [.reply (v2Error code message id)] = [id] := rfl

theorem repliesIn_answer (id : Json) (protocol type : String) (payload : List (String × Json)) :
    repliesIn [V2.answer id protocol type payload] = [id] := rfl

/-- The request a handler of the second endpoint still has to answer. -/
def Waiting.id? : Waiting → Option Json
  | .relay _ _ => none
  | .discover id _ _ _ _ => some id
  | .ack id _ _ => some id

/-- A step that answers the request once, or waits to, or breaks off. -/
inductive Step.Answers (id : Json) (step : Step) : Prop
  | once (h : repliesIn step.effects = [id]) (hnext : ∀ on, step.next ≠ .waiting on)
  | later (on : Waiting) (h : repliesIn step.effects = []) (hnext : step.next = .waiting on)
      (hid : on.id? = some id)
  | never (h : repliesIn step.effects = []) (hnext : step.next = .ended)

namespace V2

variable {m : MeshConfig} {cr : Crypto} {trust : NodeTrust} {now : Clocks} {sid : String}
variable {id : Json}

theorem answers_done {server : Server} {effects : List Effect} (h : repliesIn effects = [id]) :
    (server.done effects).Answers id := .once h fun _ heq => by cases heq

theorem answers_refuse (server : Server) (code message : String) :
    (refuse id server code message).Answers id := answers_done rfl

theorem answers_leave (server : Server) : (server.leave []).Answers id := .never rfl rfl

/-- A reply after messages to other nodes. -/
theorem answers_sends {server : Server} {sends : List Send} {effect : Effect}
    (h : repliesIn [effect] = [id]) : (server.done (sends.map .toNode ++ [effect])).Answers id := by
  refine answers_done ?_
  rw [repliesIn_append, repliesIn_toNode, h, List.nil_append]

theorem answers_handleHello (draws : Draws) (sess : Session) (grant : Payload)
    (identityKeyHex encryptionKeyHex : String) (server : Server) :
    (handleHello m cr trust now sid id draws sess grant identityKeyHex encryptionKeyHex
      server).Answers id := by
  unfold handleHello
  split
  · exact answers_refuse ..
  split
  · exact answers_refuse ..
  split
  · exact answers_leave _
  · exact answers_refuse ..
  · simp only
    split
    · exact answers_done rfl
    · exact answers_leave _

theorem answers_handleProve (sess : Session) (signatureHex : String) (server : Server) :
    (handleProve m cr now sid id sess signatureHex server).Answers id := by
  unfold handleProve
  split
  · exact answers_refuse ..
  simp only
  split
  · exact answers_done rfl
  split
  · exact answers_leave _
  split
  · exact answers_refuse ..
  split
  · exact answers_done rfl
  · exact answers_done rfl

theorem answers_handlePing (server : Server) : (handlePing now sid id server).Answers id := by
  unfold handlePing
  simp only
  split
  · exact answers_refuse ..
  · exact answers_done rfl

theorem answers_handleAttachRoute (routeTag : String) (server : Server) :
    (handleAttachRoute m cr now sid id routeTag server).Answers id := by
  unfold handleAttachRoute
  simp only
  split
  · exact answers_refuse ..
  split
  · exact answers_leave _
  · exact answers_refuse ..
  · exact answers_sends rfl

theorem answers_handleDetachRoute (routeTag : String) (server : Server) :
    (handleDetachRoute m cr now sid id routeTag server).Answers id := answers_sends rfl

theorem repliesIn_peersReply (routeTag : String) (peers : List Hub.PeerDescriptor)
    (found : Dict String Descriptor) :
    repliesIn [peersReply m sid id routeTag peers found] = [id] := rfl

theorem answers_handleDiscover (sess : Session) (routeTag : String) (server : Server) :
    (handleDiscover m cr now sid id sess routeTag server).Answers id := by
  unfold handleDiscover
  simp only
  split
  · exact answers_refuse ..
  split
  · exact answers_refuse ..
  split
  · exact answers_done (repliesIn_peersReply ..)
  · exact .later _ rfl rfl rfl

theorem answers_finishDiscover (routeTag : String) (peers : List Hub.PeerDescriptor)
    (found : Dict String Descriptor) (queries : List Query) (server : Server) :
    (finishDiscover m now sid id routeTag peers found queries server).Answers id :=
  answers_done (repliesIn_peersReply ..)

theorem answers_relaySignal (draws : Draws) (signal : Signal) (server : Server) :
    (relaySignal m now sid id draws signal server).Answers id := by
  unfold relaySignal
  simp only
  split
  · exact answers_done rfl
  split
  · exact answers_done rfl
  split
  · exact answers_done rfl
  · exact .later _ rfl rfl rfl

theorem answers_handleSignal (draws : Draws) (sess : Session) (signal : Signal)
    (server : Server) : (handleSignal m cr now sid id draws sess signal server).Answers id := by
  unfold handleSignal
  simp only
  split
  · exact answers_refuse ..
  split
  · exact answers_refuse ..
  split
  · exact answers_refuse ..
  split
  · exact answers_refuse ..
  split
  · exact answers_refuse ..
  split
  · exact answers_leave _
  split
  · exact answers_refuse ..
  split
  · exact answers_refuse ..
  split
  · exact answers_refuse ..
  · exact answers_relaySignal draws signal _

theorem answers_finishSignal (messageId requestId : String) (arrived : Bool) (server : Server) :
    (finishSignal id messageId requestId arrived server).Answers id := answers_done rfl

theorem answers_handle (draws : Draws) (sess : Session) (request : V2Request) (server : Server) :
    (handle m cr trust now sid id draws sess request server).Answers id := by
  unfold handle
  split
  · exact answers_refuse ..
  cases request with
  | hello grant identityKeyHex encryptionKeyHex =>
      exact answers_handleHello draws sess grant identityKeyHex encryptionKeyHex server
  | prove signatureHex => exact answers_handleProve sess signatureHex server
  | ping => exact answers_handlePing server
  | attachRoute routeTag => exact answers_handleAttachRoute routeTag server
  | detachRoute routeTag => exact answers_handleDetachRoute routeTag server
  | discover routeTag => exact answers_handleDiscover sess routeTag server
  | signal signal => exact answers_handleSignal draws sess signal server

/-- The identifier a frame is answered under: that of its message, null where
the limits or the decoder turn the frame down. -/
def requestId (m : MeshConfig) (now : Clocks) (sid : String) (raw : List Char) (server : Server) :
    Json :=
  match server.admitFrame m.toConfig (fun code message => v2Error code message .null)
      now.monotonic sid raw with
  | .error _ => .null
  | .ok (_, data) =>
      match validateV2Message data with
      | .ok message => idJson message.id
      | .error _ => (data.get? "id").getD .null

theorem answers_admitFrame {raw : List Char} {server : Server} {step : Step}
    (h : server.admitFrame m.toConfig (fun code message => v2Error code message .null)
      now.monotonic sid raw = .error step) : step.Answers .null := by
  unfold Server.admitFrame at h
  split at h
  · cases h
    exact answers_done rfl
  simp only at h
  split at h
  · cases h
    exact .once rfl fun _ heq => by cases heq
  split at h
  · cases h
    exact .once rfl fun _ heq => by cases heq
  split at h
  · cases h
    exact answers_done rfl
  · cases h
    exact answers_leave _
  · cases h

theorem answers_receiveFrame (draws : Draws) (raw : List Char) (server : Server) :
    (receiveFrame m cr trust now sid draws raw server).Answers
      (requestId m now sid raw server) := by
  unfold receiveFrame requestId
  cases hadmitted : server.admitFrame m.toConfig (fun code message => v2Error code message .null)
      now.monotonic sid raw with
  | error step => exact answers_admitFrame hadmitted
  | ok admitted =>
      obtain ⟨server', data⟩ := admitted
      simp only
      cases hmessage : validateV2Message data with
      | error e =>
          cases e with
          | protocolError code message => exact answers_done rfl
          | typeError => exact answers_leave _
      | ok message =>
          simp only
          split
          · exact answers_leave _
          · exact answers_handle draws _ _ server'

end V2

/-! ## Runs -/

namespace ServerRun

variable {m : MeshConfig} {cr : Crypto} {trust : NodeTrust} {s s' : ServerRun} {sid : String}
variable {asked : List Json}

/-- The identifier of the frame an event brings to a session's loop, if the
loop of the second endpoint takes it. -/
def asks (m : MeshConfig) (sid : String) (s : ServerRun) (e : ServerEvent) : Option Json :=
  match e.op, s.connections.get? sid with
  | .frame other raw _, some conn =>
      if other = sid ∧ conn.endpoint = .v2 ∧ isReceiving conn.phase = true then
        some (V2.requestId m e.now sid raw s.server)
      else none
  | _, _ => none

/-- What the replies of a connection are to the frames it was asked, in each
phase of its loop. -/
def Answered (replies asked : List Json) : Phase → Prop
  | .looping | .receiving _ => replies = asked
  | .waiting on => ∃ id, on.id? = some id ∧ replies ++ [id] = asked
  | .leaving | .closing _ =>
      replies = asked ∨ (∃ id, replies ++ [id] = asked) ∨ replies = asked ++ [.null]

/-- The connection of a session, if there is one, has these requests answered. -/
def Converses (sid : String) (asked : List Json) (s : ServerRun) : Prop :=
  ∀ conn, s.connections.get? sid = some conn → conn.endpoint = .v2 →
    Answered (repliesIn (s.effectsOf sid)) asked conn.phase

/-- A step that answers a request that was still open, or has just come. -/
theorem answered_of_answers {replies : List Json} {id : Json} {step : Step}
    (h : step.Answers id) :
    Answered (replies ++ repliesIn step.effects) (replies ++ [id]) (phaseAfter step.next) := by
  cases h with
  | once h hnext =>
      rw [h]
      cases heq : step.next with
      | goOn => exact rfl
      | ended => exact .inl rfl
      | waiting on => exact absurd heq (hnext on)
  | later on h hnext hid =>
      rw [h, hnext, List.append_nil]
      exact ⟨id, hid, rfl⟩
  | never h hnext =>
      rw [h, hnext, List.append_nil]
      exact .inr (.inl ⟨id, rfl⟩)

section OwnEvents

variable {conn : Connection}

theorem converses_setPhase {phase : Phase} (hlog : s'.log = s.log)
    (h : Answered (repliesIn (s.effectsOf sid)) asked phase) :
    Converses sid asked (s'.setPhase sid conn phase) := by
  intro conn' hconn' _
  have heffects : (s'.setPhase sid conn phase).effectsOf sid = s.effectsOf sid := by
    unfold effectsOf
    rw [← hlog]
    rfl
  rw [setPhase, Dict.get?_set_self] at hconn'
  cases hconn'
  rw [heffects]
  exact h

/-- A step of the connection's handler, with the request it answers. -/
theorem converses_applyStep {step : Step} {id : Json} (hstep : step.Answers id)
    (hasked : repliesIn (s.effectsOf sid) ++ [id] = asked) :
    Converses sid asked (s.applyStep sid conn step) := by
  intro conn' hconn' _
  rw [applyStep, setPhase, Dict.get?_set_self] at hconn'
  cases hconn'
  rw [effectsOf_applyStep, if_pos rfl, repliesIn_append, ← hasked]
  exact answered_of_answers hstep

/-- The proof deadline passes while nothing is asked. -/
theorem converses_proofTimeout (hv2 : conn.endpoint = .v2)
    (hasked : repliesIn (s.effectsOf sid) = asked) :
    Converses sid asked
      (s.applyStep sid conn (s.server.proofTimeout (errorOf conn.endpoint))) := by
  intro conn' hconn' _
  rw [applyStep, setPhase, Dict.get?_set_self] at hconn'
  cases hconn'
  rw [effectsOf_applyStep, if_pos rfl, repliesIn_append, hasked, hv2]
  exact .inr (.inr rfl)

/-- What a handler sends other nodes while it waits is no reply. -/
theorem converses_sends {sends : List Send} {phase : Phase}
    (hlog : s'.log = s.log ++ sends.map fun send => Entry.mk .itself (.toNode send))
    (h : Answered (repliesIn (s.effectsOf sid)) asked phase) :
    Converses sid asked (s'.setPhase sid conn phase) := by
  have hmap : sends.map (fun send => Entry.mk .itself (.toNode send)) =
      (sends.map Effect.toNode).map (Entry.mk .itself) := by
    rw [List.map_map]
    rfl
  have heffects : s'.effectsOf sid = s.effectsOf sid := by
    rw [effectsOf_append hlog, hmap, filterMap_effectOf?_other (fun _ _ heq => by cases heq),
      List.append_nil]
  rw [← heffects] at h
  exact converses_setPhase rfl h

theorem converses_frame (h : Converses sid asked s) (hv2 : conn.endpoint = .v2)
    (hconn : s.connections.get? sid = some conn) (now : Clocks) (raw : List Char) (draws : Draws) :
    Converses sid (asked ++ (asks m sid s ⟨now, .frame sid raw draws⟩).toList)
      (s.clientEvent m cr trust now sid conn (.frame sid raw draws)) := by
  have hanswered := h conn hconn hv2
  simp only [asks, hconn, ServerRun.clientEvent, true_and, hv2]
  split
  · next hreceiving =>
    have hidle : repliesIn (s.effectsOf sid) = asked := by
      cases hphase : conn.phase with
      | receiving deadline =>
          rw [hphase] at hanswered
          exact hanswered
      | _ =>
          rw [hphase] at hreceiving
          cases hreceiving
    simp only [ServerRun.frame, hv2]
    refine converses_applyStep (V2.answers_receiveFrame draws raw s.server) ?_
    rw [hidle]
    rfl
  · rw [Option.toList_none, List.append_nil]
    exact h

theorem converses_clientEvent {e : ServerEvent} (h : Converses sid asked s)
    (hv2 : conn.endpoint = .v2) (hconn : s.connections.get? sid = some conn)
    (hclient : e.op.client? = some sid) (hop : ∀ raw draws, e.op ≠ .frame sid raw draws) :
    Converses sid asked (s.clientEvent m cr trust e.now sid conn e.op) := by
  have hanswered := h conn hconn hv2
  cases heq : e.op with
  | frame other raw draws =>
      rw [heq] at hclient hop
      cases hclient
      exact absurd rfl (hop raw draws)
  | loop _ =>
      simp only [ServerRun.clientEvent]
      split
      · next hlooping =>
        rw [hlooping] at hanswered
        unfold ServerRun.loop
        split
        · exact converses_setPhase rfl (.inl hanswered)
        split
        · exact converses_setPhase rfl hanswered
        split
        · exact converses_proofTimeout hv2 hanswered
        · exact converses_setPhase rfl hanswered
      · exact h
  | timeout _ =>
      simp only [ServerRun.clientEvent]
      split
      · next deadline hreceiving =>
        rw [hreceiving] at hanswered
        split
        · exact converses_proofTimeout hv2 hanswered
        · exact h
      · exact h
  | disconnect _ =>
      simp only [ServerRun.clientEvent]
      split
      · next hlooping =>
        rw [hlooping] at hanswered
        exact converses_setPhase rfl (.inl hanswered)
      · next deadline hreceiving =>
        rw [hreceiving] at hanswered
        exact converses_setPhase rfl (.inl hanswered)
      · exact h
  | ask _ queryIds =>
      simp only [ServerRun.clientEvent, ServerRun.ask]
      split
      · next id routeTag peers found queries hwaiting =>
        rw [hwaiting] at hanswered
        exact converses_sends rfl hanswered
      · exact h
  | answered _ queryId arrived =>
      simp only [ServerRun.clientEvent, ServerRun.answered]
      split
      · next id routeTag peers found queries hwaiting =>
        rw [hwaiting] at hanswered
        split
        · exact converses_sends rfl hanswered
        · exact h
      · exact h
  | resume _ arrived =>
      simp only [ServerRun.clientEvent, ServerRun.resume]
      split
      · next subscribers outgoing hwaiting =>
        rw [hwaiting] at hanswered
        obtain ⟨id, hid, -⟩ := hanswered
        cases hid
      · next id routeTag peers found queries hwaiting =>
        rw [hwaiting] at hanswered
        obtain ⟨_, hid, hasked⟩ := hanswered
        cases hid
        split
        · exact converses_applyStep (V2.answers_finishDiscover routeTag peers found queries _) hasked
        · exact h
      · next id messageId requestId hwaiting =>
        rw [hwaiting] at hanswered
        obtain ⟨_, hid, hasked⟩ := hanswered
        cases hid
        exact converses_applyStep (V2.answers_finishSignal messageId requestId arrived _) hasked
      · exact h
  | finish _ =>
      simp only [ServerRun.clientEvent, ServerRun.finish]
      split
      · next hleaving _ =>
        rw [hleaving] at hanswered
        exact converses_setPhase rfl hanswered
      · next hleaving _ =>
        rw [hleaving] at hanswered
        exact converses_setPhase rfl hanswered
      · next routeTag rest hclosing =>
        rw [hclosing] at hanswered
        have heffects : (s.applyStep sid conn (V2.removeRoute m cr e.now sid routeTag
            s.server)).effectsOf sid = s.effectsOf sid ++
              (V2.removeRoute m cr e.now sid routeTag s.server).effects := by
          rw [effectsOf_applyStep, if_pos rfl]
        intro conn' hconn' _
        simp only [Dict.get?_set_self, Option.some.injEq] at hconn'
        subst hconn'
        show Answered (repliesIn ((s.applyStep sid conn (V2.removeRoute m cr e.now sid routeTag
          s.server)).effectsOf sid)) asked (.closing rest)
        have hnone : repliesIn (V2.removeRoute m cr e.now sid routeTag s.server).effects = [] :=
          repliesIn_toNode _
        rw [heffects, repliesIn_append, hnone, List.append_nil]
        exact hanswered
      · intro conn' hconn'
        simp only [Dict.get?_erase_self] at hconn'
        cases hconn'
      · exact h
  | _ =>
      rw [heq] at hclient
      cases hclient

end OwnEvents

theorem Converses.of_same (h : Converses sid asked s)
    (hconn : s'.connections.get? sid = s.connections.get? sid)
    (heffects : s'.effectsOf sid = s.effectsOf sid) : Converses sid asked s' := by
  intro conn hconn'
  rw [heffects]
  exact h conn (hconn ▸ hconn')

/-- Nobody else's frame asks anything of the session's loop. -/
theorem asks_eq_none {e : ServerEvent} (hop : ∀ raw draws, e.op ≠ .frame sid raw draws) :
    asks m sid s e = none := by
  unfold asks
  split
  · next other raw draws conn heq _ =>
    refine if_neg ?_
    rintro ⟨rfl, -⟩
    exact hop raw draws heq
  · rfl

/-- What has been answered is answered, and a session that was never let in has
asked nothing. -/
structure Answers (sid : String) (asked : List Json) (s : ServerRun) : Prop where
  converses : Converses sid asked s
  fresh : sid ∉ s.issued → asked = []

theorem converses_connect (h : Converses sid asked s) (hsound : Sound m cr trust s)
    {now : Clocks} {endpoint : Endpoint} {other : String} (hfresh : other ∉ s.issued)
    (hasked : sid ∉ s.issued → asked = []) :
    Converses sid asked (s.connect m now endpoint other) := by
  unfold ServerRun.connect
  split
  · exact h
  by_cases hne : sid = other
  · subst hne
    intro conn hconn _
    simp only [Dict.get?_set_self, Option.some.injEq] at hconn
    subst hconn
    show repliesIn (s.effectsOf sid) = asked
    rw [(hsound.fresh sid hfresh).2.1, hasked hfresh]
    rfl
  · exact h.of_same (Dict.get?_set_of_ne _ _ hne) rfl

/-- The legacy endpoint numbers nothing. -/
theorem converses_legacy {conn : Connection} (hconn : s.connections.get? sid = some conn)
    (hv1 : conn.endpoint = .v1) (now : Clocks) (op : ServerOp) :
    Converses sid asked (s.clientEvent m cr trust now sid conn op) := by
  intro conn' hconn' hv2
  obtain ⟨_, hmoved⟩ := moved_clientEvent m cr trust now hconn op
  obtain ⟨conn₀, hconn₀, heq⟩ := hmoved.connections sid conn' hconn'
  rw [hconn] at hconn₀
  cases hconn₀
  rw [heq, hv1] at hv2
  cases hv2

/-- An event that brings the session's loop no frame. -/
theorem Converses.after (h : Converses sid asked s) (hsound : Sound m cr trust s) {e : ServerEvent}
    (hallowed : s.allowed m e.op) (hasked : sid ∉ s.issued → asked = [])
    (hop : ∀ raw draws, e.op ≠ .frame sid raw draws) :
    Converses sid asked (s.after m cr trust e) := by
  show Converses sid asked (s.apply m cr trust e.now e.op)
  unfold ServerRun.apply
  split
  · by_cases hconnect : ∃ endpoint other, e.op = .connect endpoint other
    · obtain ⟨endpoint, other, hconnect⟩ := hconnect
      rw [hconnect] at hallowed ⊢
      exact converses_connect h hsound hallowed hasked
    · have hcalm := calm_serverEvent m cr s e.now fun endpoint other heq =>
        hconnect ⟨endpoint, other, heq⟩
      exact h.of_same (by rw [hcalm.connections]) (hcalm.effectsOf sid)
  next other hclient =>
  split
  · exact h
  next conn hconn =>
  obtain ⟨effects, hmoved⟩ := moved_clientEvent m cr trust e.now hconn e.op
  by_cases hne : sid = other
  · subst hne
    cases hendpoint : conn.endpoint with
    | v1 => exact converses_legacy hconn hendpoint e.now e.op
    | v2 => exact converses_clientEvent h hendpoint hconn hclient hop
  · refine h.of_same (connections_clientEvent hne) ?_
    rw [hmoved.effectsOf sid, if_neg hne, List.append_nil]

theorem Answers.after (h : Answers sid asked s) (hsound : Sound m cr trust s) {e : ServerEvent}
    (hallowed : s.allowed m e.op) :
    Answers sid (asked ++ (asks m sid s e).toList) (s.after m cr trust e) := by
  refine ⟨?_, fun hnot => ?_⟩
  · by_cases hop : ∃ raw draws, e.op = .frame sid raw draws
    · obtain ⟨now, op⟩ := e
      obtain ⟨raw, draws, rfl⟩ := hop
      cases hconn : s.connections.get? sid with
      | none =>
          have hnone : asks m sid s ⟨now, .frame sid raw draws⟩ = none := by
            simp only [asks, hconn]
          rw [hnone, Option.toList_none, List.append_nil]
          show Converses sid asked (s.apply m cr trust now (.frame sid raw draws))
          simp only [ServerRun.apply, ServerOp.client?, hconn]
          exact h.converses
      | some conn =>
          show Converses sid _ (s.apply m cr trust now (.frame sid raw draws))
          simp only [ServerRun.apply, ServerOp.client?, hconn]
          cases hendpoint : conn.endpoint with
          | v1 => exact converses_legacy hconn hendpoint now _
          | v2 => exact converses_frame h.converses hendpoint hconn now raw draws
    · have hno : ∀ raw draws, e.op ≠ .frame sid raw draws := fun raw draws heq =>
        hop ⟨raw, draws, heq⟩
      rw [asks_eq_none hno, Option.toList_none, List.append_nil]
      exact h.converses.after hsound hallowed h.fresh hno
  · have hfresh : sid ∉ s.issued := fun hmem => hnot (issued_after hmem)
    have hnone : asks m sid s e = none := by
      unfold asks
      rw [(hsound.fresh sid hfresh).1]
      split
      · next hconn => cases hconn
      · rfl
    rw [hnone, h.fresh hfresh]
    rfl

theorem answers_of_reachable
    (h : ((serverSystem m cr trust).recorded (asks m sid)).Reachable (s, asked)) :
    Answers sid asked s := by
  obtain ⟨es, htrace⟩ := h
  generalize hp : (s, asked) = p at htrace
  induction htrace generalizing s asked with
  | start hi =>
      subst hp
      obtain ⟨⟨incarnation, clocks, rfl⟩, rfl⟩ := hi
      refine ⟨fun conn hconn => ?_, fun _ => rfl⟩
      cases hconn
  | @snoc _ p _ e htrace hstep ih =>
      subst hp
      obtain ⟨⟨⟨-, hallowed⟩, heq⟩, hasked⟩ := hstep
      simp only at heq hasked
      subst heq hasked
      have hreach := System.Reachable.of_recorded htrace.reachable
      exact (ih rfl).after (sound_of_reachable hreach) hallowed

end ServerRun

end Masterserver
