import Masterserver.Lib.Channel
import Masterserver.Proofs.HubMoves
import Masterserver.Proofs.Isolation
import Masterserver.Proofs.RouteAuthority

/-!
# Messages leave in the order they were accepted

A session's outbound queue and its writer are a `Channel`: `send_session`
takes messages in, the writer takes the front in hand, the end of a send is
done with it, and the removal of the session closes the line. Every event of a
server is one step of every session's channel, so in every run what was
accepted for a session and what went out to it are one sequence.
-/

namespace Masterserver

open Lib

namespace Hub

/-- The message a writer is sending. -/
def sending : Option Writer → Option Json
  | some (.sending frame) => some frame.data
  | _ => none

/-- A session's queue, and the message its writer is sending. -/
def line (hub : Hub) (sid : String) : Channel Json where
  waiting := (hub.sessions.get? sid).map fun sess => sess.outboundQueue.map Frame.data
  inHand := sending (hub.writers.get? sid)

variable {c : Config} {now : Seconds} {sid other : String} {hub hub' : Hub}

/-- The records keep their queues and the writers stay. -/
theorem line_of_records (hw : hub'.writers = hub.writers)
    (hq : (hub'.sessions.get? sid).map Session.outboundQueue =
      (hub.sessions.get? sid).map Session.outboundQueue) : hub'.line sid = hub.line sid := by
  have hmap (h : Hub) : (h.sessions.get? sid).map (fun sess => sess.outboundQueue.map Frame.data) =
      ((h.sessions.get? sid).map Session.outboundQueue).map (List.map Frame.data) := by
    rw [Option.map_map]
    rfl
  unfold line
  rw [hw, hmap, hmap, hq]

theorem line_updateSession {f : Session → Session}
    (hf : ∀ sess, (f sess).outboundQueue = sess.outboundQueue) :
    (hub.updateSession other f).line sid = hub.line sid := by
  refine line_of_records (writers_updateSession other f) ?_
  rw [get?_updateSession]
  split
  · rw [Option.map_map]
    exact congrArg (Option.map · _) (funext hf)
  · rfl

theorem line_discardRoute (rid : String) :
    (hub.discardRoute rid other).line sid = hub.line sid := line_updateSession fun _ => rfl

theorem line_detachRoute (rid : String) : (hub.detachRoute other rid).line sid = hub.line sid := by
  rw [detachRoute_eq, line_discardRoute]
  refine line_of_records (writers_dropLease other rid) ?_
  rw [sessions_dropLease]

theorem line_touchHeartbeat : (hub.touchHeartbeat now other).line sid = hub.line sid :=
  line_updateSession fun _ => rfl

theorem line_attachRoute (rid : String) (ttl : Option Seconds) (limit : Option Int) :
    (hub.attachRoute c now other rid ttl limit).1.line sid = hub.line sid := by
  obtain ⟨e, he⟩ | ⟨sess, hs, -, heq⟩ := attachRoute_cases hub c now other rid ttl limit
  · rw [he]
  · rw [heq]
    refine line_of_records rfl ?_
    simp only [Dict.get?_set]
    split
    · next heq =>
        rw [heq, hs]
        rfl
    · rfl

theorem line_pruneRoutes : (hub.pruneRoutes now).line sid = hub.line sid := by
  refine foldl_invariant (P := fun h : Hub => h.line sid = hub.line sid) hub.routes.keys rfl ?_
  intro h rid _ heq
  refine Eq.trans ?_ heq
  unfold pruneRoute
  split
  · rfl
  · refine foldl_invariant (P := fun h' : Hub => h'.line sid = h.line sid) _
      (line_of_records rfl rfl) ?_
    intro h' holder _ heq'
    exact (line_discardRoute rid).trans heq'

/-- The messages of the calls of `send_session` that queued them for a session. -/
def queuedIn (sid : String) (sends : List (String × Json × Bool)) : List Json :=
  sends.filterMap fun send => if send.1 = sid ∧ send.2.2 = true then some send.2.1 else none

theorem queuedIn_append (sends sends' : List (String × Json × Bool)) :
    queuedIn sid (sends ++ sends') = queuedIn sid sends ++ queuedIn sid sends' :=
  List.filterMap_append

theorem sending_startWriter (writers : Dict String Writer) :
    sending ((startWriter writers other).get? sid) = sending (writers.get? sid) := by
  unfold startWriter
  split
  · next hw =>
      rw [Dict.get?_set]
      split
      · next heq => rw [heq, hw]; rfl
      · rfl
  · next hw =>
      rw [Dict.get?_set]
      split
      · next heq => rw [heq, hw]; rfl
      · rfl
  · rfl

theorem line_sendSession (target : String) (message : Json) :
    Channel.Step (hub.line sid)
      (queuedIn sid [(target, message, (hub.sendSession c target message).2)]) []
      ((hub.sendSession c target message).1.line sid) := by
  obtain he | ⟨sess, hs, -, -, heq⟩ := sendSession_cases hub c target message
  · rw [he]
    have hnone : queuedIn sid [(target, message, false)] = [] := by simp [queuedIn]
    rw [hnone]
    exact .idle _
  · rw [heq]
    by_cases htarget : target = sid
    · subst htarget
      have hone : queuedIn target [(target, message, true)] = [message] := by simp [queuedIn]
      rw [hone]
      have hstep : Channel.Step ⟨some (sess.outboundQueue.map Frame.data), (hub.line target).inHand⟩
          [message] [] ⟨some (sess.outboundQueue.map Frame.data ++ [message]),
            (hub.line target).inHand⟩ := .accept [message]
      simp only [line, Dict.get?_set_self, Option.map_some, List.map_append, List.map_cons,
        List.map_nil, hs, sending_startWriter] at hstep ⊢
      exact hstep
    · have hnone : queuedIn sid [(target, message, true)] = [] := by simp [queuedIn, htarget]
      rw [hnone]
      have hsame : Hub.line { hub with
          sessions := hub.sessions.set target
            { sess with
              outboundQueue := sess.outboundQueue ++ [⟨message, encodedBytes message, rfl⟩]
              outboundBytes := sess.outboundBytes + encodedBytes message }
          outboundQueuedBytes := hub.outboundQueuedBytes + encodedBytes message
          writers := startWriter hub.writers target } sid = hub.line sid := by
        unfold line
        simp only [Dict.get?_set_of_ne _ _ (Ne.symm htarget), sending_startWriter]
      rw [hsame]
      exact .idle _

theorem line_calls {calls : List Hub.Call} (h : Calls c now other hub calls hub') :
    Channel.Steps (hub.line sid) (queuedIn sid (calls.filterMap Hub.Call.sent?)) [] (hub'.line sid) := by
  induction h with
  | nil => exact .refl
  | check _ op hop ih =>
      rw [List.filterMap_append, queuedIn_append]
      exact .snoc ih (.idle _)
  | consume _ ih =>
      rw [List.filterMap_append, queuedIn_append]
      exact .snoc ih (.idle _)
  | rewrite _ hf ih =>
      rw [List.filterMap_append, queuedIn_append, line_updateSession hf.outboundQueue]
      exact .snoc ih (.idle _)
  | heartbeat _ ih =>
      rw [List.filterMap_append, queuedIn_append, line_touchHeartbeat]
      exact .snoc ih (.idle _)
  | attach _ routeId limit _ ih =>
      rw [List.filterMap_append, queuedIn_append, line_attachRoute]
      exact .snoc ih (.idle _)
  | detach _ routeId ih =>
      rw [List.filterMap_append, queuedIn_append, line_detachRoute]
      exact .snoc ih (.idle _)
  | @mark _ hub' _ key ttl ih =>
      obtain ⟨seen, heq⟩ := checkAndMarkSeen_hub hub' c now key ttl
      rw [List.filterMap_append, queuedIn_append, heq]
      exact .snoc ih (.idle _)
  | send _ target message ih =>
      rw [List.filterMap_append, queuedIn_append]
      exact .snoc ih (line_sendSession target message)

/-! ## The other events -/

theorem line_createSession_ne (hne : sid ≠ other) :
    (hub.createSession now other).line sid = hub.line sid := by
  unfold createSession line
  simp only [Dict.get?_set_of_ne _ _ hne]

theorem line_createSession (hshut : hub.line sid = .shut) :
    (hub.createSession now sid).line sid = ⟨some [], none⟩ := by
  have hhand : sending (hub.writers.get? sid) = none := congrArg Channel.inHand hshut
  unfold createSession line
  simp only [Dict.get?_set_self, Option.map_some, List.map_nil, hhand]

theorem line_removeSession (other : String) :
    Channel.Step (hub.line sid) [] [] ((hub.removeSession other).line sid) := by
  have hline : (hub.removeSession other).line sid =
      if sid = other then ⟨none, (hub.line sid).inHand⟩ else hub.line sid := by
    unfold removeSession line
    rw [sessions_removeSessionBy, writers_removeSessionBy, Dict.get?_erase]
    split <;> rfl
  rw [hline]
  split
  · exact .close
  · exact .idle _

theorem line_pruneStaleSessions (c : Config) (now : Seconds) :
    Channel.Steps (hub.line sid) [] [] ((hub.pruneStaleSessions c now).line sid) :=
  foldl_invariant (P := fun h : Hub => Channel.Steps (hub.line sid) [] [] (h.line sid))
    (hub.staleSessions c now) .refl fun _ other _ hsteps => .snoc hsteps (line_removeSession other)

theorem line_writerDequeue (other : String) :
    Channel.Step (hub.line sid) [] [] ((hub.writerDequeue other).line sid) := by
  obtain he | ⟨sess, frame, rest, hw, hs, hq, heq⟩ := writerDequeue_cases hub other
  · rw [he]
    exact .idle _
  · rw [heq]
    by_cases hsid : sid = other
    · subst hsid
      simp only [line, Dict.get?_set_self, hw, hs, hq, Option.map_some, List.map_cons, sending]
      exact .take
    · simp only [line, Dict.get?_set_of_ne _ _ hsid]
      exact .idle _

/-- What is in hand of a session's line, if it is this session's. -/
def settledIn (hub : Hub) (other sid : String) : List Json :=
  if other = sid then (hub.line sid).inHand.toList else []

/-- A send ends. -/
theorem line_releaseFrame {frame : Frame} {next : Writer}
    (hw : hub.writers.get? other = some (.sending frame)) (hnext : sending (some next) = none) :
    Channel.Step (hub.line sid) [] (hub.settledIn other sid)
      (line { hub.releaseFrameBy clamp other frame with
        writers := hub.writers.set other next } sid) := by
  have hwaiting : (line { hub.releaseFrameBy clamp other frame with
      writers := hub.writers.set other next } sid).waiting = (hub.line sid).waiting := by
    cases hs : hub.sessions.get? other with
    | none => rw [releaseFrameBy_of_none clamp frame hs]; rfl
    | some sess =>
        rw [releaseFrameBy_of_some clamp frame hs]
        simp only [line, Dict.get?_set]
        split
        · next heq => rw [heq, hs]; rfl
        · rfl
  have hhand : (line { hub.releaseFrameBy clamp other frame with
      writers := hub.writers.set other next } sid).inHand =
        if sid = other then none else (hub.line sid).inHand := by
    simp only [line, Dict.get?_set]
    split
    · exact hnext
    · rfl
  generalize line _ sid = after at hwaiting hhand
  obtain ⟨waiting, inHand⟩ := after
  simp only at hwaiting hhand
  subst hwaiting hhand
  unfold settledIn
  by_cases hsid : sid = other
  · subst hsid
    have hinHand : (hub.line sid).inHand = some frame.data := by
      unfold line
      rw [hw]
      rfl
    rw [if_pos rfl, if_pos rfl, hinHand]
    have hline : hub.line sid = ⟨(hub.line sid).waiting, some frame.data⟩ := by
      rw [← hinHand]
    rw [hline]
    exact .finish
  · rw [if_neg hsid, if_neg (Ne.symm hsid)]
    exact .idle _

theorem settledIn_eq_nil (h : ∀ frame, hub.writers.get? other = some (.sending frame) → False) :
    hub.settledIn other sid = [] := by
  unfold settledIn
  split
  · next heq =>
      subst heq
      have hhand : (hub.line other).inHand = none := by
        unfold line
        cases hw : hub.writers.get? other with
        | none => rfl
        | some w =>
            cases w with
            | sending frame => exact absurd hw (h frame)
            | _ => rfl
      rw [hhand]
      rfl
  · rfl

theorem line_writerSent (other : String) :
    Channel.Step (hub.line sid) [] (hub.settledIn other sid) ((hub.writerSent other).line sid) := by
  unfold writerSent writerSentBy
  split
  · next frame hw =>
      refine line_releaseFrame hw ?_
      split <;> rfl
  · next hno =>
      rw [settledIn_eq_nil hno]
      exact .idle _

theorem line_writerFailed (other : String) :
    Channel.Step (hub.line sid) [] (hub.settledIn other sid)
      ((hub.writerFailed other).line sid) := by
  unfold writerFailed writerFailedBy
  split
  · next frame hw => exact line_releaseFrame hw rfl
  · next hw =>
      rw [settledIn_eq_nil fun frame hframe => by rw [hw] at hframe; cases hframe]
      split
      · exact .idle _
      · have hline : line { hub with writers := hub.writers.set other .done } sid =
            hub.line sid := by
          simp only [line, Dict.get?_set]
          split
          · next heq => rw [heq, hw]; rfl
          · rfl
        rw [hline]
        exact .idle _
  · next hno _ =>
      rw [settledIn_eq_nil hno]
      exact .idle _

end Hub

namespace ServerRun

open Hub

variable {m : MeshConfig} {cr : Crypto} {trust : NodeTrust} {s s' : ServerRun} {sid : String}

/-- The messages queued for a session so far, in the order they were queued. -/
def queuedFor (s : ServerRun) (sid : String) : List Json :=
  queuedIn sid (sentIn (s.log.map Entry.effect))

/-- The message whose send an event ends, if it was for the session. -/
def settles (sid : String) (s : ServerRun) (e : ServerEvent) : Option Json :=
  match e.op.settles? with
  | some other => if other = sid then (s.server.hub.line sid).inHand else none
  | none => none

theorem settles_of_none {e : ServerEvent} (hop : e.op.settles? = none) :
    settles sid s e = none := by
  unfold settles
  rw [hop]

theorem settles_of_some {e : ServerEvent} {other : String} (hop : e.op.settles? = some other) :
    (settles sid s e).toList = s.server.hub.settledIn other sid := by
  unfold settles settledIn
  rw [hop]
  simp only
  split <;> rfl

/-- The line of a session that was never let in is shut and nothing was queued
for it; the line of any other carries what was queued. -/
structure Delivers (sid : String) (s : ServerRun) (settled : List Json) : Prop where
  carries : (s.server.hub.line sid).Carries (s.queuedFor sid) settled
  fresh : sid ∉ s.issued → s.server.hub.line sid = .shut ∧ s.queuedFor sid = [] ∧ settled = []

theorem queuedFor_append {entries : List Entry} (hlog : s'.log = s.log ++ entries) :
    s'.queuedFor sid = s.queuedFor sid ++ queuedIn sid (sentIn (entries.map Entry.effect)) := by
  unfold queuedFor
  rw [hlog, List.map_append, sentIn_append, queuedIn_append]

/-- The steps of a session's line in an event that lets nobody in. -/
theorem steps_hubMove {e : ServerEvent} {hub : Hub} {entries : List Entry}
    (h : HubMove m s e hub entries) (hop : ∀ endpoint, e.op ≠ .connect endpoint sid) :
    (s.server.hub.line sid).Steps (queuedIn sid (sentIn (entries.map Entry.effect)))
      (settles sid s e).toList (hub.line sid) := by
  cases h with
  | calls hsettles _ hcalls hsent =>
      rw [settles_of_none hsettles, ← hsent]
      exact line_calls hcalls
  | @create endpoint other hconnect =>
      have hne : sid ≠ other := by
        rintro rfl
        exact hop endpoint hconnect
      rw [settles_of_none (by rw [hconnect]; rfl), line_createSession_ne hne]
      exact .refl
  | remove hfinish =>
      rw [settles_of_none (by rw [hfinish]; rfl)]
      exact (line_removeSession _).steps
  | pruneRoutes hprune =>
      rw [settles_of_none (by rw [hprune]; rfl), line_pruneRoutes]
      exact .refl
  | pruneStaleSessions hprune =>
      rw [settles_of_none (by rw [hprune]; rfl)]
      exact line_pruneStaleSessions _ _
  | pruneDedupe hprune =>
      rw [settles_of_none (by rw [hprune]; rfl)]
      exact .refl
  | dequeue hdequeue =>
      rw [settles_of_none (by rw [hdequeue]; rfl)]
      exact (line_writerDequeue _).steps
  | sent hsent =>
      rw [settles_of_some (by rw [hsent]; rfl)]
      exact (line_writerSent _).steps
  | failed hfailed =>
      rw [settles_of_some (by rw [hfailed]; rfl)]
      exact (line_writerFailed _).steps

/-- A session that is let in has an open line. -/
theorem Delivers.connect {settled : List Json} (h : Delivers sid s settled) (now : Clocks)
    (endpoint : Endpoint) (hfresh : sid ∉ s.issued) :
    Delivers sid (s.connect m now endpoint sid) settled := by
  obtain ⟨hline, hqueued, rfl⟩ := h.fresh hfresh
  unfold ServerRun.connect
  split
  · exact h
  · have hopen : (s.server.hub.createSession now.monotonic sid).line sid = ⟨some [], none⟩ :=
      line_createSession hline
    refine ⟨?_, fun hnot => absurd (Finset.mem_insert_self _ _) hnot⟩
    show ((s.server.hub.createSession now.monotonic sid).line sid).Carries (s.queuedFor sid) []
    rw [hopen, hqueued]
    exact Channel.carries_open

theorem Delivers.after {settled : List Json} (h : Delivers sid s settled) {e : ServerEvent}
    (hallowed : s.allowed m e.op) :
    Delivers sid (s.after m cr trust e) (settled ++ (settles sid s e).toList) := by
  by_cases hconnect : ∃ endpoint, e.op = .connect endpoint sid
  · obtain ⟨endpoint, hop⟩ := hconnect
    rw [settles_of_none (by rw [hop]; rfl), Option.toList_none, List.append_nil]
    have hafter : s.after m cr trust e =
        { s.connect m e.now endpoint sid with clocks := e.now } := by
      unfold ServerRun.after ServerRun.apply
      rw [hop]
      rfl
    rw [hop] at hallowed
    have hconnected := h.connect (m := m) e.now endpoint hallowed
    rw [hafter]
    exact ⟨hconnected.carries, hconnected.fresh⟩
  · obtain ⟨entries, hlog, hmove⟩ := hubMove_after m cr trust s e
    have hsteps := steps_hubMove hmove fun endpoint hop => hconnect ⟨endpoint, hop⟩
    refine ⟨?_, fun hnot => ?_⟩
    · rw [queuedFor_append hlog]
      exact h.carries.steps hsteps
    · obtain ⟨hline, hqueued, rfl⟩ := h.fresh fun hmem => hnot (issued_after hmem)
      rw [hline] at hsteps
      obtain ⟨hitems, hsettled, hshut⟩ := hsteps.of_shut
      rw [queuedFor_append hlog, hitems, hqueued, hsettled]
      exact ⟨hshut, rfl, rfl⟩

theorem delivers_of_reachable {settled : List Json}
    (h : ((serverSystem m cr trust).recorded (settles sid)).Reachable (s, settled)) :
    Delivers sid s settled := by
  refine h.invariant (P := fun p => Delivers sid p.1 p.2) ?_ ?_
  · rintro ⟨s, settled⟩ ⟨⟨incarnation, clocks, rfl⟩, hnone⟩
    cases hnone
    exact ⟨Channel.carries_shut, fun _ => ⟨rfl, rfl, rfl⟩⟩
  · rintro ⟨s, settled⟩ e ⟨s', settled'⟩ hs ⟨⟨⟨-, hallowed⟩, rfl⟩, rfl⟩
    exact hs.after hallowed

end ServerRun

end Masterserver
