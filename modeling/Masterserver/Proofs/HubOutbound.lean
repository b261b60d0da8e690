import Masterserver.Proofs.HubOps
import Masterserver.Proofs.HubRoutes
import Mathlib.Algebra.Order.Group.Int

/-!
# The two outbound byte counters are exact

`Accounted` compares the counters with what is really waiting: a session's
`outboundBytes` with its queue and the frame its writer is sending, and
`outboundQueuedBytes` with the sum over the live sessions. The producer adds a
frame to both at once, the writer moves it from the queue to the send and the
end of the send takes it off both, whether the send succeeds or fails. A
removed session takes its whole account with it, and from then on its writer
finds no session and subtracts nothing.

Every subtraction is therefore of something that was added, and the clamps at
zero never act. That is proved as an equality: any function that agrees with
the clamp on the non-negative integers gives the same hub.
-/

namespace Masterserver

open Lib

namespace Hub

variable {hub hub' : Hub} {c : Config}

/-- The encoded size of everything in a queue. -/
def queuedBytes (queue : List Frame) : Nat :=
  (queue.map fun frame => encodedBytes frame.data).sum

/-- The encoded size of the frame a writer is sending. -/
def inFlightBytes : Option Writer → Nat
  | some (.sending frame) => encodedBytes frame.data
  | _ => 0

theorem inFlightBytes_of_not_sending {w : Writer} (h : ∀ f, w ≠ .sending f) :
    inFlightBytes (some w) = 0 := by
  cases w with
  | sending frame => exact absurd rfl (h frame)
  | waiting => rfl
  | done => rfl

theorem get?_startWriter_of_ne (writers : Dict String Writer) {sid s : String} (h : s ≠ sid) :
    (startWriter writers sid).get? s = writers.get? s := by
  unfold startWriter
  split
  · exact Dict.get?_set_of_ne _ _ h
  · exact Dict.get?_set_of_ne _ _ h
  · rfl

/-- A writer that is started has nothing in flight, just as the one it replaces. -/
theorem inFlightBytes_startWriter (writers : Dict String Writer) (sid : String) :
    inFlightBytes ((startWriter writers sid).get? sid) = inFlightBytes (writers.get? sid) := by
  unfold startWriter
  split
  · next hw => rw [Dict.get?_set_self, hw]; rfl
  · next hw => rw [Dict.get?_set_self, hw]; rfl
  · rfl

structure Accounted (c : Config) (hub : Hub) : Prop where
  bytes : ∀ sid sess, hub.sessions.get? sid = some sess →
    sess.outboundBytes =
      queuedBytes sess.outboundQueue + inFlightBytes (hub.writers.get? sid)
  bounded : ∀ sid sess, hub.sessions.get? sid = some sess →
    sess.outboundBytes ≤ c.outboundQueueBytes
  frames : ∀ sid sess, hub.sessions.get? sid = some sess →
    sess.outboundQueue.length ≤ c.outboundQueueFrames
  total : hub.outboundQueuedBytes = hub.sessions.sumBy fun _ sess => sess.outboundBytes

namespace Accounted

theorem nonneg (h : hub.Accounted c) {sid : String} {sess : Session}
    (hs : hub.sessions.get? sid = some sess) : 0 ≤ sess.outboundBytes := by
  rw [h.bytes sid sess hs]
  omega

/-- The total covers any one session's account. -/
theorem le_total (h : hub.Accounted c) {sid : String} {sess : Session}
    (hs : hub.sessions.get? sid = some sess) : sess.outboundBytes ≤ hub.outboundQueuedBytes := by
  rw [h.total, Dict.sumBy_eq_add_erase _ hs]
  refine le_add_of_nonneg_right (Dict.sumBy_nonneg fun e he => ?_)
  have hmem : (hub.sessions.erase sid).get? e.1 = some e.2 := Dict.mem_entries.mp he
  exact h.nonneg (Dict.get?_erase_eq_some.mp hmem).2

theorem of_eq (h : hub.Accounted c) (hs : hub'.sessions = hub.sessions)
    (hw : hub'.writers = hub.writers)
    (hb : hub'.outboundQueuedBytes = hub.outboundQueuedBytes) : hub'.Accounted c := by
  constructor
  · rw [hs, hw]; exact h.bytes
  · rw [hs]; exact h.bounded
  · rw [hs]; exact h.frames
  · rw [hs, hb]; exact h.total

/-- One session's record is written, new or not, together with its writer: the
total has to move by what the record's account moved. -/
theorem of_set (h : hub.Accounted c) {sid : String} (sess' : Session)
    (hset : hub'.sessions = hub.sessions.set sid sess')
    (hw : ∀ s, s ≠ sid → hub'.writers.get? s = hub.writers.get? s)
    (hbytes : sess'.outboundBytes =
      queuedBytes sess'.outboundQueue + inFlightBytes (hub'.writers.get? sid))
    (hbounded : sess'.outboundBytes ≤ c.outboundQueueBytes)
    (hframes : sess'.outboundQueue.length ≤ c.outboundQueueFrames)
    (htotal : hub'.outboundQueuedBytes =
      hub.outboundQueuedBytes -
        ((hub.sessions.get? sid).map Session.outboundBytes).getD 0 + sess'.outboundBytes) :
    hub'.Accounted c where
  bytes s sess hs := by
    rw [hset, Dict.get?_set] at hs
    split at hs
    · next heq => subst heq; cases hs; exact hbytes
    · next hne => rw [hw s hne]; exact h.bytes s sess hs
  bounded s sess hs := by
    rw [hset, Dict.get?_set] at hs
    split at hs
    · cases hs; exact hbounded
    · exact h.bounded s sess hs
  frames s sess hs := by
    rw [hset, Dict.get?_set] at hs
    split at hs
    · cases hs; exact hframes
    · exact h.frames s sess hs
  total := by
    rw [htotal, hset, h.total]
    cases hs : hub.sessions.get? sid with
    | none =>
        rw [Dict.sumBy_set_new _ _ hs, Option.map_none, Option.getD_none]
        omega
    | some sess =>
        rw [Dict.sumBy_set, Dict.sumBy_eq_add_erase _ hs, Option.map_some, Option.getD_some]
        omega

/-- A rewriting of the record that leaves its account alone. -/
theorem updateSession (h : hub.Accounted c) (sid : String) {f : Session → Session}
    (hq : ∀ sess, (f sess).outboundQueue = sess.outboundQueue)
    (hb : ∀ sess, (f sess).outboundBytes = sess.outboundBytes) :
    (hub.updateSession sid f).Accounted c := by
  unfold Hub.updateSession
  cases hs : hub.sessions.get? sid with
  | none => exact h
  | some sess =>
      refine h.of_set (f sess) rfl (fun _ _ => rfl) ?_ ?_ ?_ ?_
      · rw [hb, hq]; exact h.bytes sid sess hs
      · rw [hb]; exact h.bounded sid sess hs
      · rw [hq]; exact h.frames sid sess hs
      · rw [hs, hb, Option.map_some, Option.getD_some]
        simp

/-- A session leaves with everything it had queued. -/
theorem erase (h : hub.Accounted c) {sid : String} {sess : Session}
    (hs : hub.sessions.get? sid = some sess) :
    Accounted c { hub with
      sessions := hub.sessions.erase sid
      outboundQueuedBytes := hub.outboundQueuedBytes - sess.outboundBytes } where
  bytes s sess' hs' := h.bytes s sess' (Dict.get?_erase_eq_some.mp hs').2
  bounded s sess' hs' := h.bounded s sess' (Dict.get?_erase_eq_some.mp hs').2
  frames s sess' hs' := h.frames s sess' (Dict.get?_erase_eq_some.mp hs').2
  total := by
    simp only
    rw [h.total, Dict.sumBy_eq_add_erase _ hs]
    omega

/-! ## Each operation keeps the accounts

`clamp` is any function with the one property of `max(0, x)` that matters. -/

variable {clamp : Int → Int}

theorem clamp_eq {x : Int} (hx : 0 ≤ x) : Hub.clamp x = x := max_eq_right hx

theorem detachRoute (h : hub.Accounted c) (sid rid : String) :
    (hub.detachRoute sid rid).Accounted c := by
  rw [detachRoute_eq]
  have hdrop : (hub.dropLease sid rid).Accounted c :=
    h.of_eq (sessions_dropLease sid rid) (writers_dropLease sid rid)
      (outboundQueuedBytes_dropLease sid rid)
  exact hdrop.updateSession sid (fun _ => rfl) fun _ => rfl

theorem pruneRoute (h : hub.Accounted c) (now : Seconds) (rid : String) :
    (hub.pruneRoute now rid).Accounted c := by
  unfold Hub.pruneRoute
  split
  · exact h
  · refine foldl_invariant _ ?_ fun _ sid _ hb => hb.updateSession sid (fun _ => rfl) fun _ => rfl
    exact h.of_eq rfl rfl rfl

theorem removeSessionBy (h : hub.Accounted c) (hclamp : ∀ x, 0 ≤ x → clamp x = x)
    (sid : String) : (hub.removeSessionBy clamp sid).Accounted c := by
  cases hs : hub.sessions.get? sid with
  | none => rw [removeSessionBy_of_none clamp hs]; exact h
  | some sess =>
      rw [removeSessionBy_of_some clamp hs, hclamp _ (Int.sub_nonneg.mpr (h.le_total hs))]
      have hloop : (detachAll { hub with
          sessions := hub.sessions.erase sid
          outboundQueuedBytes := hub.outboundQueuedBytes - sess.outboundBytes }
          sid (sorted sess.routes)).Accounted c :=
        foldl_invariant _ (h.erase hs) fun _ rid _ hb => hb.detachRoute sid rid
      exact hloop.of_eq rfl rfl rfl

theorem pruneStaleSessionsBy (h : hub.Accounted c) (hclamp : ∀ x, 0 ≤ x → clamp x = x)
    (now : Seconds) : (hub.pruneStaleSessionsBy clamp c now).Accounted c :=
  foldl_invariant (hub.staleSessions c now) h fun _ sid _ hb => hb.removeSessionBy hclamp sid

theorem createSession (h : hub.Accounted c) (now : Seconds) {sid : String}
    (hs : hub.sessions.get? sid = none) (hw : hub.writers.get? sid = none) :
    (hub.createSession now sid).Accounted c := by
  refine h.of_set { lastHeartbeat := now } rfl (fun _ _ => rfl) ?_ ?_ ?_ ?_
  · change (0 : Int) = queuedBytes [] + inFlightBytes (hub.writers.get? sid)
    rw [hw]; rfl
  · exact Int.natCast_nonneg _
  · exact Nat.zero_le _
  · rw [hs]; simp [Hub.createSession]

theorem attachRoute (h : hub.Accounted c) (now : Seconds) (sid rid : String)
    (ttl : Option Seconds) (limit : Option Int) :
    (hub.attachRoute c now sid rid ttl limit).1.Accounted c := by
  obtain ⟨e, he⟩ | ⟨sess, hs, -, heq⟩ := attachRoute_cases hub c now sid rid ttl limit
  · rw [he]; exact h
  · rw [heq]
    refine h.of_set { sess with routes := insert rid sess.routes } rfl
      (fun _ _ => rfl) (h.bytes sid sess hs) (h.bounded sid sess hs) (h.frames sid sess hs) ?_
    simp [hs]

theorem heartbeatRoute (h : hub.Accounted c) (now : Seconds) (sid rid : String)
    (ttl : Option Seconds) : (hub.heartbeatRoute c now sid rid ttl).1.Accounted c := by
  obtain he | ⟨route, -, -, heq⟩ := heartbeatRoute_cases hub c now sid rid ttl
  · rw [he]; exact h
  · rw [heq]; exact h.of_eq rfl rfl rfl

/-- The frame goes onto both counters. -/
theorem sendSession (h : hub.Accounted c) (sid : String) (data : Json) :
    (hub.sendSession c sid data).1.Accounted c := by
  obtain he | ⟨sess, hs, hlen, hfit, heq⟩ := sendSession_cases hub c sid data
  · rw [he]; exact h
  · rw [heq]
    refine h.of_set { sess with
      outboundQueue := sess.outboundQueue ++ [⟨data, encodedBytes data, rfl⟩]
      outboundBytes := sess.outboundBytes + encodedBytes data } rfl
      (fun s hne => get?_startWriter_of_ne _ hne) ?_ hfit ?_ ?_
    · have hbytes := h.bytes sid sess hs
      simp only [inFlightBytes_startWriter, queuedBytes, List.map_append, List.map_cons,
        List.map_nil, List.sum_append, List.sum_cons, List.sum_nil] at hbytes ⊢
      omega
    · rw [List.length_append, List.length_singleton]
      exact hlen
    · simp only [hs, Option.map_some, Option.getD_some]
      omega

/-- A frame moves from the queue into the send. -/
theorem writerDequeue (h : hub.Accounted c) (sid : String) :
    (hub.writerDequeue sid).Accounted c := by
  obtain he | ⟨sess, frame, rest, hw, hs, hq, heq⟩ := writerDequeue_cases hub sid
  · rw [he]; exact h
  · rw [heq]
    refine h.of_set { sess with outboundQueue := rest } rfl
      (fun s hne => Dict.get?_set_of_ne _ _ hne) ?_ (h.bounded sid sess hs) ?_ ?_
    · have hbytes := h.bytes sid sess hs
      simp only [hq, hw, queuedBytes, List.map_cons, List.sum_cons, inFlightBytes,
        Dict.get?_set_self] at hbytes ⊢
      omega
    · have hlen := h.frames sid sess hs
      rw [hq, List.length_cons] at hlen
      exact (Nat.le_succ _).trans hlen
    · simp [hs]

/-- The end of a send: what was in flight comes off both counters. -/
theorem releaseFrameBy (h : hub.Accounted c) (hclamp : ∀ x, 0 ≤ x → clamp x = x) {sid : String}
    {frame : Frame} (hw : hub.writers.get? sid = some (.sending frame)) {next : Writer}
    (hnext : ∀ f, next ≠ .sending f) :
    Accounted c { hub.releaseFrameBy clamp sid frame with
      writers := hub.writers.set sid next } := by
  cases hs : hub.sessions.get? sid with
  | none =>
      rw [releaseFrameBy_of_none clamp frame hs]
      refine ⟨fun s sess hs' => ?_, h.bounded, h.frames, h.total⟩
      have hne : s ≠ sid := by
        rintro rfl
        rw [hs] at hs'
        cases hs'
      simp only [Dict.get?_set_of_ne _ _ hne]
      exact h.bytes s sess hs'
  | some sess =>
      have hbytes := h.bytes sid sess hs
      have htotal := h.le_total hs
      simp only [hw, inFlightBytes, ← frame.sized] at hbytes
      rw [releaseFrameBy_of_some clamp frame hs, hclamp _ (by omega), hclamp _ (by omega)]
      refine h.of_set { sess with outboundBytes := sess.outboundBytes - frame.size }
        rfl (fun s hne => Dict.get?_set_of_ne _ _ hne) ?_ ?_ (h.frames sid sess hs) ?_
      · simp only [Dict.get?_set_self, inFlightBytes_of_not_sending hnext]
        omega
      · have hle := h.bounded sid sess hs
        simp only
        omega
      · rw [hs, Option.map_some, Option.getD_some]
        simp only
        omega

theorem writerSentBy (h : hub.Accounted c) (hclamp : ∀ x, 0 ≤ x → clamp x = x)
    (sid : String) : (hub.writerSentBy clamp sid).Accounted c := by
  obtain he | ⟨frame, next, hw, hnext, heq⟩ := writerSentBy_cases hub clamp sid
  · rw [he]; exact h
  · rw [heq]; exact h.releaseFrameBy hclamp hw hnext

theorem writerFailedBy (h : hub.Accounted c) (hclamp : ∀ x, 0 ≤ x → clamp x = x)
    (sid : String) : (hub.writerFailedBy clamp sid).Accounted c := by
  obtain he | ⟨w, -, hgone, heq⟩ | ⟨frame, hw, heq⟩ := writerFailedBy_cases hub clamp sid
  · rw [he]; exact h
  · rw [heq]
    refine ⟨fun s sess hs => ?_, h.bounded, h.frames, h.total⟩
    have hne : s ≠ sid := by
      rintro rfl
      rw [Dict.not_contains_iff.mp hgone] at hs
      cases hs
    simp only [Dict.get?_set_of_ne _ _ hne]
    exact h.bytes s sess hs
  · rw [heq]; exact h.releaseFrameBy hclamp hw fun f => Writer.noConfusion

theorem apply (h : hub.Accounted c) (now : Seconds) {op : HubOp}
    (hfresh : ∀ sid, op = .createSession sid →
      hub.sessions.get? sid = none ∧ hub.writers.get? sid = none) :
    (op.apply c now hub).Accounted c := by
  cases op with
  | createSession sid => exact h.createSession now (hfresh sid rfl).1 (hfresh sid rfl).2
  | touchHeartbeat sid => exact h.updateSession sid (fun _ => rfl) fun _ => rfl
  | attachRoute sid rid ttl limit => exact h.attachRoute now sid rid ttl limit
  | heartbeatRoute sid rid ttl => exact h.heartbeatRoute now sid rid ttl
  | detachRoute sid rid => exact h.detachRoute sid rid
  | pruneRoutes => exact foldl_invariant hub.routes.keys h fun _ rid _ hb => hb.pruneRoute now rid
  | pruneStaleSessions => exact h.pruneStaleSessionsBy (fun _ => clamp_eq) now
  | removeSession sid => exact h.removeSessionBy (fun _ => clamp_eq) sid
  | sendSession sid data => exact h.sendSession sid data
  | writerDequeue sid => exact h.writerDequeue sid
  | writerSent sid => exact h.writerSentBy (fun _ => clamp_eq) sid
  | writerFailed sid => exact h.writerFailedBy (fun _ => clamp_eq) sid
  | checkAndMarkSeen key ttl =>
      obtain ⟨seen, heq⟩ := checkAndMarkSeen_hub hub c now key ttl
      simp only [HubOp.apply, HubOp.applyBy, heq]
      exact h.of_eq rfl rfl rfl
  | pruneDedupe => exact h.of_eq rfl rfl rfl

/-! ## The clamps never act -/

theorem removeSessionBy_eq (h : hub.Accounted c) (hclamp : ∀ x, 0 ≤ x → clamp x = x)
    (sid : String) : hub.removeSessionBy clamp sid = hub.removeSession sid := by
  unfold Hub.removeSession
  cases hs : hub.sessions.get? sid with
  | none => rw [removeSessionBy_of_none clamp hs, removeSessionBy_of_none Hub.clamp hs]
  | some sess =>
      have hpos := Int.sub_nonneg.mpr (h.le_total hs)
      rw [removeSessionBy_of_some clamp hs, removeSessionBy_of_some Hub.clamp hs,
        hclamp _ hpos, clamp_eq hpos]

theorem foldl_removeSessionBy_eq (h : hub.Accounted c) (hclamp : ∀ x, 0 ≤ x → clamp x = x)
    (sids : List String) :
    sids.foldl (fun hub sid => hub.removeSessionBy clamp sid) hub =
      sids.foldl (fun hub sid => hub.removeSession sid) hub := by
  induction sids generalizing hub with
  | nil => rfl
  | cons sid rest ih =>
      rw [List.foldl_cons, List.foldl_cons, h.removeSessionBy_eq hclamp]
      exact ih (h.removeSessionBy (fun _ => clamp_eq) sid)

theorem releaseFrameBy_eq (h : hub.Accounted c) (hclamp : ∀ x, 0 ≤ x → clamp x = x)
    {sid : String} {frame : Frame} (hw : hub.writers.get? sid = some (.sending frame)) :
    hub.releaseFrameBy clamp sid frame = hub.releaseFrameBy Hub.clamp sid frame := by
  cases hs : hub.sessions.get? sid with
  | none => rw [releaseFrameBy_of_none clamp frame hs, releaseFrameBy_of_none Hub.clamp frame hs]
  | some sess =>
      have hbytes := h.bytes sid sess hs
      have htotal := h.le_total hs
      simp only [hw, inFlightBytes, ← frame.sized] at hbytes
      have hpos : 0 ≤ sess.outboundBytes - frame.size := by omega
      have hpos' : 0 ≤ hub.outboundQueuedBytes - frame.size := by omega
      rw [releaseFrameBy_of_some clamp frame hs, releaseFrameBy_of_some Hub.clamp frame hs,
        hclamp _ hpos, hclamp _ hpos', clamp_eq hpos, clamp_eq hpos']

theorem applyBy_eq (h : hub.Accounted c) (hclamp : ∀ x, 0 ≤ x → clamp x = x) (now : Seconds)
    (op : HubOp) : op.applyBy clamp c now hub = op.apply c now hub := by
  cases op with
  | pruneStaleSessions => exact h.foldl_removeSessionBy_eq hclamp _
  | removeSession sid => exact h.removeSessionBy_eq hclamp sid
  | writerSent sid =>
      simp only [HubOp.apply, HubOp.applyBy, Hub.writerSentBy]
      split
      · next frame hw => rw [h.releaseFrameBy_eq hclamp hw]
      · rfl
  | writerFailed sid =>
      simp only [HubOp.apply, HubOp.applyBy, Hub.writerFailedBy]
      split
      · next frame hw => rw [h.releaseFrameBy_eq hclamp hw]
      · rfl
      · rfl
  | _ => rfl

end Accounted

theorem accounted_new (c : Config) (now : Seconds) : (Hub.new c now).Accounted c where
  bytes _ _ h := by cases h
  bounded _ _ h := by cases h
  frames _ _ h := by cases h
  total := rfl

/-- Only a live session is given a writer. -/
theorem contains_writers_apply (c : Config) (now : Seconds) (op : HubOp) {sid : String}
    (h : (op.apply c now hub).writers.contains sid = true) :
    hub.writers.contains sid = true ∨ hub.sessions.contains sid = true := by
  have hset : ∀ {writers : Dict String Writer} {s : String} {w : Writer},
      writers.get? s = some w → ∀ w', (writers.set s w').contains sid = true →
        writers.contains sid = true := by
    intro writers s w hw w' hc
    rw [Dict.contains_set, Bool.or_eq_true, decide_eq_true_eq] at hc
    obtain rfl | hc := hc
    · exact Dict.contains_iff.mpr ⟨w, hw⟩
    · exact hc
  simp only [HubOp.apply] at h
  cases op <;> simp only [HubOp.applyBy] at h
  case createSession => exact .inl h
  case touchHeartbeat => rw [touchHeartbeat, writers_updateSession] at h; exact .inl h
  case attachRoute s rid ttl limit =>
    obtain ⟨e, he⟩ | ⟨sess, -, -, heq⟩ := attachRoute_cases hub c now s rid ttl limit
    · rw [he] at h; exact .inl h
    · rw [heq] at h; exact .inl h
  case heartbeatRoute s rid ttl =>
    obtain he | ⟨route, -, -, heq⟩ := heartbeatRoute_cases hub c now s rid ttl
    · rw [he] at h; exact .inl h
    · rw [heq] at h; exact .inl h
  case detachRoute =>
    rw [detachRoute_eq, discardRoute, writers_updateSession, writers_dropLease] at h
    exact .inl h
  case pruneRoutes => rw [writers_pruneRoutes] at h; exact .inl h
  case pruneStaleSessions => rw [writers_pruneStaleSessionsBy] at h; exact .inl h
  case removeSession => rw [writers_removeSessionBy] at h; exact .inl h
  case sendSession s data =>
    obtain he | ⟨sess, hs, -, -, heq⟩ := sendSession_cases hub c s data
    · rw [he] at h; exact .inl h
    · rw [heq] at h
      by_cases hsid : sid = s
      · subst hsid; exact .inr (Dict.contains_iff.mpr ⟨sess, hs⟩)
      · rw [Dict.contains, get?_startWriter_of_ne _ hsid] at h
        exact .inl h
  case writerDequeue s =>
    obtain he | ⟨sess, frame, rest, hw, -, -, heq⟩ := writerDequeue_cases hub s
    · rw [he] at h; exact .inl h
    · rw [heq] at h; exact .inl (hset hw _ h)
  case writerSent s =>
    obtain he | ⟨frame, next, hw, -, heq⟩ := writerSentBy_cases hub clamp s
    · rw [he] at h; exact .inl h
    · rw [heq] at h; exact .inl (hset hw _ h)
  case writerFailed s =>
    obtain he | ⟨w, hw, -, heq⟩ | ⟨frame, hw, heq⟩ :=
      writerFailedBy_cases hub clamp s
    · rw [he] at h; exact .inl h
    · rw [heq] at h; exact .inl (hset hw _ h)
    · rw [heq] at h; exact .inl (hset hw _ h)
  case checkAndMarkSeen key ttl =>
    obtain ⟨seen, heq⟩ := checkAndMarkSeen_hub hub c now key ttl
    rw [heq] at h
    exact .inl h
  case pruneDedupe => exact .inl h

end Hub

/-! ## Over a whole run -/

namespace HubRun

variable {c : Config} {s : HubRun}

structure OutboundInvariant (c : Config) (s : HubRun) : Prop where
  routes : RouteInvariant c s
  accounted : s.hub.Accounted c
  writers_issued : ∀ sid, s.hub.writers.contains sid = true → sid ∈ s.issued

theorem outboundInvariant_init {s : HubRun} (h : (hubSystem c).init s) :
    OutboundInvariant c s := by
  have hroutes := routeInvariant_init h
  obtain ⟨now, rfl⟩ := h
  exact ⟨hroutes, Hub.accounted_new c now, fun _ h => by cases h⟩

theorem OutboundInvariant.next (h : OutboundInvariant c s) {e : Seconds × HubOp} {s' : HubRun}
    (hstep : (hubSystem c).step s e s') : OutboundInvariant c s' := by
  have hroutes := h.routes.next hstep
  obtain ⟨now, op⟩ := e
  obtain ⟨⟨-, hallowed⟩, rfl⟩ := hstep
  refine ⟨hroutes, h.accounted.apply now ?_, ?_⟩
  · -- A fresh identifier has neither a record nor a writer that outlived one.
    rintro sid rfl
    refine ⟨h.routes.fresh hallowed.1, Dict.not_contains_iff.mp ?_⟩
    rw [Bool.eq_false_iff]
    exact fun hw => hallowed.1 (h.writers_issued sid hw)
  · intro sid hw
    have hissued : sid ∈ s.issued := by
      obtain hw | hs := Hub.contains_writers_apply c now op hw
      · exact h.writers_issued sid hw
      · obtain ⟨sess, hs⟩ := Dict.contains_iff.mp hs
        exact h.routes.issued sid sess hs
    cases op with
    | createSession sid' => exact Finset.mem_insert_of_mem hissued
    | _ => exact hissued

theorem outboundInvariant_of_reachable (h : (hubSystem c).Reachable s) :
    OutboundInvariant c s :=
  h.invariant (fun _ => outboundInvariant_init) fun _ _ _ hs => hs.next

/-- In every state of every run each live session is charged for exactly its
queued frames and the frame in flight, within both limits, the total is the
sum over the live sessions, and every operation gives the same hub with any
function in the place of the clamp that agrees with it from zero on. -/
theorem outbound_bytes_accounted (h : (hubSystem c).Reachable s) :
    (∀ sid sess, s.hub.sessions.get? sid = some sess →
      sess.outboundBytes = Hub.queuedBytes sess.outboundQueue +
          Hub.inFlightBytes (s.hub.writers.get? sid) ∧
        sess.outboundBytes ≤ c.outboundQueueBytes ∧
        sess.outboundQueue.length ≤ c.outboundQueueFrames) ∧
    s.hub.outboundQueuedBytes = (s.hub.sessions.sumBy fun _ sess => sess.outboundBytes) ∧
    ∀ clamp : Int → Int, (∀ x, 0 ≤ x → clamp x = x) →
      ∀ (now : Seconds) (op : HubOp),
        op.applyBy clamp c now s.hub = op.apply c now s.hub := by
  have hacc := (outboundInvariant_of_reachable h).accounted
  refine ⟨fun sid sess hs => ?_, hacc.total, fun clamp hclamp now op =>
    hacc.applyBy_eq hclamp now op⟩
  exact ⟨hacc.bytes sid sess hs, hacc.bounded sid sess hs, hacc.frames sid sess hs⟩

/-- A frame in flight is still charged. -/
theorem outbound_bytes_accounted_sending :
    ∃ s : HubRun, (hubSystem .default).Reachable s ∧
      s.hub.writers.get? "a" = some (.sending ⟨.obj [], 2, by decide⟩) ∧
      s.hub.outboundQueuedBytes = s.hub.sessions.sumBy fun _ sess => sess.outboundBytes := by
  have h0 : (hubSystem .default).Reachable ⟨.new .default 0, 0, ∅, fun _ => 0⟩ :=
    .start ⟨0, rfl⟩
  have h3 := System.reachable_foldl h0 [(0, .createSession "a"),
    (0, .sendSession "a" (.obj [])), (0, .writerDequeue "a")] (by decide +kernel)
  exact ⟨_, h3, rfl, (outbound_bytes_accounted h3).2.1⟩

end HubRun

end Masterserver
