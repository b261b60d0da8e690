import Masterserver.Proofs.PeerTexts
import Masterserver.Proofs.Requests
import Masterserver.Proofs.SignalOnce
import Masterserver.Runs.Mesh

/-!
# A delivery report is true

`forward_signal` returns `True` only after an ACK that says so, and an ACK is
only ever sent for a request that was read. So what is known of a request in
flight is what the node that made it recorded, and what is known of an ACK in
flight is what the node that sent it did: every message on the wire is
`Genuine`, whatever becomes of it there. An answer that waits in the table of
requests came in such an ACK.

That an envelope is queued once in the window of the dedupe cache rests on the
identifier of the message: a request is put on the wire under one, and the
node that queued its envelope remembers it.
-/

namespace Masterserver

open Lib NodeMesh ServerRun

/-! ## What is known of a message -/

/-- The envelope of a request was queued, at the node the request was for. -/
def Served (history : List Happening) (node requestId : String) : Prop :=
  ∃ routeTag target envelope owner now,
    Happening.forwarded node requestId routeTag target envelope (some owner) ∈ history ∧
      Happening.queued owner node (.str requestId) target envelope.sortKeys now ∈ history

theorem Served.mono {history more : List Happening} {node requestId : String}
    (h : Served history node requestId) : Served (history ++ more) node requestId := by
  obtain ⟨routeTag, target, envelope, owner, now, hforwarded, hqueued⟩ := h
  exact ⟨routeTag, target, envelope, owner, now, List.mem_append_left _ hforwarded,
    List.mem_append_left _ hqueued⟩

/-- A message that an honest node has sent: a request it has recorded, or an
answer that says `True` only if the request was served. -/
inductive Genuine (history : List Happening) : Posted → Prop
  | request {source target id requestId routeTag session : String} {envelope : Json}
      (hplain : envelope.Plain)
      (hforwarded : .forwarded source requestId routeTag session envelope (some target) ∈ history) :
      Genuine history ⟨source, target, id, .signalForward requestId routeTag session envelope⟩
  | answer {source target id requestId : String} {delivered : Bool}
      (h : delivered = true → Served history target requestId) :
      Genuine history ⟨source, target, id, .ack (.str requestId) delivered⟩

theorem Genuine.mono {history more : List Happening} {p : Posted} (h : Genuine history p) :
    Genuine (history ++ more) p := by
  cases h with
  | request hplain hforwarded => exact .request hplain (List.mem_append_left _ hforwarded)
  | answer h => exact .answer fun hdelivered => (h hdelivered).mono

/-- The message is a request, under this identifier. -/
def Posted.Requests (p : Posted) (requestId : String) : Prop :=
  ∃ routeTag target envelope, p.message = .signalForward requestId routeTag target envelope

/-- A key that was marked at a time is still marked, or its window is over. -/
def ServerRun.Recent (m : MeshConfig) (s : ServerRun) (key : String) (marked : Seconds) : Prop :=
  marked + m.dedupeWindowSeconds ≤ s.clocks.monotonic ∨
    ∃ expiresAt, s.server.hub.seen.get? key = some expiresAt ∧
      marked + m.dedupeWindowSeconds ≤ expiresAt

theorem ServerRun.Recent.after {m : MeshConfig} {cr : Crypto} {trust : NodeTrust} {s : ServerRun}
    {e : ServerEvent} {key : String} {marked : Seconds} (h : s.Recent m key marked)
    (hclock : s.clocks.before e.now) : (s.after m cr trust e).Recent m key marked := by
  have hnow : s.clocks.monotonic ≤ e.now.monotonic := hclock.2
  obtain hover | ⟨expiresAt, hget, hle⟩ := h
  · exact .inl (hover.trans hnow)
  · by_cases hlive : e.now.monotonic < expiresAt
    · exact .inr ⟨expiresAt, remembers_after m cr trust s e key expiresAt hget hlive, hle⟩
    · exact .inl (hle.trans (not_lt.mp hlive))

/-- A key that passes the check was marked a window ago. -/
theorem ServerRun.Recent.over {m : MeshConfig} {s : ServerRun} {key : String}
    {marked now : Seconds} (h : s.Recent m key marked) (hclock : s.clocks.monotonic ≤ now)
    (hfresh : ∀ expiresAt, s.server.hub.seen.get? key = some expiresAt → expiresAt ≤ now) :
    marked + m.dedupeWindowSeconds ≤ now := by
  obtain hover | ⟨expiresAt, hget, hle⟩ := h
  · exact hover.trans hclock
  · exact hle.trans (hfresh expiresAt hget)

/-! ## The invariant -/

/-- Two queuings for one request at one node are a window apart. -/
def Spaced (f : Fleet) (a b : Happening) : Prop :=
  ∀ peer source requestId target target' envelope envelope' now now',
    a = .queued peer source requestId target envelope now →
      b = .queued peer source requestId target' envelope' now' →
        now + (f.config peer).dedupeWindowSeconds ≤ now'

structure Exchange.Honest (f : Fleet) (w : Exchange) : Prop where
  linked : ∀ node, (w.nodes node).Linked
  genuine : ∀ p ∈ w.wire, Genuine w.history p
  single : ∀ p ∈ w.wire, ∀ p' ∈ w.wire, ∀ requestId, p.Requests requestId →
    p'.Requests requestId → p = p'
  drawn : ∀ node requestId routeTag target envelope owner,
    .forwarded node requestId routeTag target envelope owner ∈ w.history →
      requestId ∈ w.requestIds
  once : ∀ node node' requestId routeTag routeTag' target target' envelope envelope' owner owner',
    .forwarded node requestId routeTag target envelope owner ∈ w.history →
      .forwarded node' requestId routeTag' target' envelope' owner' ∈ w.history →
        target = target' ∧ envelope = envelope' ∧ owner = owner'
  pending : ∀ node requestId,
    (w.nodes node).server.mesh.pendingAcks.get? requestId = some (some true) →
      Served w.history node requestId
  returned : ∀ node requestId, .returned node requestId true ∈ w.history →
    Served w.history node requestId
  remembered : ∀ peer source requestId target envelope now,
    .queued peer source requestId target envelope now ∈ w.history →
      ∃ p ∈ w.wire, ∃ text, requestId = .str text ∧ p.Requests text ∧
        (w.nodes peer).Recent (f.config peer) (Server.messageKey source p.id) now
  spaced : w.history.Pairwise (Spaced f)

namespace Exchange.Honest

variable {f : Fleet} {w : Exchange}

/-- A node moves on. -/
theorem move (h : w.Honest f) {node : String} {s' : ServerRun} (hlinked : s'.Linked)
    (hrecent : ∀ key marked, (w.nodes node).Recent (f.config node) key marked →
      s'.Recent (f.config node) key marked)
    (hpending : ∀ requestId, s'.server.mesh.pendingAcks.get? requestId = some (some true) →
      Served w.history node requestId) :
    Honest f { w with nodes := Function.update w.nodes node s' } := by
  refine ⟨?_, h.genuine, h.single, h.drawn, h.once, ?_, h.returned, ?_, h.spaced⟩
  · exact (Function.forall_update_iff _ _).mpr ⟨hlinked, fun other _ => h.linked other⟩
  · exact (Function.forall_update_iff w.nodes fun other s => ∀ requestId,
      s.server.mesh.pendingAcks.get? requestId = some (some true) →
        Served w.history other requestId).mpr ⟨hpending, fun other _ => h.pending other⟩
  · intro peer source requestId target envelope now hqueued
    obtain ⟨p, hp, text, htext, hrequests, hkey⟩ := h.remembered _ _ _ _ _ _ hqueued
    refine ⟨p, hp, text, htext, hrequests, ?_⟩
    show (Function.update w.nodes node s' peer).Recent _ _ _
    by_cases hne : peer = node
    · subst hne
      rw [Function.update_self]
      exact hrecent _ _ hkey
    · rw [Function.update_of_ne hne]
      exact hkey

/-- More identifiers are drawn. -/
theorem draw (h : w.Honest f) (ids : Finset String) :
    Honest f { w with requestIds := w.requestIds ∪ ids } :=
  ⟨h.linked, h.genuine, h.single, fun _ _ _ _ _ _ hforwarded =>
    Finset.mem_union_left _ (h.drawn _ _ _ _ _ _ hforwarded), h.once, h.pending, h.returned,
    h.remembered, h.spaced⟩

/-- Something is recorded that is neither a request nor a queued envelope. -/
theorem spaced_append (h : w.Honest f) {happening : Happening}
    (hnew : ∀ a ∈ w.history, Spaced f a happening) :
    (w.history ++ [happening]).Pairwise (Spaced f) := by
  rw [List.pairwise_append]
  refine ⟨h.spaced, List.pairwise_singleton _ _, ?_⟩
  intro a ha b hb
  rw [List.mem_singleton.mp hb]
  exact hnew a ha

/-- `forward_signal` returns. -/
theorem return_ (h : w.Honest f) {node requestId : String} {delivered : Bool}
    (hserved : delivered = true → Served w.history node requestId) :
    Honest f { w with history := w.history ++ [.returned node requestId delivered] } := by
  refine ⟨h.linked, fun p hp => (h.genuine p hp).mono, h.single, ?_, ?_,
    fun _ _ hget => (h.pending _ _ hget).mono, ?_, ?_, ?_⟩
  · intro node' requestId' routeTag target envelope owner hforwarded
    rcases List.mem_append.mp hforwarded with hforwarded | hnew
    · exact h.drawn _ _ _ _ _ _ hforwarded
    · cases List.mem_singleton.mp hnew
  · intro node₁ node₂ requestId' tag₁ tag₂ target₁ target₂ envelope₁ envelope₂ owner₁ owner₂ h₁ h₂
    rcases List.mem_append.mp h₁ with h₁ | hnew
    · rcases List.mem_append.mp h₂ with h₂ | hnew
      · exact h.once _ _ _ _ _ _ _ _ _ _ _ h₁ h₂
      · cases List.mem_singleton.mp hnew
    · cases List.mem_singleton.mp hnew
  · intro node' requestId' hreturned
    rcases List.mem_append.mp hreturned with hreturned | hnew
    · exact (h.returned _ _ hreturned).mono
    · cases List.mem_singleton.mp hnew
      exact (hserved rfl).mono
  · intro peer source requestId' target envelope now hqueued
    rcases List.mem_append.mp hqueued with hqueued | hnew
    · exact h.remembered _ _ _ _ _ _ hqueued
    · cases List.mem_singleton.mp hnew
  · refine h.spaced_append fun a _ => ?_
    intro _ _ _ _ _ _ _ _ _ _ hb
    cases hb

/-- `forward_signal` makes a request and, unless the link fails, sends it. -/
theorem forward (h : w.Honest f) {node requestId routeTag session : String} {envelope : Json}
    {owner : String} {sent : List Posted} (hfresh : requestId ∉ w.requestIds)
    (hplain : envelope.Plain)
    (hsent : ∀ p ∈ sent, ∃ id,
      p = ⟨node, owner, id, .signalForward requestId routeTag session envelope⟩)
    (hone : sent.length ≤ 1) :
    Honest f { w with
      requestIds := w.requestIds ∪ {requestId}
      wire := w.wire ++ sent
      history := w.history ++ [.forwarded node requestId routeTag session envelope (some owner)] } := by
  have hnone : ∀ p ∈ w.wire, ¬p.Requests requestId := by
    rintro p hp ⟨tag, target, out, hmessage⟩
    cases h.genuine p hp with
    | request _ hforwarded =>
        cases hmessage
        exact hfresh (h.drawn _ _ _ _ _ _ hforwarded)
    | answer => cases hmessage
  refine ⟨h.linked, ?_, ?_, ?_, ?_, fun _ _ hget => (h.pending _ _ hget).mono, ?_, ?_, ?_⟩
  · intro p hp
    rcases List.mem_append.mp hp with hp | hp
    · exact (h.genuine p hp).mono
    · obtain ⟨id, rfl⟩ := hsent p hp
      exact .request hplain (List.mem_append_right _ (List.mem_singleton_self _))
  · intro p hp p' hp' other hrequests hrequests'
    have hnew : ∀ p ∈ sent, p.Requests other → other = requestId := by
      intro p hp hrequests
      obtain ⟨id, rfl⟩ := hsent p hp
      obtain ⟨_, _, _, hmessage⟩ := hrequests
      cases hmessage
      rfl
    rcases List.mem_append.mp hp with hp | hp
    · rcases List.mem_append.mp hp' with hp' | hp'
      · exact h.single p hp p' hp' other hrequests hrequests'
      · rw [hnew p' hp' hrequests'] at hrequests
        exact absurd hrequests (hnone p hp)
    · rcases List.mem_append.mp hp' with hp' | hp'
      · rw [hnew p hp hrequests] at hrequests'
        exact absurd hrequests' (hnone p' hp')
      · match sent, hone with
        | [], _ => cases hp
        | [q], _ => rw [List.mem_singleton.mp hp, List.mem_singleton.mp hp']
  · intro node' requestId' tag target out owner' hforwarded
    rcases List.mem_append.mp hforwarded with hforwarded | hnew
    · exact Finset.mem_union_left _ (h.drawn _ _ _ _ _ _ hforwarded)
    · cases List.mem_singleton.mp hnew
      exact Finset.mem_union_right _ (Finset.mem_singleton_self _)
  · intro node₁ node₂ requestId' tag₁ tag₂ target₁ target₂ envelope₁ envelope₂ owner₁ owner₂ h₁ h₂
    rcases List.mem_append.mp h₁ with h₁ | h₁
    · rcases List.mem_append.mp h₂ with h₂ | h₂
      · exact h.once _ _ _ _ _ _ _ _ _ _ _ h₁ h₂
      · cases List.mem_singleton.mp h₂
        exact absurd (h.drawn _ _ _ _ _ _ h₁) hfresh
    · rcases List.mem_append.mp h₂ with h₂ | h₂
      · cases List.mem_singleton.mp h₁
        exact absurd (h.drawn _ _ _ _ _ _ h₂) hfresh
      · cases List.mem_singleton.mp h₁
        cases List.mem_singleton.mp h₂
        exact ⟨rfl, rfl, rfl⟩
  · intro node' requestId' hreturned
    rcases List.mem_append.mp hreturned with hreturned | hnew
    · exact (h.returned _ _ hreturned).mono
    · cases List.mem_singleton.mp hnew
  · intro peer source requestId' target out now hqueued
    rcases List.mem_append.mp hqueued with hqueued | hnew
    · obtain ⟨p, hp, hrest⟩ := h.remembered _ _ _ _ _ _ hqueued
      exact ⟨p, List.mem_append_left _ hp, hrest⟩
    · cases List.mem_singleton.mp hnew
  · refine h.spaced_append fun a _ => ?_
    intro _ _ _ _ _ _ _ _ _ _ hb
    cases hb

/-- The envelope of a request is queued. -/
theorem queue (h : w.Honest f) {peer source requestId target : String} {envelope : Json}
    {now : Seconds} {p : Posted} (hp : p ∈ w.wire) (hrequests : p.Requests requestId)
    (hrecent : (w.nodes peer).Recent (f.config peer) (Server.messageKey source p.id) now)
    (hspaced : ∀ target' envelope' before,
      .queued peer source (.str requestId) target' envelope' before ∈ w.history →
        before + (f.config peer).dedupeWindowSeconds ≤ now) :
    Honest f { w with
      history := w.history ++ [.queued peer source (.str requestId) target envelope now] } := by
  refine ⟨h.linked, fun p hp => (h.genuine p hp).mono, h.single, ?_, ?_,
    fun _ _ hget => (h.pending _ _ hget).mono, ?_, ?_, ?_⟩
  · intro node' requestId' routeTag target envelope owner hforwarded
    rcases List.mem_append.mp hforwarded with hforwarded | hnew
    · exact h.drawn _ _ _ _ _ _ hforwarded
    · cases List.mem_singleton.mp hnew
  · intro node₁ node₂ requestId' tag₁ tag₂ target₁ target₂ envelope₁ envelope₂ owner₁ owner₂ h₁ h₂
    rcases List.mem_append.mp h₁ with h₁ | hnew
    · rcases List.mem_append.mp h₂ with h₂ | hnew
      · exact h.once _ _ _ _ _ _ _ _ _ _ _ h₁ h₂
      · cases List.mem_singleton.mp hnew
    · cases List.mem_singleton.mp hnew
  · intro node' requestId' hreturned
    rcases List.mem_append.mp hreturned with hreturned | hnew
    · exact (h.returned _ _ hreturned).mono
    · cases List.mem_singleton.mp hnew
  · intro peer' source' requestId' target' envelope' now' hqueued
    rcases List.mem_append.mp hqueued with hqueued | hnew
    · exact h.remembered _ _ _ _ _ _ hqueued
    · cases List.mem_singleton.mp hnew
      exact ⟨p, hp, requestId, rfl, hrequests, hrecent⟩
  · refine h.spaced_append fun a ha => ?_
    intro _ _ _ _ _ _ _ _ _ hold hb
    cases hb
    subst hold
    exact hspaced _ _ _ ha

/-- An answer is sent, unless the link fails. -/
theorem answer (h : w.Honest f) {sent : List Posted} {node target requestId : String}
    {delivered : Bool} (hserved : delivered = true → Served w.history target requestId)
    (hsent : ∀ p ∈ sent, ∃ id, p = ⟨node, target, id, .ack (.str requestId) delivered⟩) :
    Honest f { w with wire := w.wire ++ sent } := by
  refine ⟨h.linked, ?_, ?_, h.drawn, h.once, h.pending, h.returned, ?_, h.spaced⟩
  · intro p hp
    rcases List.mem_append.mp hp with hp | hp
    · exact h.genuine p hp
    · obtain ⟨id, rfl⟩ := hsent p hp
      exact .answer hserved
  · have hno : ∀ p ∈ sent, ∀ requestId, ¬p.Requests requestId := by
      rintro p hp other ⟨_, _, _, hmessage⟩
      obtain ⟨id, rfl⟩ := hsent p hp
      cases hmessage
    intro p hp p' hp' other hrequests hrequests'
    rcases List.mem_append.mp hp with hp | hp
    · rcases List.mem_append.mp hp' with hp' | hp'
      · exact h.single p hp p' hp' other hrequests hrequests'
      · exact absurd hrequests' (hno p' hp' other)
    · exact absurd hrequests (hno p hp other)
  · intro peer source requestId' out envelope now hqueued
    obtain ⟨p, hp, hrest⟩ := h.remembered _ _ _ _ _ _ hqueued
    exact ⟨p, List.mem_append_left _ hp, hrest⟩

end Exchange.Honest

/-! ## What an event records -/

namespace Exchange

variable {f : Fleet} {cr : Crypto} {w : Exchange} {node : String} {s s' : ServerRun}

theorem newEntries_eq {entries : List Entry} (h : s'.log = s.log ++ entries) :
    newEntries s s' = entries := by
  unfold newEntries
  rw [h, List.drop_left]

/-- One message is put on the wire once, if at all. -/
theorem posted_single (node : String) (s : ServerRun) (send : Send) (ids : List String) :
    (posted node s [send] ids).length ≤ 1 ∧
      ∀ p ∈ posted node s [send] ids, ∃ id link, s.links.get? send.link = some link ∧
        p = ⟨node, link.nodeId, id, send.message⟩ := by
  cases ids with
  | nil => exact ⟨Nat.zero_le 1, nofun⟩
  | cons id rest =>
      unfold posted
      cases hlink : s.links.get? send.link with
      | none =>
          simp [hlink]
      | some link =>
          simp [hlink]

/-- What `forward_signal` returns is what the ACK said. -/
theorem returns_cases (node : String) (s : ServerRun) (op : ServerOp) :
    returns node s op = [] ∨ ∃ requestId delivered,
      returns node s op = [.returned node requestId delivered] ∧
        (delivered = true →
          s.server.mesh.pendingAcks.get? requestId = some (some true)) := by
  unfold returns
  split
  · next sid arrived =>
      split
      · next requestId _ =>
          refine .inr ⟨requestId, _, rfl, fun hdelivered => ?_⟩
          unfold ackAnswered Dict.getD at hdelivered
          simp only at hdelivered
          split at hdelivered
          · cases hget : s.server.mesh.pendingAcks.get? requestId with
            | none =>
                rw [hget] at hdelivered
                cases hdelivered
            | some answer =>
                rw [hget] at hdelivered
                cases answer with
                | none => cases hdelivered
                | some delivered =>
                    simp only [Option.getD_some] at hdelivered
                    rw [hdelivered]
          · cases hdelivered
      · exact .inl rfl
  · exact .inl rfl

/-- Nothing was queued for a peer. -/
theorem queuings_eq_nil {c : Config} {e : ServerEvent} {entries : List Entry}
    (h : ∀ source effect, ⟨.node source, effect⟩ ∈ entries → effect.isQueued = false) :
    queuings c node e entries = [] := by
  unfold queuings
  split
  · split
    · rfl
    · rw [List.filterMap_eq_nil_iff]
      intro entry hentry
      split
      · next source target envelope =>
          have hnot := h _ _ hentry
          cases hnot
      · rfl
  · rfl

/-- What came in a frame is a message an honest node has sent here. -/
theorem Honest.carried (h : w.Honest f) {socket : Nat} {raw : List Char} {link : Link}
    (hlink : (w.nodes node).links.get? socket = some link)
    (hcarried : w.Carried f node (.nodeFrame socket raw)) {type id : String} {payload : Payload}
    (hread : readNodeFrame (f.config node).toConfig raw = some (type, id, payload))
    (htype : type ∈ ["SIGNAL_FORWARD", "ACK"]) :
    ∃ p ∈ w.wire, p.source = link.nodeId ∧ p.target = node ∧
      readNodeFrame (f.config node).toConfig p.text = some (type, id, payload) ∧
      Genuine w.history p := by
  obtain ⟨p, hp, hsource, htarget, rfl⟩ := hcarried link hlink (type, id, payload) hread htype
  exact ⟨p, hp, hsource, htarget, hread, h.genuine p hp⟩

theorem pending_answerPending {pending : Dict String (Option Bool)} {requestId other : String}
    {delivered : Bool}
    (h : (answerPending pending requestId delivered).get? other = some (some true)) :
    pending.get? other = some (some true) ∨ other = requestId ∧ delivered = true := by
  unfold answerPending at h
  split at h
  · rw [Dict.get?_set] at h
    split at h
    · next heq =>
        cases h
        exact .inr ⟨heq, rfl⟩
    · exact .inl h
  · exact .inl h

end Exchange

/-! ## Every event -/

namespace Exchange.Honest

variable {f : Fleet} {cr : Crypto} {w : Exchange}

theorem after (h : w.Honest f) {e : ExchangeEvent} (hallowed : w.allowed f e) :
    (w.after f cr e).Honest f := by
  obtain ⟨-, hclock, hallowed, hcarried, hdrawn, -⟩ := hallowed
  obtain ⟨node, event, ids⟩ := e
  simp only at hclock hallowed hcarried hdrawn
  obtain ⟨entries, hlog, hcourse⟩ :=
    course_after (f.config node) cr (f.trust node) (w.nodes node) event
  have hlinked : ((w.nodes node).after (f.config node) cr (f.trust node) event).Linked :=
    (h.linked node).after hallowed
  have hrecent : ∀ key marked, (w.nodes node).Recent (f.config node) key marked →
      ((w.nodes node).after (f.config node) cr (f.trust node) event).Recent (f.config node) key
        marked := fun _ _ hkey => hkey.after hclock
  unfold Exchange.after
  simp only [newEntries_eq hlog]
  generalize hs' : (w.nodes node).after (f.config node) cr (f.trust node) event = s' at *
  cases hcourse with
  | idle hacks hsends hqueued =>
      have hmoved := (h.move hlinked hrecent fun requestId hget =>
        h.pending _ _ (hacks _ _ hget)).draw (Exchange.drawn event.op)
      have hposted : posted node (w.nodes node) [] ids = [] := rfl
      have hforwardings : forwardings node s' [] = [] := rfl
      rw [hsends, hposted, hforwardings, queuings_eq_nil hqueued, List.append_nil, List.nil_append,
        List.append_nil]
      obtain hnone | ⟨requestId, delivered, hreturned, hanswer⟩ :=
        returns_cases node (w.nodes node) event.op
      · rw [hnone, List.append_nil]
        exact hmoved
      · rw [hreturned]
        exact hmoved.return_ fun hdelivered => h.pending _ _ (hanswer hdelivered)
  | @asked sid raw draws data id signal owner link hop hloads hvalid hacks howner hlink hsends =>
      have hmoved := h.move hlinked hrecent fun requestId hget => by
        rw [hacks, Dict.get?_set] at hget
        split at hget
        · cases hget
        · exact h.pending _ _ hget
      have hfresh : draws.requestId ∉ w.requestIds := by
        rw [hop] at hdrawn
        exact Finset.disjoint_singleton_right.mp hdrawn
      obtain ⟨hone, hsent⟩ := posted_single node (w.nodes node)
        ⟨link, .signalForward draws.requestId signal.routeTag signal.toSessionId
          (V2.outgoing (idJson id) signal)⟩ ids
      have howned (p : Posted) (hp : p ∈ posted node (w.nodes node)
          [⟨link, .signalForward draws.requestId signal.routeTag signal.toSessionId
            (V2.outgoing (idJson id) signal)⟩] ids) :
          ∃ messageId, p = ⟨node, owner, messageId, .signalForward draws.requestId signal.routeTag
            signal.toSessionId (V2.outgoing (idJson id) signal)⟩ := by
        obtain ⟨messageId, running, hrunning, rfl⟩ := hsent p hp
        obtain ⟨linked, hlinked, howner⟩ := h.linked node owner link hlink
        rw [hlinked] at hrunning
        cases hrunning
        exact ⟨messageId, by rw [howner]⟩
      have hreturns : returns node (w.nodes node) event.op = [] := by
        rw [hop]
        rfl
      have hqueuings : queuings (f.config node).toConfig node event entries = [] := by
        unfold queuings
        rw [hop]
      have hforwardings : forwardings node s' (exchangeSends entries) =
          [.forwarded node draws.requestId signal.routeTag signal.toSessionId
            (V2.outgoing (idJson id) signal) (some owner)] := by
        rw [hsends, ← howner]
        rfl
      rw [hreturns, hqueuings, hforwardings, hsends, hop, List.append_nil, List.append_nil]
      exact hmoved.forward hfresh (plain_outgoing hloads hvalid) howned hone
  | @served socket raw link id payload effects hop hlink hread hacks hfresh hmarked hentries
      hanswers =>
      have hmoved := h.move hlinked hrecent fun requestId hget =>
        h.pending _ _ (by rw [← hacks]; exact hget)
      rw [hop] at hcarried
      obtain ⟨p, hp, hsource, htarget, htext, hgenuine⟩ :=
        h.carried hlink hcarried hread (List.mem_cons_self ..)
      have hreturns : returns node (w.nodes node) event.op = [] := by
        rw [hop]
        rfl
      have hdraws : w.requestIds ∪ Exchange.drawn event.op = w.requestIds := by
        rw [hop]
        exact Finset.union_empty _
      cases hgenuine with
      | answer => exact absurd (read_ack htext).1 (by decide)
      | @request source target messageId requestId routeTag session envelope hplain hforwarded =>
      obtain ⟨-, hid, hrequest, hsession, henvelope⟩ := read_signalForward hplain htext
      subst htarget hid
      replace hsource : source = link.nodeId := hsource
      have hack (delivered : Bool) (p : Posted) (hp : p ∈ posted target (w.nodes target)
          [⟨socket, .ack (.str requestId) delivered⟩] ids) :
          ∃ answerId, p = ⟨target, source, answerId, .ack (.str requestId) delivered⟩ := by
        obtain ⟨-, hsent⟩ := posted_single target (w.nodes target)
          ⟨socket, .ack (.str requestId) delivered⟩ ids
        obtain ⟨answerId, running, hrunning, rfl⟩ := hsent p hp
        rw [hlink] at hrunning
        cases hrunning
        exact ⟨answerId, by rw [← hsource]⟩
      rw [hreturns, hdraws, List.append_nil]
      rcases hanswers with heffects | ⟨session', delivered, hsession', heffects⟩
      · rw [hrequest] at heffects
        have hqueuings : queuings (f.config target).toConfig target event entries = [] := by
          refine queuings_eq_nil fun by_ effect hmem => ?_
          rw [hentries, heffects] at hmem
          cases List.mem_singleton.mp hmem
          rfl
        have hsends : exchangeSends entries = [⟨socket, .ack (.str requestId) false⟩] := by
          rw [hentries, heffects]
          rfl
        rw [hqueuings, hsends]
        have hforwardings : forwardings target s'
            [⟨socket, .ack (.str requestId) false⟩] = [] := rfl
        rw [hforwardings, List.append_nil, List.append_nil]
        exact hmoved.answer (fun h => by cases h) (hack false)
      rw [hrequest] at heffects
      rw [hsession] at hsession'
      cases hsession'
      rw [henvelope] at heffects
      have hsends : exchangeSends entries = [⟨socket, .ack (.str requestId) delivered⟩] := by
        rw [hentries, heffects]
        rfl
      have hforwardings : forwardings target s'
          [⟨socket, .ack (.str requestId) delivered⟩] = [] := rfl
      rw [hsends, hforwardings, List.nil_append]
      cases delivered with
      | false =>
          have hqueuings : queuings (f.config target).toConfig target event entries = [] := by
            refine queuings_eq_nil fun by_ effect hmem => ?_
            rw [hentries, heffects] at hmem
            rcases List.mem_cons.mp hmem with heq | hmem
            · cases heq
              rfl
            · cases List.mem_singleton.mp hmem
              rfl
          rw [hqueuings, List.append_nil]
          exact hmoved.answer (fun h => by cases h) (hack false)
      | true =>
          have hqueuings : queuings (f.config target).toConfig target event entries =
              [.queued target source (.str requestId) session envelope.sortKeys
                event.now.monotonic] := by
            unfold queuings
            rw [hop, hentries, heffects]
            simp only [hread, hrequest]
            rw [← hsource]
            rfl
          rw [hqueuings]
          have hrecent' : s'.Recent (f.config target) (Server.messageKey source id)
              event.now.monotonic := .inr ⟨_, by rw [hsource]; exact hmarked, le_refl _⟩
          have hqueued : Honest f { w with
              nodes := Function.update w.nodes target s'
              history := w.history ++ [.queued target source (.str requestId) session
                envelope.sortKeys event.now.monotonic] } := by
            refine hmoved.queue hp ⟨routeTag, session, envelope, rfl⟩ ?_ ?_
            · show (Function.update w.nodes target s' target).Recent _ _ _
              rw [Function.update_self]
              exact hrecent'
            · intro target' envelope' before hold
              obtain ⟨q, hq, text, htext', hrequests, hkey⟩ := h.remembered _ _ _ _ _ _ hold
              cases htext'
              rw [h.single q hq _ hp _ hrequests ⟨routeTag, session, envelope, rfl⟩] at hkey
              refine hkey.over hclock.2 fun expiresAt hget => hfresh expiresAt ?_
              rw [← hsource]
              exact hget
          refine hqueued.answer ?_ (hack true)
          intro _
          exact ⟨routeTag, session, envelope, target, event.now.monotonic,
            List.mem_append_left _ hforwarded, List.mem_append_right _ (List.mem_singleton_self _)⟩
  | @acked socket raw link id requestId payload delivered hop hlink hread hkey hdelivered hacks
      hentries =>
      rw [hop] at hcarried
      obtain ⟨p, hp, hsource, htarget, htext, hgenuine⟩ :=
        h.carried hlink hcarried hread (List.mem_cons_of_mem _ (List.mem_singleton_self _))
      cases hgenuine with
      | request hplain => exact absurd (read_signalForward hplain htext).1 (by decide)
      | @answer source target messageId answered said hserved =>
      obtain ⟨-, hrequest, hsaid⟩ := read_ack htext
      subst htarget
      have hmoved := (h.move hlinked hrecent fun other hget => by
        rw [hacks] at hget
        obtain hold | ⟨rfl, rfl⟩ := pending_answerPending hget
        · exact h.pending _ _ hold
        · rw [hkey] at hrequest
          rw [hdelivered rfl] at hsaid
          cases hrequest
          cases hsaid
          exact hserved rfl).draw (Exchange.drawn event.op)
      subst hentries
      have hreturns : returns target (w.nodes target) event.op = [] := by
        rw [hop]
        rfl
      have hqueuings : queuings (f.config target).toConfig target event [] = [] :=
        queuings_eq_nil fun _ _ h => by cases h
      have hforwardings : forwardings target s' (exchangeSends []) = [] := rfl
      have hposted : posted target (w.nodes target) (exchangeSends []) ids = [] := rfl
      rw [hreturns, hqueuings, hforwardings, hposted, List.append_nil, List.append_nil,
        List.append_nil, List.append_nil]
      exact hmoved

end Exchange.Honest

/-! ## The claim of a report -/

namespace Exchange

variable {f : Fleet} {cr : Crypto} {w : Exchange}

theorem honest_of_reachable (h : (exchangeSystem f cr).Reachable w) : w.Honest f := by
  obtain ⟨es, htrace⟩ := h
  induction htrace with
  | start hi =>
      obtain ⟨incarnation, clocks, rfl⟩ := hi
      exact ⟨fun node => linked_new (incarnation node) (clocks node), nofun, nofun, nofun, nofun,
        nofun, nofun, nofun, List.Pairwise.nil⟩
  | snoc _ hstep ih =>
      obtain ⟨hallowed, rfl⟩ := hstep
      exact ih.after hallowed

/-- In every run: where `forward_signal` has returned `True`, it has made a
request of that identifier to a node, and each request it has made under it
was for one node, whose `send_session` took the envelope, with its keys in
order, for the target; and a node does that twice for one request only a
dedupe window apart. -/
theorem delivery_report_true (h : (exchangeSystem f cr).Reachable w) :
    (∀ node requestId, .returned node requestId true ∈ w.history →
      (∃ routeTag target envelope owner,
        .forwarded node requestId routeTag target envelope owner ∈ w.history) ∧
      ∀ routeTag target envelope owner,
        .forwarded node requestId routeTag target envelope owner ∈ w.history →
          ∃ peer now, owner = some peer ∧
            .queued peer node (.str requestId) target envelope.sortKeys now ∈ w.history) ∧
      w.history.Pairwise (Spaced f) := by
  have hhonest := honest_of_reachable h
  refine ⟨fun node requestId hreturned => ?_, hhonest.spaced⟩
  obtain ⟨routeTag, target, envelope, peer, now, hforwarded, hqueued⟩ :=
    hhonest.returned node requestId hreturned
  refine ⟨⟨routeTag, target, envelope, some peer, hforwarded⟩, ?_⟩
  intro routeTag' target' envelope' owner hother
  obtain ⟨rfl, rfl, rfl⟩ := hhonest.once _ _ _ _ _ _ _ _ _ _ _ hforwarded hother
  exact ⟨peer, now, rfl, hqueued⟩

instance (node : String) : ∀ op : ServerOp, Decidable (w.Carried f node op)
  | .nodeFrame socket raw => inferInstanceAs <| Decidable <|
      ∀ link ∈ (w.nodes node).links.get? socket,
        ∀ parts ∈ readNodeFrame (f.config node).toConfig raw,
          parts.1 ∈ ["SIGNAL_FORWARD", "ACK"] →
            ∃ p ∈ w.wire, p.source = link.nodeId ∧ p.target = node ∧ raw = p.text
  | .connect _ _ | .loop _ | .frame _ _ _ | .timeout _ | .disconnect _ | .ask _ _ | .answered _ _ _
  | .resume _ _ | .finish _ | .pruneRoutes | .pruneStaleSessions | .pruneDedupe | .writerDequeue _
  | .writerSent _ | .writerFailed _ | .linkUp _ _ | .linkDown _ | .rebalance _
  | .membershipTick => isTrue trivial

instance (e : ExchangeEvent) : Decidable (w.allowed f e) := by
  unfold allowed
  infer_instance

end Exchange

/-! ### A signal from one node to another -/

namespace Sample

open Exchange

def tag : String := String.ofList (List.replicate 64 '0')

def partner : MeshConfig where
  toConfig := { Config.default with nodeId := "node-b" }
  trusted := {"particle-node-local"}
  trusted_nonempty := by decide
  trusted_card_le := by decide
  local_notMem := by decide

def fleet : Fleet where
  members := {"particle-node-local", "node-b"}
  config node := if node = "node-b" then partner else .pair
  trust _ := Sample.trust
  config_nodeId := by decide
  config_trusted := by decide

/-- An event of a node, with the identifier of the message it sends. -/
def eventAt (node : String) (op : ServerOp) (ids : List String) : ExchangeEvent :=
  ⟨node, event 0 op, ids⟩

/-- A frame of a client that draws the given identifier. -/
def frameAt (node sid requestId : String) (ids : List String) (message : Json) :
    List ExchangeEvent :=
  [eventAt node (.loop sid) [],
    eventAt node (.frame sid message.dumps { draws with requestId := requestId }) ids]

def attachedAt (node sid : String) : List ExchangeEvent :=
  eventAt node (.connect .v2 sid) [] ::
    (frameAt node sid (sid ++ "1") [] (helloV2 (fleet.config node)) ++
      frameAt node sid (sid ++ "2") [] proveV2 ++ frameAt node sid (sid ++ "3") [] attachV2)

/-- The messages of the run, as they come to a node. -/
def announcing : List Char :=
  ((NodeMessage.routeRegister tag (.obj [("sessionId", .str "t"), ("encryptionKeyHex", zeros 130),
    ("keyId", zeros 64), ("nodeId", .str "node-b"), ("expiresAt", .int 10)])).toJson "m0").canonical

def handing : List Char :=
  ((NodeMessage.signalForward "q" tag "t" (.obj [("protocol", .str Protocol.signalV2),
    ("type", .str "SIGNAL"), ("id", .null),
    ("payload", ((signalV2 "s" "t" 1).get? "payload").getD .null)])).toJson "m1").canonical

def answering : List Char := ((NodeMessage.ack (.str "q") true).toJson "m2").canonical

def exchange : List ExchangeEvent :=
  attachedAt "particle-node-local" "s" ++ attachedAt "node-b" "t" ++
    [eventAt "particle-node-local" (.linkUp "node-b" 0) [],
      eventAt "node-b" (.linkUp "particle-node-local" 0) [],
      eventAt "particle-node-local" (.nodeFrame 0 announcing) []] ++
    frameAt "particle-node-local" "s" "q" ["m1"] (signalV2 "s" "t" 1) ++
    [eventAt "node-b" (.nodeFrame 0 handing) ["m2"],
      eventAt "particle-node-local" (.nodeFrame 0 answering) [],
      eventAt "particle-node-local" (.resume "s" true) []]

def startFleet : Exchange := ⟨fun node => start (fleet.config node), [], ∅, []⟩

def ranFleet : Exchange := exchange.foldl (Exchange.after fleet crypto) startFleet

def isReturned (node requestId : String) : Happening → Bool
  | .returned node' requestId' delivered => node' == node && requestId' == requestId && delivered
  | _ => false

theorem mem_of_any_isReturned {history : List Happening} {node requestId : String}
    (h : history.any (isReturned node requestId) = true) :
    .returned node requestId true ∈ history := by
  obtain ⟨happening, hmem, hreturned⟩ := List.any_eq_true.mp h
  cases happening with
  | returned node' requestId' delivered =>
      simp only [isReturned, Bool.and_eq_true, beq_iff_eq] at hreturned
      obtain ⟨⟨rfl, rfl⟩, rfl⟩ := hreturned
      exact hmem
  | _ => cases hreturned

end Sample

namespace Exchange

/-- The client of one node is told that its signal was queued at the other. -/
theorem delivery_report_true_pair :
    (exchangeSystem Sample.fleet Sample.crypto).Reachable Sample.ranFleet ∧
      ∃ peer target envelope now, .queued peer "particle-node-local" (.str "q") target envelope
        now ∈ Sample.ranFleet.history := by
  have hrun : System.Meets (fun w e => w.allowed Sample.fleet e)
        (Exchange.after Sample.fleet Sample.crypto) Sample.startFleet Sample.exchange ∧
      Sample.ranFleet.history.any (Sample.isReturned "particle-node-local" "q") = true := by
    decide +kernel
  obtain ⟨hmeets, hreturned⟩ := hrun
  have hreach : (exchangeSystem Sample.fleet Sample.crypto).Reachable Sample.ranFleet :=
    System.reachable_foldl (.start (S := exchangeSystem Sample.fleet Sample.crypto)
      ⟨fun _ => "", fun _ => ⟨0, 0⟩, rfl⟩) Sample.exchange hmeets
  obtain ⟨⟨routeTag, target, envelope, owner, hforwarded⟩, hserved⟩ :=
    (delivery_report_true hreach).1 _ _ (Sample.mem_of_any_isReturned hreturned)
  obtain ⟨peer, now, -, hqueued⟩ := hserved _ _ _ _ hforwarded
  exact ⟨hreach, peer, target, envelope.sortKeys, now, hqueued⟩

end Exchange

end Masterserver
