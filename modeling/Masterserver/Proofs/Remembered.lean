import Masterserver.Proofs.Lookups

/-!
# What the dedupe cache remembers

A mark stands in the cache with its expiry until it has expired: no call
shortens it, the two prunings only drop what has expired, and a full cache
turns new marks down instead of making room for them. Whatever happens to a
server keeps the live marks, and a key that passes the check was not among
them.
-/

namespace Masterserver

open Lib Hub

namespace Hub

variable {hub hub' hub'' : Hub} {c : Config} {now : Seconds} {sid : String}

/-- No mark that is still live is lost or changed. -/
def Remembers (now : Seconds) (hub hub' : Hub) : Prop :=
  ∀ key expiresAt, hub.seen.get? key = some expiresAt → now < expiresAt →
    hub'.seen.get? key = some expiresAt

theorem Remembers.of_seen (h : hub'.seen = hub.seen) : Remembers now hub hub' := by
  intro key expiresAt hget _
  rw [h]
  exact hget

theorem Remembers.refl : Remembers now hub hub := .of_seen rfl

theorem Remembers.trans (h : Remembers now hub hub') (h' : Remembers now hub' hub'') :
    Remembers now hub hub'' :=
  fun key expiresAt hget hlive => h' key expiresAt (h key expiresAt hget hlive) hlive

/-! ## The cache -/

theorem remembers_pruneDedupe (now : Seconds) : Remembers now hub (hub.pruneDedupe now) := by
  intro key expiresAt hget hlive
  show (hub.seen.filter _).get? key = some expiresAt
  exact Dict.get?_filter_eq_some.mpr ⟨hget, decide_eq_true hlive⟩

/-- A mark is set where none was live. -/
theorem Remembers.mark (h : Remembers now hub hub') {key : String} {expiresAt : Seconds}
    (hfree : ∀ e, hub'.seen.get? key = some e → e ≤ now) :
    Remembers now hub { hub' with seen := hub'.seen.set key expiresAt } := by
  intro key' e hget hlive
  have hkept := h key' e hget hlive
  have hne : key' ≠ key := by
    intro heq
    subst heq
    exact absurd hlive (not_lt.mpr (hfree e hkept))
  show (hub'.seen.set key expiresAt).get? key' = some e
  rw [Dict.get?_set_of_ne _ _ hne]
  exact hkept

/-- What a check comes to. The key is live; or its mark has expired and is
overwritten; or it is not in the cache, which is full of live marks or has
room for it, at the latest once it is rid of what has expired. -/
inductive Checked (c : Config) (now : Seconds) (key : String) (ttl : Seconds) (hub : Hub) :
    Hub × Bool → Prop
  | live {e : Seconds} (hget : hub.seen.get? key = some e) (hlive : now < e) :
      Checked c now key ttl hub (hub, false)
  | again {e : Seconds} (hget : hub.seen.get? key = some e) (hdead : e ≤ now) :
      Checked c now key ttl hub ({ hub with seen := hub.seen.set key (now + ttl) }, true)
  | full (hget : hub.seen.get? key = none)
      (hfull : c.maxDedupeEntries ≤ (hub.pruneDedupe now).seen.size) :
      Checked c now key ttl hub (hub.pruneDedupe now, false)
  | first {hub' : Hub} (hget : hub.seen.get? key = none)
      (hpruned : hub' = hub ∨ hub' = hub.pruneDedupe now)
      (hroom : hub'.seen.size < c.maxDedupeEntries) :
      Checked c now key ttl hub ({ hub' with seen := hub'.seen.set key (now + ttl) }, true)

theorem checkAndMarkSeen_checked (hub : Hub) (c : Config) (now : Seconds) (key : String)
    (ttl : Seconds) : Checked c now key ttl hub (hub.checkAndMarkSeen c now key ttl) := by
  unfold checkAndMarkSeen
  cases hget : hub.seen.get? key with
  | some e =>
      simp only
      split
      · next hlive => exact .live hget hlive
      · next hdead => exact .again hget (not_lt.mp hdead)
  | none =>
      by_cases hsize : c.maxDedupeEntries ≤ hub.seen.size
      · simp only [if_pos hsize]
        split
        · next hfull => exact .full hget hfull
        · next hroom => exact .first hget (.inr rfl) (not_le.mp hroom)
      · simp only [if_neg hsize]
        exact .first hget (.inl rfl) (not_le.mp hsize)

theorem get?_pruned {hub' : Hub} {key : String} (hget : hub.seen.get? key = none)
    (hpruned : hub' = hub ∨ hub' = hub.pruneDedupe now) : hub'.seen.get? key = none := by
  rcases hpruned with rfl | rfl
  · exact hget
  · by_contra hsome
    obtain ⟨e, he⟩ := Option.ne_none_iff_exists'.mp hsome
    rw [(Dict.get?_filter_eq_some.mp he).1] at hget
    cases hget

theorem remembers_checkAndMarkSeen (c : Config) (now : Seconds) (key : String) (ttl : Seconds) :
    Remembers now hub (hub.checkAndMarkSeen c now key ttl).1 := by
  have hchecked := checkAndMarkSeen_checked hub c now key ttl
  generalize hub.checkAndMarkSeen c now key ttl = result at hchecked
  cases hchecked with
  | live => exact .refl
  | again hget hdead =>
      refine Remembers.refl.mark fun e he => ?_
      rw [hget] at he
      cases he
      exact hdead
  | full => exact remembers_pruneDedupe now
  | first hget hpruned =>
      refine Remembers.mark ?_ fun e he => ?_
      · rcases hpruned with rfl | rfl
        · exact .refl
        · exact remembers_pruneDedupe now
      · rw [get?_pruned hget hpruned] at he
        cases he

/-- A key that passes was not live, and is marked from then on. -/
theorem fresh_checkAndMarkSeen {key : String} {ttl : Seconds}
    (h : (hub.checkAndMarkSeen c now key ttl).2 = true) :
    (∀ e, hub.seen.get? key = some e → e ≤ now) ∧
      (hub.checkAndMarkSeen c now key ttl).1.seen.get? key = some (now + ttl) := by
  have hchecked := checkAndMarkSeen_checked hub c now key ttl
  generalize hub.checkAndMarkSeen c now key ttl = result at hchecked h
  cases hchecked with
  | live => cases h
  | again hget hdead =>
      refine ⟨fun e he => ?_, Dict.get?_set_self _ _ _⟩
      rw [hget] at he
      cases he
      exact hdead
  | full => cases h
  | first hget =>
      refine ⟨fun e he => ?_, Dict.get?_set_self _ _ _⟩
      rw [hget] at he
      cases he

/-! ## The other calls -/

theorem seen_detachRoute (sid rid : String) : (hub.detachRoute sid rid).seen = hub.seen := by
  rw [detachRoute_eq, discardRoute, seen_updateSession]
  unfold dropLease
  split
  · rfl
  · rfl

theorem seen_sendSession (c : Config) (target : String) (data : Json) :
    (hub.sendSession c target data).1.seen = hub.seen := by
  unfold sendSession
  split
  · rfl
  simp only
  split
  · rfl
  · rfl

theorem seen_attachRoute (c : Config) (now : Seconds) (sid rid : String) (ttl : Option Seconds)
    (limit : Option Int) : (hub.attachRoute c now sid rid ttl limit).1.seen = hub.seen := by
  unfold attachRoute
  split
  · rfl
  simp only
  split
  · rfl
  · rfl

theorem Acts.remembers (h : Acts c now sid hub hub') : Remembers now hub hub' := by
  induction h with
  | refl => exact .refl
  | rate _ _ ih => exact ih.trans (.of_seen rfl)
  | record _ _ ih => exact ih.trans (.of_seen (seen_updateSession _ _))
  | attach _ rid ttl limit ih => exact ih.trans (.of_seen (seen_attachRoute _ _ _ _ _ _))
  | detach _ rid ih => exact ih.trans (.of_seen (seen_detachRoute _ _))
  | seen _ key ttl ih => exact ih.trans (remembers_checkAndMarkSeen c now key ttl)
  | send _ target data ih => exact ih.trans (.of_seen (seen_sendSession _ _ _))

theorem seen_removeSession (sid : String) : (hub.removeSession sid).seen = hub.seen := by
  unfold removeSession removeSessionBy
  split
  · rfl
  · exact foldl_invariant (P := fun hub' : Hub => hub'.seen = hub.seen) _ rfl
      fun _ rid _ ih => (seen_detachRoute sid rid).trans ih

theorem seen_pruneStaleSessions (c : Config) (now : Seconds) :
    (hub.pruneStaleSessions c now).seen = hub.seen :=
  foldl_invariant (P := fun hub' : Hub => hub'.seen = hub.seen) (hub.staleSessions c now) rfl
    fun _ sid _ ih => (seen_removeSession sid).trans ih

theorem seen_pruneRoutes (now : Seconds) : (hub.pruneRoutes now).seen = hub.seen := by
  refine foldl_invariant (P := fun hub' : Hub => hub'.seen = hub.seen) hub.routes.keys rfl ?_
  intro hub' rid _ ih
  refine .trans ?_ ih
  unfold pruneRoute
  split
  · rfl
  · exact foldl_invariant (P := fun h : Hub => h.seen = hub'.seen) _ rfl
      fun _ sid _ ih => (seen_updateSession _ _).trans ih

theorem seen_writerDequeue (sid : String) : (hub.writerDequeue sid).seen = hub.seen := by
  obtain heq | ⟨sess, frame, rest, -, -, -, heq⟩ := writerDequeue_cases hub sid
  · rw [heq]
  · rw [heq]

theorem seen_releaseFrame (sid : String) (frame : Frame) :
    (hub.releaseFrameBy clamp sid frame).seen = hub.seen := by
  unfold releaseFrameBy
  split
  · rfl
  · rfl

theorem seen_writerSent (sid : String) : (hub.writerSent sid).seen = hub.seen := by
  unfold writerSent
  obtain heq | ⟨frame, next, -, -, heq⟩ := writerSentBy_cases hub clamp sid
  · rw [heq]
  · rw [heq]
    exact seen_releaseFrame sid frame

theorem seen_writerFailed (sid : String) : (hub.writerFailed sid).seen = hub.seen := by
  unfold writerFailed
  obtain heq | ⟨w, -, -, heq⟩ | ⟨frame, -, heq⟩ := writerFailedBy_cases hub clamp sid
  · rw [heq]
  · rw [heq]
  · rw [heq]
    exact seen_releaseFrame sid frame

end Hub

/-! ## Every event -/

namespace ServerRun

variable {m : MeshConfig} {cr : Crypto} {trust : NodeTrust} {s : ServerRun}

theorem remembers_clientEvent {sid : String} {conn : Connection} {op : ServerOp} (now : Clocks)
    (hclient : op.client? = some sid) :
    Remembers now.monotonic s.server.hub
      (s.clientEvent m cr trust now sid conn op).server.hub := by
  by_cases hframe : ∃ raw draws, op = .frame sid raw draws
  · obtain ⟨raw, draws, rfl⟩ := hframe
    simp only [clientEvent]
    split
    · obtain ⟨hub, hadmits, hacts⟩ := acts_received m cr trust s now sid conn raw draws
      exact .trans (.of_seen hadmits.charged.seen) hacts.remembers
    · exact .refl
  · obtain hacts | hgone := acts_clientEvent m cr trust s conn now
      (fun raw draws heq => hframe ⟨raw, draws, heq⟩) hclient
    · exact (hacts sid).remembers
    · rw [hgone]
      exact .of_seen (seen_removeSession sid)

theorem remembers_serverEvent (now : Clocks) (op : ServerOp) :
    Remembers now.monotonic s.server.hub (s.serverEvent m cr now op).server.hub := by
  cases op with
  | connect endpoint sid =>
      simp only [serverEvent, connect]
      split
      · exact .refl
      · exact .of_seen rfl
  | pruneRoutes => exact .of_seen (seen_pruneRoutes now.monotonic)
  | pruneStaleSessions => exact .of_seen (seen_pruneStaleSessions _ _)
  | pruneDedupe => exact remembers_pruneDedupe now.monotonic
  | writerDequeue sid => exact .of_seen (seen_writerDequeue sid)
  | writerSent sid => exact .of_seen (seen_writerSent sid)
  | writerFailed sid => exact .of_seen (seen_writerFailed sid)
  | linkUp nodeId socket =>
      simp only [serverEvent, linkUp]
      split
      · exact .refl
      · exact .refl
  | linkDown socket =>
      rw [serverEvent, hub_linkDown]
      exact .refl
  | nodeFrame socket raw =>
      simp only [serverEvent, nodeFrame]
      split
      · exact .refl
      next link _ =>
      have hacts := Server.acts_receiveNodeFrame m cr now link.nodeId socket link.bucket raw
        s.server ""
      split
      · exact hacts.remembers
      · rw [hub_linkDown]
        exact hacts.remembers
  | rebalance index =>
      rw [serverEvent, hub_rebalance]
      exact .refl
  | _ => exact .refl

/-- No event makes the server forget a message it would still turn down. -/
theorem remembers_after (m : MeshConfig) (cr : Crypto) (trust : NodeTrust) (s : ServerRun)
    (e : ServerEvent) :
    Remembers e.now.monotonic s.server.hub (s.after m cr trust e).server.hub := by
  show Remembers _ _ (s.apply m cr trust e.now e.op).server.hub
  unfold ServerRun.apply
  split
  · exact remembers_serverEvent e.now e.op
  next sid hclient =>
  split
  · exact .refl
  · exact remembers_clientEvent e.now hclient

end ServerRun

end Masterserver
