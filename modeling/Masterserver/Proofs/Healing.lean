import Masterserver.Lib.DictMerge
import Masterserver.Proofs.SplitBrain

/-!
# A membership that heals

Two nodes that lost each other can end up in memberships that do not meet, and
each serves the routes of its own. What brings them back is only the reports:
once every node is linked to every other again and the reports from before
have drained, each report says so, and a node that keeps hearing from a
majority counts everyone in, whatever it had dropped. So all of those nodes
rank every route over the same members.

`Current` is what a report that arrived in such a run still means: the node
stands as a later review left it, and that review, if it was in time, counted
the report or a newer one of the same peer.
-/

namespace Masterserver

open Lib NodeMesh

/-- Every node is linked to every other. -/
def Linked (k : Cluster) (w : Network) : Prop :=
  ∀ node ∈ k.members, (w.nodes node).connections.keys.toFinset = k.members.erase node

instance (k : Cluster) (w : Network) : Decidable (Linked k w) :=
  inferInstanceAs (Decidable (∀ _ ∈ _, _ = _))

def NetworkAction.keepsLinks : NetworkAction → Prop
  | .linkUp .. | .linkDown .. => False
  | _ => True

instance : ∀ action : NetworkAction, Decidable action.keepsLinks
  | .linkUp .. | .linkDown .. => isFalse id
  | .tick _ | .deliver _ | .lose _ => isTrue trivial

/-- The runs from a state on in which no link comes up or goes down. -/
def stillSystem (k : Cluster) (cr : Crypto) (w : Network) : System Network NetworkEvent where
  init := (· = w)
  step s e s' := e.action.keepsLinks ∧ (networkSystem k cr).step s e s'

/-- A node took a report of a peer, by its monotonic clock. -/
structure Report where
  node : String
  peer : String
  at_ : Seconds
  deriving DecidableEq

/-- The report a step delivers, if its node accepts it. -/
def accepted (k : Cluster) (w : Network) (e : NetworkEvent) : Option Report :=
  match e.action with
  | .deliver index =>
      w.inFlight[index]?.bind fun p =>
        ((w.nodes p.target).recordState (k.config p.target) e.now.wall e.now.monotonic p.source
          p.payload).map fun _ => ⟨p.target, p.source, e.now.monotonic⟩
  | _ => none

/-- At its last review a node had accepted reports, none of them too old, from
enough peers to make up a quorum with itself. -/
def HearsMajority (k : Cluster) (w : Network) (reports : List Report) (node : String) : Prop :=
  ∃ r, w.reviews node = some r ∧ ∃ peers ⊆ k.members.erase node,
    (k.config node).quorum ≤ peers.card + 1 ∧ ∀ peer ∈ peers, ∃ report ∈ reports,
      report.node = node ∧ report.peer = peer ∧
        r.now ≤ report.at_ + (k.config node).staleAfter

variable {k : Cluster} {cr : Crypto} {m : MeshConfig} {mesh mesh' : NodeMesh} {w w' : Network}
  {reports : List Report} {node peer : String}

theorem Linked.mem_keys (h : Linked k w) (hnode : node ∈ k.members) (peer : String) :
    peer ∈ (w.nodes node).connections.keys ↔ peer ∈ k.members.erase node := by
  rw [← h node hnode, List.mem_toFinset]

/-! ## One review -/

namespace NodeMesh

theorem reporters_eq_setAll (m : MeshConfig) (now : Seconds) (mesh : NodeMesh) :
    mesh.reporters m now =
      Dict.setAll ((mesh.freshViews m now).entries.map fun e =>
          (e.1, e.2.view ∩ m.membershipUniverse))
        (Dict.set ∅ m.nodeId (insert m.nodeId mesh.connections.keys.toFinset)) := by
  unfold reporters Dict.setAll
  rw [List.foldl_map]

theorem map_fst_views (m : MeshConfig) (now : Seconds) (mesh : NodeMesh) :
    ((mesh.freshViews m now).entries.map fun e =>
      (e.1, e.2.view ∩ m.membershipUniverse)).map Prod.fst = (mesh.freshViews m now).keys := by
  rw [List.map_map]
  rfl

theorem get?_reporters_of_fresh {now : Seconds} {v : PeerView}
    (h : (mesh.freshViews m now).get? peer = some v) :
    (mesh.reporters m now).get? peer = some (v.view ∩ m.membershipUniverse) := by
  rw [reporters_eq_setAll]
  refine Dict.get?_setAll_of_mem ?_ ?_
  · rw [map_fst_views]; exact Dict.nodup_keys _
  · exact List.mem_map.mpr ⟨(peer, v), Dict.mem_entries.mpr h, rfl⟩

/-- No report stands for the node itself. -/
theorem Authenticated.get?_reporters_self (h : Authenticated m mesh) (now : Seconds) :
    (mesh.reporters m now).get? m.nodeId =
      some (insert m.nodeId mesh.connections.keys.toFinset) := by
  rw [reporters_eq_setAll, Dict.get?_setAll_of_notMem]
  · exact Dict.get?_set_self _ _ _
  · rw [map_fst_views, Dict.mem_keys]
    rintro ⟨v, hv⟩
    exact m.local_notMem
      (h.views _ (Dict.mem_keys.mpr ⟨v, (Dict.get?_filter_eq_some.mp hv).1⟩))

/-- The node has a report of the peer that lists everyone, no older than `at_`. -/
def SeesAll (k : Cluster) (mesh : NodeMesh) (peer : String) (at_ : Seconds) : Prop :=
  ∃ v, mesh.peerViews.get? peer = some v ∧ epochMatches v.epoch k.epoch = true ∧
    k.members ⊆ v.view ∧ at_ ≤ v.receivedAt

theorem SeesAll.fresh {at_ now : Seconds} (h : SeesAll k mesh peer at_) (hnode : node ∈ k.members)
    (hnow : now ≤ at_ + (k.config node).staleAfter) :
    ∃ v, (mesh.freshViews (k.config node) now).get? peer = some v ∧
      epochMatches v.epoch k.epoch = true ∧ k.members ⊆ v.view ∧ at_ ≤ v.receivedAt := by
  obtain ⟨v, hv, hepoch, hall, hat⟩ := h
  refine ⟨v, Dict.get?_filter_eq_some.mpr ⟨hv, ?_⟩, hepoch, hall, hat⟩
  have hrecent : ¬ (k.config node).staleAfter < now - v.receivedAt := by
    rw [not_lt, sub_le_iff_le_add']
    exact hnow.trans (add_le_add_left hat _)
  rw [k.config_epoch node hnode, hepoch, Bool.true_and, Bool.not_eq_true', decide_eq_false_iff_not]
  exact hrecent

/-- A report that comes in since, of the same peer or another, lists everyone too. -/
theorem SeesAll.set {at_ now : Seconds} (h : SeesAll k mesh peer at_) (hle : at_ ≤ now)
    (other : String) :
    SeesAll k { mesh with
      peerViews := mesh.peerViews.set other ⟨.int k.epoch, k.members, now⟩ } peer at_ := by
  by_cases hpeer : peer = other
  · subst hpeer
    exact ⟨_, Dict.get?_set_self _ _ _, by simp [epochMatches], Finset.Subset.refl _, hle⟩
  · obtain ⟨v, hv, hrest⟩ := h
    exact ⟨v, (Dict.get?_set_of_ne _ _ hpeer).trans hv, hrest⟩

/-- A linked node that enough peers reported everyone to counts everyone in. -/
theorem mem_of_majority (hnode : node ∈ k.members) (hauth : Authenticated (k.config node) mesh)
    (hlinks : ∀ peer ∈ k.members.erase node, peer ∈ mesh.connections.keys) {now : Seconds}
    {peers : Finset String} (hpeers : peers ⊆ k.members.erase node)
    (hmany : (k.config node).quorum ≤ peers.card + 1)
    (hsees : ∀ peer ∈ peers, ∃ at_, SeesAll k mesh peer at_ ∧
      now ≤ at_ + (k.config node).staleAfter) :
    Decides (k.config node) now mesh ∧ ∀ x ∈ k.members,
      (k.config node).quorum ≤ aliveVotes (mesh.reporters (k.config node) now) x := by
  have hcard : (insert node peers).card = peers.card + 1 :=
    Finset.card_insert_of_notMem fun h => Finset.notMem_erase node _ (hpeers h)
  have hview : ∀ reporter ∈ insert node peers, ∃ view,
      (mesh.reporters (k.config node) now).get? reporter = some view ∧ k.members ⊆ view := by
    intro reporter hmem
    rcases Finset.mem_insert.mp hmem with rfl | hpeer
    · have hself := hauth.get?_reporters_self now
      rw [k.config_nodeId reporter hnode] at hself
      refine ⟨_, hself, fun x hx => ?_⟩
      by_cases hx' : x = reporter
      · rw [hx']; exact Finset.mem_insert_self _ _
      · exact Finset.mem_insert_of_mem
          (List.mem_toFinset.mpr (hlinks x (Finset.mem_erase.mpr ⟨hx', hx⟩)))
    · obtain ⟨at_, hsee, hnow⟩ := hsees reporter hpeer
      obtain ⟨v, hv, -, hall, -⟩ := hsee.fresh hnode hnow
      refine ⟨_, get?_reporters_of_fresh hv, ?_⟩
      rw [k.membershipUniverse_eq hnode]
      exact Finset.subset_inter hall (Finset.Subset.refl _)
  constructor
  · have hkeys : insert node peers ⊆ (mesh.reporters (k.config node) now).keys.toFinset := by
      intro reporter hmem
      obtain ⟨view, hget, -⟩ := hview reporter hmem
      exact List.mem_toFinset.mpr (Dict.mem_keys.mpr ⟨view, hget⟩)
    have hsize := (Finset.card_le_card hkeys).trans (List.toFinset_card_le _)
    rw [hcard, Dict.size_keys] at hsize
    exact hmany.trans hsize
  · intro x hx
    refine hmany.trans (hcard ▸ Dict.card_le_countP fun reporter hmem => ?_)
    obtain ⟨view, hget, hall⟩ := hview reporter hmem
    exact ⟨view, hget, decide_eq_true (hall hx)⟩

end NodeMesh

/-! ## What a report says -/

/-- A `NODE_STATE` on its way between two nodes, from a sender linked to everyone. -/
def FullState (k : Cluster) (p : Packet) : Prop :=
  p.target ∈ k.members ∧ p.source ∈ k.members.erase p.target ∧
    ∃ incarnation sentAt, p.payload =
      (NodeMessage.nodeState p.source k.epoch incarnation (sorted k.members) sentAt).payload

theorem mapM_str? (l : List String) : (l.map Json.str).mapM Json.str? = some l := by
  induction l with
  | nil => rfl
  | cons text rest ih => simp [Json.str?, ih]

theorem FullState.recordState {p : Packet} (h : FullState k p) {wall monotonic : Seconds}
    (hrec : mesh.recordState m wall monotonic p.source p.payload = some mesh') :
    mesh' = { mesh with
      peerViews := mesh.peerViews.set p.source ⟨.int k.epoch, k.members, monotonic⟩ } := by
  obtain ⟨-, hsource, incarnation, sentAt, hpayload⟩ := h
  have hall : insert p.source (sorted k.members).toFinset = k.members := by
    ext x
    simp only [Finset.mem_insert, List.mem_toFinset, mem_sorted]
    exact ⟨fun hx => hx.elim (fun heq => heq ▸ Finset.mem_of_mem_erase hsource) id, .inr⟩
  rw [hpayload] at hrec
  simp only [NodeMesh.recordState, NodeMessage.payload, Json.get?, List.lookup_cons, textItems,
    Option.bind_some, Option.getD_some, mapM_str?, String.reduceBEq, hall] at hrec
  split at hrec
  · exact (Option.some.inj hrec).symm
  · cases hrec

/-- What a still run leaves a node to do. -/
inductive Still (k : Cluster) (w : Network) : String → MeshOp → Prop
  | tick (node : String) (hnode : node ∈ k.members) : Still k w node .membershipTick
  | state (p : Packet) (hp : p ∈ w.inFlight) : Still k w p.target (.nodeState p.source p.payload)

theorem still_of_operation {e : NetworkEvent} {op : MeshOp} (hkeeps : e.action.keepsLinks)
    (hallowed : w.allowed k e.action) (hop : w.operation e.action = some (node, op)) :
    Still k w node op := by
  cases haction : e.action with
  | linkUp node peer socket => rw [haction] at hkeeps; exact hkeeps.elim
  | linkDown node peer socket => rw [haction] at hkeeps; exact hkeeps.elim
  | tick n =>
      rw [haction] at hop hallowed
      cases hop
      exact .tick _ hallowed
  | deliver index =>
      rw [haction] at hop
      obtain ⟨p, hp, heq⟩ := Option.map_eq_some_iff.mp hop
      cases heq
      exact .state p (List.mem_of_getElem? hp)
  | lose index => rw [haction] at hop; cases hop

theorem Still.apply_eq {op : MeshOp} (h : Still k w node op) (hub : Hub) (clocks : Clocks) :
    op.apply m cr hub clocks mesh =
      ((op.reviews m clocks mesh).map fun before =>
        before.reconcileMembership m clocks.monotonic).getD mesh := by
  cases h with
  | tick => rfl
  | state p hp =>
      simp only [MeshOp.apply, MeshOp.reviews, handleNodeState]
      cases mesh.recordState m clocks.wall clocks.monotonic p.source p.payload <;> rfl

/-- The state a still step reviews: the node's own, with the report it took. -/
theorem Still.reviews_eq {op : MeshOp} (h : Still k w node op)
    (hpackets : ∀ p ∈ w.inFlight, FullState k p) {clocks : Clocks}
    (hrev : op.reviews m clocks mesh = some mesh') :
    mesh' = mesh ∨ ∃ peer, mesh' = { mesh with
      peerViews := mesh.peerViews.set peer ⟨.int k.epoch, k.members, clocks.monotonic⟩ } := by
  cases h with
  | tick => exact .inl (Option.some.inj hrev).symm
  | state p hp => exact .inr ⟨p.source, (hpackets p hp).recordState hrev⟩

theorem kept_reconcileMembership (m : MeshConfig) (now : Seconds) (mesh : NodeMesh) :
    (mesh.reconcileMembership m now).connections = mesh.connections ∧
      (mesh.reconcileMembership m now).peerViews = mesh.freshViews m now := by
  unfold NodeMesh.reconcileMembership
  simp only
  split <;> exact ⟨rfl, rfl⟩

theorem Still.trustedPeer {op : MeshOp} (h : Still k w node op)
    (hpackets : ∀ p ∈ w.inFlight, FullState k p) : MeshOp.trustedPeer (k.config node) op := by
  cases h with
  | tick => trivial
  | state p hp =>
      obtain ⟨htarget, hsource, -⟩ := hpackets p hp
      rw [MeshOp.trustedPeer, k.config_trusted _ htarget]
      exact hsource

theorem Still.mem {op : MeshOp} (h : Still k w node op)
    (hpackets : ∀ p ∈ w.inFlight, FullState k p) : node ∈ k.members := by
  cases h with
  | tick _ hnode => exact hnode
  | state p hp => exact (hpackets p hp).1

theorem Still.connections {op : MeshOp} (h : Still k w node op)
    (hpackets : ∀ p ∈ w.inFlight, FullState k p) (hub : Hub) (clocks : Clocks) :
    (op.apply m cr hub clocks mesh).connections = mesh.connections := by
  rw [h.apply_eq]
  cases hrev : op.reviews m clocks mesh with
  | none => rfl
  | some before =>
      rw [Option.map_some, Option.getD_some, (kept_reconcileMembership _ _ _).1]
      obtain rfl | ⟨peer, rfl⟩ := h.reviews_eq hpackets hrev <;> rfl

theorem stateMessage_of_linked (hnode : node ∈ k.members)
    (hlinks : ∀ peer, peer ∈ mesh.connections.keys ↔ peer ∈ k.members.erase node)
    (now : Seconds) :
    mesh.stateMessage (k.config node) now =
      .nodeState node k.epoch mesh.incarnation (sorted k.members) (pyInt now) := by
  have hall : insert node mesh.connections.keys.toFinset = k.members := by
    ext x
    rw [Finset.mem_insert, List.mem_toFinset, hlinks, Finset.mem_erase]
    by_cases hx : x = node
    · simp [hx, hnode]
    · simp [hx]
  rw [stateMessage, k.config_nodeId node hnode, k.config_epoch node hnode, hall]

theorem Still.fullState {op : MeshOp} (h : Still k w node op) (hnode : node ∈ k.members)
    (hlinked : Linked k w) {hub : Hub} {clocks : Clocks} {p : Packet}
    (hconn : mesh.connections = (w.nodes node).connections)
    (hp : p ∈ Network.statesSent node mesh
      (op.sends (k.config node) cr hub clocks (w.nodes node))) : FullState k p := by
  cases h with
  | state p hp' => cases hp
  | tick =>
      obtain ⟨send, hsend, hpacket⟩ := List.mem_filterMap.mp hp
      obtain ⟨link, -, rfl⟩ := List.mem_map.mp hsend
      rw [stateMessage_of_linked hnode (by
        rw [(kept_reconcileMembership _ _ _).1]; exact hlinked.mem_keys hnode)] at hpacket
      obtain ⟨entry, hentry, rfl⟩ := Option.map_eq_some_iff.mp hpacket
      have hkey : entry.1 ∈ mesh.connections.keys :=
        List.mem_map_of_mem (List.mem_of_find?_eq_some hentry)
      rw [hconn, hlinked.mem_keys hnode, Finset.mem_erase] at hkey
      exact ⟨hkey.2, Finset.mem_erase.mpr ⟨hkey.1.symm, hnode⟩, _, _, rfl⟩

/-! ## Over a still run -/

/-- What a report that was accepted still means: the node stands as its last
review left it, and that review, if it was in time for the report, had it or a
newer one from the same peer. -/
structure Current (k : Cluster) (w : Network) (report : Report) (r : Review) : Prop where
  review : w.reviews report.node = some r
  since : report.at_ ≤ r.now
  clock : r.now ≤ (w.clocks report.node).monotonic
  authenticated : Authenticated (k.config report.node) r.before
  links : ∀ peer ∈ k.members.erase report.node, peer ∈ r.before.connections.keys
  outcome : w.nodes report.node = r.before.reconcileMembership (k.config report.node) r.now
  seen : r.now ≤ report.at_ + (k.config report.node).staleAfter →
    SeesAll k r.before report.peer report.at_

structure Healing (k : Cluster) (cr : Crypto) (w : Network) (reports : List Report) : Prop where
  reachable : (networkSystem k cr).Reachable w
  linked : Linked k w
  packets : ∀ p ∈ w.inFlight, FullState k p
  current : ∀ report ∈ reports, report.node ∈ k.members ∧ ∃ r, Current k w report r

/-- What a step leaves at the node it happens at. -/
theorem after_at (k : Cluster) (cr : Crypto) {e : NetworkEvent} {op : MeshOp}
    (hop : w.operation e.action = some (node, op)) :
    (w.after k cr e).nodes node = op.apply (k.config node) cr e.hub e.now (w.nodes node) ∧
      (w.after k cr e).clocks node = e.now ∧
      (w.after k cr e).reviews node =
        ((op.reviews (k.config node) e.now (w.nodes node)).map
          (Review.mk e.now.monotonic)).or (w.reviews node) := by
  simp only [Network.after, hop, Function.update_self, true_and]
  cases op.reviews (k.config node) e.now (w.nodes node) <;> rfl

/-- A still step keeps what an earlier report means. -/
theorem Current.step {report : Report} {r : Review} (h : Current k w report r)
    (hnode : report.node ∈ k.members) (hinv : Healing k cr w reports) {e : NetworkEvent}
    {op : MeshOp} (hop : w.operation e.action = some (report.node, op))
    (hstill : Still k w report.node op) (hinorder : w.inOrder e) :
    ∃ r', Current k (w.after k cr e) report r' := by
  have hnow : (w.clocks report.node).before e.now := hinorder (report.node, op) hop
  obtain ⟨hw, hclock, hreviews⟩ := after_at k cr hop
  rw [hstill.apply_eq] at hw
  cases hrev : op.reviews (k.config report.node) e.now (w.nodes report.node) with
  | none =>
      rw [hrev] at hw hreviews
      refine ⟨r, hreviews.trans h.review, h.since, ?_, h.authenticated, h.links,
        hw.trans h.outcome, h.seen⟩
      rw [hclock]
      exact h.clock.trans hnow.2
  | some before =>
      rw [hrev] at hw hreviews
      have hlater := h.clock.trans hnow.2
      have hbefore := hstill.reviews_eq hinv.packets hrev
      refine ⟨_, hreviews, h.since.trans hlater, hclock ▸ le_refl _, ?_, fun peer hpeer => ?_,
        hw, fun hintime => ?_⟩
      · exact (nodeInvariant_of_reachable hinv.reachable _ hnode).authenticated.reviews
          (hstill.trustedPeer hinv.packets) hrev
      · have hlink := (hinv.linked.mem_keys hnode peer).mpr hpeer
        obtain rfl | ⟨other, rfl⟩ := hbefore <;> exact hlink
      -- The earlier review had the report, so it was fresh and its view was kept.
      · obtain ⟨v, hv⟩ := (h.seen (hlater.trans hintime)).fresh hnode (hlater.trans hintime)
        have hkept : SeesAll k (w.nodes report.node) report.peer report.at_ := by
          refine ⟨v, ?_, hv.2⟩
          rw [h.outcome, (kept_reconcileMembership _ _ _).2]
          exact hv.1
        obtain rfl | ⟨other, rfl⟩ := hbefore
        · exact hkept
        · exact hkept.set (h.since.trans hlater) other

theorem mem_inFlight_of_remaining {e : NetworkEvent} {p : Packet}
    (hp : p ∈ w.remaining e.action) : p ∈ w.inFlight := by
  unfold Network.remaining at hp
  split at hp
  · exact List.mem_of_mem_eraseIdx hp
  · exact List.mem_of_mem_eraseIdx hp
  · exact hp

/-- The report a step delivers is current. -/
theorem current_accepted {e : NetworkEvent} {report : Report}
    (hinv : Healing k cr w reports) (h : accepted k w e = some report) :
    report.node ∈ k.members ∧ ∃ r, Current k (w.after k cr e) report r := by
  unfold accepted at h
  split at h
  · next index haction =>
      obtain ⟨p, hp, hrec⟩ := Option.bind_eq_some_iff.mp h
      obtain ⟨before, hbefore, rfl⟩ := Option.map_eq_some_iff.mp hrec
      have hfull := hinv.packets p (List.mem_of_getElem? hp)
      have hop : w.operation e.action = some (p.target, .nodeState p.source p.payload) := by
        rw [haction, Network.operation, hp]
        rfl
      have hstill : Still k w p.target (.nodeState p.source p.payload) :=
        .state p (List.mem_of_getElem? hp)
      have hrev : (MeshOp.nodeState p.source p.payload).reviews (k.config p.target) e.now
          (w.nodes p.target) = some before := hbefore
      have heq := hfull.recordState hbefore
      obtain ⟨hw, hclock, hreviews⟩ := after_at k cr hop
      rw [hrev] at hreviews
      rw [hstill.apply_eq, hrev] at hw
      refine ⟨hfull.1, ⟨e.now.monotonic, before⟩, hreviews, le_refl _, hclock ▸ le_refl _, ?_,
        fun peer hpeer => ?_, hw, fun _ => ?_⟩
      · exact (nodeInvariant_of_reachable hinv.reachable _ hfull.1).authenticated.reviews
          (hstill.trustedPeer hinv.packets) hrev
      · have hlink := (hinv.linked.mem_keys hfull.1 peer).mpr hpeer
        rw [heq]
        exact hlink
      · rw [heq]
        exact ⟨_, Dict.get?_set_self _ _ _, by simp [epochMatches], Finset.Subset.refl _, le_refl _⟩
  · cases h

theorem Current.congr {report : Report} {r : Review} (h : Current k w report r)
    (hnodes : w'.nodes report.node = w.nodes report.node)
    (hclocks : w'.clocks report.node = w.clocks report.node)
    (hreviews : w'.reviews report.node = w.reviews report.node) : Current k w' report r where
  review := hreviews.trans h.review
  since := h.since
  clock := hclocks ▸ h.clock
  authenticated := h.authenticated
  links := h.links
  outcome := hnodes.trans h.outcome
  seen := h.seen

theorem Healing.step {e : NetworkEvent} (h : Healing k cr w reports)
    (hkeeps : e.action.keepsLinks) (hstep : (networkSystem k cr).step w e w') :
    Healing k cr w' (reports ++ (accepted k w e).toList) := by
  have hreach := h.reachable.next hstep
  obtain ⟨⟨hinorder, hallowed⟩, rfl⟩ := hstep
  have hcurrent (hold : ∀ report ∈ reports, ∃ r, Current k (w.after k cr e) report r) :
      ∀ report ∈ reports ++ (accepted k w e).toList,
        report.node ∈ k.members ∧ ∃ r, Current k (w.after k cr e) report r := by
    intro report hmem
    rcases List.mem_append.mp hmem with hmem | hmem
    · exact ⟨(h.current report hmem).1, hold report hmem⟩
    · exact current_accepted h (Option.mem_toList.mp hmem)
  cases hop : w.operation e.action with
  | none =>
      have hafter : w.after k cr e = { w with inFlight := w.remaining e.action } := by
        rw [Network.after, hop]
      refine ⟨hreach, ?_, fun p hp => ?_, hcurrent fun report hmem => ?_⟩
      · rw [hafter]; exact h.linked
      · rw [hafter] at hp
        exact h.packets p (mem_inFlight_of_remaining hp)
      · obtain ⟨-, r, hr⟩ := h.current report hmem
        rw [hafter]
        exact ⟨r, hr.congr rfl rfl rfl⟩
  | some x =>
      obtain ⟨node, op⟩ := x
      have hstill := still_of_operation hkeeps hallowed hop
      have hnode := hstill.mem h.packets
      have hconn : (op.apply (k.config node) cr e.hub e.now (w.nodes node)).connections =
          (w.nodes node).connections := hstill.connections h.packets e.hub e.now
      refine ⟨hreach, fun n hn => ?_, fun p hp => ?_, hcurrent fun report hmem => ?_⟩
      · simp only [Network.after, hop]
        by_cases heq : n = node
        · subst heq
          rw [Function.update_self, hconn]
          exact h.linked n hn
        · rw [Function.update_of_ne heq]
          exact h.linked n hn
      · simp only [Network.after, hop] at hp
        rcases List.mem_append.mp hp with hp | hp
        · exact h.packets p (mem_inFlight_of_remaining hp)
        · exact hstill.fullState hnode h.linked hconn hp
      · obtain ⟨hmember, r, hr⟩ := h.current report hmem
        by_cases heq : report.node = node
        · subst heq
          exact hr.step hmember h hop hstill hinorder
        · refine ⟨r, hr.congr ?_ ?_ ?_⟩
          · simp only [Network.after, hop, Function.update_of_ne heq]
          · simp only [Network.after, hop, Function.update_of_ne heq]
          · simp only [Network.after, hop, Function.update_of_ne heq]

theorem healing_of_reachable (hw : (networkSystem k cr).Reachable w) (hlinked : Linked k w)
    (hquiet : w.inFlight = []) {p : Network × List Report}
    (h : ((stillSystem k cr w).recorded (accepted k)).Reachable p) :
    Healing k cr p.1 p.2 := by
  refine h.invariant (P := fun p => Healing k cr p.1 p.2) ?_ ?_
  · rintro ⟨w', reports⟩ ⟨rfl, rfl⟩
    refine ⟨hw, hlinked, ?_, List.forall_mem_nil _⟩
    rw [hquiet]
    exact List.forall_mem_nil _
  · rintro ⟨w', reports⟩ e ⟨w'', reports'⟩ hinv ⟨⟨hkeeps, hstep⟩, rfl⟩
    exact Healing.step hinv hkeeps hstep

/-- Once every node is linked to every other and no report from before is left,
a node that keeps hearing from a majority has a quorum and counts everyone in,
whatever it had dropped before, for as long as no link changes. So all such
nodes give a route the same owners, those among the whole cluster. -/
theorem membership_heals (hw : (networkSystem k cr).Reachable w) (hlinked : Linked k w)
    (hquiet : w.inFlight = [])
    (hrun : ((stillSystem k cr w).recorded (accepted k)).Reachable (w', reports))
    (hnode : node ∈ k.members) (hhears : HearsMajority k w' reports node) :
    (w'.nodes node).hasQuorum = true ∧ (w'.nodes node).membershipNodes = k.members ∧
      ∀ routeTag, (w'.nodes node).ownersFor (k.config node) cr routeTag =
        (rankedBy (rankKey cr routeTag) (sorted k.members)).take
          (min (max 1 (k.config node).nodeMeshReplicaCount) k.members.card) := by
  have hinv := healing_of_reachable hw hlinked hquiet hrun
  obtain ⟨r, hr, peers, hpeers, hmany, hreports⟩ := hhears
  have hcur : ∀ peer ∈ peers, ∃ report, report.node = node ∧ report.peer = peer ∧
      r.now ≤ report.at_ + (k.config node).staleAfter ∧ Current k w' report r := by
    intro peer hpeer
    obtain ⟨report, hmem, rfl, hpeer', hintime⟩ := hreports peer hpeer
    obtain ⟨-, r', hr'⟩ := hinv.current report hmem
    have hsame : r' = r := Option.some.inj (hr'.review.symm.trans hr)
    exact ⟨report, rfl, hpeer', hintime, hsame ▸ hr'⟩
  -- A quorum of two or more nodes takes at least one report.
  have htwo := k.two_le
  have hquorum := k.quorum_eq hnode
  obtain ⟨first, hfirst⟩ : peers.Nonempty := Finset.card_pos.mp (by omega)
  obtain ⟨report, rfl, -, -, hcurrent⟩ := hcur first hfirst
  have hmajority : Decides (k.config report.node) r.now r.before ∧ ∀ x ∈ k.members,
      (k.config report.node).quorum ≤
        aliveVotes (r.before.reporters (k.config report.node) r.now) x := by
    refine mem_of_majority hnode hcurrent.authenticated hcurrent.links hpeers hmany ?_
    intro peer hpeer
    obtain ⟨report', hn, rfl, hintime, hc⟩ := hcur peer hpeer
    rw [← hn] at hintime ⊢
    exact ⟨report'.at_, hc.seen hintime, hintime⟩
  have hmembers : (w'.nodes report.node).membershipNodes = k.members := by
    have hsub := (nodeInvariant_of_reachable hinv.reachable _ hnode).members
    rw [k.membershipUniverse_eq hnode] at hsub
    refine Finset.Subset.antisymm hsub fun x hx => ?_
    rw [hcurrent.outcome, mem_reconcileMembership hmajority.1
      (by rw [k.membershipUniverse_eq hnode]; exact hx)]
    exact .inr (.inl (hmajority.2 x hx))
  refine ⟨?_, hmembers, fun routeTag => ?_⟩
  · rw [hcurrent.outcome]
    exact (hasQuorum_reconcileMembership _ _ _).mpr hmajority.1
  · simp only [ownersFor, hmembers, length_sorted]

/-- A minute after the split the link is back, but the reports the two nodes
sent over it are lost, and those from before it broke are too old to count. -/
def relinked : List NetworkEvent :=
  [event 60 (.linkUp "node-a" "node-b" 2), event 60 (.linkUp "node-b" "node-a" 2),
    event 60 (.lose 0), event 60 (.lose 0)]

/-- One round of reports. -/
def reported : List NetworkEvent :=
  [event 61 (.tick "node-a"), event 61 (.tick "node-b"), event 61 (.deliver 0),
    event 61 (.deliver 0)]

theorem reachable_still (es : List NetworkEvent)
    (h : System.Meets (fun w e => e.action.keepsLinks ∧ w.inOrder e ∧ w.allowed k e.action)
      (Network.after k cr) w es) :
    ((stillSystem k cr w).recorded (accepted k)).Reachable
      (es.foldl (Network.after k cr) w,
        System.notes (accepted k) (Network.after k cr) w es) := by
  have hstep : ∀ s e, e.action.keepsLinks ∧ s.inOrder e ∧ s.allowed k e.action →
      (stillSystem k cr w).step s e (s.after k cr e) := fun _ _ h => ⟨h.1, h.2, rfl⟩
  exact System.reachable_recorded_foldl hstep (.start ⟨rfl, rfl⟩) es h

theorem relinked_reported :
    ∃ (w w' : Network) (reports : List Report), (networkSystem pairCluster default).Reachable w ∧
      ((stillSystem pairCluster default w).recorded (accepted pairCluster)).Reachable
        (w', reports) ∧
      (Linked pairCluster w ∧ w.inFlight = [] ∧ (w.nodes "node-a").membershipNodes = {"node-a"}) ∧
      (w'.reviews "node-a").map Review.now = some 61 ∧ ⟨"node-a", "node-b", 61⟩ ∈ reports := by
  have h0 : (networkSystem pairCluster default).Reachable start :=
    .start ⟨fun _ => "i", fun _ => ⟨0, 0⟩, rfl⟩
  have hw := System.reachable_foldl h0 (joined ++ separated ++ relinked) (by decide +kernel)
  refine ⟨_, _, _, hw, reachable_still reported ?_, ?_, ?_⟩
  · decide +kernel
  · decide +kernel
  · decide +kernel

theorem membership_heals_relinked :
    ∃ w w' : Network, (w.nodes "node-a").membershipNodes = {"node-a"} ∧
      (stillSystem pairCluster default w).Reachable w' ∧
      (w'.nodes "node-a").membershipNodes = {"node-a", "node-b"} := by
  obtain ⟨w, w', reports, hw, hrun, ⟨hlinked, hquiet, halone⟩, hreview, hreport⟩ :=
    relinked_reported
  obtain ⟨r, hr, hnow⟩ := Option.map_eq_some_iff.mp hreview
  have hhears : HearsMajority pairCluster w' reports "node-a" := by
    refine ⟨r, hr, {"node-b"}, by decide, by decide, fun peer hpeer => ?_⟩
    refine ⟨_, hreport, rfl, (Finset.mem_singleton.mp hpeer).symm, ?_⟩
    rw [hnow]
    decide +kernel
  exact ⟨w, w', halone, hrun.of_recorded,
    (membership_heals hw hlinked hquiet hrun (by decide) hhears).2.1⟩

end Masterserver
