import Masterserver.Proofs.Membership
import Masterserver.Proofs.Rebalancing
import Masterserver.Runs.Node

/-!
# Failover

The docstring of `_topology_changed` promises that every local lease is
registered again after a failover, and the function keeps the promise where it
is called: when a link comes up or goes down. The membership has two other
ways to change. A `NODE_STATE` and a tick of `_membership_loop` call
`_reconcile_membership` alone, and with any suspicion delay it is one of these
that finds the delay run out; the routes this node inherits then stay without
its leases until some link changes.

So the promise holds in the runs in which a review by message or by tick finds
nothing to change, and `failover_registers_leases` says so. Two things come to
it from the rest of the run: that the hub's two records of the attachments
agree, and that no peer got hold of a session of this node.
-/

namespace Masterserver

open Lib NodeMesh

variable {m : MeshConfig} {cr : Crypto}

/-! ## Sessions come in by their creation only -/

namespace Hub

variable {hub : Hub}

theorem contains_set_of_get? {sid : String} {sess sess' : Session}
    (hs : hub.sessions.get? sid = some sess) {s : String}
    (h : (hub.sessions.set sid sess').contains s = true) : hub.sessions.contains s = true := by
  rw [Dict.contains_set] at h
  by_cases hsid : s = sid
  · rw [hsid]
    exact Dict.contains_iff.mpr ⟨sess, hs⟩
  · simpa [hsid] using h

theorem contains_attachRoute (c : Config) (now : Seconds) (sid rid : String)
    (ttl : Option Seconds) (limit : Option Int) {s : String}
    (h : (hub.attachRoute c now sid rid ttl limit).1.sessions.contains s = true) :
    hub.sessions.contains s = true := by
  obtain ⟨e, he⟩ | ⟨sess, hs, -, heq⟩ := attachRoute_cases hub c now sid rid ttl limit
  · rwa [he] at h
  · rw [heq] at h
    exact contains_set_of_get? hs h

theorem Shrinks.contains {hub' : Hub} (hshrinks : hub.Shrinks hub') {sid : String}
    (h : hub'.sessions.contains sid = true) : hub.sessions.contains sid = true := by
  obtain ⟨sess', hs'⟩ := Dict.contains_iff.mp h
  obtain ⟨sess, hs, -⟩ := hshrinks.routes sid sess' hs'
  exact Dict.contains_iff.mpr ⟨sess, hs⟩

theorem contains_apply (c : Config) (now : Seconds) {op : HubOp}
    (hop : ∀ sid, op ≠ .createSession sid) {sid : String}
    (h : (op.apply c now hub).sessions.contains sid = true) :
    hub.sessions.contains sid = true := by
  by_cases hgrows : Grows op
  · cases op with
    | createSession s => exact absurd rfl (hop s)
    | attachRoute s rid ttl limit => exact contains_attachRoute c now s rid ttl limit h
    | _ => exact False.elim hgrows
  · exact (shrinks_apply hub c now hgrows).contains h

end Hub

/-! ## What holds of a node throughout -/

namespace NodeRun

variable {s : NodeRun} {e : NodeEvent}

structure Sound (m : MeshConfig) (s : NodeRun) : Prop where
  consistent : s.hub.Consistent
  issued : ∀ sid, s.hub.sessions.contains sid = true → sid ∈ s.issued
  kept : LocalSessionsKept m s.hub s.mesh

/-- The hub changes without a new session, the mesh by its own operations. -/
theorem Sound.of_contains (h : Sound m s) {s' : NodeRun} (hcons : s'.hub.Consistent)
    (hsub : ∀ sid, s'.hub.sessions.contains sid = true → s.hub.sessions.contains sid = true)
    (hissued : s.issued ⊆ s'.issued)
    (hmesh : LocalSessionsKept m s'.hub s.mesh → LocalSessionsKept m s'.hub s'.mesh) :
    Sound m s' where
  consistent := hcons
  issued sid hsid := hissued (h.issued sid (hsub sid hsid))
  kept := hmesh (h.kept.of_contains hsub)

theorem Sound.createSession (h : Sound m s) (now : Clocks) {sid : String}
    (hfresh : sid ∉ s.issued) (hunclaimed : s.mesh.sessionNodes.get? sid = none) :
    Sound m ⟨s.hub.createSession now.monotonic sid, s.mesh, now, insert sid s.issued⟩ := by
  have hget : s.hub.sessions.get? sid = none := by
    cases hs : s.hub.sessions.get? sid with
    | none => rfl
    | some sess => exact absurd (h.issued sid (Dict.contains_iff.mpr ⟨sess, hs⟩)) hfresh
  have hold : ∀ s', (s.hub.createSession now.monotonic sid).sessions.contains s' = true →
      s' = sid ∨ s.hub.sessions.contains s' = true := by
    intro s' hs'
    rw [Hub.createSession, Dict.contains_set] at hs'
    by_cases hsid : s' = sid
    · exact .inl hsid
    · exact .inr (by simpa [hsid] using hs')
  refine ⟨Hub.consistent_createSession h.consistent now.monotonic hget, fun s' hs' => ?_,
    fun s' hs' node hnode => ?_⟩
  · obtain rfl | hs' := hold s' hs'
    · exact Finset.mem_insert_self _ _
    · exact Finset.mem_insert_of_mem (h.issued s' hs')
  · obtain rfl | hs' := hold s' hs'
    · rw [hunclaimed] at hnode; cases hnode
    · exact h.kept s' hs' node hnode

theorem Sound.hub (h : Sound m s) (now : Clocks) {op : HubOp} (hallowed : s.allowed m (.hub op)) :
    Sound m (s.after m cr ⟨now, .hub op⟩) := by
  by_cases hcreate : ∃ sid, op = .createSession sid
  · obtain ⟨sid, rfl⟩ := hcreate
    exact h.createSession now hallowed.1 hallowed.2.1
  · have hop : ∀ sid, op ≠ .createSession sid := fun sid heq => hcreate ⟨sid, heq⟩
    refine h.of_contains ?_ (fun sid hsid => Hub.contains_apply m.toConfig now.monotonic hop hsid)
      ?_ id
    · exact Hub.consistent_apply h.consistent m.toConfig now.monotonic
        fun sid heq => absurd heq (hop sid)
    · simp only [after, issuedAfter]
      split
      · next sid heq => cases heq; exact absurd rfl (hop sid)
      · exact Finset.Subset.refl _

theorem Sound.identify (h : Sound m s) (now : Clocks) (sid identityKeyHex encryptionKeyHex : String) :
    Sound m (s.after m cr ⟨now, .identify sid identityKeyHex encryptionKeyHex⟩) := by
  simp only [after, hubAfter, meshAfter, issuedAfter]
  cases hset : s.hub.setV2Identity cr sid identityKeyHex encryptionKeyHex with
  | none => exact h.of_contains h.consistent (fun _ hs => hs) (Finset.Subset.refl _) id
  | some hub' =>
      obtain ⟨sess, sess', hs, hroutes, rfl⟩ := Hub.setV2Identity_eq_some hset
      exact h.of_contains (h.consistent.of_set rfl rfl hs hroutes)
        (fun _ => Hub.contains_set_of_get? hs) (Finset.Subset.refl _) id

theorem Sound.prove (h : Sound m s) (now : Clocks) (sid : String) :
    Sound m (s.after m cr ⟨now, .prove sid⟩) :=
  have hshrinks : s.hub.Shrinks (s.after m cr ⟨now, .prove sid⟩).hub :=
    Hub.shrinks_updateSession sid fun _ => Finset.Subset.refl _
  h.of_contains (Hub.consistent_updateSession h.consistent sid fun _ => rfl)
    (fun _ => hshrinks.contains) (Finset.Subset.refl _) id

theorem Sound.attachRoute (h : Sound m s) (now : Clocks) (sid routeTag : String) :
    Sound m (s.after m cr ⟨now, .attachRoute sid routeTag⟩) := by
  refine h.of_contains (Hub.consistent_attachRoute h.consistent _ _ _ _ _ _)
    (fun _ => Hub.contains_attachRoute _ _ _ _ _ _) (Finset.Subset.refl _) fun hkept => ?_
  simp only [after, hubAfter, meshAfter] at hkept ⊢
  split
  · exact hkept.apply cr now (.registerLocalRoute routeTag sid)
  · exact hkept

theorem Sound.detachRoute (h : Sound m s) (now : Clocks) (sid routeTag : String) :
    Sound m (s.after m cr ⟨now, .detachRoute sid routeTag⟩) :=
  h.of_contains (Hub.consistent_detachRoute h.consistent sid routeTag)
    (fun _ => (Hub.shrinks_detachRoute sid routeTag).contains) (Finset.Subset.refl _)
    fun hkept => hkept.apply cr now (.removeLocalRoute routeTag sid)

theorem sound_of_reachable (h : (nodeSystem m cr).Reachable s) : Sound m s := by
  refine h.invariant (P := Sound m) ?_ ?_
  · rintro s ⟨incarnation, clocks, rfl⟩
    exact ⟨Hub.consistent_new _ _, nofun, nofun⟩
  · rintro s ⟨now, op⟩ s' hs ⟨⟨-, hallowed⟩, rfl⟩
    cases op with
    | hub op => exact hs.hub now hallowed
    | identify sid identityKeyHex encryptionKeyHex => exact hs.identify now sid _ _
    | prove sid => exact hs.prove now sid
    | attachRoute sid routeTag => exact hs.attachRoute now sid routeTag
    | detachRoute sid routeTag => exact hs.detachRoute now sid routeTag
    | mesh op =>
        exact hs.of_contains hs.consistent (fun _ h => h) (Finset.Subset.refl _)
          fun hkept => hkept.apply cr now op

/-! ## Which steps fail over -/

/-- A review finds every node of the universe where it puts it. -/
def Settled (m : MeshConfig) (now : Seconds) (mesh : NodeMesh) : Prop :=
  Decides m now mesh →
    ∀ x ∈ m.membershipUniverse, x ∈ mesh.membershipNodes ↔ Retains m now mesh x

instance (m : MeshConfig) (now : Seconds) (mesh : NodeMesh) : Decidable (Settled m now mesh) :=
  have : DecidablePred (Retains m now mesh) := fun _ => inferInstanceAs (Decidable (_ ∨ _ ∨ _ ∧ _))
  inferInstanceAs (Decidable (_ ≤ _ → ∀ _ ∈ _, _ ∈ _ ↔ Retains m now mesh _))

theorem membershipNodes_of_settled {now : Seconds} {mesh : NodeMesh}
    (h : Settled m now mesh) :
    (mesh.reconcileMembership m now).membershipNodes = mesh.membershipNodes := by
  by_cases hdec : Decides m now mesh
  · ext x
    by_cases hx : x ∈ m.membershipUniverse
    · rw [mem_reconcileMembership hdec hx]
      exact (h hdec x hx).symm
    · exact mem_reconcileMembership_of_notMem hdec hx
  · exact reconcileMembership_of_not_decides hdec

def isLinkChange : MeshOp → Bool
  | .linkUp _ _ | .linkDown _ _ => true
  | _ => false

/-- At a change of a link the expiry of a new lease is one this node's own
check accepts, and any other review changes nothing. -/
def MembershipByLink (m : MeshConfig) (s : NodeRun) (e : NodeEvent) : Prop :=
  match e.op with
  | .mesh op => ∀ mesh' ∈ op.reviews m e.now s.mesh,
      if isLinkChange op then
        descriptorIsCurrent m e.now.wall (pyInt (e.now.wall + m.routeLeaseSeconds)) = true
      else Settled m e.now.monotonic mesh'
  | _ => True

instance (m : MeshConfig) (s : NodeRun) : ∀ e, Decidable (MembershipByLink m s e)
  | ⟨now, .mesh op⟩ => inferInstanceAs (Decidable (∀ mesh' ∈ op.reviews m now s.mesh,
      if isLinkChange op then
        descriptorIsCurrent m now.wall (pyInt (now.wall + m.routeLeaseSeconds)) = true
      else Settled m now.monotonic mesh'))
  | ⟨_, .hub _⟩ | ⟨_, .identify _ _ _⟩ | ⟨_, .prove _⟩ | ⟨_, .attachRoute _ _⟩
  | ⟨_, .detachRoute _ _⟩ => isTrue trivial

/-- A change of the membership in such a run is the rebalancing of a link. -/
theorem topologyChanged_of_membershipByLink {op : MeshOp} {now : Clocks}
    (hlink : MembershipByLink m s ⟨now, .mesh op⟩) (hallowed : s.allowed m (.mesh op))
    (hchanged : (op.apply m cr s.hub now s.mesh).membershipNodes ≠ s.mesh.membershipNodes) :
    descriptorIsCurrent m now.wall (pyInt (now.wall + m.routeLeaseSeconds)) = true ∧
      ∃ mesh', SameTables s.mesh mesh' ∧
        op.apply m cr s.hub now s.mesh =
          (mesh'.topologyChanged m cr s.hub now.wall now.monotonic).1 := by
  cases hrev : op.reviews m now s.mesh with
  | none =>
      have hstop : op ≠ .stop := by rintro rfl; exact hallowed
      exact absurd (sameMembership_of_not_reviews cr s.hub hrev hstop).membershipNodes hchanged
  | some mesh' =>
      have hcond := hlink mesh' hrev
      by_cases hop : isLinkChange op = true
      · rw [if_pos hop] at hcond
        refine ⟨hcond, mesh', ?_⟩
        cases op with
        | linkUp node socket =>
            simp only [MeshOp.reviews] at hrev
            simp only [MeshOp.apply, linkUp]
            have hsame := sameTables_claimConnection s.mesh node socket
            split at hrev
            · next hclaimed =>
                cases hrev
                rw [if_pos hclaimed]
                exact ⟨hsame, rfl⟩
            · cases hrev
        | linkDown node socket =>
            simp only [MeshOp.reviews] at hrev
            simp only [MeshOp.apply, linkDown, hrev]
            exact ⟨sameTables_releaseConnection hrev, trivial⟩
        | _ => exact absurd hop Bool.false_ne_true
      · rw [if_neg hop] at hcond
        rw [(sameMembership_of_reviews cr s.hub hrev).membershipNodes, membershipNodes_of_settled hcond,
          membershipNodes_reviews hrev] at hchanged
        exact absurd rfl hchanged

/-- In every run in which the membership changes at changes of links only, a
step that changes it leaves every unexpired lease of an owned route registered
and no route that is not owned. -/
theorem failover_registers_leases (m : MeshConfig) (cr : Crypto) :
    ∀ s e s', ((nodeSystem m cr).restrict (MembershipByLink m)).Reachable s →
      ((nodeSystem m cr).restrict (MembershipByLink m)).step s e s' →
      s'.mesh.membershipNodes ≠ s.mesh.membershipNodes →
        LeasesRegistered m cr s'.hub s'.clocks.monotonic s'.mesh ∧
          OnlyOwnedRoutes m cr s'.mesh := by
  rintro s ⟨now, op⟩ s' hreach ⟨hlink, ⟨-, hallowed⟩, rfl⟩ hchanged
  have hsound : Sound m s := sound_of_reachable hreach.of_restrict
  cases op with
  | hub op => exact absurd rfl hchanged
  | identify sid identityKeyHex encryptionKeyHex => exact absurd rfl hchanged
  | prove sid => exact absurd rfl hchanged
  | attachRoute sid routeTag =>
      simp only [after, meshAfter] at hchanged
      split at hchanged
      · exact absurd (Edits.sameMembership (E := fun _ => False)
          (edits_registerLocalRoute _ _ _)).membershipNodes hchanged
      · exact absurd rfl hchanged
  | detachRoute sid routeTag =>
      exact absurd (Edits.sameMembership (E := fun _ => False)
        (edits_replicate _ _ _ _)).membershipNodes hchanged
  | mesh op =>
      obtain ⟨hcurrent, mesh', hsame, heq⟩ :=
        topologyChanged_of_membershipByLink hlink hallowed hchanged
      simp only [after, hubAfter, meshAfter, heq]
      exact topologyChanged_registers (hsound.kept.frame hsame) hsound.consistent hcurrent

/-! ## Two runs

One owner for each route; the digests are those of the route below with each
node's name, and of the key. -/

def oneOwner (m : MeshConfig) (h : m.nodeId = "particle-node-local") : MeshConfig :=
  { m with
    toConfig := ⟨{ nodeMeshEnabled := true, nodeMeshReplicaCount := 1 }, by decide +kernel⟩
    local_notMem := by rw [← h]; exact m.local_notMem }

def routeTag : String := String.ofList (List.replicate 64 '1')

def key : String :=
  "046b17d1f2e12c4247f8bce6e563a440f277037d812deb33a0f4a13945d898c296" ++
    "4fe342e2fe1a7f9b8ee7eb4a7c0f9e162bce33576b315ececbb6406837bf51f5"

/-- The four digests the runs ask for, told apart by the last byte hashed. -/
def digests : Crypto where
  sha256 data :=
    match data.getLast?.map UInt8.toNat with
    | some 98 => 0xf816e070cb8d2ff39014e8f1dab3f7cbba5eade5ca80c974a072ca7d5a1370c1
    | some 99 => 0x39514bc38ed04d0ed0cebf184601c3e3c9edbd0bdc1cc2e718ddf14a37fc2015
    | some 108 => 0xa266b5e33fd2f62e7e64d6a3cf2f90b27d4ba2d8a0795d7e17140a14c41847ac
    | _ => 0x698bea63dc44a344663ff1429aea10842df27b6b991ef25866b2c6c02cdcc5be
  isPoint _ := true
  ecdsaVerify _ _ _ _ := true

/-- A client proves itself and attaches, at time `t`. -/
def attaching (t : Clocks) : List NodeEvent :=
  [⟨t, .hub (.createSession "s")⟩, ⟨t, .identify "s" key key⟩, ⟨t, .prove "s"⟩,
    ⟨t, .attachRoute "s" routeTag⟩]

def started (m : MeshConfig) : NodeRun := ⟨.new m.toConfig 0, .new m "i", ⟨0, 0⟩, ∅⟩

theorem reachable_run {es : List NodeEvent}
    (hmeets : System.Meets (fun s e => (s.clocks.before e.now ∧ s.allowed m e.op) ∧
      MembershipByLink m s e) (after m cr) (started m) es) :
    ((nodeSystem m cr).restrict (MembershipByLink m)).Reachable
      (es.foldl (after m cr) (started m)) := by
  refine System.Reachable.restrict_restrict (System.reachable_foldl (.start ?_) es hmeets)
  exact ⟨"i", ⟨0, 0⟩, rfl⟩

/-- Whether a node has a descriptor of its own for a session on a route. -/
def registered (m : MeshConfig) (mesh : NodeMesh) (tag sid : String) : Bool :=
  (mesh.routeRegistry.getD tag ∅).contains (m.nodeId, sid)

theorem registered_iff {mesh : NodeMesh} {tag sid : String} :
    registered m mesh tag sid = true ↔ HasLease m mesh tag sid := by
  unfold registered HasLease Dict.getD
  rw [Dict.contains_iff]
  cases mesh.routeRegistry.get? tag with
  | none => simp
  | some route => simp

/-- An unexpired lease of an owned route that is missing though there is room. -/
theorem not_leasesRegistered {s : NodeRun} {tag sid : String} {expiresAt : Seconds}
    (hsession : (s.hub.sessions.get? sid).any
      (fun sess => sess.proven && sess.protocolVersion == 2) = true)
    (hlease : (s.hub.routes.getD tag ∅).get? sid = some expiresAt)
    (hmissing : s.clocks.monotonic < expiresAt ∧ m.nodeId ∈ s.mesh.ownersFor m cr tag ∧
      s.mesh.routeDescriptorCount < m.nodeMeshMaxRouteDescriptors ∧
      registered m s.mesh tag sid = false) :
    ¬ LeasesRegistered m cr s.hub s.clocks.monotonic s.mesh := by
  intro hleases
  obtain ⟨hclock, howned, hroom, hunregistered⟩ := hmissing
  obtain ⟨sess, hsess, hproven⟩ := (Option.any_eq_true _ _).mp hsession
  rw [Bool.and_eq_true, beq_iff_eq] at hproven
  cases hroute : s.hub.routes.get? tag with
  | none => rw [Dict.getD, hroute] at hlease; cases hlease
  | some route =>
      rw [Dict.getD, hroute] at hlease
      have hhas := hleases sid sess tag route expiresAt hsess hproven.1 hproven.2 hroute hlease
        hclock howned hroom
      rw [registered_iff.mpr hhas] at hunregistered
      cases hunregistered

/-- `node-c` confirms the loss of `node-b` before the delay has run out, and is
lost itself when it has: the review of that link drops `node-b` and registers
the session here. -/
theorem failover_registers_leases_inherited :
    ∃ s : NodeRun, "node-b" ∉ s.mesh.membershipNodes ∧
      HasLease (oneOwner .trio rfl) s.mesh routeTag "s" ∧
      LeasesRegistered (oneOwner .trio rfl) digests s.hub s.clocks.monotonic s.mesh ∧
      OnlyOwnedRoutes (oneOwner .trio rfl) digests s.mesh := by
  let m := oneOwner .trio rfl
  let es : List NodeEvent :=
    [⟨⟨0, 0⟩, .mesh (.linkUp "node-b" 1)⟩, ⟨⟨0, 0⟩, .mesh (.linkUp "node-c" 2)⟩] ++
      attaching ⟨0, 0⟩ ++ [⟨⟨1, 1⟩, .mesh (.linkDown "node-b" 1)⟩,
        ⟨⟨2, 2⟩, .mesh (.nodeState "node-c" (stateOf "node-c" ["particle-node-local", "node-c"] 2))⟩]
  let lost : NodeEvent := ⟨⟨13, 13⟩, .mesh (.linkDown "node-c" 2)⟩
  have hrun : let s := es.foldl (after m digests) (started m)
      let s' := s.after m digests lost
      System.Meets (fun s e => (s.clocks.before e.now ∧ s.allowed m e.op) ∧
        MembershipByLink m s e) (after m digests) (started m) es ∧
      (MembershipByLink m s lost ∧ s.clocks.before lost.now) ∧
      s'.mesh.membershipNodes ≠ s.mesh.membershipNodes ∧
      "node-b" ∉ s'.mesh.membershipNodes ∧ registered m s'.mesh routeTag "s" = true := by
    decide +kernel
  have hs := reachable_run hrun.1
  have hstep := failover_registers_leases m digests _ lost _ hs
    ⟨hrun.2.1.1, ⟨hrun.2.1.2, trivial⟩, rfl⟩ hrun.2.2.1
  exact ⟨_, hrun.2.2.2.1, registered_iff.mp hrun.2.2.2.2, hstep.1, hstep.2⟩

/-- Two nodes are linked, and a client of this one attaches to a route that the
other owns. The link is lost, and the tick that finds the delay run out makes
this node the owner without its client's lease. -/
theorem tick_inherits_without_lease :
    ∃ s e s', (nodeSystem (oneOwner .pair rfl) digests).Reachable s ∧
      (nodeSystem (oneOwner .pair rfl) digests).step s e s' ∧
      s'.mesh.membershipNodes ≠ s.mesh.membershipNodes ∧
      ¬ LeasesRegistered (oneOwner .pair rfl) digests s'.hub s'.clocks.monotonic s'.mesh := by
  let m := oneOwner .pair rfl
  let es : List NodeEvent :=
    [⟨⟨0, 0⟩, .mesh (.linkUp "node-b" 1)⟩, ⟨⟨0, 0⟩, .mesh
        (.nodeState "node-b" (stateOf "node-b" ["node-b", "particle-node-local"] 0))⟩] ++
      attaching ⟨0, 0⟩ ++ [⟨⟨1, 1⟩, .mesh (.linkDown "node-b" 1)⟩]
  let tick : NodeEvent := ⟨⟨12, 12⟩, .mesh .membershipTick⟩
  let leased (sess : Session) : Bool := sess.proven && sess.protocolVersion == 2
  have hrun : let s := es.foldl (after m digests) (started m)
      let s' := s.after m digests tick
      System.Meets (fun s e => (s.clocks.before e.now ∧ s.allowed m e.op) ∧
        MembershipByLink m s e) (after m digests) (started m) es ∧
      s.clocks.before tick.now ∧ s'.mesh.membershipNodes ≠ s.mesh.membershipNodes ∧
      (s'.hub.sessions.get? "s").any leased = true ∧
      ((s'.hub.routes.getD routeTag ∅).get? "s") = some 90 ∧ s'.clocks.monotonic < 90 ∧
      m.nodeId ∈ s'.mesh.ownersFor m digests routeTag ∧
      s'.mesh.routeDescriptorCount < m.nodeMeshMaxRouteDescriptors ∧
      registered m s'.mesh routeTag "s" = false := by decide +kernel
  refine ⟨_, tick, _, (reachable_run hrun.1).of_restrict, ⟨⟨hrun.2.1, trivial⟩, rfl⟩,
    hrun.2.2.1, ?_⟩
  exact not_leasesRegistered hrun.2.2.2.1 hrun.2.2.2.2.1 hrun.2.2.2.2.2

end NodeRun

end Masterserver
