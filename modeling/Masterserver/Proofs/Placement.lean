import Masterserver.Lib.Ranking
import Masterserver.Proofs.Membership
import Masterserver.Proofs.Rebalancing

/-!
# Who owns a route

`owners_for` ranks the members for a route and takes the first of them, so all
there is to say is about a ranking of a set: it has every member once, it does
not depend on the order the set is walked in, and without one member it is the
same ranking with that one left out. The members it ranks are the local node
and some of the universe, in every run.
-/

namespace Masterserver.NodeMesh

open Lib

variable {m : MeshConfig} {cr : Crypto} {hub : Hub} {now : Seconds} {mesh mesh' : NodeMesh}

/-! ## The ranking -/

/-- All the members, the owners of the route first. -/
def ranking (cr : Crypto) (members : Finset String) (tag : String) : List String :=
  rankedBy (rankKey cr tag) (sorted members)

/-- `owners_for` where the set of members is walked in the order of `listing`. -/
def ownersListed (m : MeshConfig) (cr : Crypto) (listing : List String) (tag : String) :
    List String :=
  let nodes := listing.insertionSort (· ≤ ·)
  let count := min (max 1 m.nodeMeshReplicaCount) nodes.length
  (rankedBy (rankKey cr tag) nodes).take count

theorem ownersListed_eq {listing : List String} (hnodup : listing.Nodup)
    (h : ∀ node, node ∈ listing ↔ node ∈ mesh.membershipNodes) (tag : String) :
    ownersListed m cr listing tag = mesh.ownersFor m cr tag := by
  unfold ownersListed ownersFor
  rw [sorted_of_listing hnodup h]

theorem length_ranking (cr : Crypto) (members : Finset String) (tag : String) :
    (ranking cr members tag).length = members.card := by
  unfold ranking
  rw [length_rankedBy, length_sorted]

/-- The count is no more than there are members. -/
theorem ownersFor_eq_take (m : MeshConfig) (cr : Crypto) (mesh : NodeMesh) (tag : String) :
    mesh.ownersFor m cr tag =
      (ranking cr mesh.membershipNodes tag).take (max 1 m.nodeMeshReplicaCount) := by
  have hlength : (sorted mesh.membershipNodes).length =
      (ranking cr mesh.membershipNodes tag).length := by
    rw [length_ranking, length_sorted]
  unfold ownersFor
  simp only [hlength]
  show (ranking cr mesh.membershipNodes tag).take _ = _
  rw [← List.take_take, List.take_length]

theorem length_ownersFor (m : MeshConfig) (cr : Crypto) (mesh : NodeMesh) (tag : String) :
    (mesh.ownersFor m cr tag).length =
      min (max 1 m.nodeMeshReplicaCount) mesh.membershipNodes.card := by
  rw [ownersFor_eq_take, List.length_take, length_ranking]

theorem mem_ranking {members : Finset String} {tag node : String} :
    node ∈ ranking cr members tag ↔ node ∈ members := by
  unfold ranking
  rw [mem_rankedBy, mem_sorted]

theorem mem_of_mem_ownersFor {tag node : String} (h : node ∈ mesh.ownersFor m cr tag) :
    node ∈ mesh.membershipNodes := by
  rw [ownersFor_eq_take] at h
  exact mem_ranking.mp (List.mem_of_mem_take h)

/-- The ranking without a member. -/
theorem ranking_erase (cr : Crypto) (members : Finset String) (tag node : String) :
    ranking cr (members.erase node) tag = (ranking cr members tag).erase node := by
  unfold ranking
  rw [sorted_erase, erase_rankedBy _ (nodup_sorted members)]

/-- A member leaves: the owners of a route are the first of the ranking there
was, with that member left out. A route it did not own keeps its owners, and
an owner of a route that stays a member stays an owner. -/
theorem owners_after_leaving (m : MeshConfig) (cr : Crypto) (mesh mesh' : NodeMesh)
    (node tag : String) (hmember : node ∈ mesh.membershipNodes)
    (hleft : mesh'.membershipNodes = mesh.membershipNodes.erase node) :
    mesh'.ownersFor m cr tag = ((ranking cr mesh.membershipNodes tag).erase node).take
        (min (max 1 m.nodeMeshReplicaCount) (mesh.membershipNodes.card - 1)) ∧
      (node ∉ mesh.ownersFor m cr tag →
        mesh'.ownersFor m cr tag = mesh.ownersFor m cr tag) ∧
      ∀ owner ∈ mesh.ownersFor m cr tag, owner ≠ node → owner ∈ mesh'.ownersFor m cr tag := by
  have howners : mesh'.ownersFor m cr tag = ((ranking cr mesh.membershipNodes tag).erase node).take
      (max 1 m.nodeMeshReplicaCount) := by
    rw [ownersFor_eq_take, hleft, ranking_erase]
  have hlength : ((ranking cr mesh.membershipNodes tag).erase node).length =
      mesh.membershipNodes.card - 1 := by
    rw [List.length_erase_of_mem (mem_ranking.mpr hmember), length_ranking]
  refine ⟨?_, ?_, ?_⟩
  · rw [howners, ← hlength, ← List.take_take, List.take_length]
  · intro hnot
    rw [ownersFor_eq_take] at hnot
    rw [howners, ownersFor_eq_take, take_erase_of_notMem hnot]
  · intro owner howner hne
    rw [ownersFor_eq_take] at howner
    rw [howners]
    exact mem_take_erase howner hne

/-- The first owner of a route leaves. -/
theorem owners_after_leaving_trio :
    ∃ mesh mesh' : NodeMesh, ∃ owner, owner ∈ mesh.ownersFor .trio default "r" ∧
      mesh'.membershipNodes = mesh.membershipNodes.erase "node-b" ∧
        owner ∈ mesh'.ownersFor .trio default "r" := by
  let mesh : NodeMesh := .new .trio "i"
  let mesh' : NodeMesh := { mesh with membershipNodes := mesh.membershipNodes.erase "node-b" }
  have howner : "node-c" ∈ mesh.ownersFor .trio default "r" := by decide
  exact ⟨mesh, mesh', "node-c", howner, rfl, (owners_after_leaving .trio default mesh mesh' "node-b"
    "r" (by decide) rfl).2.2 "node-c" howner (by decide)⟩

/-! ## The members -/

/-- Every review keeps the local node. -/
theorem nodeId_mem_reconcileMembership (h : m.nodeId ∈ mesh.membershipNodes) (now : Seconds) :
    m.nodeId ∈ (mesh.reconcileMembership m now).membershipNodes := by
  by_cases hdec : Decides m now mesh
  · exact (mem_reconcileMembership hdec (Finset.mem_insert_self _ _)).mpr (.inl rfl)
  · rw [reconcileMembership_of_not_decides hdec]
    exact h

theorem nodeId_mem_of_reachable {s : MeshRun} (h : (meshSystem m cr).Reachable s) :
    m.nodeId ∈ s.mesh.membershipNodes := by
  refine h.invariant (P := fun s => m.nodeId ∈ s.mesh.membershipNodes) ?_ ?_
  · rintro s ⟨incarnation, hinit⟩
    rw [hinit]
    exact Finset.mem_insert_self _ _
  · rintro s e s' hs rfl
    simp only [MeshRun.after]
    cases hrev : e.op.reviews m e.now s.mesh with
    | some mesh' =>
        rw [(sameMembership_of_reviews cr e.hub hrev).membershipNodes]
        refine nodeId_mem_reconcileMembership ?_ _
        rw [membershipNodes_reviews hrev]
        exact hs
    | none =>
        by_cases hstop : e.op = .stop
        · rw [hstop]
          exact Finset.mem_insert_self _ _
        · rw [(sameMembership_of_not_reviews cr e.hub hrev hstop).membershipNodes]
          exact hs

/-- The owners of a route, as they are found by a node. -/
structure Owns (m : MeshConfig) (cr : Crypto) (mesh : NodeMesh) (tag : String)
    (owners : List String) : Prop where
  count : owners.length = min (max 1 m.nodeMeshReplicaCount) mesh.membershipNodes.card
  distinct : owners.Nodup
  members : ∀ node ∈ owners, node ∈ mesh.membershipNodes
  some_owner : owners ≠ []

theorem owns_ownersFor (cr : Crypto) (h : m.nodeId ∈ mesh.membershipNodes) (tag : String) :
    Owns m cr mesh tag (mesh.ownersFor m cr tag) := by
  have hcard : 0 < mesh.membershipNodes.card := Finset.card_pos.mpr ⟨_, h⟩
  refine ⟨length_ownersFor m cr mesh tag, nodup_ownersFor m cr mesh tag,
    fun _ => mem_of_mem_ownersFor, ?_⟩
  refine List.ne_nil_of_length_pos ?_
  rw [length_ownersFor]
  omega

/-- In every reachable state: the local node is a member and every member is of
the universe; a review without a quorum leaves the members alone; a route has
as many owners as are asked for or there are, distinct members and at least
one; and two nodes with the same members and the same replica count find the
same owners in the same order, in whatever order they walk their sets. -/
theorem ownership_invariant {s : MeshRun} (h : (meshSystem m cr).Reachable s) :
    m.nodeId ∈ s.mesh.membershipNodes ∧ s.mesh.membershipNodes ⊆ m.membershipUniverse ∧
      (∀ now, (s.mesh.reconcileMembership m now).hasQuorum = false →
        (s.mesh.reconcileMembership m now).membershipNodes = s.mesh.membershipNodes) ∧
      (∀ tag, Owns m cr s.mesh tag (s.mesh.ownersFor m cr tag)) ∧
      ∀ (m' : MeshConfig) (s' : MeshRun), (meshSystem m' cr).Reachable s' →
        s'.mesh.membershipNodes = s.mesh.membershipNodes →
        m'.nodeMeshReplicaCount = m.nodeMeshReplicaCount →
        ∀ (tag : String) (listing listing' : List String),
          listing.Nodup → (∀ node, node ∈ listing ↔ node ∈ s.mesh.membershipNodes) →
          listing'.Nodup → (∀ node, node ∈ listing' ↔ node ∈ s'.mesh.membershipNodes) →
          ownersListed m cr listing tag = s.mesh.ownersFor m cr tag ∧
            ownersListed m' cr listing' tag = ownersListed m cr listing tag := by
  have hself := nodeId_mem_of_reachable h
  refine ⟨hself, membershipNodes_subset h, ?_, owns_ownersFor cr hself, ?_⟩
  · intro now hquorum
    refine reconcileMembership_of_not_decides fun hdec => ?_
    rw [(hasQuorum_reconcileMembership m now s.mesh).mpr hdec] at hquorum
    cases hquorum
  · intro m' s' _ hmembers hreplicas tag listing listing' hnodup hlisting hnodup' hlisting'
    refine ⟨ownersListed_eq hnodup hlisting tag, ?_⟩
    rw [ownersListed_eq hnodup' hlisting', ownersListed_eq hnodup hlisting, ownersFor_eq_take,
      ownersFor_eq_take, hmembers, hreplicas]

/-- A node has left, and the two that remain are walked in either order. -/
theorem ownership_invariant_smaller :
    ∃ s : MeshRun, "node-b" ∉ s.mesh.membershipNodes ∧
      ownersListed .trio default ["particle-node-local", "node-c"] "r" =
        ownersListed .trio default ["node-c", "particle-node-local"] "r" := by
  let s := List.foldl (MeshRun.after .trio default) ⟨.new .trio "i", ⟨0, 0⟩⟩
    [at_ 0 (.linkUp "node-c" 2),
      at_ 1 (.nodeState "node-c" (stateOf "node-c" ["particle-node-local", "node-c"] 1)),
      at_ 12 .membershipTick]
  have h0 : ((meshSystem .trio default).restrict Orderly).Reachable ⟨.new .trio "i", ⟨0, 0⟩⟩ :=
    .start ⟨"i", rfl⟩
  have hs : ((meshSystem .trio default).restrict Orderly).Reachable s :=
    System.reachable_foldl h0 _ (by decide +kernel)
  have hmembers : s.mesh.membershipNodes = {"particle-node-local", "node-c"} := by decide +kernel
  have hlisting (node : String) (listing : List String)
      (h : listing.toFinset = {"particle-node-local", "node-c"}) :
      node ∈ listing ↔ node ∈ s.mesh.membershipNodes := by
    rw [hmembers, ← h, List.mem_toFinset]
  have hagree := (ownership_invariant hs.of_restrict).2.2.2.2 .trio s hs.of_restrict rfl rfl "r"
    ["node-c", "particle-node-local"] ["particle-node-local", "node-c"] (by decide)
    (fun node => hlisting node _ (by decide)) (by decide) fun node => hlisting node _ (by decide)
  refine ⟨s, ?_, hagree.2⟩
  rw [hmembers]
  decide

end Masterserver.NodeMesh
