import Masterserver.Runs.Mesh
import Mathlib.Logic.Relation

/-!
# What a mesh operation does to the descriptor tables

Four fields hold the descriptors: the registry with its hand-kept count, the
cache, and the map from sessions to nodes. `Edit` lists the handful of ways
any code changes them, with the checks made first. The operations on routes
are sequences of edits and leave links and membership alone; the operations on
links and membership leave the tables alone where they do not call the others.
So an invariant of the tables is proved edit by edit, and what an operation
does to the membership is what its one call of `reconcileMembership` does.

Only one edit loosens what the session map says: `expire`, which drops a
cached descriptor and the session's entry with it. Which sessions an operation
may do that to is therefore a parameter.
-/

namespace Masterserver.NodeMesh

open Lib Relation

variable {m : MeshConfig} {cr : Crypto} {hub : Hub} {now : Seconds} {mesh mesh' : NodeMesh}
  {E : String → Prop}

structure SameTables (mesh mesh' : NodeMesh) : Prop where
  routeRegistry : mesh'.routeRegistry = mesh.routeRegistry
  routeDescriptorCount : mesh'.routeDescriptorCount = mesh.routeDescriptorCount
  sessionNodes : mesh'.sessionNodes = mesh.sessionNodes
  descriptorCache : mesh'.descriptorCache = mesh.descriptorCache

/-- One change of the descriptor tables at wall-clock reading `now`; `E` are
the sessions whose cached descriptor may be dropped. -/
inductive Edit (m : MeshConfig) (hub : Hub) (now : Seconds) (E : String → Prop)
    (mesh : NodeMesh) : NodeMesh → Prop
  | insert (routeTag : String) (d : Descriptor) :
      descriptorIsCurrent m now d.expiresAt = true →
      mesh.ownsSession m hub d.nodeId d.sessionId = true →
      Edit m hub now E mesh (mesh.insertDescriptor m routeTag d)
  | remove (routeTag : String) (key : String × String) :
      Edit m hub now E mesh (mesh.removeDescriptor routeTag key)
  | tidy (routeTag : String) {route : Dict (String × String) Descriptor} :
      mesh.routeRegistry.get? routeTag = some route →
      Edit m hub now E mesh (mesh.storeRoute routeTag route)
  | filter (keep : Descriptor → Bool) (routeTag : String) :
      Edit m hub now E mesh (mesh.filterRoute keep routeTag)
  | dropRoute (routeTag : String) :
      Edit m hub now E mesh { mesh with
        routeRegistry := mesh.routeRegistry.erase routeTag
        routeDescriptorCount :=
          mesh.routeDescriptorCount - (mesh.routeRegistry.getD routeTag ∅).size }
  | cache (d : Descriptor) :
      descriptorIsCurrent m now d.expiresAt = true →
      mesh.ownsSession m hub d.nodeId d.sessionId = true →
      (mesh.descriptorCache.contains d.sessionId = true ∨
        mesh.descriptorCache.size < m.nodeMeshMaxRouteDescriptors) →
      Edit m hub now E mesh { mesh with
        sessionNodes := mesh.sessionNodes.set d.sessionId d.nodeId
        descriptorCache := mesh.descriptorCache.set d.sessionId d }
  | expire (sessionId : String) : E sessionId →
      Edit m hub now E mesh (mesh.pruneCached now sessionId)

/-- Any number of edits at one instant. -/
abbrev Edits (m : MeshConfig) (hub : Hub) (now : Seconds) (E : String → Prop) :
    NodeMesh → NodeMesh → Prop := ReflTransGen (Edit m hub now E)

/-- An edit, a step that leaves the tables alone, or the reset of `stop`. -/
inductive Change (m : MeshConfig) (hub : Hub) (now : Seconds) (E : String → Prop)
    (mesh : NodeMesh) : NodeMesh → Prop
  | edit {mesh' : NodeMesh} : Edit m hub now E mesh mesh' → Change m hub now E mesh mesh'
  | frame {mesh' : NodeMesh} : SameTables mesh mesh' → Change m hub now E mesh mesh'
  | clear : Change m hub now E mesh (mesh.stop m)

abbrev Changes (m : MeshConfig) (hub : Hub) (now : Seconds) (E : String → Prop) :
    NodeMesh → NodeMesh → Prop := ReflTransGen (Change m hub now E)

theorem Edits.changes (h : Edits m hub now E mesh mesh') : Changes m hub now E mesh mesh' :=
  ReflTransGen.mono (fun _ _ => Change.edit) _ _ h

/-- An invariant of the tables is checked change by change. -/
theorem Changes.invariant {P : NodeMesh → Prop} (h : Changes m hub now E mesh mesh')
    (hchange : ∀ mesh mesh', P mesh → Change m hub now E mesh mesh' → P mesh') (h0 : P mesh) :
    P mesh' := by
  induction h with
  | refl => exact h0
  | tail _ he ih => exact hchange _ _ ih he

/-- A loop whose every round is a sequence of edits. -/
theorem edits_foldl {α : Type} {f : NodeMesh → α → NodeMesh} (l : List α) (mesh : NodeMesh)
    (h : ∀ mesh a, Edits m hub now E mesh (f mesh a)) : Edits m hub now E mesh (l.foldl f mesh) :=
  foldl_invariant (P := fun mesh' => Edits m hub now E mesh mesh') l .refl
    fun _ a _ hb => hb.trans (h _ a)

/-! ## Operation by operation -/

theorem edits_applyRouteMessage (mesh : NodeMesh) (msgType : RouteMessageType)
    (routeTag : String) (descriptor : Json) :
    Edits m hub now E mesh (mesh.applyRouteMessage m hub now msgType routeTag descriptor) := by
  unfold applyRouteMessage
  split
  · next sid nid _ _ =>
      split
      · exact .single (.remove routeTag (nid, sid))
      · split
        · split
          · next hok =>
              rw [Bool.and_eq_true] at hok
              exact .single (.insert routeTag _ hok.1 hok.2)
          · exact .refl
        · exact .refl
        · split
          · exact .refl
          · next route hroute => exact .single (.tidy routeTag hroute)
  · exact .refl

theorem edits_cacheDescriptor (mesh : NodeMesh) (descriptor : Json) :
    Edits m hub now E mesh (mesh.cacheDescriptor m hub now descriptor).1 := by
  unfold cacheDescriptor
  split
  · exact .refl
  · next d _ =>
      split
      · exact .refl
      · next hok =>
          simp only [Bool.or_eq_true, Bool.not_eq_true', not_or, Bool.not_eq_false] at hok
          split
          · exact .refl
          · next hroom =>
              refine .single (.cache d hok.1 hok.2 ?_)
              simp only [Bool.not_eq_true', not_and_or, Bool.not_eq_false, not_le] at hroom
              exact hroom

theorem edits_pruneRoutes (mesh : NodeMesh) (hE : ∀ sid, E sid) :
    Edits m hub now E mesh (mesh.pruneRoutes now) :=
  (edits_foldl _ mesh fun _ sid => .single (.expire sid (hE sid))).trans
    (edits_foldl _ _ fun _ tag => .single (.filter _ tag))

theorem remoteDescriptor_fst (mesh : NodeMesh) (target : String) :
    (mesh.remoteDescriptor now target).1 = mesh.pruneCached now target := by
  unfold remoteDescriptor pruneCached
  cases mesh.descriptorCache.get? target with
  | none => rfl
  | some d =>
      by_cases h : pyInt now < d.expiresAt
      · simp only [if_pos h, if_neg (not_le.mpr h)]
      · simp only [if_neg h, if_pos (not_lt.mp h)]

theorem edits_remoteDescriptor (mesh : NodeMesh) {target : String} (hE : E target) :
    Edits m hub now E mesh (mesh.remoteDescriptor now target).1 := by
  rw [remoteDescriptor_fst]
  exact .single (.expire target hE)

theorem edits_replicate (mesh : NodeMesh) (msgType : RouteMessageType) (routeTag : String)
    (descriptor : Json) :
    Edits m hub now E mesh (mesh.replicate m cr hub now msgType routeTag descriptor).1 := by
  unfold replicate
  refine foldl_invariant (P := fun acc : NodeMesh × List Send => Edits m hub now E mesh acc.1)
    _ .refl ?_
  intro acc owner _ hacc
  unfold replicateTo
  split
  · exact hacc.trans (edits_applyRouteMessage _ _ _ _)
  · split
    · exact hacc
    · exact hacc

theorem edits_registerLocalRoute (mesh : NodeMesh) (routeTag sid : String) :
    Edits m hub now E mesh (mesh.registerLocalRoute m cr hub now routeTag sid).1 := by
  unfold registerLocalRoute
  split
  · exact .refl
  · exact edits_replicate _ _ _ _

theorem edits_registerLocalLeases (mesh : NodeMesh) :
    Edits m hub now E mesh (mesh.registerLocalLeases m cr hub now).1 := by
  unfold registerLocalLeases
  refine foldl_invariant (P := fun acc : NodeMesh × List Send => Edits m hub now E mesh acc.1)
    _ .refl ?_
  intro acc lease _ hacc
  exact hacc.trans (edits_registerLocalRoute _ _ _)

theorem sameTables_reconcileMembership (mesh : NodeMesh) (monotonic : Seconds) :
    SameTables mesh (mesh.reconcileMembership m monotonic) := by
  unfold reconcileMembership
  simp only
  split <;> exact ⟨rfl, rfl, rfl, rfl⟩

theorem edits_dropStaleOwnership (mesh : NodeMesh) :
    Edits m hub now E mesh (mesh.dropStaleOwnership m cr) := by
  unfold dropStaleOwnership
  refine edits_foldl _ mesh fun mesh tag => ?_
  unfold dropStaleRoute
  split
  · exact .single (.filter _ tag)
  · exact .single (.dropRoute tag)

theorem changes_topologyChanged (mesh : NodeMesh) (monotonic : Seconds) :
    Changes m hub now E mesh (mesh.topologyChanged m cr hub now monotonic).1 := by
  have hreconcile : Changes m hub now E mesh (mesh.reconcileMembership m monotonic) :=
    .single (.frame (sameTables_reconcileMembership mesh monotonic))
  exact (hreconcile.trans (edits_dropStaleOwnership _).changes).trans
    (edits_registerLocalLeases _).changes

theorem claimConnection_cases (mesh : NodeMesh) (nodeId : String) (socket : Nat) :
    mesh.claimConnection nodeId socket = (mesh, false) ∨
      mesh.claimConnection nodeId socket =
        ({ mesh with connections := mesh.connections.set nodeId socket }, true) := by
  unfold claimConnection
  split
  · split
    · exact .inl rfl
    · exact .inr rfl
  · exact .inr rfl

theorem sameTables_claimConnection (mesh : NodeMesh) (nodeId : String) (socket : Nat) :
    SameTables mesh (mesh.claimConnection nodeId socket).1 := by
  obtain heq | heq := claimConnection_cases mesh nodeId socket
  · rw [heq]; exact ⟨rfl, rfl, rfl, rfl⟩
  · rw [heq]; exact ⟨rfl, rfl, rfl, rfl⟩

theorem changes_linkUp (mesh : NodeMesh) (monotonic : Seconds) (nodeId : String)
    (socket : Nat) :
    Changes m hub now E mesh (mesh.linkUp m cr hub now monotonic nodeId socket).1 := by
  have hclaim := sameTables_claimConnection mesh nodeId socket
  unfold linkUp
  simp only
  split
  · exact (ReflTransGen.single (.frame hclaim)).trans (changes_topologyChanged _ monotonic)
  · exact .single (.frame hclaim)

theorem sameTables_releaseConnection {monotonic : Seconds} {nodeId : String} {socket : Nat}
    (h : mesh.releaseConnection monotonic nodeId socket = some mesh') :
    SameTables mesh mesh' := by
  unfold releaseConnection at h
  split at h
  · cases h; exact ⟨rfl, rfl, rfl, rfl⟩
  · cases h

theorem changes_linkDown (mesh : NodeMesh) (monotonic : Seconds) (nodeId : String)
    (socket : Nat) :
    Changes m hub now E mesh (mesh.linkDown m cr hub now monotonic nodeId socket).1 := by
  unfold linkDown
  split
  · next hrel =>
      exact (ReflTransGen.single (.frame (sameTables_releaseConnection hrel))).trans
        (changes_topologyChanged _ monotonic)
  · exact .refl

theorem sameTables_recordState {wall monotonic : Seconds} {nodeId : String} {payload : Json}
    (h : mesh.recordState m wall monotonic nodeId payload = some mesh') :
    SameTables mesh mesh' := by
  unfold recordState at h
  simp only at h
  split at h
  · cases h
  · split at h
    · cases h; exact ⟨rfl, rfl, rfl, rfl⟩
    · cases h

theorem changes_handleNodeState (mesh : NodeMesh) (wall monotonic : Seconds)
    (nodeId : String) (payload : Json) :
    Changes m hub now E mesh (mesh.handleNodeState m wall monotonic nodeId payload) := by
  unfold handleNodeState
  split
  · next hrec =>
      exact (ReflTransGen.single (.frame (sameTables_recordState hrec))).tail
        (.frame (sameTables_reconcileMembership _ monotonic))
  · exact .refl

/-- Every operation is a sequence of changes. -/
theorem changes_apply (mesh : NodeMesh) (clocks : Clocks) {op : MeshOp}
    (hE : ∀ sid, op.expires sid → E sid) :
    Changes m hub clocks.wall E mesh (op.apply m cr hub clocks mesh) := by
  cases op with
  | applyRouteMessage msgType tag descriptor => exact (edits_applyRouteMessage _ _ _ _).changes
  | cacheDescriptor descriptor => exact (edits_cacheDescriptor _ _).changes
  | pruneRoutes => exact (edits_pruneRoutes _ fun sid => hE sid trivial).changes
  | remoteDescriptor target => exact (edits_remoteDescriptor _ (hE target rfl)).changes
  | registerLocalRoute tag sid => exact (edits_registerLocalRoute _ _ _).changes
  | removeLocalRoute tag sid => exact (edits_replicate _ _ _ _).changes
  | reconcileMembership => exact .single (.frame (sameTables_reconcileMembership _ _))
  | dropStaleOwnership => exact (edits_dropStaleOwnership _).changes
  | topologyChanged => exact changes_topologyChanged _ _
  | linkUp node socket => exact changes_linkUp _ _ _ _
  | linkDown node socket => exact changes_linkDown _ _ _ _
  | nodeState node payload => exact changes_handleNodeState _ _ _ _ _
  | membershipTick => exact .single (.frame (sameTables_reconcileMembership _ _))
  | stop => exact .single .clear

/-! ## Links and membership -/

/-- Everything an operation on routes leaves alone. -/
structure SameMembership (mesh mesh' : NodeMesh) : Prop where
  connections : mesh'.connections = mesh.connections
  membershipNodes : mesh'.membershipNodes = mesh.membershipNodes
  peerViews : mesh'.peerViews = mesh.peerViews
  suspectedSince : mesh'.suspectedSince = mesh.suspectedSince
  incarnation : mesh'.incarnation = mesh.incarnation
  hasQuorum : mesh'.hasQuorum = mesh.hasQuorum

theorem SameMembership.refl (mesh : NodeMesh) : SameMembership mesh mesh :=
  ⟨rfl, rfl, rfl, rfl, rfl, rfl⟩

theorem SameMembership.trans {mesh'' : NodeMesh} (h : SameMembership mesh mesh')
    (h' : SameMembership mesh' mesh'') : SameMembership mesh mesh'' :=
  ⟨h'.1.trans h.1, h'.2.trans h.2, h'.3.trans h.3, h'.4.trans h.4, h'.5.trans h.5,
    h'.6.trans h.6⟩

/-- Nothing but the descriptor tables may differ. -/
def OnlyTables (mesh mesh' : NodeMesh) : Prop :=
  ∃ registry count sessions cache, mesh' = { mesh with
    routeRegistry := registry
    routeDescriptorCount := count
    sessionNodes := sessions
    descriptorCache := cache }

theorem OnlyTables.refl (mesh : NodeMesh) : OnlyTables mesh mesh := ⟨_, _, _, _, rfl⟩

theorem OnlyTables.trans {mesh'' : NodeMesh} (h : OnlyTables mesh mesh')
    (h' : OnlyTables mesh' mesh'') : OnlyTables mesh mesh'' := by
  obtain ⟨_, _, _, _, rfl⟩ := h
  obtain ⟨_, _, _, _, rfl⟩ := h'
  exact ⟨_, _, _, _, rfl⟩

theorem Edit.onlyTables (h : Edit m hub now E mesh mesh') : OnlyTables mesh mesh' := by
  cases h with
  | insert tag d _ _ =>
      unfold insertDescriptor
      simp only
      split <;> exact ⟨_, _, _, _, rfl⟩
  | remove tag key => unfold removeDescriptor; split <;> exact ⟨_, _, _, _, rfl⟩
  | tidy tag _ => exact ⟨_, _, _, _, rfl⟩
  | filter keep tag => unfold filterRoute; split <;> exact ⟨_, _, _, _, rfl⟩
  | dropRoute tag => exact ⟨_, _, _, _, rfl⟩
  | cache d _ _ _ => exact ⟨_, _, _, _, rfl⟩
  | expire sid _ =>
      unfold pruneCached
      split
      · exact .refl mesh
      · split <;> exact ⟨_, _, _, _, rfl⟩

theorem Edits.onlyTables (h : Edits m hub now E mesh mesh') : OnlyTables mesh mesh' := by
  induction h with
  | refl => exact .refl mesh
  | tail _ he ih => exact ih.trans he.onlyTables

theorem Edits.sameMembership (h : Edits m hub now E mesh mesh') : SameMembership mesh mesh' := by
  obtain ⟨_, _, _, _, rfl⟩ := h.onlyTables
  exact ⟨rfl, rfl, rfl, rfl, rfl, rfl⟩

/-- Rebalancing changes the membership by its first call only. -/
theorem sameMembership_topologyChanged (mesh : NodeMesh) (wall monotonic : Seconds) :
    SameMembership (mesh.reconcileMembership m monotonic)
      (mesh.topologyChanged m cr hub wall monotonic).1 := by
  have hdrop : Edits m hub wall (fun _ => False) (mesh.reconcileMembership m monotonic)
      ((mesh.reconcileMembership m monotonic).dropStaleOwnership m cr) :=
    edits_dropStaleOwnership _
  exact Edits.sameMembership (hdrop.trans (edits_registerLocalLeases _))

end Masterserver.NodeMesh
