import Masterserver.Proofs.PeerFrame
import Masterserver.Proofs.Rebalancing

/-!
# Where local descriptors come from

An entry of the registry that names this node was put there by
`register_local_route`, from the descriptor the hub gave of the session then.
`Adds` says of a change of the mesh that every entry was there before or is
one of these; the operations on a peer's behalf add none, and only some calls
of a session's handlers and the rebalancing do.
-/

namespace Masterserver

open Lib

theorem Hub.peerDescriptor_sessionId {hub : Hub} {sid : String} {p : PeerDescriptor}
    (h : hub.peerDescriptor sid = some p) : p.sessionId = sid := by
  unfold Hub.peerDescriptor at h
  split at h
  · cases h
  · split at h
    · cases h
    · cases h
      rfl

namespace NodeMesh

variable {m : MeshConfig} {cr : Crypto} {hub : Hub} {now : Seconds}
variable {mesh mesh' mesh'' : NodeMesh} {new : String → Descriptor → Prop}
variable {tag sid : String}

/-- Every entry is an old one, or stands under its own key and, if it names
this node, is one of the new ones. -/
def Adds (m : MeshConfig) (new : String → Descriptor → Prop) (mesh mesh' : NodeMesh) : Prop :=
  ∀ tag key d, mesh'.entry tag key = some d →
    mesh.entry tag key = some d ∨ key = d.key ∧ (d.nodeId = m.nodeId → new tag d)

theorem Adds.of_eq (h : mesh'.routeRegistry = mesh.routeRegistry) : Adds m new mesh mesh' := by
  intro tag key d hd
  unfold entry at hd ⊢
  rw [h] at hd
  exact .inl hd

theorem Adds.refl : Adds m new mesh mesh := .of_eq rfl

theorem Adds.trans (h : Adds m new mesh mesh') (h' : Adds m new mesh' mesh'') :
    Adds m new mesh mesh'' := by
  intro tag key d hd
  obtain hd | hnew := h' tag key d hd
  · exact h tag key d hd
  · exact .inr hnew

theorem Adds.mono {new' : String → Descriptor → Prop} (h : Adds m new mesh mesh')
    (hnew : ∀ tag d, new tag d → new' tag d) : Adds m new' mesh mesh' := by
  intro tag key d hd
  obtain hd | ⟨hkey, hd⟩ := h tag key d hd
  · exact .inl hd
  · exact .inr ⟨hkey, fun hlocal => hnew tag d (hd hlocal)⟩

/-- Entries only go. -/
def Sheds (mesh mesh' : NodeMesh) : Prop :=
  ∀ tag key d, mesh'.entry tag key = some d → mesh.entry tag key = some d

theorem Sheds.adds (h : Sheds mesh mesh') : Adds m new mesh mesh' :=
  fun tag key d hd => .inl (h tag key d hd)

theorem Sheds.of_eq (h : mesh'.routeRegistry = mesh.routeRegistry) : Sheds mesh mesh' := by
  intro tag key d hd
  unfold entry at hd ⊢
  rw [h] at hd
  exact hd

theorem Sheds.refl : Sheds mesh mesh := .of_eq rfl

theorem Sheds.trans (h : Sheds mesh mesh') (h' : Sheds mesh' mesh'') : Sheds mesh mesh'' :=
  fun tag key d hd => h tag key d (h' tag key d hd)

/-! ## The operations -/

theorem sheds_pruneRoutes (mesh : NodeMesh) : Sheds mesh (mesh.pruneRoutes now) := by
  intro tag key d hd
  rw [entry_pruneRoutes] at hd
  exact (Option.filter_eq_some_iff.mp hd).1

theorem sheds_filterRoute (mesh : NodeMesh) (keep : Descriptor → Bool) (tag : String) :
    Sheds mesh (mesh.filterRoute keep tag) := by
  intro t key d hd
  rw [entry_filterRoute] at hd
  split at hd
  · exact (Option.filter_eq_some_iff.mp hd).1
  · exact hd

theorem sheds_dropRoute (mesh : NodeMesh) (tag : String) (count : Int) :
    Sheds mesh { mesh with
      routeRegistry := mesh.routeRegistry.erase tag
      routeDescriptorCount := count } := by
  intro t key d hd
  obtain ⟨route, hroute, hd⟩ := entry_eq_some.mp hd
  exact entry_eq_some.mpr ⟨route, (Dict.get?_erase_eq_some.mp hroute).2, hd⟩

theorem sheds_removeDescriptor (mesh : NodeMesh) (tag : String) (k : String × String) :
    Sheds mesh (mesh.removeDescriptor tag k) := by
  intro t key d hd
  rw [entry_removeDescriptor] at hd
  split at hd
  · cases hd
  · exact hd

/-- A route stored as it is. -/
theorem sheds_storeRoute (mesh : NodeMesh) {tag : String} {route : Dict (String × String) Descriptor}
    (h : mesh.routeRegistry.get? tag = some route) : Sheds mesh (mesh.storeRoute tag route) := by
  intro t key d hd
  rw [entry_storeRoute] at hd
  split at hd
  · next heq => rw [heq, entry_of_get? h, hd]
  · exact hd

/-- A descriptor replaces an older one, or there is room for one more. -/
def Fits (m : MeshConfig) (mesh : NodeMesh) (tag : String) (d : Descriptor) : Prop :=
  (mesh.routeRegistry.getD tag ∅).contains d.key = true ∨
    mesh.routeDescriptorCount < m.nodeMeshMaxRouteDescriptors

theorem adds_insertDescriptor (mesh : NodeMesh) {d : Descriptor}
    (h : d.nodeId = m.nodeId → Fits m mesh tag d → new tag d) :
    Adds m new mesh (mesh.insertDescriptor m tag d) := by
  by_cases hfits : Fits m mesh tag d
  · intro t key d' hd'
    obtain heq | ⟨rfl, rfl, heq⟩ := entry_insertDescriptor m mesh tag t d key
    · exact .inl (heq ▸ hd')
    · rw [heq] at hd'
      cases hd'
      exact .inr ⟨rfl, fun hlocal => h hlocal hfits⟩
  · unfold Fits at hfits
    rw [not_or, Bool.not_eq_true, not_lt] at hfits
    refine Sheds.adds fun t key d' hd' => ?_
    unfold insertDescriptor at hd'
    simp only [hfits.1, Bool.not_false, true_and, if_pos hfits.2] at hd'
    rw [entry_storeRoute] at hd'
    split at hd'
    · next heq =>
        subst heq
        exact hd'
    · exact hd'

/-- A peer's announcement names the peer. -/
theorem adds_handleRouteMessage (m : MeshConfig) (cr : Crypto) (hub : Hub) (now : Seconds)
    (mesh : NodeMesh) {n : String} (hn : n ≠ m.nodeId) (msgType : RouteMessageType)
    (payload : Payload) :
    Adds m new mesh (mesh.handleRouteMessage m cr hub now n msgType payload) := by
  unfold handleRouteMessage
  simp only
  split
  · split
    · next routeTag _ hok =>
        simp only [Bool.and_eq_true, beq_iff_eq] at hok
        obtain ⟨⟨-, hnode⟩, -⟩ := hok
        unfold applyRouteMessage
        split
        · split
          · exact (sheds_removeDescriptor mesh routeTag _).adds
          split
          · next d hd =>
              have hraw := d.raw_nodeId
              rw [Descriptor.raw_of_ofJson? hd, hnode] at hraw
              split
              · refine adds_insertDescriptor mesh fun hlocal _ => ?_
                exact absurd ((Option.some.inj hraw).trans hlocal) hn
              · exact .refl
          · exact .refl
          · split
            · exact .refl
            · next route hroute => exact (sheds_storeRoute mesh hroute).adds
        · exact .refl
    · exact .refl
  · exact .refl

/-- What `register_local_route` puts in for a session: an owner of the route
has room for the session's descriptor, and no other node has the session. -/
structure Enters (m : MeshConfig) (cr : Crypto) (hub : Hub) (now : Seconds) (mesh : NodeMesh)
    (tag sid : String) (d : Descriptor) : Prop where
  owner : m.nodeId ∈ mesh.ownersFor m cr tag
  descriptor : ∃ p, hub.peerDescriptor sid = some p ∧ d = leaseDescriptor m now p
  current : descriptorIsCurrent m now d.expiresAt = true
  owns : mesh.ownsSession m hub m.nodeId sid = true
  fits : Fits m mesh tag d

theorem adds_registerLocalRoute (m : MeshConfig) (cr : Crypto) (hub : Hub) (now : Seconds)
    (mesh : NodeMesh) (tag sid : String) :
    Adds m (fun t d => t = tag ∧ Enters m cr hub now mesh tag sid d)
      mesh (mesh.registerLocalRoute m cr hub now tag sid).1 := by
  rw [registerLocalRoute_fst]
  split
  · exact .refl
  · next p hp =>
      split
      · next hok =>
          obtain ⟨howner, hcurrent, howns⟩ := hok
          rw [Hub.peerDescriptor_sessionId hp] at howns
          exact adds_insertDescriptor mesh fun _ hfits =>
            ⟨rfl, howner, ⟨p, hp, rfl⟩, hcurrent, howns, hfits⟩
      · exact .refl

theorem removeLocalRoute_fst (m : MeshConfig) (cr : Crypto) (hub : Hub) (now : Seconds)
    (mesh : NodeMesh) (tag sid : String) :
    (mesh.removeLocalRoute m cr hub now tag sid).1 =
      if m.nodeId ∈ mesh.ownersFor m cr tag then mesh.removeDescriptor tag (m.nodeId, sid)
      else mesh := by
  unfold removeLocalRoute
  rw [replicate_fst]
  rfl

theorem sheds_removeLocalRoute (m : MeshConfig) (cr : Crypto) (hub : Hub) (now : Seconds)
    (mesh : NodeMesh) (tag sid : String) :
    Sheds mesh (mesh.removeLocalRoute m cr hub now tag sid).1 := by
  rw [removeLocalRoute_fst]
  split
  · exact sheds_removeDescriptor mesh tag _
  · exact .refl

/-- An owner of the route has no descriptor of the session left. -/
theorem entry_removeLocalRoute {mesh : NodeMesh} (h : m.nodeId ∈ mesh.ownersFor m cr tag)
    (hub : Hub) (now : Seconds) (sid : String) :
    (mesh.removeLocalRoute m cr hub now tag sid).1.entry tag (m.nodeId, sid) = none := by
  rw [removeLocalRoute_fst, if_pos h, entry_removeDescriptor, if_pos ⟨rfl, rfl⟩]

theorem routeRegistry_cacheDescriptor (mesh : NodeMesh) (descriptor : Json) :
    (mesh.cacheDescriptor m hub now descriptor).1.routeRegistry = mesh.routeRegistry := by
  unfold cacheDescriptor
  split
  · rfl
  split
  · rfl
  split
  · rfl
  · rfl

theorem routeRegistry_collect (acc : NodeMesh × Dict String Descriptor) (descriptor : Json) :
    (collect m hub now acc descriptor).1.routeRegistry = acc.1.routeRegistry := by
  have hcache : (acc.1.cacheDescriptor m hub now descriptor).1.routeRegistry =
      acc.1.routeRegistry := routeRegistry_cacheDescriptor acc.1 descriptor
  unfold collect
  simp only
  split
  · exact hcache
  · exact hcache

theorem routeRegistry_foldl_collect (acc : NodeMesh × Dict String Descriptor)
    (descriptors : List Json) :
    (descriptors.foldl (collect m hub now) acc).1.routeRegistry = acc.1.routeRegistry := by
  refine foldl_invariant (P := fun acc' : NodeMesh × Dict String Descriptor =>
    acc'.1.routeRegistry = acc.1.routeRegistry) descriptors rfl ?_
  intro acc' descriptor _ h
  exact (routeRegistry_collect acc' descriptor).trans h

theorem sheds_discover (m : MeshConfig) (cr : Crypto) (hub : Hub) (now : Seconds)
    (mesh : NodeMesh) (tag : String) : Sheds mesh (mesh.discover m cr hub now tag).1 :=
  (sheds_pruneRoutes mesh).trans (.of_eq (routeRegistry_foldl_collect _ _))

theorem sheds_discovered (m : MeshConfig) (hub : Hub) (now : Seconds) (mesh : NodeMesh)
    (found : Dict String Descriptor) (queries : List Query) :
    Sheds mesh (mesh.discovered m hub now found queries).1 :=
  .of_eq (routeRegistry_foldl_collect _ _)

theorem sheds_remoteDescriptor (mesh : NodeMesh) (target : String) :
    Sheds mesh (mesh.remoteDescriptor now target).1 := by
  rw [remoteDescriptor_fst]
  exact .of_eq (forgets_pruneCached mesh now target).routeRegistry

theorem sheds_forwardSignal (mesh : NodeMesh) (requestId tag target : String) (envelope : Json) :
    Sheds mesh (mesh.forwardSignal m requestId tag target envelope).1 := by
  unfold forwardSignal
  split
  · exact .refl
  split
  · exact .refl
  split
  · exact .refl
  split
  · exact .refl
  · exact .of_eq rfl

theorem sheds_dropStaleOwnership (m : MeshConfig) (cr : Crypto) (mesh : NodeMesh) :
    Sheds mesh (mesh.dropStaleOwnership m cr) := by
  unfold dropStaleOwnership
  refine foldl_invariant (P := fun mesh' : NodeMesh => Sheds mesh mesh') _ .refl ?_
  intro mesh' tag _ h
  refine h.trans ?_
  unfold dropStaleRoute
  split
  · exact sheds_filterRoute mesh' _ tag
  · exact sheds_dropRoute mesh' tag _

theorem sheds_reconcileMembership (mesh : NodeMesh) (monotonic : Seconds) :
    Sheds mesh (mesh.reconcileMembership m monotonic) :=
  .of_eq (sameTables_reconcileMembership mesh monotonic).routeRegistry

theorem sheds_handleNodeState (mesh : NodeMesh) (wall monotonic : Seconds) (n : String)
    (payload : Json) : Sheds mesh (mesh.handleNodeState m wall monotonic n payload) := by
  unfold handleNodeState
  split
  · next mesh' hrecord =>
      exact (Sheds.of_eq (sameTables_recordState hrecord).routeRegistry).trans
        (sheds_reconcileMembership mesh' monotonic)
  · exact .refl

/-- A peer takes its own descriptors back. -/
theorem sheds_handleRouteMessage (m : MeshConfig) (cr : Crypto) (hub : Hub) (now : Seconds)
    (mesh : NodeMesh) (n : String) (payload : Payload) :
    Sheds mesh (mesh.handleRouteMessage m cr hub now n .remove payload) := by
  unfold handleRouteMessage
  simp only
  split
  · split
    · unfold applyRouteMessage
      split
      · exact sheds_removeDescriptor mesh _ _
      · exact .refl
    · exact .refl
  · exact .refl

/-- Of the messages of a peer only an announcement brings an entry in. -/
theorem handleMessage_entries {cr : Crypto} {now : Clocks} {n : String} {link : Nat}
    {server : Server} {type : String} {payload : Payload} {step : Step}
    (h : server.handleMessage m cr now n link type payload = some step) :
    step.server.mesh =
        server.mesh.handleRouteMessage m cr server.hub now.wall n .register payload ∨
      Sheds server.mesh step.server.mesh := by
  unfold Server.handleMessage at h
  simp only at h
  split at h
  · cases h
    exact .inl rfl
  split at h
  · cases h
    exact .inr (sheds_handleRouteMessage m cr server.hub now.wall server.mesh n payload)
  split at h
  · cases h
    unfold handleRouteQuery
    split
    · split
      · exact .inr (sheds_pruneRoutes server.mesh)
      · exact .inr .refl
    · exact .inr .refl
  split at h
  · obtain ⟨mesh, hmesh, rfl⟩ := Option.map_eq_some_iff.mp h
    unfold handleRouteResult at hmesh
    split at hmesh
    · cases hmesh
    · cases hmesh
      exact .inr .refl
    · cases hmesh
      exact .inr (.of_eq rfl)
  split at h
  · unfold Server.handleSignalForward at h
    split at h
    · cases h
    simp only at h
    split at h
    · split at h
      · cases h
        exact .inr .refl
      · cases h
        exact .inr .refl
    · cases h
      exact .inr .refl
  split at h
  · obtain ⟨mesh, hmesh, rfl⟩ := Option.map_eq_some_iff.mp h
    unfold handleAck at hmesh
    split at hmesh
    · cases hmesh
    · cases hmesh
      exact .inr .refl
    · cases hmesh
      exact .inr (.of_eq rfl)
  split at h
  · cases h
    exact .inr (sheds_handleNodeState server.mesh now.wall now.monotonic n (.obj payload))
  · cases h
    exact .inr .refl

/-- A node that is not this one adds no local descriptor. -/
theorem adds_handleMessage {cr : Crypto} {now : Clocks} {n : String} {link : Nat}
    {server : Server} {type : String} {payload : Payload} {step : Step} (hn : n ≠ m.nodeId)
    (h : server.handleMessage m cr now n link type payload = some step) :
    Adds m new server.mesh step.server.mesh := by
  obtain hmesh | hsheds := handleMessage_entries h
  · rw [hmesh]
    exact adds_handleRouteMessage m cr server.hub now.wall server.mesh hn .register payload
  · exact hsheds.adds

end NodeMesh

end Masterserver
