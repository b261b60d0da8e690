import Masterserver.Proofs.Endpoints
import Masterserver.Proofs.SingleOwner

/-!
# What a peer's message can change

Every entry of the registry stands under the node that announced it. The
lemmas here say of each operation what it does to a single entry, so that the
frame of `_handle_message` is read off: a peer changes what stands under its
own name, and what it makes the node prune had expired.
-/

namespace Masterserver

open Lib

namespace NodeMesh

variable {m : MeshConfig} {cr : Crypto} {hub : Hub} {now : Seconds} {mesh mesh' : NodeMesh}
variable {tag t n : String} {key : String × String}

theorem Descriptor.raw_of_ofJson? {raw : Json} {d : Descriptor}
    (h : Descriptor.ofJson? raw = some d) : d.raw = raw := by
  unfold Descriptor.ofJson? at h
  split at h
  · cases h
    rfl
  · cases h

/-- What the registry has under a node and a session on a route. -/
def entry (mesh : NodeMesh) (tag : String) (key : String × String) : Option Descriptor :=
  (mesh.routeRegistry.getD tag ∅).get? key

theorem entry_eq_some {d : Descriptor} :
    mesh.entry tag key = some d ↔
      ∃ route, mesh.routeRegistry.get? tag = some route ∧ route.get? key = some d := by
  unfold entry Dict.getD
  cases mesh.routeRegistry.get? tag with
  | none => simp
  | some route => simp

theorem entry_storeRoute (mesh : NodeMesh) (tag : String) (route : Dict (String × String) Descriptor)
    (t : String) (key : String × String) :
    (mesh.storeRoute tag route).entry t key =
      if t = tag then route.get? key else mesh.entry t key := by
  unfold entry storeRoute Dict.getD
  by_cases hsize : route.size = 0
  · have hempty := Dict.size_eq_zero.mp hsize
    subst hempty
    by_cases h : t = tag <;> simp [h, Dict.get?_erase]
  · by_cases h : t = tag <;> simp [hsize, h, Dict.get?_set]

theorem entry_of_get? {route : Dict (String × String) Descriptor}
    (h : mesh.routeRegistry.get? tag = some route) (key : String × String) :
    mesh.entry tag key = route.get? key := by
  unfold entry Dict.getD
  rw [h]
  rfl

theorem entry_of_get?_none (h : mesh.routeRegistry.get? tag = none) (key : String × String) :
    mesh.entry tag key = none := by
  unfold entry Dict.getD
  rw [h]
  rfl

theorem entry_filterRoute (mesh : NodeMesh) (keep : Descriptor → Bool) (tag t : String)
    (key : String × String) :
    (mesh.filterRoute keep tag).entry t key =
      if t = tag then (mesh.entry t key).filter keep else mesh.entry t key := by
  unfold filterRoute
  split
  · next hnone =>
      split
      · next heq => rw [heq, entry_of_get?_none hnone, Option.filter_none]
      · rfl
  · next route hroute =>
      have hstore := entry_storeRoute mesh tag (route.filter fun _ d => keep d) t key
      show (mesh.storeRoute tag _).entry t key = _
      rw [hstore, Dict.get?_filter]
      split
      · next heq => rw [heq, entry_of_get? hroute]
      · rfl

theorem entry_removeDescriptor (mesh : NodeMesh) (tag t : String) (k key : String × String) :
    (mesh.removeDescriptor tag k).entry t key =
      if t = tag ∧ key = k then none else mesh.entry t key := by
  unfold removeDescriptor
  split
  · next hnone =>
      split
      · next heq => rw [heq.1, entry_of_get?_none hnone]
      · rfl
  · next route hroute =>
      have hstore := entry_storeRoute mesh tag (route.erase k) t key
      show (mesh.storeRoute tag _).entry t key = _
      rw [hstore, Dict.get?_erase]
      by_cases ht : t = tag
      · rw [if_pos ht, ht, entry_of_get? hroute]
        by_cases hk : key = k
        · rw [if_pos hk, if_pos ⟨rfl, hk⟩]
        · rw [if_neg hk, if_neg fun h => hk h.2]
      · rw [if_neg ht, if_neg fun h => ht h.1]

/-- A descriptor goes in under its own node and session, or not at all. -/
theorem entry_insertDescriptor (m : MeshConfig) (mesh : NodeMesh) (tag t : String) (d : Descriptor)
    (key : String × String) :
    (mesh.insertDescriptor m tag d).entry t key = mesh.entry t key ∨
      t = tag ∧ key = d.key ∧ (mesh.insertDescriptor m tag d).entry t key = some d := by
  unfold insertDescriptor
  simp only
  split
  · have hstore := entry_storeRoute mesh tag (mesh.routeRegistry.getD tag ∅) t key
    rw [hstore]
    split
    · next heq => exact .inl (by rw [heq]; rfl)
    · exact .inl rfl
  · unfold entry Dict.getD
    simp only [Dict.get?_set]
    by_cases ht : t = tag
    · subst ht
      by_cases hk : key = d.key
      · exact .inr ⟨rfl, hk, by simp [hk]⟩
      · exact .inl (by simp [hk, Dict.get?_set])
    · exact .inl (by rw [if_neg ht])

/-- The second loop of `_prune_routes`, on one entry. -/
theorem entry_foldl_filterRoute (keep : Descriptor → Bool) (tags : List String)
    (mesh : NodeMesh) (t : String) (key : String × String) :
    (tags.foldl (fun mesh tag => mesh.filterRoute keep tag) mesh).entry t key =
      if t ∈ tags then (mesh.entry t key).filter keep else mesh.entry t key := by
  induction tags generalizing mesh with
  | nil => simp
  | cons tag rest ih =>
      rw [List.foldl_cons, ih, entry_filterRoute]
      by_cases ht : t = tag
      · subst ht
        simp [Option.filter_filter]
      · by_cases hmem : t ∈ rest <;> simp [ht, hmem]

/-- The tables that the first loop of `_prune_routes` does not touch, and what
the session map loses in it. -/
structure Forgets (mesh mesh' : NodeMesh) : Prop where
  routeRegistry : mesh'.routeRegistry = mesh.routeRegistry
  peerViews : mesh'.peerViews = mesh.peerViews
  sessionNodes : ∀ sid node, mesh'.sessionNodes.get? sid = some node →
    mesh.sessionNodes.get? sid = some node

theorem forgets_pruneCached (mesh : NodeMesh) (now : Seconds) (sid : String) :
    Forgets mesh (mesh.pruneCached now sid) := by
  obtain heq | ⟨_, -, -, heq⟩ := pruneCached_cases mesh now sid
  · rw [heq]
    exact ⟨rfl, rfl, fun _ _ h => h⟩
  · rw [heq]
    exact ⟨rfl, rfl, fun _ _ h => (Dict.get?_erase_eq_some.mp h).2⟩

theorem forgets_foldl_pruneCached (mesh : NodeMesh) (now : Seconds) (sids : List String) :
    Forgets mesh (sids.foldl (fun mesh sid => mesh.pruneCached now sid) mesh) := by
  refine foldl_invariant (P := fun mesh' => Forgets mesh mesh') sids
    ⟨rfl, rfl, fun _ _ h => h⟩ ?_
  intro mesh' sid _ h
  have hnext := forgets_pruneCached mesh' now sid
  exact ⟨hnext.routeRegistry.trans h.routeRegistry, hnext.peerViews.trans h.peerViews,
    fun sid node hget => h.sessionNodes sid node (hnext.sessionNodes sid node hget)⟩

theorem entry_pruneRoutes (mesh : NodeMesh) (now : Seconds) (t : String)
    (key : String × String) :
    (mesh.pruneRoutes now).entry t key =
      (mesh.entry t key).filter fun d => decide (pyInt now < d.expiresAt) := by
  have hloop := forgets_foldl_pruneCached mesh now mesh.descriptorCache.keys
  have hentry : (mesh.descriptorCache.keys.foldl (fun mesh sid => mesh.pruneCached now sid)
      mesh).entry t key = mesh.entry t key := by
    unfold entry
    rw [hloop.routeRegistry]
  unfold pruneRoutes
  simp only
  rw [entry_foldl_filterRoute, hentry]
  split
  · rfl
  · next hmem =>
      rw [← hentry, entry_of_get?_none (Dict.get?_eq_none.mpr hmem)]
      rfl

theorem sameTables_filterRoute (mesh : NodeMesh) (keep : Descriptor → Bool) (tag : String) :
    (mesh.filterRoute keep tag).sessionNodes = mesh.sessionNodes ∧
      (mesh.filterRoute keep tag).peerViews = mesh.peerViews := by
  unfold filterRoute
  split
  · exact ⟨rfl, rfl⟩
  · exact ⟨rfl, rfl⟩

theorem pruneRoutes_maps (mesh : NodeMesh) (now : Seconds) :
    (mesh.pruneRoutes now).peerViews = mesh.peerViews ∧
      ∀ sid node, (mesh.pruneRoutes now).sessionNodes.get? sid = some node →
        mesh.sessionNodes.get? sid = some node := by
  have hloop := forgets_foldl_pruneCached mesh now mesh.descriptorCache.keys
  unfold pruneRoutes
  refine foldl_invariant (P := fun mesh' : NodeMesh => mesh'.peerViews = mesh.peerViews ∧
    ∀ sid node, mesh'.sessionNodes.get? sid = some node →
      mesh.sessionNodes.get? sid = some node) _ ⟨hloop.peerViews, hloop.sessionNodes⟩ ?_
  intro mesh' tag _ h
  obtain ⟨hnodes, hviews⟩ :=
    sameTables_filterRoute mesh' (fun d => decide (pyInt now < d.expiresAt)) tag
  exact ⟨hviews.trans h.1, fun sid node hget => h.2 sid node (hnodes ▸ hget)⟩

/-! ## The frame -/

/-- What a message of the node `n` leaves of the tables of the mesh. -/
structure OwnChanges (m : MeshConfig) (now : Clocks) (n : String) (mesh mesh' : NodeMesh) :
    Prop where
  registry : ∀ tag key, key.1 ≠ n → mesh'.entry tag key = mesh.entry tag key ∨
    mesh'.entry tag key = none ∧
      ∃ d, mesh.entry tag key = some d ∧ d.expiresAt ≤ pyInt now.wall
  sessionNodes : ∀ sid node, mesh.sessionNodes.get? sid = some node → node ≠ n →
    mesh'.sessionNodes.get? sid ≠ some n
  peerViews : ∀ node, node ≠ n → mesh'.peerViews.get? node = mesh.peerViews.get? node ∨
    mesh'.peerViews.get? node = none ∧ ∃ v, mesh.peerViews.get? node = some v ∧
      (epochMatches v.epoch m.nodeMeshMembershipEpoch = false ∨
        m.staleAfter < now.monotonic - v.receivedAt)

theorem OwnChanges.of_eq {now : Clocks} (hr : mesh'.routeRegistry = mesh.routeRegistry)
    (hs : mesh'.sessionNodes = mesh.sessionNodes) (hv : mesh'.peerViews = mesh.peerViews) :
    OwnChanges m now n mesh mesh' where
  registry tag key _ := .inl (by unfold entry; rw [hr])
  sessionNodes sid node h hne := by
    rw [hs, h]
    exact fun heq => hne (Option.some.inj heq)
  peerViews node _ := .inl (by rw [hv])

theorem ownChanges_removeDescriptor {now : Clocks} (mesh : NodeMesh) (tag sid : String) :
    OwnChanges m now n mesh (mesh.removeDescriptor tag (n, sid)) := by
  have hmaps : (mesh.removeDescriptor tag (n, sid)).sessionNodes = mesh.sessionNodes ∧
      (mesh.removeDescriptor tag (n, sid)).peerViews = mesh.peerViews := by
    unfold removeDescriptor
    split
    · exact ⟨rfl, rfl⟩
    · exact ⟨rfl, rfl⟩
  refine ⟨fun t key hne => .inl ?_, fun s node h hnode => ?_, fun node _ => .inl ?_⟩
  · rw [entry_removeDescriptor, if_neg]
    rintro ⟨-, rfl⟩
    exact hne rfl
  · rw [hmaps.1, h]
    exact fun heq => hnode (Option.some.inj heq)
  · rw [hmaps.2]

theorem ownChanges_insertDescriptor {now : Clocks} (mesh : NodeMesh) (tag : String)
    {d : Descriptor} (hd : d.nodeId = n)
    (howns : mesh.ownsSession m hub d.nodeId d.sessionId = true) :
    OwnChanges m now n mesh (mesh.insertDescriptor m tag d) := by
  refine ⟨fun t key hne => .inl ?_, fun s node h hnode => ?_, fun node _ => .inl ?_⟩
  · obtain heq | ⟨-, rfl, -⟩ := entry_insertDescriptor m mesh tag t d key
    · exact heq
    · exact absurd hd hne
  · unfold insertDescriptor
    simp only
    split
    · show mesh.sessionNodes.get? s ≠ some n
      rw [h]
      exact fun heq => hnode (Option.some.inj heq)
    · show (mesh.sessionNodes.set d.sessionId d.nodeId).get? s ≠ some n
      rw [Dict.get?_set]
      split
      · next heq =>
          -- The session was this node's already, or the check would have failed.
          subst heq
          unfold ownsSession at howns
          rw [Bool.and_eq_true, h, Option.all_some, beq_iff_eq, hd] at howns
          exact absurd howns.2 hnode
      · rw [h]
        exact fun heq => hnode (Option.some.inj heq)
  · unfold insertDescriptor
    simp only
    split
    · rfl
    · rfl

theorem ownChanges_storeRoute {now : Clocks} (mesh : NodeMesh)
    {route : Dict (String × String) Descriptor} (h : mesh.routeRegistry.get? tag = some route) :
    OwnChanges m now n mesh (mesh.storeRoute tag route) := by
  refine ⟨fun t key _ => .inl ?_, fun s node hs hnode => ?_, fun node _ => .inl rfl⟩
  · rw [entry_storeRoute]
    split
    · next heq => rw [heq, entry_of_get? h]
    · rfl
  · show mesh.sessionNodes.get? s ≠ some n
    rw [hs]
    exact fun heq => hnode (Option.some.inj heq)

theorem ownChanges_handleRouteMessage (m : MeshConfig) (cr : Crypto) (hub : Hub) (now : Clocks)
    (mesh : NodeMesh) (n : String) (msgType : RouteMessageType) (payload : Payload) :
    OwnChanges m now n mesh (mesh.handleRouteMessage m cr hub now.wall n msgType payload) := by
  have hrefl : OwnChanges m now n mesh mesh := .of_eq rfl rfl rfl
  unfold handleRouteMessage
  simp only
  split
  · split
    · next routeTag _ hok =>
        simp only [Bool.and_eq_true, beq_iff_eq] at hok
        obtain ⟨⟨-, hnode⟩, -⟩ := hok
        unfold applyRouteMessage
        split
        · next sessionId nodeId _ hnode' =>
            have heq : nodeId = n := by
              rw [hnode] at hnode'
              exact (Option.some.inj hnode').symm
            split
            · rw [heq]
              exact ownChanges_removeDescriptor mesh routeTag sessionId
            split
            · next d hd =>
                have hdnode : d.nodeId = n := by
                  have hraw := d.raw_nodeId
                  rw [Descriptor.raw_of_ofJson? hd, hnode] at hraw
                  exact (Option.some.inj hraw).symm
                split
                · next hboth =>
                    rw [Bool.and_eq_true] at hboth
                    exact ownChanges_insertDescriptor mesh routeTag hdnode hboth.2
                · exact hrefl
            · exact hrefl
            · split
              · exact hrefl
              · next route hroute => exact ownChanges_storeRoute mesh hroute
        · exact hrefl
    · exact hrefl
  · exact hrefl

theorem ownChanges_handleRouteQuery (m : MeshConfig) (now : Clocks) (mesh : NodeMesh)
    (n : String) (link : Nat) (payload : Payload) :
    OwnChanges m now n mesh (mesh.handleRouteQuery m now.wall link payload).1 := by
  have hrefl : OwnChanges m now n mesh mesh := .of_eq rfl rfl rfl
  unfold handleRouteQuery
  split
  · split
    · simp only
      obtain ⟨hviews, hnodes⟩ := pruneRoutes_maps mesh now.wall
      refine ⟨fun t key _ => ?_, fun s node h hnode hget => ?_, fun node _ => .inl (by rw [hviews])⟩
      · rw [entry_pruneRoutes]
        cases hentry : mesh.entry t key with
        | none => exact .inl rfl
        | some d =>
            by_cases hlive : pyInt now.wall < d.expiresAt
            · exact .inl (by simp [hlive])
            · exact .inr ⟨by simpa using not_lt.mp hlive, d, rfl, not_lt.mp hlive⟩
      · rw [hnodes s n hget] at h
        exact hnode (Option.some.inj h).symm
    · exact hrefl
  · exact hrefl

theorem get?_freshViews (m : MeshConfig) (mesh : NodeMesh) (now : Seconds) (node : String) :
    (mesh.freshViews m now).get? node = mesh.peerViews.get? node ∨
      (mesh.freshViews m now).get? node = none ∧ ∃ v, mesh.peerViews.get? node = some v ∧
        (epochMatches v.epoch m.nodeMeshMembershipEpoch = false ∨
          m.staleAfter < now - v.receivedAt) := by
  unfold freshViews
  rw [Dict.get?_filter]
  cases hget : mesh.peerViews.get? node with
  | none => exact .inl rfl
  | some v =>
      by_cases hkeep : epochMatches v.epoch m.nodeMeshMembershipEpoch = true ∧
          ¬m.staleAfter < now - v.receivedAt
      · exact .inl (by simp [hkeep.1, hkeep.2])
      · refine .inr ⟨by simpa using hkeep, v, rfl, ?_⟩
        rw [not_and_or, not_not, Bool.not_eq_true] at hkeep
        exact hkeep

theorem peerViews_reconcileMembership (m : MeshConfig) (mesh : NodeMesh) (now : Seconds) :
    (mesh.reconcileMembership m now).peerViews = mesh.freshViews m now := by
  unfold reconcileMembership
  simp only
  split
  · rfl
  · rfl

theorem peerViews_recordState {wall monotonic : Seconds} {node : String} {payload : Json}
    (h : mesh.recordState m wall monotonic n payload = some mesh') (hne : node ≠ n) :
    mesh'.peerViews.get? node = mesh.peerViews.get? node := by
  unfold recordState at h
  simp only at h
  split at h
  · cases h
  · split at h
    · cases h
      exact Dict.get?_set_of_ne _ _ hne
    · cases h

theorem ownChanges_handleNodeState (m : MeshConfig) (now : Clocks) (mesh : NodeMesh) (n : String)
    (payload : Json) :
    OwnChanges m now n mesh (mesh.handleNodeState m now.wall now.monotonic n payload) := by
  unfold handleNodeState
  split
  · next mesh' hrecord =>
      have htables := sameTables_recordState hrecord
      have hreview : SameTables mesh' (mesh'.reconcileMembership m now.monotonic) :=
        sameTables_reconcileMembership mesh' now.monotonic
      have hviews : ∀ node, node ≠ n → mesh'.peerViews.get? node = mesh.peerViews.get? node :=
        fun node hne => peerViews_recordState hrecord hne
      refine ⟨fun t key _ => .inl ?_, fun s node hs hnode => ?_, fun node hne => ?_⟩
      · unfold entry
        rw [hreview.routeRegistry, htables.routeRegistry]
      · rw [hreview.sessionNodes, htables.sessionNodes, hs]
        exact fun heq => hnode (Option.some.inj heq)
      · rw [peerViews_reconcileMembership, ← hviews node hne]
        exact get?_freshViews m mesh' now.monotonic node
  · exact .of_eq rfl rfl rfl

end NodeMesh

/-! ## The server -/

/-- What a message of the node `n` leaves of a server. -/
structure OwnOnly (m : MeshConfig) (now : Clocks) (n : String) (server server' : Server) :
    Prop where
  mesh : NodeMesh.OwnChanges m now n server.mesh server'.mesh
  sessions : ∀ sid, (server'.hub.sessions.get? sid).map Session.credentials =
    (server.hub.sessions.get? sid).map Session.credentials
  routes : server'.hub.routes = server.hub.routes

theorem ownOnly_withMesh {m : MeshConfig} {now : Clocks} {n : String} {server : Server}
    {mesh : NodeMesh} (h : NodeMesh.OwnChanges m now n server.mesh mesh) (sends : List Send) :
    OwnOnly m now n server (server.withMesh mesh sends).server :=
  ⟨h, fun _ => rfl, rfl⟩

theorem OwnOnly.refl (m : MeshConfig) (now : Clocks) (n : String) (server : Server) :
    OwnOnly m now n server server := ⟨.of_eq rfl rfl rfl, fun _ => rfl, rfl⟩

/-- Queueing a message changes no key and no route. -/
theorem Hub.sendSession_frame (hub : Hub) (c : Config) (target : String) (message : Json) :
    (hub.sendSession c target message).1.routes = hub.routes ∧
      ∀ sid, ((hub.sendSession c target message).1.sessions.get? sid).map Session.credentials =
        (hub.sessions.get? sid).map Session.credentials := by
  unfold Hub.sendSession
  split
  · exact ⟨rfl, fun _ => rfl⟩
  · next sess hs =>
      simp only
      split
      · exact ⟨rfl, fun _ => rfl⟩
      · refine ⟨rfl, fun sid => ?_⟩
        rw [Dict.get?_set]
        split
        · next heq =>
            rw [heq, hs]
            rfl
        · rfl

theorem ownOnly_handleSignalForward {m : MeshConfig} {now : Clocks} {n : String} {link : Nat}
    {server : Server} {payload : Payload} {step : Step}
    (h : server.handleSignalForward m now link payload = some step) :
    OwnOnly m now n server step.server := by
  unfold Server.handleSignalForward at h
  split at h
  · cases h
  simp only at h
  split at h
  · next target routeTag _ _ =>
      split at h
      · cases h
        obtain ⟨hroutes, hsessions⟩ :=
          server.hub.sendSession_frame m.toConfig target (payload.get "envelope")
        exact ⟨.of_eq rfl rfl rfl, hsessions, hroutes⟩
      · cases h
        exact .refl m now n server
  · cases h
    exact .refl m now n server

/-- After a message of the node `n`: what the registry has under another node
is as it was or had expired and is gone, no session that was another node's is
`n`'s, the sessions have the keys and proofs they had and the route table is as
it was, and the views of the other nodes are as they were, but for those that
no longer count. -/
theorem peer_changes_own_registrations (m : MeshConfig) (cr : Crypto) (now : Clocks) (n : String)
    (link : Nat) (server : Server) (type : String) (payload : Payload) :
    OwnOnly m now n server
      ((server.handleMessage m cr now n link type payload).getD (server.leave [])).server := by
  have hpending : ∀ mesh', mesh'.routeRegistry = server.mesh.routeRegistry →
      mesh'.sessionNodes = server.mesh.sessionNodes → mesh'.peerViews = server.mesh.peerViews →
      OwnOnly m now n server (server.withMesh mesh' []).server := fun mesh' hr hs hv =>
    ownOnly_withMesh (.of_eq hr hs hv) []
  unfold Server.handleMessage
  simp only
  split
  · exact ownOnly_withMesh
      (NodeMesh.ownChanges_handleRouteMessage m cr server.hub now _ n .register payload) []
  split
  · exact ownOnly_withMesh
      (NodeMesh.ownChanges_handleRouteMessage m cr server.hub now _ n .remove payload) []
  split
  · exact ownOnly_withMesh (NodeMesh.ownChanges_handleRouteQuery m now _ n link payload) _
  split
  · unfold NodeMesh.handleRouteResult
    split
    · exact .refl m now n server
    · exact hpending _ rfl rfl rfl
    · exact hpending _ rfl rfl rfl
  split
  · cases hstep : server.handleSignalForward m now link payload with
    | none => exact .refl m now n server
    | some step => exact ownOnly_handleSignalForward hstep
  split
  · unfold NodeMesh.handleAck
    split
    · exact .refl m now n server
    · exact hpending _ rfl rfl rfl
    · exact hpending _ rfl rfl rfl
  split
  · exact ownOnly_withMesh (NodeMesh.ownChanges_handleNodeState m now _ n (.obj payload)) []
  · exact .refl m now n server

end Masterserver
