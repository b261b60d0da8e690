import Masterserver.Proofs.LocalEntries

/-!
# The session map and the descriptors

`_session_nodes` gets an entry with every descriptor that is registered or
cached. When a cached descriptor expires the entry goes with it; when a
registered one goes, by removal, expiry or a change of the topology, the entry
stays. `MeshOp.drops` collects the tests by which the operations take
descriptors out of routes. Every session of the map has a descriptor in every
run in which no step takes the last one, and the map is then no larger than
the two tables together.

The operations fall into two kinds. Some only add, or take a map entry out
with its descriptor; these keep the map covered as they are. The others are
described by what they keep of the registry, and `MapCovered.of_drops` is the
one argument about all of them.
-/

namespace Masterserver

open Lib NodeMesh

/-! ## What the operations take out -/

/-- The state in which an operation goes over the registry for what is no
longer owned. -/
def MeshOp.rebalances (m : MeshConfig) (now : Clocks) (mesh : NodeMesh) (op : MeshOp) :
    Option NodeMesh :=
  match op with
  | .dropStaleOwnership => some mesh
  | .topologyChanged | .linkUp .. | .linkDown .. =>
      (op.reviews m now mesh).map fun mesh' => mesh'.reconcileMembership m now.monotonic
  | _ => none

/-- This node does not own the route, or has no link to the descriptor's node. -/
def NodeMesh.Stale (m : MeshConfig) (cr : Crypto) (mesh : NodeMesh) (tag : String)
    (d : Descriptor) : Prop :=
  m.nodeId ∉ mesh.ownersFor m cr tag ∨
    d.nodeId ∉ insert m.nodeId mesh.connections.keys.toFinset

/-- An operation takes a descriptor out of a route. -/
def MeshOp.drops (m : MeshConfig) (cr : Crypto) (now : Clocks) (mesh : NodeMesh) (tag : String)
    (d : Descriptor) : MeshOp → Prop
  | .applyRouteMessage .remove routeTag descriptor =>
      tag = routeTag ∧ (descriptor.get? "nodeId").bind Json.str? = some d.nodeId ∧
        (descriptor.get? "sessionId").bind Json.str? = some d.sessionId
  | .removeLocalRoute routeTag sid =>
      tag = routeTag ∧ m.nodeId ∈ mesh.ownersFor m cr tag ∧ d.key = (m.nodeId, sid)
  | .pruneRoutes => d.expiresAt ≤ pyInt now.wall
  | op => ∃ mesh', op.rebalances m now mesh = some mesh' ∧ Stale m cr mesh' tag d

/-- Where the tests `D` meet a descriptor of a session of the map that has none
in the cache, they let another one of that session be. -/
def NodeMesh.Spares (D : String → Descriptor → Prop) (mesh : NodeMesh) : Prop :=
  ∀ sid, mesh.sessionNodes.contains sid = true → mesh.descriptorCache.contains sid = false →
    (∃ tag d, mesh.entry tag d.key = some d ∧ d.sessionId = sid ∧ D tag d) →
    ∃ tag d, mesh.entry tag d.key = some d ∧ d.sessionId = sid ∧ ¬ D tag d

/-- A step takes the last descriptor of no session of the map. -/
def SparesLast (m : MeshConfig) (cr : Crypto) (s : MeshRun) (e : MeshEvent) : Prop :=
  s.mesh.Spares fun tag d => e.op.drops m cr e.now s.mesh tag d

namespace NodeMesh

variable {m : MeshConfig} {cr : Crypto} {hub : Hub} {now : Seconds} {mesh mesh' : NodeMesh}
variable {sid : String}

/-! ## Coverage -/

/-- A descriptor of the session is in the cache or in the registry. -/
def Covered (mesh : NodeMesh) (sid : String) : Prop :=
  mesh.descriptorCache.contains sid = true ∨
    ∃ tag d, mesh.entry tag d.key = some d ∧ d.sessionId = sid

def MapCovered (mesh : NodeMesh) : Prop :=
  ∀ sid, mesh.sessionNodes.contains sid = true → Covered mesh sid

theorem MapCovered.of_sameTables (h : MapCovered mesh) (hsame : SameTables mesh mesh') :
    MapCovered mesh' := by
  obtain ⟨hreg, -, hnodes, hcache⟩ := hsame
  intro sid hsid
  rw [hnodes] at hsid
  have hcov := h sid hsid
  unfold Covered entry at hcov ⊢
  rw [hreg, hcache]
  exact hcov

theorem MapCovered.empty (incarnation : String) : MapCovered (.new m incarnation) := by
  intro sid hsid
  cases hsid

/-! ## Operations that add -/

theorem descriptorCache_insertDescriptor (mesh : NodeMesh) (tag : String) (d : Descriptor) :
    (mesh.insertDescriptor m tag d).descriptorCache = mesh.descriptorCache := by
  unfold insertDescriptor
  simp only
  split
  · rfl
  · rfl

/-- A stored descriptor takes the place of one of the same session. -/
theorem Covered.insertDescriptor (h : Covered mesh sid) (tag : String) (d : Descriptor) :
    Covered (mesh.insertDescriptor m tag d) sid := by
  obtain hcache | ⟨t, d', hd', hsid⟩ := h
  · left
    rw [descriptorCache_insertDescriptor]
    exact hcache
  · right
    obtain heq | ⟨rfl, hkey, heq⟩ := entry_insertDescriptor m mesh tag t d d'.key
    · exact ⟨t, d', heq.trans hd', hsid⟩
    · refine ⟨t, d, by rw [← hkey]; exact heq, ?_⟩
      have hsnd : d'.sessionId = d.sessionId := congrArg Prod.snd hkey
      exact hsnd.symm.trans hsid

theorem MapCovered.insertDescriptor (h : MapCovered mesh) (tag : String) (d : Descriptor) :
    MapCovered (mesh.insertDescriptor m tag d) := by
  by_cases hfull : (!(mesh.routeRegistry.getD tag ∅).contains d.key) = true ∧
      (m.nodeMeshMaxRouteDescriptors : Int) ≤ mesh.routeDescriptorCount
  · intro sid hsid
    refine (h sid ?_).insertDescriptor tag d
    unfold NodeMesh.insertDescriptor at hsid
    simp only [if_pos hfull] at hsid
    exact hsid
  · intro sid hsid
    by_cases hself : sid = d.sessionId
    · refine .inr ⟨tag, d, ?_, hself.symm⟩
      unfold NodeMesh.insertDescriptor entry Dict.getD
      simp only [Dict.getD] at hfull
      simp only [if_neg hfull, Dict.get?_set_self, Option.getD_some]
    · refine (h sid ?_).insertDescriptor tag d
      unfold NodeMesh.insertDescriptor at hsid
      simp only [if_neg hfull] at hsid
      rw [Dict.contains_set] at hsid
      simpa [hself] using hsid

theorem MapCovered.tidy (h : MapCovered mesh) {tag : String} {route : Route}
    (hroute : mesh.routeRegistry.get? tag = some route) : MapCovered (mesh.storeRoute tag route) := by
  intro sid hsid
  obtain hcache | ⟨t, d, hd, hds⟩ := h sid hsid
  · exact .inl hcache
  · refine .inr ⟨t, d, ?_, hds⟩
    rw [entry_storeRoute]
    split
    · next heq =>
        rw [heq, entry_of_get? hroute] at hd
        exact hd
    · exact hd

theorem MapCovered.cacheDescriptor (h : MapCovered mesh) (descriptor : Json) :
    MapCovered (mesh.cacheDescriptor m hub now descriptor).1 := by
  unfold NodeMesh.cacheDescriptor
  split
  · exact h
  · next d _ =>
      split
      · exact h
      · split
        · exact h
        · intro sid hsid
          by_cases hself : sid = d.sessionId
          · refine .inl ?_
            rw [hself, Dict.contains_set]
            simp
          · rw [Dict.contains_set] at hsid
            obtain hcache | hreg := h sid (by simpa [hself] using hsid)
            · refine .inl ?_
              rw [Dict.contains_set, hcache, Bool.or_true]
            · exact .inr hreg

/-- What leaves the cache leaves the map. -/
theorem MapCovered.pruneCached (h : MapCovered mesh) (sid : String) :
    MapCovered (mesh.pruneCached now sid) := by
  obtain heq | ⟨_, -, -, heq⟩ := pruneCached_cases mesh now sid
  · rw [heq]
    exact h
  · rw [heq]
    intro s hs
    rw [Dict.contains_erase, Bool.and_eq_true] at hs
    obtain hcache | hreg := h s hs.2
    · refine .inl ?_
      rw [Dict.contains_erase, Bool.and_eq_true]
      exact ⟨hs.1, hcache⟩
    · exact .inr hreg

theorem MapCovered.applyRegister (h : MapCovered mesh) (tag : String) (descriptor : Json) :
    MapCovered (mesh.applyRouteMessage m hub now .register tag descriptor) := by
  unfold applyRouteMessage
  split
  · simp only
    split
    · split
      · exact h.insertDescriptor tag _
      · exact h
    · exact h
    · split
      · exact h
      · next route hroute => exact h.tidy hroute
  · exact h

theorem MapCovered.registerLocalRoute (h : MapCovered mesh) (tag sid : String) :
    MapCovered (mesh.registerLocalRoute m cr hub now tag sid).1 := by
  rw [registerLocalRoute_fst]
  split
  · exact h
  · split
    · exact h.insertDescriptor tag _
    · exact h

theorem MapCovered.registerLocalLeases (h : MapCovered mesh) :
    MapCovered (mesh.registerLocalLeases m cr hub now).1 := by
  unfold NodeMesh.registerLocalLeases
  exact foldl_invariant (P := fun acc : NodeMesh × List Send => MapCovered acc.1) _ h
    fun acc lease _ hacc => hacc.registerLocalRoute lease.1 lease.2

/-! ## Operations that drop -/

/-- What an operation that drops descriptors keeps: no session is new to the
map, one that is still there keeps its cached descriptor, and the registry
keeps what the tests `D` let be. -/
structure KeepsOthers (D : String → Descriptor → Prop) (mesh mesh' : NodeMesh) : Prop where
  mapped : ∀ sid, mesh'.sessionNodes.contains sid = true → mesh.sessionNodes.contains sid = true
  cached : ∀ sid, mesh'.sessionNodes.contains sid = true →
    mesh.descriptorCache.contains sid = true → mesh'.descriptorCache.contains sid = true
  entry : ∀ tag d, mesh.entry tag d.key = some d → ¬ D tag d → mesh'.entry tag d.key = some d

theorem MapCovered.of_drops {D : String → Descriptor → Prop} (h : MapCovered mesh)
    (hkeeps : KeepsOthers D mesh mesh') (hspares : Spares D mesh) : MapCovered mesh' := by
  intro sid hsid
  have hold := hkeeps.mapped sid hsid
  cases hcache : mesh.descriptorCache.contains sid with
  | true => exact .inl (hkeeps.cached sid hsid hcache)
  | false =>
      -- The session's descriptor is in the registry; it stays or another one does.
      obtain hc | ⟨tag, d, hd, hds⟩ := h sid hold
      · rw [hcache] at hc
        cases hc
      · by_cases hdrop : D tag d
        · obtain ⟨tag', d', hd', hds', hkept⟩ :=
            hspares sid hold hcache ⟨tag, d, hd, hds, hdrop⟩
          exact .inr ⟨tag', d', hkeeps.entry tag' d' hd' hkept, hds'⟩
        · exact .inr ⟨tag, d, hkeeps.entry tag d hd hdrop, hds⟩

theorem keepsOthers_removeDescriptor (mesh : NodeMesh) (tag : String) (key : String × String) :
    KeepsOthers (fun t d => t = tag ∧ d.key = key) mesh (mesh.removeDescriptor tag key) := by
  have htables : (mesh.removeDescriptor tag key).sessionNodes = mesh.sessionNodes ∧
      (mesh.removeDescriptor tag key).descriptorCache = mesh.descriptorCache := by
    unfold removeDescriptor
    split
    · exact ⟨rfl, rfl⟩
    · exact ⟨rfl, rfl⟩
  refine ⟨fun sid hsid => ?_, fun sid _ hcache => ?_, fun t d hd hkept => ?_⟩
  · rw [← htables.1]
    exact hsid
  · rw [htables.2]
    exact hcache
  · rw [entry_removeDescriptor, if_neg hkept]
    exact hd

theorem keepsOthers_pruneRoutes (mesh : NodeMesh) :
    KeepsOthers (fun _ d => d.expiresAt ≤ pyInt now) mesh (mesh.pruneRoutes now) := by
  have hfilter (mesh : NodeMesh) (tag : String) :
      (mesh.filterRoute (fun d => decide (pyInt now < d.expiresAt)) tag).sessionNodes =
          mesh.sessionNodes ∧
        (mesh.filterRoute (fun d => decide (pyInt now < d.expiresAt)) tag).descriptorCache =
          mesh.descriptorCache := by
    unfold filterRoute
    split
    · exact ⟨rfl, rfl⟩
    · exact ⟨rfl, rfl⟩
  have htables : ∀ sid, (mesh.pruneRoutes now).sessionNodes.contains sid = true →
      mesh.sessionNodes.contains sid = true ∧ (mesh.descriptorCache.contains sid = true →
        (mesh.pruneRoutes now).descriptorCache.contains sid = true) := by
    unfold pruneRoutes
    refine foldl_invariant (P := fun mesh' : NodeMesh => ∀ sid,
      mesh'.sessionNodes.contains sid = true → mesh.sessionNodes.contains sid = true ∧
        (mesh.descriptorCache.contains sid = true →
          mesh'.descriptorCache.contains sid = true)) _ ?_ ?_
    · refine foldl_invariant (P := fun mesh' : NodeMesh => ∀ sid,
        mesh'.sessionNodes.contains sid = true → mesh.sessionNodes.contains sid = true ∧
          (mesh.descriptorCache.contains sid = true →
            mesh'.descriptorCache.contains sid = true)) _ (fun _ h => ⟨h, id⟩) ?_
      intro mesh' s _ hinv sid hsid
      obtain heq | ⟨_, -, -, heq⟩ := pruneCached_cases mesh' now s
      · rw [heq] at hsid ⊢
        exact hinv sid hsid
      · rw [heq] at hsid ⊢
        rw [Dict.contains_erase, Bool.and_eq_true] at hsid
        obtain ⟨hmapped, hcached⟩ := hinv sid hsid.2
        refine ⟨hmapped, fun hc => ?_⟩
        rw [Dict.contains_erase, Bool.and_eq_true]
        exact ⟨hsid.1, hcached hc⟩
    · intro mesh' tag _ hinv sid hsid
      rw [(hfilter mesh' tag).1] at hsid
      rw [(hfilter mesh' tag).2]
      exact hinv sid hsid
  refine ⟨fun sid hsid => (htables sid hsid).1, fun sid hsid => (htables sid hsid).2, ?_⟩
  intro tag d hd hkept
  rw [entry_pruneRoutes, hd, Option.filter_some, if_pos (by simpa using hkept)]

theorem entry_dropStaleRoute (mesh : NodeMesh) {active : Finset String} {tag t : String}
    {d : Descriptor} (hd : mesh.entry t d.key = some d) (howner : m.nodeId ∈ mesh.ownersFor m cr t)
    (hactive : d.nodeId ∈ active) :
    (mesh.dropStaleRoute m cr active tag).entry t d.key = some d := by
  unfold dropStaleRoute
  split
  · rw [entry_filterRoute]
    split
    · rw [hd, Option.filter_some, if_pos (decide_eq_true hactive)]
    · exact hd
  · next hno =>
      have hne : t ≠ tag := fun heq => hno (heq ▸ howner)
      obtain ⟨route, hroute, hget⟩ := entry_eq_some.mp hd
      refine entry_eq_some.mpr ⟨route, ?_, hget⟩
      exact (Dict.get?_erase_of_ne _ hne).trans hroute

theorem keepsOthers_dropStaleOwnership (mesh : NodeMesh) :
    KeepsOthers (Stale m cr mesh) mesh (mesh.dropStaleOwnership m cr) := by
  have hround (mesh : NodeMesh) (active : Finset String) (tag : String) :
      (mesh.dropStaleRoute m cr active tag).sessionNodes = mesh.sessionNodes ∧
        (mesh.dropStaleRoute m cr active tag).descriptorCache = mesh.descriptorCache := by
    unfold dropStaleRoute filterRoute
    split
    · split
      · exact ⟨rfl, rfl⟩
      · exact ⟨rfl, rfl⟩
    · exact ⟨rfl, rfl⟩
  have hloop : (mesh.dropStaleOwnership m cr).sessionNodes = mesh.sessionNodes ∧
      (mesh.dropStaleOwnership m cr).descriptorCache = mesh.descriptorCache ∧
      (mesh.dropStaleOwnership m cr).membershipNodes = mesh.membershipNodes ∧
      ∀ t d, mesh.entry t d.key = some d → ¬ Stale m cr mesh t d →
        (mesh.dropStaleOwnership m cr).entry t d.key = some d := by
    unfold dropStaleOwnership
    refine foldl_invariant (P := fun mesh' : NodeMesh =>
      mesh'.sessionNodes = mesh.sessionNodes ∧ mesh'.descriptorCache = mesh.descriptorCache ∧
        mesh'.membershipNodes = mesh.membershipNodes ∧
        ∀ t d, mesh.entry t d.key = some d → ¬ Stale m cr mesh t d →
          mesh'.entry t d.key = some d) _ ⟨rfl, rfl, rfl, fun _ _ hd _ => hd⟩ ?_
    intro mesh' tag _ hinv
    obtain ⟨hnodes, hcache, hmembers, hentry⟩ := hinv
    obtain ⟨hnodes', hcache'⟩ :=
      hround mesh' (insert m.nodeId mesh.connections.keys.toFinset) tag
    refine ⟨hnodes'.trans hnodes, hcache'.trans hcache, ?_, fun t d hd hfresh => ?_⟩
    · exact (sameMembership_dropStaleRoute m cr mesh' _ tag).membershipNodes.trans hmembers
    · have hboth := hfresh
      unfold Stale at hboth
      rw [not_or, not_not, not_not] at hboth
      refine entry_dropStaleRoute mesh' (hentry t d hd hfresh) ?_ hboth.2
      rw [ownersFor_congr hmembers]
      exact hboth.1
  obtain ⟨hnodes, hcache, -, hentry⟩ := hloop
  refine ⟨fun sid hsid => ?_, fun sid _ hcached => ?_, hentry⟩
  · rw [← hnodes]
    exact hsid
  · rw [hcache]
    exact hcached

/-! ## Every operation -/

theorem Spares.of_iff {D D' : String → Descriptor → Prop} (h : Spares D mesh)
    (hD : ∀ tag d, D tag d ↔ D' tag d) : Spares D' mesh := by
  have heq : D = D' := funext fun tag => funext fun d => propext (hD tag d)
  exact heq ▸ h

theorem Spares.of_sameTables {D : String → Descriptor → Prop} (h : Spares D mesh)
    (hsame : SameTables mesh mesh') : Spares D mesh' := by
  obtain ⟨hreg, -, hnodes, hcache⟩ := hsame
  intro sid
  unfold entry
  rw [hnodes, hcache, hreg]
  exact h sid

theorem MapCovered.removeDescriptor (h : MapCovered mesh) {tag : String} {key : String × String}
    (hspares : Spares (fun t d => t = tag ∧ d.key = key) mesh) :
    MapCovered (mesh.removeDescriptor tag key) :=
  h.of_drops (keepsOthers_removeDescriptor mesh tag key) hspares

theorem MapCovered.dropStaleOwnership (h : MapCovered mesh)
    (hspares : Spares (Stale m cr mesh) mesh) : MapCovered (mesh.dropStaleOwnership m cr) :=
  h.of_drops (keepsOthers_dropStaleOwnership mesh) hspares

/-- Rebalancing reviews the membership, drops by it and announces again. -/
theorem MapCovered.topologyChanged (h : MapCovered mesh) {wall monotonic : Seconds}
    (hspares : Spares (Stale m cr (mesh.reconcileMembership m monotonic)) mesh) :
    MapCovered (mesh.topologyChanged m cr hub wall monotonic).1 := by
  have hsame := sameTables_reconcileMembership (m := m) mesh monotonic
  have hdrop := (h.of_sameTables hsame).dropStaleOwnership (hspares.of_sameTables hsame)
  exact hdrop.registerLocalLeases

theorem MapCovered.apply (h : MapCovered mesh) {clocks : Clocks} {op : MeshOp}
    (hspares : mesh.Spares fun tag d => op.drops m cr clocks mesh tag d) :
    MapCovered (op.apply m cr hub clocks mesh) := by
  cases op with
  | applyRouteMessage msgType tag descriptor =>
      cases msgType with
      | register => exact h.applyRegister tag descriptor
      | remove =>
          show MapCovered (mesh.applyRouteMessage m hub clocks.wall .remove tag descriptor)
          unfold applyRouteMessage
          split
          · next sid nid hsid hnid =>
              refine h.removeDescriptor (hspares.of_iff fun t d => ?_)
              show t = tag ∧ (descriptor.get? "nodeId").bind Json.str? = some d.nodeId ∧
                (descriptor.get? "sessionId").bind Json.str? = some d.sessionId ↔ _
              rw [hsid, hnid, Descriptor.key, Prod.mk.injEq, Option.some.injEq,
                Option.some.injEq, eq_comm (a := nid), eq_comm (a := sid)]
          · exact h
  | cacheDescriptor descriptor => exact h.cacheDescriptor descriptor
  | pruneRoutes => exact h.of_drops (keepsOthers_pruneRoutes mesh) hspares
  | remoteDescriptor target =>
      simp only [MeshOp.apply, remoteDescriptor_fst]
      exact h.pruneCached target
  | registerLocalRoute tag sid => exact h.registerLocalRoute tag sid
  | removeLocalRoute tag sid =>
      simp only [MeshOp.apply, removeLocalRoute_fst]
      split
      · next howner =>
          refine h.removeDescriptor (hspares.of_iff fun t d => ?_)
          show t = tag ∧ m.nodeId ∈ mesh.ownersFor m cr t ∧ d.key = (m.nodeId, sid) ↔ _
          constructor
          · exact fun hd => ⟨hd.1, hd.2.2⟩
          · exact fun hd => ⟨hd.1, hd.1 ▸ howner, hd.2⟩
      · exact h
  | reconcileMembership => exact h.of_sameTables (sameTables_reconcileMembership mesh _)
  | dropStaleOwnership =>
      refine h.dropStaleOwnership (hspares.of_iff fun t d => ?_)
      show (∃ mesh', some mesh = some mesh' ∧ Stale m cr mesh' t d) ↔ _
      simp
  | topologyChanged =>
      refine h.topologyChanged (hspares.of_iff fun t d => ?_)
      show (∃ mesh', some _ = some mesh' ∧ Stale m cr mesh' t d) ↔ _
      simp
  | linkUp node socket =>
      have hclaim := sameTables_claimConnection mesh node socket
      show MapCovered (mesh.linkUp m cr hub clocks.wall clocks.monotonic node socket).1
      unfold linkUp
      simp only
      split
      · next hclaimed =>
          refine (h.of_sameTables hclaim).topologyChanged (Spares.of_sameTables ?_ hclaim)
          refine hspares.of_iff fun t d => ?_
          unfold MeshOp.drops MeshOp.rebalances MeshOp.reviews
          simp only [hclaimed, if_true, Option.map_some, Option.some.injEq, exists_eq_left']
      · exact h.of_sameTables hclaim
  | linkDown node socket =>
      show MapCovered (mesh.linkDown m cr hub clocks.wall clocks.monotonic node socket).1
      unfold linkDown
      split
      · next mesh' hrelease =>
          have hsame := sameTables_releaseConnection hrelease
          refine (h.of_sameTables hsame).topologyChanged (Spares.of_sameTables ?_ hsame)
          refine hspares.of_iff fun t d => ?_
          unfold MeshOp.drops MeshOp.rebalances MeshOp.reviews
          simp only [hrelease, Option.map_some, Option.some.injEq, exists_eq_left']
      · exact h
  | nodeState node payload =>
      show MapCovered (mesh.handleNodeState m clocks.wall clocks.monotonic node payload)
      unfold handleNodeState
      split
      · next hrecord =>
          exact (h.of_sameTables (sameTables_recordState hrecord)).of_sameTables
            (sameTables_reconcileMembership _ _)
      · exact h
  | membershipTick => exact h.of_sameTables (sameTables_reconcileMembership mesh _)
  | stop => exact .empty mesh.incarnation

/-! ## The size of the map -/

theorem total_eq_length (registry : Dict String Route) :
    total registry = ((registry.values.flatMap Dict.values).length : Int) := by
  unfold total Dict.sumBy Dict.values
  induction registry.entries with
  | nil => rfl
  | cons e rest ih =>
      rw [List.map_cons, List.sum_cons, ih, List.map_cons, List.flatMap_cons, List.length_append,
        Nat.cast_add, List.length_map]
      rfl

/-- A covered map has at most one session for each descriptor. -/
theorem MapCovered.size_le (h : MapCovered mesh) (hreg : RegistryInvariant m mesh) :
    mesh.sessionNodes.size ≤ 2 * m.nodeMeshMaxRouteDescriptors := by
  let registered := (mesh.routeRegistry.values.flatMap Dict.values).map Descriptor.sessionId
  have hsub : mesh.sessionNodes.keys.toFinset ⊆
      mesh.descriptorCache.keys.toFinset ∪ registered.toFinset := by
    intro sid hsid
    rw [List.mem_toFinset, ← Dict.contains_iff_mem_keys] at hsid
    rw [Finset.mem_union, List.mem_toFinset, List.mem_toFinset]
    obtain hcache | ⟨tag, d, hd, rfl⟩ := h sid hsid
    · exact .inl (Dict.contains_iff_mem_keys.mp hcache)
    · obtain ⟨route, hroute, hget⟩ := entry_eq_some.mp hd
      refine .inr (List.mem_map_of_mem (List.mem_flatMap.mpr ⟨route, ?_, ?_⟩))
      · exact Dict.mem_values.mpr ⟨tag, hroute⟩
      · exact Dict.mem_values.mpr ⟨d.key, hget⟩
  have hregistry : (registered.length : Int) ≤ m.nodeMeshMaxRouteDescriptors := by
    have hcount := hreg.count_le
    rw [hreg.count, total_eq_length] at hcount
    rw [List.length_map]
    exact hcount
  have hcache := hreg.cache_le
  calc mesh.sessionNodes.size
      = mesh.sessionNodes.keys.toFinset.card := by
        rw [List.toFinset_card_of_nodup mesh.sessionNodes.nodup_keys, Dict.size_keys]
    _ ≤ (mesh.descriptorCache.keys.toFinset ∪ registered.toFinset).card :=
        Finset.card_le_card hsub
    _ ≤ mesh.descriptorCache.keys.toFinset.card + registered.toFinset.card :=
        Finset.card_union_le _ _
    _ ≤ mesh.descriptorCache.size + registered.length := by
        refine Nat.add_le_add ?_ (List.toFinset_card_le _)
        rw [← Dict.size_keys]
        exact List.toFinset_card_le _
    _ ≤ 2 * m.nodeMeshMaxRouteDescriptors := by omega

theorem mapCovered_of_reachable {s : MeshRun}
    (h : ((meshSystem m cr).restrict (SparesLast m cr)).Reachable s) : MapCovered s.mesh := by
  refine h.invariant (P := fun s => MapCovered s.mesh) ?_ ?_
  · rintro s ⟨incarnation, hinit⟩
    rw [hinit]
    exact .empty incarnation
  · rintro s e s' hs ⟨hspares, rfl⟩
    exact hs.apply hspares

/-- In every run in which no step takes the last descriptor of a session of the
map, every session of the map has a descriptor in the registry or in the cache,
and the map is within the two caps. -/
theorem session_nodes_covered {s : MeshRun}
    (h : ((meshSystem m cr).restrict (SparesLast m cr)).Reachable s) :
    (∀ sid node, s.mesh.sessionNodes.get? sid = some node →
        ∃ d, s.mesh.Holds d ∧ d.sessionId = sid) ∧
      s.mesh.sessionNodes.size ≤ 2 * m.nodeMeshMaxRouteDescriptors := by
  have hcov := mapCovered_of_reachable h
  have hreg := registryInvariant_of_reachable h.of_restrict
  refine ⟨fun sid node hnode => ?_, hcov.size_le hreg⟩
  obtain hcache | ⟨tag, d, hd, hsid⟩ := hcov sid (Dict.contains_iff.mpr ⟨node, hnode⟩)
  · obtain ⟨d, hd⟩ := Dict.contains_iff.mp hcache
    exact ⟨d, .inr ⟨sid, hd⟩, (hreg.cacheKeyed sid d hd).symm⟩
  · obtain ⟨route, hroute, hget⟩ := entry_eq_some.mp hd
    exact ⟨d, .inl ⟨tag, route, d.key, hroute, hget⟩, hsid⟩

/-- `node-b` announces a session on two routes. -/
def announcedOnTwo : List MeshEvent :=
  [at_ 0 (.applyRouteMessage .register "q" (announcement "node-b" 90)),
    at_ 0 (.applyRouteMessage .register "r" (announcement "node-b" 90))]

def removal (routeTag : String) : MeshEvent :=
  at_ 0 (.applyRouteMessage .remove routeTag (announcement "node-b" 90))

/-- Its withdrawal from one of them spares the other descriptor. -/
theorem session_nodes_covered_withdrawn :
    ∃ s : MeshRun, s.mesh.routeDescriptorCount = 1 ∧
      (∀ sid node, s.mesh.sessionNodes.get? sid = some node →
        ∃ d, s.mesh.Holds d ∧ d.sessionId = sid) ∧
      s.mesh.sessionNodes.size ≤ 2 * MeshConfig.trio.nodeMeshMaxRouteDescriptors := by
  let start : MeshRun := ⟨.new .trio "i", ⟨0, 0⟩⟩
  let s₁ := MeshRun.after .trio default start (announcedOnTwo.head (by decide))
  let s₂ := announcedOnTwo.foldl (MeshRun.after .trio default) start
  have h0 : ((meshSystem .trio default).restrict (SparesLast .trio default)).Reachable start :=
    .start ⟨"i", rfl⟩
  have h1 : ((meshSystem .trio default).restrict (SparesLast .trio default)).Reachable s₁ := by
    refine h0.next ⟨?_, rfl⟩
    rintro sid - - ⟨_, _, _, _, _, hno, _⟩
    cases hno
  have h2 : ((meshSystem .trio default).restrict (SparesLast .trio default)).Reachable s₂ := by
    refine h1.next (e := at_ 0 (.applyRouteMessage .register "r" (announcement "node-b" 90)))
      ⟨?_, rfl⟩
    rintro sid - - ⟨_, _, _, _, _, hno, _⟩
    cases hno
  have hspares : SparesLast .trio default s₂ (removal "r") := by
    intro sid hsid _ _
    have hkeys : sid ∈ s₂.mesh.sessionNodes.keys := Dict.contains_iff_mem_keys.mp hsid
    have honly : s₂.mesh.sessionNodes.keys = ["s"] := by decide +kernel
    rw [honly, List.mem_singleton] at hkeys
    have hentry : (s₂.mesh.entry "q" ("node-b", "s")).map Descriptor.key =
        some ("node-b", "s") := by decide +kernel
    obtain ⟨d, hd, hkey⟩ := Option.map_eq_some_iff.mp hentry
    refine ⟨"q", d, hkey ▸ hd, (congrArg Prod.snd hkey).trans hkeys.symm, ?_⟩
    rintro ⟨htag, -⟩
    exact absurd htag (by decide)
  exact ⟨_, by decide +kernel, session_nodes_covered (h2.next ⟨hspares, rfl⟩)⟩

/-- After its withdrawal from both the map still has the session. -/
theorem session_outlives_descriptors :
    ∃ s : MeshRun, (meshSystem .trio default).Reachable s ∧
      s.mesh.sessionNodes.get? "s" = some "node-b" ∧ ∀ d, ¬ s.mesh.Holds d := by
  let s := (announcedOnTwo ++ [removal "q", removal "r"]).foldl (MeshRun.after .trio default)
    ⟨.new .trio "i", ⟨0, 0⟩⟩
  have h0 : ((meshSystem .trio default).restrict fun _ _ => True).Reachable
      ⟨.new .trio "i", ⟨0, 0⟩⟩ := .start ⟨"i", rfl⟩
  have hs : ((meshSystem .trio default).restrict fun _ _ => True).Reachable s :=
    System.reachable_foldl h0 _ (by decide +kernel)
  have hregistry : s.mesh.routeRegistry.keys = [] := by decide +kernel
  have hcache : s.mesh.descriptorCache.keys = [] := by decide +kernel
  refine ⟨s, hs.of_restrict, by decide +kernel, ?_⟩
  rintro d (⟨tag, route, key, hroute, -⟩ | ⟨sid, hd⟩)
  · have hmem : tag ∈ s.mesh.routeRegistry.keys := Dict.mem_keys.mpr ⟨route, hroute⟩
    rw [hregistry] at hmem
    cases hmem
  · have hmem : sid ∈ s.mesh.descriptorCache.keys := Dict.mem_keys.mpr ⟨d, hd⟩
    rw [hcache] at hmem
    cases hmem

end NodeMesh

end Masterserver
