import Masterserver.Proofs.MeshOps
import Mathlib.Algebra.Order.Group.Int

/-!
# The route registry counts what it holds

`routeDescriptorCount` is kept by hand next to the registry: one more for a
new key, one less for a dropped one, a whole route's size when the route goes.
`RegistryInvariant` compares it with the sum it stands for and adds what keeps
that sum bounded and the entries findable. The bookkeeping is the same
whichever edit does it: the total moves by what the one route that is written
moves, `total_storeRoute` and `total_set`.
-/

namespace Masterserver.NodeMesh

open Lib

variable {m : MeshConfig} {cr : Crypto} {hub : Hub} {now : Seconds} {mesh mesh' : NodeMesh}
  {E : String → Prop}

abbrev Route := Dict (String × String) Descriptor

/-- The number of descriptors in all routes together. -/
def total (registry : Dict String Route) : Int := registry.sumBy fun _ route => (route.size : Int)

theorem total_erase (registry : Dict String Route) (tag : String) :
    total (registry.erase tag) = total registry - (registry.getD tag ∅).size := by
  unfold total Dict.getD
  cases h : registry.get? tag with
  | none => rw [Dict.erase_of_get?_eq_none h]; simp
  | some route =>
      rw [Dict.sumBy_eq_add_erase _ h, Option.getD_some]
      omega

theorem total_set (registry : Dict String Route) (tag : String) (route : Route) :
    total (registry.set tag route) =
      total registry - (registry.getD tag ∅).size + route.size := by
  have herase := total_erase registry tag
  unfold total at herase ⊢
  rw [Dict.sumBy_set, herase]
  omega

theorem total_storeRoute (mesh : NodeMesh) (tag : String) (route : Route) :
    total (mesh.storeRoute tag route).routeRegistry =
      total mesh.routeRegistry - (mesh.routeRegistry.getD tag ∅).size + route.size := by
  unfold storeRoute
  by_cases h : route.size = 0
  · simp only [if_pos h, total_erase]
    omega
  · simp only [if_neg h, total_set]

theorem get?_storeRoute {tag t : String} {route r : Route}
    (h : (mesh.storeRoute tag route).routeRegistry.get? t = some r) :
    (t = tag ∧ r = route ∧ route.size ≠ 0) ∨ (t ≠ tag ∧ mesh.routeRegistry.get? t = some r) := by
  unfold storeRoute at h
  by_cases hsize : route.size = 0
  · simp only [if_pos hsize] at h
    exact .inr (Dict.get?_erase_eq_some.mp h)
  · simp only [if_neg hsize, Dict.get?_set] at h
    split at h
    · next heq => cases h; exact .inl ⟨heq, rfl, hsize⟩
    · next hne => exact .inr ⟨hne, h⟩

structure RegistryInvariant (m : MeshConfig) (mesh : NodeMesh) : Prop where
  count : mesh.routeDescriptorCount = total mesh.routeRegistry
  count_le : mesh.routeDescriptorCount ≤ m.nodeMeshMaxRouteDescriptors
  noEmptyRoute : ∀ tag route, mesh.routeRegistry.get? tag = some route → route.size ≠ 0
  keyed : ∀ tag route, mesh.routeRegistry.get? tag = some route →
    ∀ key d, route.get? key = some d → key = d.key
  cacheKeyed : ∀ sid d, mesh.descriptorCache.get? sid = some d → sid = d.sessionId
  cache_le : mesh.descriptorCache.size ≤ m.nodeMeshMaxRouteDescriptors

namespace RegistryInvariant

theorem keyed_getD (h : RegistryInvariant m mesh) (tag : String) {key : String × String}
    {d : Descriptor} (hd : (mesh.routeRegistry.getD tag ∅).get? key = some d) : key = d.key := by
  unfold Dict.getD at hd
  cases hr : mesh.routeRegistry.get? tag with
  | none => rw [hr] at hd; cases hd
  | some route => rw [hr] at hd; exact h.keyed tag route hr key d hd

theorem count_nonneg (h : RegistryInvariant m mesh) : 0 ≤ mesh.routeDescriptorCount := by
  rw [h.count]
  exact Dict.sumBy_nonneg fun _ _ => Int.natCast_nonneg _

/-- One route is stored anew, with no more entries than it had and none that
is misplaced, and the count follows. -/
theorem storeRoute (h : RegistryInvariant m mesh) {tag : String} {route : Route} {count : Int}
    (hsize : route.size ≤ (mesh.routeRegistry.getD tag ∅).size)
    (hkeyed : ∀ key d, route.get? key = some d → key = d.key)
    (hcount : count =
      mesh.routeDescriptorCount - ((mesh.routeRegistry.getD tag ∅).size - route.size)) :
    RegistryInvariant m
      { mesh.storeRoute tag route with routeDescriptorCount := count } where
  count := by
    simp only [total_storeRoute, ← h.count]
    omega
  count_le := by
    have hle := h.count_le
    simp only
    omega
  noEmptyRoute t r hr := by
    obtain ⟨-, rfl, hne⟩ | ⟨-, hr⟩ := get?_storeRoute hr
    · exact hne
    · exact h.noEmptyRoute t r hr
  keyed t r hr := by
    obtain ⟨-, rfl, -⟩ | ⟨-, hr⟩ := get?_storeRoute hr
    · exact hkeyed
    · exact h.keyed t r hr
  cacheKeyed := h.cacheKeyed
  cache_le := h.cache_le

theorem new (m : MeshConfig) (incarnation : String) :
    RegistryInvariant m (.new m incarnation) where
  count := rfl
  count_le := Int.natCast_nonneg _
  noEmptyRoute _ _ h := by cases h
  keyed _ _ h := by cases h
  cacheKeyed _ _ h := by cases h
  cache_le := Nat.zero_le _

theorem removeDescriptor (h : RegistryInvariant m mesh) (tag : String)
    (key : String × String) : RegistryInvariant m (mesh.removeDescriptor tag key) := by
  unfold NodeMesh.removeDescriptor
  split
  · exact h
  · next route hroute =>
      have hold : mesh.routeRegistry.getD tag ∅ = route := by simp [Dict.getD, hroute]
      refine h.storeRoute ?_ ?_ ?_
      · rw [hold]; exact Dict.size_erase_le _ _
      · intro k d hd
        exact h.keyed tag route hroute k d (Dict.get?_erase_eq_some.mp hd).2
      · rw [hold]
        cases hd : route.get? key with
        | none =>
            rw [Dict.erase_of_get?_eq_none hd, if_neg (by simp [Dict.contains, hd])]
            omega
        | some d =>
            have hsize := Dict.size_erase hd
            rw [if_pos (Dict.contains_iff.mpr ⟨d, hd⟩)]
            omega

/-- A new key is only let in below the cap, and an old one changes nothing. -/
theorem insertDescriptor (h : RegistryInvariant m mesh) (tag : String) (d : Descriptor) :
    RegistryInvariant m (mesh.insertDescriptor m tag d) := by
  unfold NodeMesh.insertDescriptor
  simp only
  split
  · exact h.storeRoute (le_refl _) (fun k d' hd => h.keyed_getD tag hd) (by omega)
  · next hroom =>
      have hsize := Dict.size_set (mesh.routeRegistry.getD tag ∅) d.key d
      rw [not_and, not_le, Bool.not_eq_true'] at hroom
      have hle := h.count_le
      have hbook : (((mesh.routeRegistry.getD tag ∅).set d.key d).size : Int) =
          (mesh.routeRegistry.getD tag ∅).size +
            (if (mesh.routeRegistry.getD tag ∅).contains d.key then 0 else 1) := by
        rw [hsize]
        split <;> simp
      constructor
      · simp only [total_set, ← h.count, hbook]
        omega
      · simp only
        split
        · omega
        · next hnew =>
            have := hroom (by simpa using hnew)
            omega
      · intro t r hr
        rw [Dict.get?_set] at hr
        split at hr
        · cases hr; exact Dict.ne_empty_of_get? (Dict.get?_set_self _ d.key d)
        · exact h.noEmptyRoute t r hr
      · intro t r hr k d' hd
        rw [Dict.get?_set] at hr
        split at hr
        · cases hr
          rw [Dict.get?_set] at hd
          split at hd
          · next hk => cases hd; exact hk
          · exact h.keyed_getD tag hd
        · exact h.keyed t r hr k d' hd
      · exact h.cacheKeyed
      · exact h.cache_le

theorem filterRoute (h : RegistryInvariant m mesh) (keep : Descriptor → Bool) (tag : String) :
    RegistryInvariant m (mesh.filterRoute keep tag) := by
  unfold NodeMesh.filterRoute
  split
  · exact h
  · next route hroute =>
      have hold : mesh.routeRegistry.getD tag ∅ = route := by simp [Dict.getD, hroute]
      refine h.storeRoute ?_ ?_ ?_
      · rw [hold]; exact Dict.size_filter_le _ _
      · intro k d hd
        exact h.keyed tag route hroute k d (Dict.get?_filter_eq_some.mp hd).1
      · rw [hold]

theorem dropRoute (h : RegistryInvariant m mesh) (tag : String) :
    RegistryInvariant m { mesh with
      routeRegistry := mesh.routeRegistry.erase tag
      routeDescriptorCount :=
        mesh.routeDescriptorCount - (mesh.routeRegistry.getD tag ∅).size } where
  count := by simp only [total_erase, h.count]
  count_le := by
    have hle := h.count_le
    simp only
    omega
  noEmptyRoute t r hr := h.noEmptyRoute t r (Dict.get?_erase_eq_some.mp hr).2
  keyed t r hr := h.keyed t r (Dict.get?_erase_eq_some.mp hr).2
  cacheKeyed := h.cacheKeyed
  cache_le := h.cache_le

theorem edit (h : RegistryInvariant m mesh) (he : Edit m hub now E mesh mesh') :
    RegistryInvariant m mesh' := by
  cases he with
  | insert tag d _ _ => exact h.insertDescriptor tag d
  | remove tag key => exact h.removeDescriptor tag key
  | @tidy tag route hroute =>
      have hold : mesh.routeRegistry.getD tag ∅ = route := by simp [Dict.getD, hroute]
      exact h.storeRoute (by rw [hold]) (h.keyed tag route hroute) (by rw [hold]; omega)
  | filter keep tag => exact h.filterRoute keep tag
  | dropRoute tag => exact h.dropRoute tag
  | cache d _ _ hroom =>
      refine ⟨h.count, h.count_le, h.noEmptyRoute, h.keyed, ?_, ?_⟩
      · intro sid d' hd
        rw [Dict.get?_set] at hd
        split at hd
        · next hsid => cases hd; exact hsid
        · exact h.cacheKeyed sid d' hd
      · have hle := h.cache_le
        simp only [Dict.size_set]
        split
        · exact hle
        · next hnew =>
            obtain hold | hroom := hroom
            · exact absurd hold hnew
            · exact hroom
  | expire sid _ =>
      unfold pruneCached
      split
      · exact h
      · split
        · refine ⟨h.count, h.count_le, h.noEmptyRoute, h.keyed, ?_, ?_⟩
          · intro s d' hd
            exact h.cacheKeyed s d' (Dict.get?_erase_eq_some.mp hd).2
          · exact (Dict.size_erase_le _ _).trans h.cache_le
        · exact h

theorem change (h : RegistryInvariant m mesh) (hc : Change m hub now E mesh mesh') :
    RegistryInvariant m mesh' := by
  cases hc with
  | edit he => exact h.edit he
  | frame hsame =>
      obtain ⟨hreg, hcount, -, hcache⟩ := hsame
      constructor
      · rw [hcount, hreg]; exact h.count
      · rw [hcount]; exact h.count_le
      · rw [hreg]; exact h.noEmptyRoute
      · rw [hreg]; exact h.keyed
      · rw [hcache]; exact h.cacheKeyed
      · rw [hcache]; exact h.cache_le
  | clear => exact .new m mesh.incarnation

theorem apply (h : RegistryInvariant m mesh) (clocks : Clocks) (op : MeshOp) :
    RegistryInvariant m (op.apply m cr hub clocks mesh) :=
  (changes_apply (E := fun _ => True) mesh clocks fun _ _ => trivial).invariant
    (fun _ _ h hc => h.change hc) h

end RegistryInvariant

theorem registryInvariant_of_reachable {s : MeshRun} (h : (meshSystem m cr).Reachable s) :
    RegistryInvariant m s.mesh := by
  refine h.invariant (P := fun s => RegistryInvariant m s.mesh) ?_ ?_
  · rintro s ⟨incarnation, hinit⟩
    rw [hinit]
    exact .new m incarnation
  · rintro s e s' hs rfl
    exact hs.apply e.now e.op

/-- In every reachable state the hand-kept count is the number of descriptors
in the registry and within the cap, no route is empty, every descriptor stands
under its own node and session, and the cache is within the cap. -/
theorem route_registry_counted {s : MeshRun} (h : (meshSystem m cr).Reachable s) :
    s.mesh.routeDescriptorCount =
        (s.mesh.routeRegistry.sumBy fun _ route => (route.size : Int)) ∧
      0 ≤ s.mesh.routeDescriptorCount ∧
      s.mesh.routeDescriptorCount ≤ m.nodeMeshMaxRouteDescriptors ∧
      (∀ tag route, s.mesh.routeRegistry.get? tag = some route → route.size ≠ 0) ∧
      (∀ tag route, s.mesh.routeRegistry.get? tag = some route →
        ∀ key d, route.get? key = some d → key = (d.nodeId, d.sessionId)) ∧
      s.mesh.descriptorCache.size ≤ m.nodeMeshMaxRouteDescriptors := by
  have hinv := registryInvariant_of_reachable h
  exact ⟨hinv.count, hinv.count_nonneg, hinv.count_le, hinv.noEmptyRoute, hinv.keyed,
    hinv.cache_le⟩

/-- A registered descriptor is counted once. -/
theorem route_registry_counted_registered :
    ∃ s : MeshRun, s.mesh.routeDescriptorCount = 1 ∧
      s.mesh.routeDescriptorCount =
        s.mesh.routeRegistry.sumBy fun _ route => (route.size : Int) := by
  have h0 : (meshSystem .alone default).Reachable ⟨.new .alone "i", ⟨0, 0⟩⟩ := .start ⟨"i", rfl⟩
  have h1 := h0.next (e := at_ 0 (.applyRouteMessage .register "r"
    (.obj [("sessionId", .str "s"), ("nodeId", .str "n"), ("expiresAt", .int 60)]))) rfl
  exact ⟨_, by decide +kernel, (route_registry_counted h1).1⟩

end Masterserver.NodeMesh
