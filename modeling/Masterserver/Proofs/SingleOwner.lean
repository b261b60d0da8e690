import Masterserver.Proofs.Registry

/-!
# When a session belongs to one node

The session map is what keeps a second node from announcing a session: every
descriptor that is kept was checked against it, and writes it. So as long as a
node holds an unexpired descriptor the map names its node, provided nothing
takes the entry away meanwhile.

Expiry in the cache does. `_prune_routes` and `remote_descriptor` drop the
map's entry together with a cached descriptor that has expired, also where a
later announcement has refreshed the registered descriptor and only the cached
copy is old. From then on another node can announce the session while the
first node's descriptor is still valid, and a signal is not forwarded at all.
`CacheOutlives` is what has to hold where they run; in runs in which it always
does, the map is right. `session_announced_twice` is a run in which it fails.
-/

namespace Masterserver.NodeMesh

open Lib

variable {m : MeshConfig} {cr : Crypto} {hub : Hub} {now : Seconds} {mesh mesh' : NodeMesh}

/-- `d` is in the registry, under some route. -/
def Registered (mesh : NodeMesh) (d : Descriptor) : Prop :=
  ∃ tag route key, mesh.routeRegistry.get? tag = some route ∧ route.get? key = some d

def Cached (mesh : NodeMesh) (d : Descriptor) : Prop :=
  ∃ sid, mesh.descriptorCache.get? sid = some d

def Holds (mesh : NodeMesh) (d : Descriptor) : Prop := mesh.Registered d ∨ mesh.Cached d

/-- Every unexpired descriptor is its node's according to the session map. -/
def SingleOwner (mesh : NodeMesh) (now : Seconds) : Prop :=
  ∀ d, mesh.Holds d → pyInt now < d.expiresAt →
    mesh.sessionNodes.get? d.sessionId = some d.nodeId

/-- If a session's cached descriptor has expired, its registered ones have. -/
def CacheOutlives (mesh : NodeMesh) (now : Seconds) (sid : String) : Prop :=
  ∀ dc, mesh.descriptorCache.get? sid = some dc → dc.expiresAt ≤ pyInt now →
    ∀ d, mesh.Registered d → d.sessionId = sid → d.expiresAt ≤ pyInt now

theorem pyInt_mono {x y : Seconds} (h : x ≤ y) : pyInt x ≤ pyInt y := by
  unfold pyInt
  split
  · next hx => rw [if_pos (hx.trans h)]; exact Int.floor_mono h
  · next hx =>
      split
      · next hy =>
          have hceil : ⌈x⌉ ≤ 0 := Int.ceil_le.mpr (by exact_mod_cast (not_le.mp hx).le)
          exact hceil.trans (Int.floor_nonneg.mpr hy)
      · exact Int.ceil_mono h

namespace SingleOwner

theorem later {now' : Seconds} (h : mesh.SingleOwner now) (hle : now ≤ now') :
    mesh.SingleOwner now' :=
  fun d hd hexp => h d hd ((pyInt_mono hle).trans_lt hexp)

/-- Fewer descriptors, the same map. -/
theorem of_subset (h : mesh.SingleOwner now) (hnodes : mesh'.sessionNodes = mesh.sessionNodes)
    (hsub : ∀ d, mesh'.Holds d → mesh.Holds d) : mesh'.SingleOwner now := by
  intro d hd hexp
  rw [hnodes]
  exact h d (hsub d hd) hexp

/-- A descriptor that passed the ownership check takes its place in the map,
and no descriptor of another node for its session is still valid. -/
theorem of_set (h : mesh.SingleOwner now) {d : Descriptor}
    (howns : mesh.ownsSession m hub d.nodeId d.sessionId = true)
    (hnodes : mesh'.sessionNodes = mesh.sessionNodes.set d.sessionId d.nodeId)
    (hsub : ∀ d', mesh'.Holds d' → d' = d ∨ mesh.Holds d') : mesh'.SingleOwner now := by
  intro d' hd' hexp
  rw [hnodes, Dict.get?_set]
  obtain rfl | hold := hsub d' hd'
  · rw [if_pos rfl]
  · have hmap := h d' hold hexp
    split
    · next hsid =>
        rw [ownsSession, ← hsid, hmap, Bool.and_eq_true] at howns
        have hnode : d'.nodeId = d.nodeId := by simpa using howns.2
        rw [hnode]
    · exact hmap

end SingleOwner

theorem registered_storeRoute {tag : String} {route : Route} {count : Int} {d : Descriptor}
    (h : Registered { mesh.storeRoute tag route with routeDescriptorCount := count } d) :
    (∃ key, route.get? key = some d) ∨ mesh.Registered d := by
  obtain ⟨t, r, key, hr, hd⟩ := h
  obtain ⟨rfl, rfl, -⟩ | ⟨-, hr⟩ := get?_storeRoute hr
  · exact .inl ⟨key, hd⟩
  · exact .inr ⟨t, r, key, hr, hd⟩

theorem registered_of_getD {tag : String} {key : String × String} {d : Descriptor}
    (h : (mesh.routeRegistry.getD tag ∅).get? key = some d) : mesh.Registered d := by
  unfold Dict.getD at h
  cases hr : mesh.routeRegistry.get? tag with
  | none => rw [hr] at h; cases h
  | some route => rw [hr] at h; exact ⟨tag, route, key, hr, h⟩

theorem SingleOwner.filterRoute (h : mesh.SingleOwner now) (keep : Descriptor → Bool)
    (tag : String) : (mesh.filterRoute keep tag).SingleOwner now := by
  unfold NodeMesh.filterRoute
  split
  · exact h
  · next route hroute =>
      refine h.of_subset rfl fun d hd => ?_
      obtain hd | hd := hd
      · obtain ⟨k, hk⟩ | hd := registered_storeRoute hd
        · exact .inl ⟨tag, route, k, hroute, (Dict.get?_filter_eq_some.mp hk).1⟩
        · exact .inl hd
      · exact .inr hd

/-- No edit but an expiry loosens the map. -/
theorem SingleOwner.edit (h : mesh.SingleOwner now)
    (he : Edit m hub now (fun _ => False) mesh mesh') : mesh'.SingleOwner now := by
  cases he with
  | insert tag d _ howns =>
      unfold insertDescriptor
      simp only
      split
      · refine h.of_subset rfl fun d' hd => ?_
        obtain hd | hd := hd
        · obtain ⟨key, hkey⟩ | hd := registered_storeRoute hd
          · exact .inl (registered_of_getD hkey)
          · exact .inl hd
        · exact .inr hd
      · refine h.of_set howns rfl fun d' hd => ?_
        obtain ⟨t, r, key, hr, hd⟩ | hd := hd
        · rw [Dict.get?_set] at hr
          split at hr
          · cases hr
            rw [Dict.get?_set] at hd
            split at hd
            · cases hd; exact .inl rfl
            · exact .inr (.inl (registered_of_getD hd))
          · exact .inr (.inl ⟨t, r, key, hr, hd⟩)
        · exact .inr (.inr hd)
  | remove tag key =>
      unfold removeDescriptor
      split
      · exact h
      · next route hroute =>
          refine h.of_subset rfl fun d hd => ?_
          obtain hd | hd := hd
          · obtain ⟨k, hk⟩ | hd := registered_storeRoute hd
            · exact .inl ⟨tag, route, k, hroute, (Dict.get?_erase_eq_some.mp hk).2⟩
            · exact .inl hd
          · exact .inr hd
  | @tidy tag route hroute =>
      refine h.of_subset rfl fun d hd => ?_
      obtain hd | hd := hd
      · obtain ⟨k, hk⟩ | hd := registered_storeRoute hd
        · exact .inl ⟨tag, route, k, hroute, hk⟩
        · exact .inl hd
      · exact .inr hd
  | filter keep tag => exact h.filterRoute keep tag
  | dropRoute tag =>
      refine h.of_subset rfl fun d hd => ?_
      obtain ⟨t, r, key, hr, hd⟩ | hd := hd
      · exact .inl ⟨t, r, key, (Dict.get?_erase_eq_some.mp hr).2, hd⟩
      · exact .inr hd
  | cache d _ howns _ =>
      refine h.of_set howns rfl fun d' hd => ?_
      obtain hd | ⟨sid, hd⟩ := hd
      · exact .inr (.inl hd)
      · rw [Dict.get?_set] at hd
        split at hd
        · cases hd; exact .inl rfl
        · exact .inr (.inr ⟨sid, hd⟩)
  | expire sid hsid => exact hsid.elim

theorem SingleOwner.change (h : mesh.SingleOwner now)
    (hc : Change m hub now (fun _ => False) mesh mesh') : mesh'.SingleOwner now := by
  cases hc with
  | edit he => exact h.edit he
  | frame hsame =>
      obtain ⟨hreg, -, hnodes, hcache⟩ := hsame
      refine h.of_subset hnodes fun d hd => ?_
      unfold Holds Registered Cached at hd
      rwa [hreg, hcache] at hd
  | clear =>
      intro d hd
      obtain ⟨t, r, key, hr, -⟩ | ⟨sid, hd⟩ := hd
      · cases hr
      · cases hd

/-! ## Expiry -/

theorem pruneCached_cases (mesh : NodeMesh) (now : Seconds) (sid : String) :
    mesh.pruneCached now sid = mesh ∨
    ∃ d, mesh.descriptorCache.get? sid = some d ∧ d.expiresAt ≤ pyInt now ∧
      mesh.pruneCached now sid = { mesh with
        descriptorCache := mesh.descriptorCache.erase sid
        sessionNodes := mesh.sessionNodes.erase sid } := by
  unfold pruneCached
  split
  · exact .inl rfl
  · next d hd =>
      split
      · next hexp => exact .inr ⟨d, hd, hexp, rfl⟩
      · exact .inl rfl

/-- A stale cached copy may go when nothing newer is registered. -/
theorem SingleOwner.pruneCached (h : mesh.SingleOwner now)
    (hkeyed : ∀ sid d, mesh.descriptorCache.get? sid = some d → sid = d.sessionId) {sid : String}
    (hout : mesh.CacheOutlives now sid) : (mesh.pruneCached now sid).SingleOwner now := by
  obtain heq | ⟨dc, hdc, hexp, heq⟩ := pruneCached_cases mesh now sid
  · rw [heq]; exact h
  · rw [heq]
    intro d hd hlt
    obtain hd | ⟨s, hd⟩ := hd
    · have hne : d.sessionId ≠ sid := fun hsid =>
        absurd (hout dc hdc hexp d hd hsid) (not_le.mpr hlt)
      rw [Dict.get?_erase_of_ne _ hne]
      exact h d (.inl hd) hlt
    · obtain ⟨hne, hd⟩ := Dict.get?_erase_eq_some.mp hd
      have hs := hkeyed s d hd
      rw [Dict.get?_erase_of_ne _ (hs ▸ hne)]
      exact h d (.inr ⟨s, hd⟩) hlt

/-- What the first loop of `_prune_routes` keeps, relative to where it began. -/
structure Pruned (now : Seconds) (mesh mesh' : NodeMesh) : Prop where
  singleOwner : mesh'.SingleOwner now
  registry : mesh'.routeRegistry = mesh.routeRegistry
  cache : ∀ sid d, mesh'.descriptorCache.get? sid = some d →
    mesh.descriptorCache.get? sid = some d

theorem SingleOwner.pruneRoutes (h : mesh.SingleOwner now)
    (hkeyed : ∀ sid d, mesh.descriptorCache.get? sid = some d → sid = d.sessionId)
    (hout : ∀ sid, mesh.CacheOutlives now sid) : (mesh.pruneRoutes now).SingleOwner now := by
  have hloop : Pruned now mesh (mesh.descriptorCache.keys.foldl
      (fun mesh sid => mesh.pruneCached now sid) mesh) := by
    refine foldl_invariant (P := Pruned now mesh) _ ⟨h, rfl, fun _ _ hd => hd⟩ ?_
    intro mesh' sid _ hp
    have hout' : mesh'.CacheOutlives now sid := by
      intro dc hdc hexp d hd hsid
      refine hout sid dc (hp.cache sid dc hdc) hexp d ?_ hsid
      unfold Registered at hd ⊢
      rwa [hp.registry] at hd
    refine ⟨hp.singleOwner.pruneCached (fun s d hd => hkeyed s d (hp.cache s d hd)) hout', ?_, ?_⟩
    · obtain heq | ⟨_, -, -, heq⟩ := pruneCached_cases mesh' now sid
      · rw [heq, hp.registry]
      · rw [heq]; exact hp.registry
    · intro s d hd
      obtain heq | ⟨_, -, -, heq⟩ := pruneCached_cases mesh' now sid
      · rw [heq] at hd; exact hp.cache s d hd
      · rw [heq] at hd; exact hp.cache s d (Dict.get?_erase_eq_some.mp hd).2
  exact foldl_invariant (P := fun mesh : NodeMesh => mesh.SingleOwner now) _ hloop.singleOwner
    fun _ tag _ hb => hb.filterRoute _ tag

/-! ## Over a whole run -/

/-- The wall clock does not run backwards. -/
def Orderly (s : MeshRun) (e : MeshEvent) : Prop := s.clocks.wall ≤ e.now.wall

instance (s : MeshRun) (e : MeshEvent) : Decidable (Orderly s e) :=
  inferInstanceAs (Decidable (_ ≤ _))

/-- Whatever the operation may expire has no newer descriptor registered. -/
def ExpiresSafely (s : MeshRun) (e : MeshEvent) : Prop :=
  ∀ sid, e.op.expires sid → s.mesh.CacheOutlives e.now.wall sid

theorem SingleOwner.apply (h : mesh.SingleOwner now) {e : MeshEvent} (hle : now ≤ e.now.wall)
    (hkeyed : ∀ sid d, mesh.descriptorCache.get? sid = some d → sid = d.sessionId)
    (hout : ∀ sid, e.op.expires sid → mesh.CacheOutlives e.now.wall sid) :
    (e.op.apply m cr e.hub e.now mesh).SingleOwner e.now.wall := by
  have hnow := h.later hle
  obtain ⟨ehub, enow, op⟩ := e
  have hedits (hno : ∀ sid, ¬ op.expires sid) :
      (op.apply m cr ehub enow mesh).SingleOwner enow.wall :=
    (changes_apply mesh enow hno).invariant (P := fun mesh => mesh.SingleOwner enow.wall)
      (fun _ _ h hc => h.change hc) hnow
  cases op with
  | pruneRoutes => exact hnow.pruneRoutes hkeyed fun sid => hout sid trivial
  | remoteDescriptor target =>
      simp only [MeshOp.apply, remoteDescriptor_fst]
      exact hnow.pruneCached hkeyed (hout target rfl)
  | _ => exact hedits fun _ => id

theorem singleOwner_of_reachable {s : MeshRun}
    (h : ((meshSystem m cr).restrict fun s e => Orderly s e ∧ ExpiresSafely s e).Reachable s) :
    s.mesh.SingleOwner s.clocks.wall := by
  have hinv : RegistryInvariant m s.mesh ∧ s.mesh.SingleOwner s.clocks.wall := by
    refine h.invariant
      (P := fun s => RegistryInvariant m s.mesh ∧ s.mesh.SingleOwner s.clocks.wall) ?_ ?_
    · rintro s ⟨incarnation, hinit⟩
      rw [hinit]
      refine ⟨.new m incarnation, ?_⟩
      rintro d (⟨t, r, key, hr, -⟩ | ⟨sid, hd⟩)
      · cases hr
      · cases hd
    · rintro s e s' ⟨hreg, howner⟩ ⟨⟨horderly, hsafe⟩, rfl⟩
      exact ⟨hreg.apply e.now e.op, howner.apply horderly hreg.cacheKeyed hsafe⟩
  exact hinv.2

/-- Where the registry answers, it holds no expired descriptor of the session. -/
def RegistryCurrent (mesh : NodeMesh) (now : Seconds) (sid : String) : Prop :=
  ∀ d, mesh.Registered d → d.sessionId = sid → pyInt now < d.expiresAt

theorem find?_registered {d : Descriptor} {p : Descriptor → Bool}
    (h : (mesh.routeRegistry.values.flatMap Dict.values).find? p = some d) :
    mesh.Registered d ∧ p d = true := by
  have hmem := List.mem_of_find?_eq_some h
  obtain ⟨route, hroute, hd⟩ := List.mem_flatMap.mp hmem
  obtain ⟨tag, htag⟩ := Dict.mem_values.mp hroute
  obtain ⟨key, hkey⟩ := Dict.mem_values.mp hd
  exact ⟨⟨tag, route, key, htag, hkey⟩, List.find?_some h⟩

/-- The descriptor `remote_descriptor` answers with names the node the session
map leads to. -/
theorem SingleOwner.remoteDescriptor (h : mesh.SingleOwner now)
    (hkeyed : ∀ sid d, mesh.descriptorCache.get? sid = some d → sid = d.sessionId) {sid : String}
    (hout : mesh.CacheOutlives now sid) (hcur : mesh.RegistryCurrent now sid) {d : Descriptor}
    (hd : (mesh.remoteDescriptor now sid).2 = some d) :
    (mesh.remoteDescriptor now sid).1.sessionNodes.get? sid = some d.nodeId := by
  unfold NodeMesh.remoteDescriptor at hd ⊢
  cases hc : mesh.descriptorCache.get? sid with
  | some dc =>
      rw [hc] at hd
      simp only at hd ⊢
      split at hd
      · next hlt =>
          cases hd
          have hmap := h d (.inr ⟨sid, hc⟩) hlt
          rw [← hkeyed sid d hc] at hmap
          rwa [if_pos hlt]
      · next hexp =>
          -- The fallback after an expired copy: anything it finds has expired too.
          obtain ⟨hreg, hp⟩ := find?_registered hd
          have hd' : d.sessionId = sid := by simpa using hp
          have hle := hout dc hc (not_lt.mp hexp) d hreg hd'
          exact absurd (hcur d hreg hd') (not_lt.mpr hle)
  | none =>
      rw [hc] at hd
      obtain ⟨hreg, hp⟩ := find?_registered hd
      have hd' : d.sessionId = sid := by simpa using hp
      have hmap := h d (.inl hreg) (hcur d hreg hd')
      rwa [hd'] at hmap

theorem forwardSignal_link {requestId tag sid node : String} {envelope : Json} {send : Send}
    (hnode : mesh.sessionNodes.get? sid = some node)
    (hsend : (mesh.forwardSignal m requestId tag sid envelope).2 = some send) :
    mesh.connections.get? node = some send.link := by
  unfold NodeMesh.forwardSignal at hsend
  rw [hnode] at hsend
  simp only at hsend
  split at hsend
  · cases hsend
  · split at hsend
    · cases hsend
    · next link hlink =>
        split at hsend
        · cases hsend
        · cases hsend; exact hlink

/-- In every state of every run that only ever expires safely, an unexpired
descriptor's session is mapped to its node, no two nodes hold unexpired
descriptors for one session, and a signal forwarded on the strength of
`remote_descriptor`'s answer goes to the node the answer names. -/
theorem session_owner_unique {s : MeshRun}
    (h : ((meshSystem m cr).restrict fun s e => Orderly s e ∧ ExpiresSafely s e).Reachable s) :
    (∀ d, s.mesh.Holds d → pyInt s.clocks.wall < d.expiresAt →
      s.mesh.sessionNodes.get? d.sessionId = some d.nodeId) ∧
    (∀ d d', s.mesh.Holds d → s.mesh.Holds d' → pyInt s.clocks.wall < d.expiresAt →
      pyInt s.clocks.wall < d'.expiresAt → d.sessionId = d'.sessionId →
      d.nodeId = d'.nodeId) ∧
    ∀ now sid d requestId tag envelope send, s.clocks.wall ≤ now →
      s.mesh.CacheOutlives now sid → s.mesh.RegistryCurrent now sid →
      (s.mesh.remoteDescriptor now sid).2 = some d →
      ((s.mesh.remoteDescriptor now sid).1.forwardSignal m requestId tag sid envelope).2 =
        some send →
      (s.mesh.remoteDescriptor now sid).1.connections.get? d.nodeId = some send.link := by
  have howner := singleOwner_of_reachable h
  have hreg : RegistryInvariant m s.mesh :=
    registryInvariant_of_reachable (Lib.System.Reachable.of_restrict h)
  refine ⟨howner, ?_, ?_⟩
  · intro d d' hd hd' hexp hexp' hsid
    have hmap := howner d hd hexp
    rw [hsid, howner d' hd' hexp', Option.some.injEq] at hmap
    exact hmap.symm
  · intro now sid d requestId tag envelope send hle hout hcur hd hsend
    have hnode := (howner.later hle).remoteDescriptor hreg.cacheKeyed hout hcur hd
    exact forwardSignal_link hnode hsend

/-- An announcement of session `s` by a node. -/
def announcement (nodeId : String) (expiresAt : Int) : Json :=
  .obj [("sessionId", .str "s"), ("nodeId", .str nodeId), ("expiresAt", .int expiresAt)]

theorem registered_of_lookup (mesh : NodeMesh) (tag : String) (key : String × String)
    {x : String × String × Int}
    (h : ((mesh.routeRegistry.get? tag).bind fun route => route.get? key).map
      (fun d => (d.sessionId, d.nodeId, d.expiresAt)) = some x) :
    ∃ d, mesh.Registered d ∧ d.sessionId = x.1 ∧ d.nodeId = x.2.1 ∧ d.expiresAt = x.2.2 := by
  obtain ⟨d, hd, rfl⟩ := Option.map_eq_some_iff.mp h
  obtain ⟨route, hroute, hd⟩ := Option.bind_eq_some_iff.mp hd
  exact ⟨d, ⟨tag, route, key, hroute, hd⟩, rfl, rfl, rfl⟩

theorem session_owner_unique_announced :
    ∃ s : MeshRun, s.mesh.routeDescriptorCount = 1 ∧
      ∀ d, s.mesh.Holds d → pyInt s.clocks.wall < d.expiresAt →
        s.mesh.sessionNodes.get? d.sessionId = some d.nodeId := by
  have h0 : ((meshSystem .trio default).restrict
      fun s e => Orderly s e ∧ ExpiresSafely s e).Reachable ⟨.new .trio "i", ⟨0, 0⟩⟩ :=
    .start ⟨"i", rfl⟩
  have h1 := h0.next (e := at_ 0 (.applyRouteMessage .register "r" (announcement "node-b" 90)))
    ⟨⟨le_refl _, nofun⟩, rfl⟩
  exact ⟨_, by decide +kernel, (session_owner_unique h1).1⟩

/-- `node-b` announces a session, the announcement is cached and later renewed
in the registry; the pruning that drops the cached copy lets `node-c` announce
the same session while `node-b`'s descriptor is still good for a minute. -/
def announcedTwice : List MeshEvent :=
  [at_ 0 (.applyRouteMessage .register "r" (announcement "node-b" 90)),
    at_ 0 (.cacheDescriptor (announcement "node-b" 90)),
    at_ 60 (.applyRouteMessage .register "r" (announcement "node-b" 150)),
    at_ 91 .pruneRoutes,
    at_ 91 (.applyRouteMessage .register "r" (announcement "node-c" 181))]

theorem session_announced_twice :
    ∃ s : MeshRun, ((meshSystem .trio default).restrict Orderly).Reachable s ∧
      ¬ s.mesh.SingleOwner s.clocks.wall ∧
      ∃ d d', s.mesh.Registered d ∧ s.mesh.Registered d' ∧ pyInt s.clocks.wall < d.expiresAt ∧
        pyInt s.clocks.wall < d'.expiresAt ∧ d.sessionId = d'.sessionId ∧
        d.nodeId ≠ d'.nodeId := by
  let s := announcedTwice.foldl (MeshRun.after .trio default) ⟨.new .trio "i", ⟨0, 0⟩⟩
  have h0 : ((meshSystem .trio default).restrict Orderly).Reachable ⟨.new .trio "i", ⟨0, 0⟩⟩ :=
    .start ⟨"i", rfl⟩
  have hs : ((meshSystem .trio default).restrict Orderly).Reachable s :=
    System.reachable_foldl h0 _ (by decide +kernel)
  obtain ⟨d, hd, hsid, hnode, hexp⟩ := registered_of_lookup s.mesh "r"
    ("node-b", "s") (x := ("s", "node-b", 150)) (by decide +kernel)
  obtain ⟨d', hd', hsid', hnode', hexp'⟩ := registered_of_lookup s.mesh "r"
    ("node-c", "s") (x := ("s", "node-c", 181)) (by decide +kernel)
  have hlt : pyInt s.clocks.wall < d.expiresAt := by rw [hexp]; decide +kernel
  have hlt' : pyInt s.clocks.wall < d'.expiresAt := by rw [hexp']; decide +kernel
  have hne : d.nodeId ≠ d'.nodeId := by rw [hnode, hnode']; decide
  refine ⟨s, hs, fun howner => ?_, d, d', hd, hd', hlt, hlt', hsid.trans hsid'.symm, hne⟩
  have hmap := howner d (.inl hd) hlt
  rw [hsid, ← hsid', howner d' (.inl hd') hlt', Option.some.injEq] at hmap
  exact hne hmap.symm

end Masterserver.NodeMesh
