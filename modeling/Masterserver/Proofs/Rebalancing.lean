import Masterserver.Proofs.HubRoutes
import Masterserver.Proofs.Registry

/-!
# Rebalancing

After its review of the membership `_topology_changed` goes over the registry
and then over the local sessions. The first loop leaves no route that this node
does not own. The second announces every lease again; of what it does to this
node's own registry, three things are carried through it: nothing registered is
lost, the count never falls, and the session map gives no local session to
another node, so that a lease of an owned route can only be refused for want
of room. If there is room at the end there was room all along.
-/

namespace Masterserver.NodeMesh

open Lib

variable {m : MeshConfig} {cr : Crypto} {hub hub' : Hub} {now : Seconds}
  {mesh mesh' : NodeMesh}

/-! ## Registering one lease -/

theorem Descriptor.ofJson?_eq {raw : Json} {sid nid : String} {expiresAt : Int}
    (hs : (raw.get? "sessionId").bind Json.str? = some sid)
    (hn : (raw.get? "nodeId").bind Json.str? = some nid)
    (he : (raw.get? "expiresAt").bind Json.int? = some expiresAt) :
    Descriptor.ofJson? raw = some ⟨raw, sid, nid, expiresAt, hs, hn, he⟩ := by
  unfold Descriptor.ofJson?
  split
  · next hs' hn' he' =>
      rw [hs, Option.some.injEq] at hs'
      rw [hn, Option.some.injEq] at hn'
      rw [he, Option.some.injEq] at he'
      subst hs' hn' he'
      rfl
  · next hno => exact absurd he (hno sid nid expiresAt hs hn)

/-- The descriptor a local lease is registered under. -/
def leaseDescriptor (m : MeshConfig) (now : Seconds) (d : Hub.PeerDescriptor) : Descriptor where
  raw := localDescriptor m now d
  sessionId := d.sessionId
  nodeId := m.nodeId
  expiresAt := pyInt (now + m.routeLeaseSeconds)
  raw_sessionId := rfl
  raw_nodeId := rfl
  raw_expiresAt := rfl

theorem nodup_ownersFor (m : MeshConfig) (cr : Crypto) (mesh : NodeMesh) (tag : String) :
    (mesh.ownersFor m cr tag).Nodup :=
  (nodup_rankedBy (nodup_sorted _)).sublist (List.take_sublist _ _)

/-- Who owns a route is a matter of the membership. -/
theorem ownersFor_congr (h : mesh'.membershipNodes = mesh.membershipNodes) (tag : String) :
    mesh'.ownersFor m cr tag = mesh.ownersFor m cr tag := by
  unfold ownersFor
  rw [h]

theorem foldl_replicateTo (msgType : RouteMessageType) (tag : String) (descriptor : Json)
    (owners : List String) (hnd : owners.Nodup) (acc : NodeMesh × List Send) :
    (owners.foldl (replicateTo m hub now msgType tag descriptor) acc).1 =
      if m.nodeId ∈ owners then acc.1.applyRouteMessage m hub now msgType tag descriptor
      else acc.1 := by
  induction owners generalizing acc with
  | nil => rfl
  | cons owner rest ih =>
      obtain ⟨howner, hrest⟩ := List.nodup_cons.mp hnd
      rw [List.foldl_cons, ih hrest]
      unfold replicateTo
      by_cases heq : owner = m.nodeId
      · subst heq
        simp [howner]
      · have hne : m.nodeId ≠ owner := fun h => heq h.symm
        simp only [if_neg heq, List.mem_cons, hne, false_or]
        cases acc.1.connections.get? owner with
        | none => rfl
        | some link => rfl

/-- Among the owners this node occurs once at most, so a message is applied
here once at most. -/
theorem replicate_fst (mesh : NodeMesh) (msgType : RouteMessageType) (tag : String)
    (descriptor : Json) :
    (mesh.replicate m cr hub now msgType tag descriptor).1 =
      if m.nodeId ∈ mesh.ownersFor m cr tag then
        mesh.applyRouteMessage m hub now msgType tag descriptor
      else mesh :=
  foldl_replicateTo msgType tag descriptor _ (nodup_ownersFor m cr mesh tag) (mesh, [])

theorem applyRouteMessage_localDescriptor (mesh : NodeMesh) (tag : String)
    (d : Hub.PeerDescriptor) :
    mesh.applyRouteMessage m hub now .register tag (localDescriptor m now d) =
      if descriptorIsCurrent m now (pyInt (now + m.routeLeaseSeconds)) = true ∧
          mesh.ownsSession m hub m.nodeId d.sessionId = true then
        mesh.insertDescriptor m tag (leaseDescriptor m now d)
      else mesh := by
  have hsid : ((localDescriptor m now d).get? "sessionId").bind Json.str? = some d.sessionId :=
    rfl
  have hnid : ((localDescriptor m now d).get? "nodeId").bind Json.str? = some m.nodeId := rfl
  have hof : Descriptor.ofJson? (localDescriptor m now d) = some (leaseDescriptor m now d) :=
    Descriptor.ofJson?_eq hsid hnid rfl
  unfold applyRouteMessage
  rw [hsid, hnid, hof]
  simp only [leaseDescriptor, Bool.and_eq_true]

theorem registerLocalRoute_fst (mesh : NodeMesh) (tag sid : String) :
    (mesh.registerLocalRoute m cr hub now tag sid).1 =
      match hub.peerDescriptor sid with
      | none => mesh
      | some d =>
          if m.nodeId ∈ mesh.ownersFor m cr tag ∧
              descriptorIsCurrent m now (pyInt (now + m.routeLeaseSeconds)) = true ∧
              mesh.ownsSession m hub m.nodeId d.sessionId = true then
            mesh.insertDescriptor m tag (leaseDescriptor m now d)
          else mesh := by
  unfold registerLocalRoute
  cases hub.peerDescriptor sid with
  | none => rfl
  | some d =>
      simp only
      rw [replicate_fst, applyRouteMessage_localDescriptor]
      by_cases howner : m.nodeId ∈ mesh.ownersFor m cr tag <;> simp [howner]

/-- This node holds a descriptor of its own for a session on a route. -/
def HasLease (m : MeshConfig) (mesh : NodeMesh) (tag sid : String) : Prop :=
  ∃ route d, mesh.routeRegistry.get? tag = some route ∧ route.get? (m.nodeId, sid) = some d

theorem hasLease_insertDescriptor {tag sid : String} (h : HasLease m mesh tag sid)
    (t : String) (d : Descriptor) : HasLease m (mesh.insertDescriptor m t d) tag sid := by
  obtain ⟨route, d₀, hroute, hd₀⟩ := h
  unfold insertDescriptor
  simp only
  have hold (ht : tag = t) : mesh.routeRegistry.getD t ∅ = route := by
    rw [← ht, Dict.getD, hroute, Option.getD_some]
  split
  · unfold storeRoute HasLease
    by_cases ht : tag = t
    · rw [hold ht]
      simp only [if_neg (Dict.ne_empty_of_get? hd₀), ht, Dict.get?_set_self]
      exact ⟨route, d₀, rfl, hd₀⟩
    · by_cases hsize : (mesh.routeRegistry.getD t ∅).size = 0
      · simp only [if_pos hsize, Dict.get?_erase_of_ne _ ht]
        exact ⟨route, d₀, hroute, hd₀⟩
      · simp only [if_neg hsize, Dict.get?_set_of_ne _ _ ht]
        exact ⟨route, d₀, hroute, hd₀⟩
  · unfold HasLease
    by_cases ht : tag = t
    · rw [hold ht]
      simp only [ht, Dict.get?_set_self]
      by_cases hkey : (m.nodeId, sid) = d.key
      · exact ⟨_, d, rfl, by rw [hkey, Dict.get?_set_self]⟩
      · exact ⟨_, d₀, rfl, by rw [Dict.get?_set_of_ne _ _ hkey]; exact hd₀⟩
    · simp only [Dict.get?_set_of_ne _ _ ht]
      exact ⟨route, d₀, hroute, hd₀⟩

/-- A registration is refused for want of room only if there still is none. -/
theorem hasLease_insertDescriptor_self {tag : String} {d : Descriptor}
    (hnode : d.nodeId = m.nodeId)
    (hroom : (mesh.insertDescriptor m tag d).routeDescriptorCount <
      m.nodeMeshMaxRouteDescriptors) :
    HasLease m (mesh.insertDescriptor m tag d) tag d.sessionId := by
  unfold insertDescriptor at hroom ⊢
  simp only at hroom ⊢
  split
  · next hfull =>
      rw [if_pos hfull] at hroom
      exact absurd hroom (not_lt.mpr hfull.2)
  · refine ⟨_, d, Dict.get?_set_self _ _ _, ?_⟩
    rw [← hnode]
    exact Dict.get?_set_self _ d.key d

theorem routeDescriptorCount_le_insertDescriptor (mesh : NodeMesh) (tag : String)
    (d : Descriptor) :
    mesh.routeDescriptorCount ≤ (mesh.insertDescriptor m tag d).routeDescriptorCount := by
  unfold insertDescriptor
  simp only
  split
  · exact le_refl _
  · simp only
    split <;> omega

/-- The session map never gives a local session to another node. -/
def LocalSessionsKept (m : MeshConfig) (hub : Hub) (mesh : NodeMesh) : Prop :=
  ∀ sid, hub.sessions.contains sid = true →
    ∀ node, mesh.sessionNodes.get? sid = some node → node = m.nodeId

theorem LocalSessionsKept.of_contains (h : LocalSessionsKept m hub mesh)
    (hsub : ∀ sid, hub'.sessions.contains sid = true → hub.sessions.contains sid = true) :
    LocalSessionsKept m hub' mesh :=
  fun sid hsid node hnode => h sid (hsub sid hsid) node hnode

theorem LocalSessionsKept.set (h : LocalSessionsKept m hub mesh) {d : Descriptor}
    (howns : mesh.ownsSession m hub d.nodeId d.sessionId = true)
    (hnodes : mesh'.sessionNodes = mesh.sessionNodes.set d.sessionId d.nodeId) :
    LocalSessionsKept m hub mesh' := by
  intro sid hsid node hnode
  rw [hnodes, Dict.get?_set] at hnode
  split at hnode
  · next heq =>
      cases hnode
      rw [ownsSession, ← heq, hsid, Bool.and_eq_true] at howns
      simpa using howns.1
  · exact h sid hsid node hnode

theorem sessionNodes_insertDescriptor (mesh : NodeMesh) (tag : String) (d : Descriptor) :
    (mesh.insertDescriptor m tag d).sessionNodes = mesh.sessionNodes ∨
      (mesh.insertDescriptor m tag d).sessionNodes =
        mesh.sessionNodes.set d.sessionId d.nodeId := by
  unfold insertDescriptor
  simp only
  split
  · exact .inl rfl
  · exact .inr rfl

theorem LocalSessionsKept.edit {E : String → Prop} (h : LocalSessionsKept m hub mesh)
    (he : Edit m hub now E mesh mesh') : LocalSessionsKept m hub mesh' := by
  have hsame (heq : mesh'.sessionNodes = mesh.sessionNodes) : LocalSessionsKept m hub mesh' := by
    unfold LocalSessionsKept
    rw [heq]
    exact h
  cases he with
  | insert tag d _ howns =>
      obtain heq | heq := sessionNodes_insertDescriptor (m := m) mesh tag d
      · exact hsame heq
      · exact h.set howns heq
  | remove tag key => exact hsame (by unfold removeDescriptor; split <;> rfl)
  | tidy tag _ => exact hsame rfl
  | filter keep tag => exact hsame (by unfold filterRoute; split <;> rfl)
  | dropRoute tag => exact hsame rfl
  | cache d _ howns _ => exact h.set howns rfl
  | expire sid _ =>
      unfold pruneCached
      split
      · exact h
      · split
        · intro s hs node hnode
          exact h s hs node (Dict.get?_erase_eq_some.mp hnode).2
        · exact h

theorem LocalSessionsKept.frame (h : LocalSessionsKept m hub mesh)
    (hsame : SameTables mesh mesh') : LocalSessionsKept m hub mesh' := by
  unfold LocalSessionsKept
  rw [hsame.sessionNodes]
  exact h

theorem LocalSessionsKept.changes {E : String → Prop} (h : LocalSessionsKept m hub mesh)
    (hc : Changes m hub now E mesh mesh') : LocalSessionsKept m hub mesh' := by
  refine hc.invariant (P := LocalSessionsKept m hub) ?_ h
  intro mesh₁ mesh₂ h₁ hc
  cases hc with
  | edit he => exact h₁.edit he
  | frame hsame => exact h₁.frame hsame
  | clear => intro _ _ _ hnode; cases hnode

theorem LocalSessionsKept.apply (h : LocalSessionsKept m hub mesh) (cr : Crypto)
    (clocks : Clocks) (op : MeshOp) : LocalSessionsKept m hub (op.apply m cr hub clocks mesh) :=
  h.changes (changes_apply (E := fun _ => True) mesh clocks fun _ _ => trivial)

/-! ## Registering all leases -/

/-- The lease of a session with a descriptor, on a route this node owns. -/
structure Registrable (m : MeshConfig) (cr : Crypto) (hub : Hub) (now : Seconds)
    (mesh : NodeMesh) (tag sid : String) : Prop where
  described : ∃ d, hub.peerDescriptor sid = some d
  owned : m.nodeId ∈ mesh.ownersFor m cr tag
  current : descriptorIsCurrent m now (pyInt (now + m.routeLeaseSeconds)) = true

theorem peerDescriptor_eq_some {sid : String} {d : Hub.PeerDescriptor}
    (h : hub.peerDescriptor sid = some d) :
    d.sessionId = sid ∧ hub.sessions.contains sid = true := by
  unfold Hub.peerDescriptor at h
  split at h
  · cases h
  · next sess hs =>
      split at h
      · cases h
      · cases h; exact ⟨rfl, Dict.contains_iff.mpr ⟨sess, hs⟩⟩

theorem LocalSessionsKept.ownsSession (h : LocalSessionsKept m hub mesh) {sid : String}
    (hsid : hub.sessions.contains sid = true) :
    mesh.ownsSession m hub m.nodeId sid = true := by
  unfold NodeMesh.ownsSession
  cases hnode : mesh.sessionNodes.get? sid with
  | none => simp
  | some node => simp [h sid hsid node hnode]

/-- What one registration does for the loop it is a round of: nothing is lost,
the count does not fall, and its own lease is there unless there is no room. -/
structure Registers (m : MeshConfig) (cr : Crypto) (hub : Hub) (now : Seconds)
    (mesh mesh' : NodeMesh) : Prop where
  kept : LocalSessionsKept m hub mesh'
  membership : mesh'.membershipNodes = mesh.membershipNodes
  count : mesh.routeDescriptorCount ≤ mesh'.routeDescriptorCount
  leases : ∀ tag sid, HasLease m mesh tag sid → HasLease m mesh' tag sid

theorem registers_registerLocalRoute (cr : Crypto) (now : Seconds)
    (h : LocalSessionsKept m hub mesh) (tag sid : String) :
    Registers m cr hub now mesh (mesh.registerLocalRoute m cr hub now tag sid).1 ∧
      (Registrable m cr hub now mesh tag sid →
        (mesh.registerLocalRoute m cr hub now tag sid).1.routeDescriptorCount <
          m.nodeMeshMaxRouteDescriptors →
        HasLease m (mesh.registerLocalRoute m cr hub now tag sid).1 tag sid) := by
  have hedits : Edits m hub now (fun _ => False) mesh
      (mesh.registerLocalRoute m cr hub now tag sid).1 :=
    edits_registerLocalRoute mesh tag sid
  have hkept : LocalSessionsKept m hub (mesh.registerLocalRoute m cr hub now tag sid).1 :=
    h.changes hedits.changes
  have hmembers := (Edits.sameMembership hedits).membershipNodes
  rw [registerLocalRoute_fst] at hkept hmembers ⊢
  cases hd : hub.peerDescriptor sid with
  | none =>
      rw [hd] at hkept
      refine ⟨⟨hkept, rfl, le_refl _, fun _ _ h => h⟩, ?_⟩
      rintro ⟨⟨d, hd'⟩, -, -⟩
      rw [hd] at hd'
      cases hd'
  | some d =>
      obtain ⟨hsid, hcontains⟩ := peerDescriptor_eq_some hd
      rw [hd] at hkept hmembers
      simp only at hkept hmembers ⊢
      split
      · next hok =>
          rw [if_pos hok] at hkept hmembers
          refine ⟨⟨hkept, hmembers, routeDescriptorCount_le_insertDescriptor mesh tag _,
            fun _ _ hl => hasLease_insertDescriptor hl tag _⟩, fun _ hroom => ?_⟩
          rw [← hsid]
          exact hasLease_insertDescriptor_self rfl hroom
      · next hno =>
          refine ⟨⟨h, rfl, le_refl _, fun _ _ h => h⟩, ?_⟩
          rintro ⟨-, howned, hcurrent⟩
          rw [hsid] at hno
          exact absurd ⟨howned, hcurrent, h.ownsSession hcontains⟩ hno

theorem Registers.refl (h : LocalSessionsKept m hub mesh) : Registers m cr hub now mesh mesh :=
  ⟨h, rfl, le_refl _, fun _ _ h => h⟩

theorem Registers.trans {mesh'' : NodeMesh} (h : Registers m cr hub now mesh mesh')
    (h' : Registers m cr hub now mesh' mesh'') : Registers m cr hub now mesh mesh'' :=
  ⟨h'.kept, h'.membership.trans h.membership, h.count.trans h'.count,
    fun tag sid hl => h'.leases tag sid (h.leases tag sid hl)⟩

theorem foldl_registerLocalRoute (cr : Crypto) (now : Seconds) (leases : List (String × String))
    (acc : NodeMesh × List Send) (h : LocalSessionsKept m hub acc.1) :
    let result := leases.foldl
      (fun (acc : NodeMesh × List Send) lease =>
        let (mesh', sends) := acc.1.registerLocalRoute m cr hub now lease.1 lease.2
        (mesh', acc.2 ++ sends)) acc
    Registers m cr hub now acc.1 result.1 ∧
      (result.1.routeDescriptorCount < m.nodeMeshMaxRouteDescriptors →
        ∀ lease ∈ leases, Registrable m cr hub now acc.1 lease.1 lease.2 →
          HasLease m result.1 lease.1 lease.2) := by
  induction leases generalizing acc with
  | nil => exact ⟨.refl h, fun _ _ hmem => by cases hmem⟩
  | cons lease rest ih =>
      obtain ⟨hreg, hself⟩ :=
        registers_registerLocalRoute cr now h lease.1 lease.2
      obtain ⟨hrest, hleases⟩ := ih
        ((acc.1.registerLocalRoute m cr hub now lease.1 lease.2).1,
          acc.2 ++ (acc.1.registerLocalRoute m cr hub now lease.1 lease.2).2) hreg.kept
      refine ⟨hreg.trans hrest, fun hroom l hl hregistrable => ?_⟩
      obtain rfl | hl := List.mem_cons.mp hl
      · -- Room at the end is room all along, and what is registered stays.
        exact hrest.leases _ _ (hself hregistrable (hrest.count.trans_lt hroom))
      · refine hleases hroom l hl ⟨hregistrable.described, ?_, hregistrable.current⟩
        rw [ownersFor_congr hreg.membership]
        exact hregistrable.owned

/-! ## Dropping what is no longer owned -/

theorem keys_filterRoute (keep : Descriptor → Bool) (tag : String) :
    ∀ t ∈ (mesh.filterRoute keep tag).routeRegistry.keys, t ∈ mesh.routeRegistry.keys := by
  intro t ht
  unfold filterRoute at ht
  split at ht
  · exact ht
  · next route hroute =>
      obtain ⟨r, hr⟩ := Dict.mem_keys.mp ht
      obtain ⟨rfl, -, -⟩ | ⟨-, hr⟩ := get?_storeRoute hr
      · exact Dict.mem_keys.mpr ⟨route, hroute⟩
      · exact Dict.mem_keys.mpr ⟨r, hr⟩

theorem keys_dropStaleRoute (active : Finset String) (tag : String) :
    ∀ t ∈ (mesh.dropStaleRoute m cr active tag).routeRegistry.keys,
      t ∈ mesh.routeRegistry.keys ∧ (t = tag → m.nodeId ∈ mesh.ownersFor m cr t) := by
  intro t ht
  unfold dropStaleRoute at ht
  split at ht
  · next howned =>
      refine ⟨keys_filterRoute _ tag t ht, ?_⟩
      rintro rfl
      exact howned
  · obtain ⟨hne, ht⟩ := Dict.mem_keys_erase.mp ht
    exact ⟨ht, fun heq => absurd heq hne⟩

/-- No route this node does not own is left in its registry. -/
def OnlyOwnedRoutes (m : MeshConfig) (cr : Crypto) (mesh : NodeMesh) : Prop :=
  ∀ tag ∈ mesh.routeRegistry.keys, m.nodeId ∈ mesh.ownersFor m cr tag

theorem sameMembership_dropStaleRoute (m : MeshConfig) (cr : Crypto) (mesh : NodeMesh)
    (active : Finset String) (tag : String) :
    SameMembership mesh (mesh.dropStaleRoute m cr active tag) := by
  unfold dropStaleRoute
  split
  · have hfilter : Edits m (.new m.toConfig 0) 0 (fun _ => False) mesh
        (mesh.filterRoute (fun d => decide (d.nodeId ∈ active)) tag) := .single (.filter _ tag)
    exact hfilter.sameMembership
  · exact ⟨rfl, rfl, rfl, rfl, rfl, rfl⟩

theorem onlyOwnedRoutes_dropStaleOwnership (mesh : NodeMesh) :
    OnlyOwnedRoutes m cr (mesh.dropStaleOwnership m cr) := by
  unfold dropStaleOwnership
  have hloop : ∀ (tags : List String) (active : Finset String) (mesh : NodeMesh),
      (tags.foldl (fun mesh tag => mesh.dropStaleRoute m cr active tag) mesh).membershipNodes =
          mesh.membershipNodes ∧
        ∀ t ∈ (tags.foldl (fun mesh tag => mesh.dropStaleRoute m cr active tag)
          mesh).routeRegistry.keys,
          t ∈ mesh.routeRegistry.keys ∧ (t ∈ tags → m.nodeId ∈ mesh.ownersFor m cr t) := by
    intro tags active
    induction tags with
    | nil => exact fun mesh => ⟨rfl, fun t ht => ⟨ht, fun h => by cases h⟩⟩
    | cons tag rest ih =>
        intro mesh
        have hsame := (sameMembership_dropStaleRoute m cr mesh active tag).membershipNodes
        obtain ⟨hmembers, hkeys⟩ := ih (mesh.dropStaleRoute m cr active tag)
        refine ⟨hmembers.trans hsame, fun t ht => ?_⟩
        obtain ⟨hmem, hrest⟩ := hkeys t ht
        obtain ⟨hmem', htag⟩ := keys_dropStaleRoute active tag t hmem
        refine ⟨hmem', fun hin => ?_⟩
        obtain heq | hin := List.mem_cons.mp hin
        · exact htag heq
        · rw [← ownersFor_congr hsame]
          exact hrest hin
  obtain ⟨hmembers, hkeys⟩ := hloop mesh.routeRegistry.keys _ mesh
  intro t ht
  obtain ⟨hmem, howned⟩ := hkeys t ht
  rw [ownersFor_congr hmembers]
  exact howned hmem

theorem keys_insertDescriptor (mesh : NodeMesh) (tag : String) (d : Descriptor) :
    ∀ t ∈ (mesh.insertDescriptor m tag d).routeRegistry.keys,
      t = tag ∨ t ∈ mesh.routeRegistry.keys := by
  intro t ht
  unfold insertDescriptor at ht
  simp only at ht
  split at ht
  · obtain ⟨r, hr⟩ := Dict.mem_keys.mp ht
    obtain ⟨heq, -, -⟩ | ⟨-, hr⟩ := get?_storeRoute hr
    · exact .inl heq
    · exact .inr (Dict.mem_keys.mpr ⟨r, hr⟩)
  · exact Dict.mem_keys_set.mp ht

/-- A lease is registered on a route only where this node owns it. -/
theorem OnlyOwnedRoutes.registerLocalRoute (h : OnlyOwnedRoutes m cr mesh) (tag sid : String) :
    OnlyOwnedRoutes m cr (mesh.registerLocalRoute m cr hub now tag sid).1 := by
  have hedits : Edits m hub now (fun _ => False) mesh
      (mesh.registerLocalRoute m cr hub now tag sid).1 := edits_registerLocalRoute mesh tag sid
  have hsame := (Edits.sameMembership hedits).membershipNodes
  intro t ht
  rw [ownersFor_congr hsame]
  rw [registerLocalRoute_fst] at ht
  split at ht
  · exact h t ht
  · split at ht
    · next hok =>
        obtain rfl | ht := keys_insertDescriptor mesh tag _ t ht
        · exact hok.1
        · exact h t ht
    · exact h t ht

/-! ## The whole of it -/

/-- Every unexpired lease of a proven session, on a route this node owns, is
registered here, if there is room. -/
def LeasesRegistered (m : MeshConfig) (cr : Crypto) (hub : Hub) (monotonic : Seconds)
    (mesh : NodeMesh) : Prop :=
  ∀ sid sess tag route expiresAt, hub.sessions.get? sid = some sess → sess.proven = true →
    sess.protocolVersion = 2 → hub.routes.get? tag = some route →
    route.get? sid = some expiresAt → monotonic < expiresAt →
    m.nodeId ∈ mesh.ownersFor m cr tag →
    mesh.routeDescriptorCount < m.nodeMeshMaxRouteDescriptors → HasLease m mesh tag sid

theorem topologyChanged_registers (h : LocalSessionsKept m hub mesh) (hcons : hub.Consistent)
    {wall monotonic : Seconds}
    (hcurrent : descriptorIsCurrent m wall (pyInt (wall + m.routeLeaseSeconds)) = true) :
    LeasesRegistered m cr hub monotonic (mesh.topologyChanged m cr hub wall monotonic).1 ∧
      OnlyOwnedRoutes m cr (mesh.topologyChanged m cr hub wall monotonic).1 := by
  have hkept : LocalSessionsKept m hub
      ((mesh.reconcileMembership m monotonic).dropStaleOwnership m cr) :=
    (h.apply cr ⟨wall, monotonic⟩ .reconcileMembership).apply cr ⟨wall, monotonic⟩
      .dropStaleOwnership
  obtain ⟨hreg, hleases⟩ := foldl_registerLocalRoute cr wall (localLeases hub)
    ((mesh.reconcileMembership m monotonic).dropStaleOwnership m cr, []) hkept
  constructor
  · intro sid sess tag route expiresAt hs hproven hversion hroute hlease _ howned hroom
    have hattached : hub.Attached tag sid := (hcons.subscribed_iff_attached tag sid).mp
      (Hub.subscribed_iff.mpr ⟨route, expiresAt, hroute, hlease⟩)
    obtain ⟨sess', hs', htag⟩ := hattached
    rw [hs, Option.some.injEq] at hs'
    subst hs'
    have hmem : (tag, sid) ∈ localLeases hub := by
      unfold localLeases
      rw [List.mem_flatMap]
      refine ⟨(sid, sess), Dict.mem_entries.mpr hs, ?_⟩
      simp [hproven, hversion, htag]
    have hdesc : ∃ d, hub.peerDescriptor sid = some d := by
      unfold Hub.peerDescriptor
      simp [hs, hproven, hversion]
    refine hleases hroom (tag, sid) hmem ⟨hdesc, ?_, hcurrent⟩
    rw [← ownersFor_congr hreg.membership]
    exact howned
  · exact foldl_invariant (P := fun acc : NodeMesh × List Send => OnlyOwnedRoutes m cr acc.1)
      (localLeases hub) (onlyOwnedRoutes_dropStaleOwnership _)
      fun _ lease _ hacc => hacc.registerLocalRoute lease.1 lease.2

end Masterserver.NodeMesh
