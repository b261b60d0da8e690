import Masterserver.Proofs.SessionMap

/-!
# Descriptors that outlived their lease

A descriptor past its expiry stays in its table until something prunes it: the
registry when a `ROUTE_QUERY` or a discovery asks for it, the cache also when
the session itself is looked up. Two operations read the tables without
pruning them first.

`remoteDescriptor` tests the cached descriptor and then takes the first
registered one of the session as it stands. So its answer is current exactly
if a current one is cached or the registry leads with a current one for the
session, `Fresh`.

A registration counts what the tables hold, not what is current in them. So it
is refused for want of room while room could be made exactly if its table is
full and holds something that has expired.
-/

namespace Masterserver.NodeMesh

open Lib

variable {m : MeshConfig} {cr : Crypto} {hub : Hub} {now : Seconds} {mesh mesh' : NodeMesh}
  {d : Descriptor}

/-- The registered descriptors, route by route. -/
def registered (mesh : NodeMesh) : List Descriptor :=
  mesh.routeRegistry.values.flatMap Dict.values

/-- How many of them have not expired. -/
def unexpired (now : Seconds) (held : List Descriptor) : Nat :=
  held.countP fun d => decide (pyInt now < d.expiresAt)

/-! ## Looking a session up -/

/-- A current descriptor is cached for the session, or the first that is
registered for it, if any is, has not expired. -/
def Fresh (now : Seconds) (mesh : NodeMesh) (target : String) : Prop :=
  (∃ d, mesh.descriptorCache.get? target = some d ∧ pyInt now < d.expiresAt) ∨
    ∀ before d after, mesh.registered = before ++ d :: after → d.sessionId = target →
      (∀ d' ∈ before, d'.sessionId ≠ target) → pyInt now < d.expiresAt

/-- What a lookup answers: the cached descriptor while it is current, else the
first registered one. -/
theorem remoteDescriptor_cases (now : Seconds) (mesh : NodeMesh) (target : String) :
    (∃ d, mesh.descriptorCache.get? target = some d ∧ pyInt now < d.expiresAt ∧
        (mesh.remoteDescriptor now target).2 = some d) ∨
      ((∀ d, mesh.descriptorCache.get? target = some d → d.expiresAt ≤ pyInt now) ∧
        (mesh.remoteDescriptor now target).2 =
          mesh.registered.find? (·.sessionId == target)) := by
  unfold remoteDescriptor
  split
  · next d hd =>
      split
      · next hlt => exact .inl ⟨d, hd, hlt, rfl⟩
      · next hge =>
          refine .inr ⟨?_, rfl⟩
          intro d' hd'
          rw [hd] at hd'
          cases hd'
          exact not_lt.mp hge
  · next hd =>
      refine .inr ⟨?_, rfl⟩
      intro d' hd'
      rw [hd] at hd'
      cases hd'

/-- The answer is for the session that was asked for, and it has not expired. -/
def AnswersCurrent (now : Seconds) (mesh : NodeMesh) (target : String) : Prop :=
  ∀ d, (mesh.remoteDescriptor now target).2 = some d →
    d.sessionId = target ∧ pyInt now < d.expiresAt

theorem find?_session {held : List Descriptor} {target : String} {d : Descriptor} :
    held.find? (·.sessionId == target) = some d ↔
      d.sessionId = target ∧
        ∃ before after, held = before ++ d :: after ∧ ∀ d' ∈ before, d'.sessionId ≠ target := by
  rw [List.find?_eq_some_iff_append]
  simp

/-- Whichever table supplies it, the descriptor a lookup answers is current if
and only if the tables are fresh for the session. -/
theorem remote_descriptor_current_iff {s : MeshRun} (h : (meshSystem m cr).Reachable s)
    (now : Seconds) (target : String) :
    AnswersCurrent now s.mesh target ↔ Fresh now s.mesh target := by
  have hinv := registryInvariant_of_reachable h
  constructor
  · intro hanswers
    obtain ⟨d, hd, hlt, -⟩ | ⟨-, heq⟩ := remoteDescriptor_cases now s.mesh target
    · exact .inl ⟨d, hd, hlt⟩
    · refine .inr ?_
      intro before d after hheld hsid hfirst
      have hfind := find?_session.mpr ⟨hsid, before, after, hheld, hfirst⟩
      exact (hanswers d (heq.trans hfind)).2
  · intro hfresh d hd
    obtain ⟨c, hc, hlt, heq⟩ | ⟨hstale, heq⟩ := remoteDescriptor_cases now s.mesh target
    · obtain rfl : c = d := Option.some.inj (heq.symm.trans hd)
      exact ⟨(hinv.cacheKeyed target c hc).symm, hlt⟩
    · rw [heq] at hd
      obtain ⟨hsid, before, after, hheld, hfirst⟩ := find?_session.mp hd
      refine ⟨hsid, ?_⟩
      obtain ⟨c, hc, hlt⟩ | hregistry := hfresh
      · have hle := hstale c hc
        omega
      · exact hregistry before d after hheld hsid hfirst

/-- The announcement of a session by a trusted node. -/
def leaseUntil (expiresAt : Int) (sessionId : String) : Descriptor where
  raw := .obj [("sessionId", .str sessionId), ("nodeId", .str "node-b"),
    ("expiresAt", .int expiresAt)]
  sessionId := sessionId
  nodeId := "node-b"
  expiresAt := expiresAt
  raw_sessionId := rfl
  raw_nodeId := rfl
  raw_expiresAt := rfl

/-- A session is announced at 0. -/
def announcedOnce : MeshRun :=
  MeshRun.after .pair default ⟨.new .pair "i", ⟨0, 0⟩⟩
    (at_ 0 (.applyRouteMessage .register "r" (leaseUntil 60 "s").raw))

theorem reachable_announcedOnce : (meshSystem .pair default).Reachable announcedOnce :=
  (System.Reachable.start (S := meshSystem .pair default) ⟨"i", rfl⟩).next rfl

/-- Half a minute later it is found, and current. -/
theorem remote_descriptor_current_in_time :
    AnswersCurrent 30 announcedOnce.mesh "s" ∧
      ((announcedOnce.mesh.remoteDescriptor 30 "s").2.map (·.expiresAt)) = some 60 := by
  have hheld : announcedOnce.mesh.registered.map (·.expiresAt) = [60] := by decide +kernel
  refine ⟨(remote_descriptor_current_iff reachable_announcedOnce 30 "s").mpr (.inr ?_), ?_⟩
  · intro before d after heq _ _
    have hmem : d.expiresAt ∈ announcedOnce.mesh.registered.map (·.expiresAt) :=
      List.mem_map_of_mem (by simp [heq])
    rw [hheld, List.mem_singleton] at hmem
    rw [hmem]
    decide +kernel
  · decide +kernel

/-- An hour later it is still found. -/
theorem expired_descriptor_answered :
    ∃ s : MeshRun, (meshSystem .pair default).Reachable s ∧ ¬ AnswersCurrent 3600 s.mesh "s" := by
  refine ⟨announcedOnce, reachable_announcedOnce, ?_⟩
  intro hanswers
  have hexpiry : (announcedOnce.mesh.remoteDescriptor 3600 "s").2.map (·.expiresAt) =
      some 60 := by decide +kernel
  obtain ⟨d, hd, hsixty⟩ := Option.map_eq_some_iff.mp hexpiry
  have hlt := (hanswers d hd).2
  rw [hsixty] at hlt
  exact absurd hlt (by decide +kernel)

/-! ## Making room -/

/-- A descriptor both tables would take: current, and of the node that has its
session. -/
structure Admissible (m : MeshConfig) (hub : Hub) (now : Seconds) (mesh : NodeMesh)
    (d : Descriptor) : Prop where
  current : descriptorIsCurrent m now d.expiresAt = true
  owned : mesh.ownsSession m hub d.nodeId d.sessionId = true

theorem ofJson?_raw (d : Descriptor) : Descriptor.ofJson? d.raw = some d := by
  obtain ⟨raw, sessionId, nodeId, expiresAt, hsid, hnode, hexpiry⟩ := d
  unfold Descriptor.ofJson?
  split
  · next hs hn he =>
      rw [hsid] at hs
      rw [hnode] at hn
      rw [hexpiry] at he
      cases hs
      cases hn
      cases he
      rfl
  · next hno => exact absurd hexpiry (hno _ _ _ hsid hnode)

theorem applyRouteMessage_register (h : Admissible m hub now mesh d) (tag : String) :
    mesh.applyRouteMessage m hub now .register tag d.raw = mesh.insertDescriptor m tag d := by
  have hnames : (d.raw.get? "sessionId").bind Json.str? = some d.sessionId ∧
      (d.raw.get? "nodeId").bind Json.str? = some d.nodeId := ⟨d.raw_sessionId, d.raw_nodeId⟩
  unfold applyRouteMessage
  simp only [hnames.1, hnames.2, ofJson?_raw, h.current, h.owned, Bool.and_self, if_true]

/-- After a registration the descriptor is in its route. -/
def TakesIn (m : MeshConfig) (hub : Hub) (now : Seconds) (mesh : NodeMesh) (tag : String)
    (d : Descriptor) : Prop :=
  ((mesh.applyRouteMessage m hub now .register tag d.raw).routeRegistry.getD tag ∅).get? d.key =
    some d

theorem getD_storeRoute (mesh : NodeMesh) (tag : String) (route : Route) :
    (mesh.storeRoute tag route).routeRegistry.getD tag ∅ = route := by
  unfold storeRoute Dict.getD
  by_cases hsize : route.size = 0
  · rw [Dict.size_eq_zero] at hsize
    simp [hsize]
  · simp [hsize]

/-- An admissible descriptor that is new to its route is refused exactly if
the count has reached the cap. -/
theorem takesIn_iff (h : Admissible m hub now mesh d) (tag : String) :
    TakesIn m hub now mesh tag d ↔
      (mesh.routeRegistry.getD tag ∅).contains d.key = true ∨
        mesh.routeDescriptorCount < m.nodeMeshMaxRouteDescriptors := by
  unfold TakesIn
  rw [applyRouteMessage_register h]
  unfold insertDescriptor
  simp only
  split
  · next hfull =>
      obtain ⟨hnew, hcap⟩ := hfull
      rw [Bool.not_eq_true'] at hnew
      rw [getD_storeRoute, Dict.not_contains_iff.mp hnew]
      simp [hnew, not_lt.mpr hcap]
  · next hroom =>
      rw [not_and_or, Bool.not_eq_true', Bool.not_eq_false, not_le] at hroom
      have hget : ((mesh.routeRegistry.set tag ((mesh.routeRegistry.getD tag ∅).set d.key d)).getD
          tag ∅).get? d.key = some d := by
        simp [Dict.getD]
      exact iff_of_true hget hroom

/-- An admissible descriptor that is new to the cache is refused exactly if
the cache has reached the cap. -/
theorem cacheDescriptor_kept_iff (h : Admissible m hub now mesh d) :
    (mesh.cacheDescriptor m hub now d.raw).2 = true ↔
      mesh.descriptorCache.contains d.sessionId = true ∨
        mesh.descriptorCache.size < m.nodeMeshMaxRouteDescriptors := by
  unfold cacheDescriptor
  simp only [ofJson?_raw, h.current, h.owned, Bool.not_true, Bool.or_self, Bool.false_eq_true,
    if_false]
  split
  · next hfull =>
      obtain ⟨hnew, hcap⟩ := hfull
      simp only [Bool.not_eq_true'] at hnew
      simp [hnew, not_lt.mpr hcap]
  · next hroom =>
      rw [not_and_or, Bool.not_eq_true', Bool.not_eq_false, not_le] at hroom
      exact iff_of_true rfl hroom

theorem unexpired_lt_iff (now : Seconds) (held : List Descriptor) :
    unexpired now held < held.length ↔ ∃ d ∈ held, d.expiresAt ≤ pyInt now := by
  have hall := List.countP_eq_length (l := held) (p := fun d => decide (pyInt now < d.expiresAt))
  have hle := List.countP_le_length (l := held) (p := fun d => decide (pyInt now < d.expiresAt))
  unfold unexpired
  constructor
  · intro hlt
    by_contra hnone
    push Not at hnone
    have heq := hall.mpr fun d hd => by simpa using hnone d hd
    omega
  · rintro ⟨d, hd, hexpired⟩
    by_contra hge
    have := hall.mp (by omega) d hd
    simp only [decide_eq_true_eq] at this
    omega

/-- A refusal happens only where a table holds its cap of current ones. -/
def Genuine (m : MeshConfig) (now : Seconds) (kept : Prop) (held : List Descriptor) : Prop :=
  ¬ kept → m.nodeMeshMaxRouteDescriptors ≤ unexpired now held

/-- The table has the key or room for it, or nothing in it has expired. -/
def Roomy (m : MeshConfig) (now : Seconds) (known : Bool) (held : List Descriptor) : Prop :=
  known = true ∨ held.length < m.nodeMeshMaxRouteDescriptors ∨
    ∀ d ∈ held, pyInt now < d.expiresAt

theorem genuine_iff_roomy {kept : Prop} {known : Bool} {held : List Descriptor}
    (hle : held.length ≤ m.nodeMeshMaxRouteDescriptors)
    (hkept : kept ↔ known = true ∨ held.length < m.nodeMeshMaxRouteDescriptors) :
    Genuine m now kept held ↔ Roomy m now known held := by
  have hexpired := unexpired_lt_iff now held
  unfold Genuine Roomy
  rw [hkept, ← or_assoc]
  constructor
  · intro h
    by_cases hk : known = true ∨ held.length < m.nodeMeshMaxRouteDescriptors
    · exact .inl hk
    · refine .inr ?_
      have hcap := h hk
      by_contra hsome
      push Not at hsome
      have := hexpired.mpr hsome
      omega
  · intro h hk
    have hall := h.resolve_left hk
    rw [not_or, not_lt] at hk
    by_contra hlt
    obtain ⟨d, hd, hstale⟩ := hexpired.mp (by omega)
    have := hall d hd
    omega

/-- A descriptor that is current and its node's own is refused only for a
table full of current ones, if and only if the table is roomy for it. -/
theorem capacity_refusals_genuine_iff {s : MeshRun} (hs : (meshSystem m cr).Reachable s)
    (hub : Hub) (now : Seconds) (tag : String) (d : Descriptor)
    (h : Admissible m hub now s.mesh d) :
    (Genuine m now (TakesIn m hub now s.mesh tag d) s.mesh.registered ↔
      Roomy m now ((s.mesh.routeRegistry.getD tag ∅).contains d.key) s.mesh.registered) ∧
    (Genuine m now ((s.mesh.cacheDescriptor m hub now d.raw).2 = true)
        s.mesh.descriptorCache.values ↔
      Roomy m now (s.mesh.descriptorCache.contains d.sessionId) s.mesh.descriptorCache.values) := by
  have hinv := registryInvariant_of_reachable hs
  have hcount := hinv.count
  have hcap := hinv.count_le
  rw [total_eq_length] at hcount
  constructor
  · refine genuine_iff_roomy ?_ ?_
    · unfold registered
      omega
    · rw [takesIn_iff h tag, hcount]
      unfold registered
      rw [Nat.cast_lt]
  · refine genuine_iff_roomy ?_ ?_
    · rw [Dict.size_values]
      exact hinv.cache_le
    · rw [cacheDescriptor_kept_iff h, Dict.size_values]

/-- A second session finds room. -/
theorem capacity_refusals_genuine_second :
    Genuine .pair 0 (TakesIn .pair (.new .default 0) 0 announcedOnce.mesh "r" (leaseUntil 60 "t"))
      announcedOnce.mesh.registered :=
  (capacity_refusals_genuine_iff reachable_announcedOnce (.new .default 0) 0 "r"
    (leaseUntil 60 "t") ⟨by decide +kernel, by decide +kernel⟩).1.mpr
    (.inr (.inl (by decide +kernel)))

/-! A route is filled with sessions of one length each, all good for a minute. -/

def sessionOf (i : Nat) : String := String.ofList (List.replicate i 's')

theorem sessionOf_inj {i j : Nat} (h : sessionOf i = sessionOf j) : i = j := by
  simpa [sessionOf] using congrArg String.length h

theorem mem_registered {d : Descriptor} :
    d ∈ mesh.registered ↔
      ∃ tag route key, mesh.routeRegistry.get? tag = some route ∧ route.get? key = some d := by
  unfold registered
  rw [List.mem_flatMap]
  constructor
  · rintro ⟨route, hroute, hd⟩
    obtain ⟨tag, htag⟩ := Dict.mem_values.mp hroute
    obtain ⟨key, hkey⟩ := Dict.mem_values.mp hd
    exact ⟨tag, route, key, htag, hkey⟩
  · rintro ⟨tag, route, key, htag, hkey⟩
    exact ⟨route, Dict.mem_values.mpr ⟨tag, htag⟩, Dict.mem_values.mpr ⟨key, hkey⟩⟩

structure Filled (n : Nat) (mesh : NodeMesh) : Prop where
  count : mesh.routeDescriptorCount = n
  expiry : ∀ d ∈ mesh.registered, d.expiresAt = 60
  unseen : ∀ i, n ≤ i → mesh.sessionNodes.get? (sessionOf i) = none
  free : ∀ i, n ≤ i → (mesh.routeRegistry.getD "r" ∅).get? ("node-b", sessionOf i) = none

theorem Filled.admissible {n : Nat} (h : Filled n mesh) (now : Seconds) (expiresAt : Int)
    (hcurrent : descriptorIsCurrent .pair now expiresAt = true) :
    Admissible .pair (.new .default 0) now mesh (leaseUntil expiresAt (sessionOf n)) := by
  refine ⟨hcurrent, ?_⟩
  simp only [ownsSession, leaseUntil, h.unseen n (le_refl n)]
  rfl

/-- The next session goes into the route. -/
theorem Filled.next {n : Nat} (h : Filled n mesh)
    (hroom : n < MeshConfig.pair.nodeMeshMaxRouteDescriptors) :
    Filled (n + 1) (mesh.applyRouteMessage .pair (.new .default 0) 0 .register "r"
      (leaseUntil 60 (sessionOf n)).raw) := by
  have hadm := h.admissible 0 60 (by decide +kernel)
  have hcount := h.count
  have hfree := h.free n (le_refl n)
  have hkey : (leaseUntil 60 (sessionOf n)).key = ("node-b", sessionOf n) := rfl
  have hinsert : mesh.applyRouteMessage .pair (.new .default 0) 0 .register "r"
      (leaseUntil 60 (sessionOf n)).raw =
      { mesh with
        routeRegistry := mesh.routeRegistry.set "r"
          ((mesh.routeRegistry.getD "r" ∅).set ("node-b", sessionOf n)
            (leaseUntil 60 (sessionOf n)))
        routeDescriptorCount := mesh.routeDescriptorCount + 1
        sessionNodes := mesh.sessionNodes.set (sessionOf n) "node-b" } := by
    rw [applyRouteMessage_register hadm]
    unfold insertDescriptor
    simp only [hkey, Dict.contains, hfree, Option.isSome_none, Bool.not_false, true_and,
      Bool.false_eq_true, if_false]
    rw [if_neg (by omega)]
    rfl
  rw [hinsert]
  constructor
  · simp [hcount]
  · intro d hd
    obtain ⟨tag, route, key, htag, hd⟩ := mem_registered.mp hd
    simp only [Dict.get?_set] at htag
    split at htag
    · cases htag
      rw [Dict.get?_set] at hd
      split at hd
      · cases hd; rfl
      · unfold Dict.getD at hd
        cases hroute : mesh.routeRegistry.get? "r" with
        | none => rw [hroute] at hd; cases hd
        | some route =>
            rw [hroute] at hd
            exact h.expiry d (mem_registered.mpr ⟨"r", route, key, hroute, hd⟩)
    · exact h.expiry d (mem_registered.mpr ⟨tag, route, key, htag, hd⟩)
  · intro i hi
    have hne : sessionOf i ≠ sessionOf n := fun heq => by
      have := sessionOf_inj heq
      omega
    simp only
    rw [Dict.get?_set_of_ne _ _ hne]
    exact h.unseen i (by omega)
  · intro i hi
    have hne : ("node-b", sessionOf i) ≠ ("node-b", sessionOf n) := fun heq => by
      have := sessionOf_inj (Prod.mk.inj heq).2
      omega
    simp only [Dict.getD, Dict.get?_set_self, Option.getD_some]
    rw [Dict.get?_set_of_ne _ _ hne]
    exact h.free i (by omega)

theorem exists_filled (n : Nat) (hn : n ≤ MeshConfig.pair.nodeMeshMaxRouteDescriptors) :
    ∃ s : MeshRun, (meshSystem .pair default).Reachable s ∧ Filled n s.mesh := by
  induction n with
  | zero =>
      refine ⟨⟨.new .pair "i", ⟨0, 0⟩⟩, .start ⟨"i", rfl⟩, rfl, ?_, fun _ _ => rfl, fun _ _ => rfl⟩
      intro d hd
      cases hd
  | succ n ih =>
      obtain ⟨s, hs, hfilled⟩ := ih (by omega)
      exact ⟨_, hs.next (e := at_ 0 (.applyRouteMessage .register "r"
        (leaseUntil 60 (sessionOf n)).raw)) rfl, hfilled.next (by omega)⟩

/-- A full registry all of which has expired refuses a current descriptor. -/
theorem expired_registry_refuses :
    ∃ s : MeshRun, (meshSystem .pair default).Reachable s ∧ ∃ d : Descriptor,
      Admissible .pair (.new .default 0) 100 s.mesh d ∧
      ¬ Genuine .pair 100 (TakesIn .pair (.new .default 0) 100 s.mesh "r" d)
        s.mesh.registered := by
  obtain ⟨s, hs, hfilled⟩ := exists_filled MeshConfig.pair.nodeMeshMaxRouteDescriptors (le_refl _)
  have hadm := hfilled.admissible 100 160 (by decide +kernel)
  refine ⟨s, hs, _, hadm, ?_⟩
  intro hgenuine
  have hrefused : ¬ TakesIn .pair (.new .default 0) 100 s.mesh "r"
      (leaseUntil 160 (sessionOf MeshConfig.pair.nodeMeshMaxRouteDescriptors)) := by
    have hkey : (leaseUntil 160 (sessionOf MeshConfig.pair.nodeMeshMaxRouteDescriptors)).key =
      ("node-b", sessionOf MeshConfig.pair.nodeMeshMaxRouteDescriptors) := rfl
    rw [takesIn_iff hadm, hfilled.count, Dict.contains, hkey, hfilled.free _ (le_refl _)]
    simp
  have hnone : unexpired 100 s.mesh.registered = 0 := by
    unfold unexpired
    rw [List.countP_eq_zero]
    intro d hd
    rw [hfilled.expiry d hd]
    decide +kernel
  have hcap := hgenuine hrefused
  rw [hnone] at hcap
  exact absurd hcap (by decide)

end Masterserver.NodeMesh
