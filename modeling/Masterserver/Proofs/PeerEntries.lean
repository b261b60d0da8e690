import Masterserver.Lib.DictMerge
import Masterserver.Proofs.Discovery

/-!
# What a PEERS reply tells of a peer

The reply is one dict written over another: the hub's descriptors, which have
the three fields a peer may learn, and over them the descriptors the mesh has
taken, which name a node and an expiry as well. Each session is there once and
the one that asks is not, whatever the two lists are; and the entries have
their three fields exactly where nothing of the mesh comes among the first
`max_fanout`. The own registry counts: it has the descriptors of local
sessions, and those win.
-/

namespace Masterserver

open Lib Hub NodeMesh Protocol

/-- An object with exactly the fields of `peer_descriptor`. -/
def Bare (peer : Json) : Prop :=
  ∃ members, peer = .obj members ∧
    (members.map Prod.fst).Perm ["sessionId", "encryptionKeyHex", "keyId"]

def sessionIdOf (peer : Json) : Option String := (peer.get? "sessionId").bind Json.str?

theorem bare_toJson (p : PeerDescriptor) : Bare p.toJson := ⟨_, rfl, .refl _⟩

/-- An object that names a node. -/
theorem not_bare_of_nodeId {peer value : Json} (h : peer.get? "nodeId" = some value) :
    ¬Bare peer := by
  intro ⟨members, hpeer, hperm⟩
  rw [hpeer] at h
  obtain ⟨before, after, rfl, -⟩ := List.lookup_eq_some_iff.mp h
  have hmem : "nodeId" ∈ (before ++ ("nodeId", value) :: after).map Prod.fst :=
    List.mem_map.mpr ⟨_, List.mem_append_right _ (List.mem_cons_self ..), rfl⟩
  exact absurd (hperm.mem_iff.mp hmem) (by decide)

/-- A descriptor of the mesh does. -/
theorem not_bare_raw (d : Descriptor) : ¬Bare d.raw := by
  obtain ⟨value, hget, -⟩ := Option.bind_eq_some_iff.mp d.raw_nodeId
  exact not_bare_of_nodeId hget

/-! ## The entries -/

section

variable (m : MeshConfig) (sid : String) (peers : List PeerDescriptor)
  (found : Dict String Descriptor)

def localItems : List (String × Json) :=
  (peers.map fun d => (d.sessionId, d.toJson)).filter fun item => item.1 ≠ sid

def meshItems : List (String × Json) :=
  (found.values.map fun d => (d.sessionId, d.raw)).filter fun item => item.1 ≠ sid

/-- The dict the reply is made from. -/
def merged : Dict String Json := Dict.setAll (localItems sid peers ++ meshItems sid found) ∅

def listing : List Json := (merged sid peers found).values.take m.maxFanout

theorem peersReply_eq (id : Json) (routeTag : String) :
    V2.peersReply m sid id routeTag peers found = V2.answer id routeV2 "PEERS"
      [("routeTag", .str routeTag), ("peers", .arr (listing m sid peers found))] := by
  unfold V2.peersReply listing merged localItems meshItems
  rw [← List.filter_append]
  rfl

end

section

variable {m : MeshConfig} {sid : String} {peers : List PeerDescriptor}
  {found : Dict String Descriptor}

theorem mem_localItems {key : String} {value : Json} (h : (key, value) ∈ localItems sid peers) :
    key ≠ sid ∧ ∃ p ∈ peers, p.sessionId = key ∧ p.toJson = value := by
  obtain ⟨hmem, hne⟩ := List.mem_filter.mp h
  obtain ⟨p, hp, heq⟩ := List.mem_map.mp hmem
  cases heq
  exact ⟨of_decide_eq_true hne, p, hp, rfl, rfl⟩

theorem mem_meshItems {key : String} {value : Json} (h : (key, value) ∈ meshItems sid found) :
    key ≠ sid ∧ ∃ d ∈ found.values, d.sessionId = key ∧ d.raw = value := by
  obtain ⟨hmem, hne⟩ := List.mem_filter.mp h
  obtain ⟨d, hd, heq⟩ := List.mem_map.mp hmem
  cases heq
  exact ⟨of_decide_eq_true hne, d, hd, rfl, rfl⟩

theorem mem_keys_meshItems {key : String} :
    key ∈ (meshItems sid found).map Prod.fst ↔
      key ≠ sid ∧ ∃ d ∈ found.values, d.sessionId = key := by
  constructor
  · intro h
    obtain ⟨⟨key', value⟩, hmem, rfl⟩ := List.mem_map.mp h
    obtain ⟨hne, d, hd, hkey, -⟩ := mem_meshItems hmem
    exact ⟨hne, d, hd, hkey⟩
  · intro ⟨hne, d, hd, hkey⟩
    subst hkey
    exact List.mem_map.mpr ⟨(d.sessionId, d.raw),
      List.mem_filter.mpr ⟨List.mem_map.mpr ⟨d, hd, rfl⟩, decide_eq_true hne⟩, rfl⟩

/-- An entry stands under the session it names. -/
theorem sessionIdOf_merged {key : String} {value : Json}
    (h : (merged sid peers found).get? key = some value) :
    sessionIdOf value = some key ∧ key ≠ sid := by
  rcases List.mem_append.mp (Dict.get?_setAll_empty h) with hlocal | hmesh
  · obtain ⟨hne, p, -, rfl, rfl⟩ := mem_localItems hlocal
    exact ⟨rfl, hne⟩
  · obtain ⟨hne, d, -, rfl, rfl⟩ := mem_meshItems hmesh
    exact ⟨d.raw_sessionId, hne⟩

/-- Which of the two lists an entry is from. -/
theorem bare_merged_iff {key : String} {value : Json}
    (h : (merged sid peers found).get? key = some value) :
    Bare value ↔ key ∉ (meshItems sid found).map Prod.fst := by
  unfold merged at h
  rw [Dict.setAll_append] at h
  obtain hmesh | ⟨hnot, hlocal⟩ := Dict.get?_setAll h
  · refine iff_of_false ?_ (not_not.mpr (List.mem_map.mpr ⟨_, hmesh, rfl⟩))
    obtain ⟨-, d, -, -, rfl⟩ := mem_meshItems hmesh
    exact not_bare_raw d
  · refine iff_of_true ?_ hnot
    obtain ⟨-, p, -, -, rfl⟩ := mem_localItems (Dict.get?_setAll_empty hlocal)
    exact bare_toJson p

/-- Each entry names a session, no two the same, and none the one that asks. -/
theorem sessionIds_listing (m : MeshConfig) (sid : String) (peers : List PeerDescriptor)
    (found : Dict String Descriptor) :
    ∃ ids : List String, (listing m sid peers found).map sessionIdOf = ids.map some ∧ ids.Nodup ∧
      sid ∉ ids := by
  refine ⟨(merged sid peers found).keys.take m.maxFanout, ?_, ?_, ?_⟩
  · unfold listing Dict.values Dict.keys
    rw [← List.map_take, ← List.map_take, List.map_map, List.map_map]
    refine List.map_congr_left fun entry hentry => ?_
    exact (sessionIdOf_merged (Dict.mem_entries.mp (List.mem_of_mem_take hentry))).1
  · exact (Dict.nodup_keys _).sublist (List.take_sublist _ _)
  · intro hmem
    obtain ⟨value, hget⟩ := Dict.mem_keys.mp (List.mem_of_mem_take hmem)
    exact (sessionIdOf_merged hget).2 rfl

/-- What a DISCOVER has gathered when it is answered. -/
structure Gathered (sid : String) (peers : List PeerDescriptor) (found : Dict String Descriptor) :
    Prop where
  distinct : (peers.map PeerDescriptor.sessionId).Nodup
  others : sid ∉ peers.map PeerDescriptor.sessionId
  keyed : ∀ key d, found.get? key = some d → key = d.sessionId

/-- A mesh descriptor of that session would be among the first `max_fanout`
entries: it takes the place of one of the hub's, or there is room after them. -/
def Place (m : MeshConfig) (sid : String) (peers : List PeerDescriptor) (target : String) : Prop :=
  target ≠ sid ∧ (peers.length < m.maxFanout ∨
    target ∈ (peers.map PeerDescriptor.sessionId).take m.maxFanout)

theorem Gathered.localItems_eq (h : Gathered sid peers found) :
    localItems sid peers = peers.map fun d => (d.sessionId, d.toJson) := by
  refine List.filter_eq_self.mpr fun item hitem => decide_eq_true ?_
  obtain ⟨p, hp, rfl⟩ := List.mem_map.mp hitem
  intro heq
  exact h.others (List.mem_map.mpr ⟨p, hp, heq⟩)

theorem Gathered.listing_bare_iff (h : Gathered sid peers found) :
    (∀ peer ∈ listing m sid peers found, Bare peer) ↔
      ¬∃ target, Place m sid peers target ∧ target ∈ found.keys := by
  have hkeys : (localItems sid peers).map Prod.fst = peers.map PeerDescriptor.sessionId := by
    rw [h.localItems_eq, List.map_map]
    rfl
  have hlength : (localItems sid peers).length = peers.length := by
    rw [h.localItems_eq, List.length_map]
  have hplaces : (∃ key ∈ (merged sid peers found).keys.take m.maxFanout,
      key ∈ (meshItems sid found).map Prod.fst) ↔
      ∃ target, Place m sid peers target ∧ target ∈ found.keys := by
    unfold merged
    rw [Dict.exists_mem_take_keys (by rw [hkeys]; exact h.distinct), hkeys, hlength]
    constructor
    · intro ⟨target, hmem, hplace⟩
      obtain ⟨hne, d, hd, hid⟩ := mem_keys_meshItems.mp hmem
      obtain ⟨key, hget⟩ := Dict.mem_values.mp hd
      rw [h.keyed key d hget, hid] at hget
      exact ⟨target, ⟨hne, hplace⟩, Dict.mem_keys.mpr ⟨d, hget⟩⟩
    · intro ⟨target, ⟨hne, hplace⟩, hmem⟩
      obtain ⟨d, hget⟩ := Dict.mem_keys.mp hmem
      exact ⟨target, mem_keys_meshItems.mpr ⟨hne, d, Dict.mem_values.mpr ⟨target, hget⟩,
        (h.keyed target d hget).symm⟩, hplace⟩
  rw [← hplaces]
  constructor
  · intro hbare ⟨key, hkey, hmesh⟩
    unfold Dict.keys at hkey
    rw [← List.map_take] at hkey
    obtain ⟨⟨key', value⟩, hentry, rfl⟩ := List.mem_map.mp hkey
    have hget := Dict.mem_entries.mp (List.mem_of_mem_take hentry)
    refine (bare_merged_iff hget).mp (hbare value ?_) hmesh
    unfold listing Dict.values
    rw [← List.map_take]
    exact List.mem_map.mpr ⟨_, hentry, rfl⟩
  · intro hnone peer hpeer
    unfold listing Dict.values at hpeer
    rw [← List.map_take] at hpeer
    obtain ⟨⟨key, value⟩, hentry, rfl⟩ := List.mem_map.mp hpeer
    have hget := Dict.mem_entries.mp (List.mem_of_mem_take hentry)
    refine (bare_merged_iff hget).mpr fun hmesh => hnone ⟨key, ?_, hmesh⟩
    unfold Dict.keys
    rw [← List.map_take]
    exact List.mem_map.mpr ⟨_, hentry, rfl⟩

end

/-! ## What the mesh has taken -/

/-- A descriptor for the session passes the tests of `_cache_descriptor` when
its turn comes. -/
inductive Takes (m : MeshConfig) (hub : Hub) (now : Seconds) (target : String) :
    NodeMesh → List Json → Prop
  | head {mesh : NodeMesh} {descriptor : Json} {rest : List Json} {d : Descriptor}
      (hd : Descriptor.ofJson? descriptor = some d) (htarget : d.sessionId = target)
      (h : (mesh.cacheDescriptor m hub now descriptor).2 = true) :
      Takes m hub now target mesh (descriptor :: rest)
  | later {mesh : NodeMesh} {descriptor : Json} {rest : List Json}
      (h : Takes m hub now target (mesh.cacheDescriptor m hub now descriptor).1 rest) :
      Takes m hub now target mesh (descriptor :: rest)

section

variable {m : MeshConfig} {cr : Crypto} {hub hub' : Hub} {now : Seconds} {target : String}

/-- `_cache_descriptor` keeps only what is a descriptor. -/
theorem ofJson?_of_cached {mesh : NodeMesh} {descriptor : Json}
    (h : (mesh.cacheDescriptor m hub now descriptor).2 = true) :
    ∃ d, Descriptor.ofJson? descriptor = some d := by
  unfold cacheDescriptor at h
  cases hd : Descriptor.ofJson? descriptor with
  | some d => exact ⟨d, rfl⟩
  | none =>
      rw [hd] at h
      cases h

theorem mem_keys_collected (offered : List Json) (mesh : NodeMesh)
    (found : Dict String Descriptor) :
    target ∈ (offered.foldl (collect m hub now) (mesh, found)).2.keys ↔
      target ∈ found.keys ∨ Takes m hub now target mesh offered := by
  induction offered generalizing mesh found with
  | nil => exact ⟨.inl, fun h => h.resolve_right nofun⟩
  | cons descriptor rest ih =>
      rw [List.foldl_cons]
      cases hcached : (mesh.cacheDescriptor m hub now descriptor).2 with
      | true =>
          obtain ⟨d, hd⟩ := ofJson?_of_cached hcached
          have hcollect : collect m hub now (mesh, found) descriptor =
              ((mesh.cacheDescriptor m hub now descriptor).1, found.set d.sessionId d) := by
            unfold collect
            simp only [hcached, hd]
          rw [hcollect, ih, Dict.mem_keys_set]
          constructor
          · intro h
            rcases h with (heq | hold) | hlater
            · exact .inr (.head hd heq.symm hcached)
            · exact .inl hold
            · exact .inr (.later hlater)
          · intro h
            rcases h with hold | htakes
            · exact .inl (.inr hold)
            · cases htakes with
              | head hd' htarget _ =>
                  rw [hd] at hd'
                  cases hd'
                  exact .inl (.inl htarget.symm)
              | later hlater => exact .inr hlater
      | false =>
          have hcollect : collect m hub now (mesh, found) descriptor =
              ((mesh.cacheDescriptor m hub now descriptor).1, found) := by
            unfold collect
            simp only [hcached]
          rw [hcollect, ih]
          constructor
          · intro h
            rcases h with hold | hlater
            · exact .inl hold
            · exact .inr (.later hlater)
          · intro h
            rcases h with hold | htakes
            · exact .inl hold
            · cases htakes with
              | head _ _ h =>
                  rw [hcached] at h
                  cases h
              | later hlater => exact .inr hlater

/-- The answers of the tasks. -/
def answersOf (queries : List Query) : List Json :=
  queries.flatMap fun
    | .answered descriptors => descriptors
    | _ => []

theorem collect_congr (h : hub'.sessions = hub.sessions) :
    collect m hub' now = collect m hub now := by
  funext acc descriptor
  unfold collect cacheDescriptor ownsSession
  rw [h]

theorem routePeerDescriptors_congr (hsessions : hub'.sessions = hub.sessions)
    (hroutes : hub'.routes = hub.routes) (routeTag : String) (exclude : Option String) :
    hub'.routePeerDescriptors now routeTag exclude =
      hub.routePeerDescriptors now routeTag exclude := by
  unfold routePeerDescriptors routeSubscribers peerDescriptor
  rw [hsessions, hroutes]

theorem sublist_filterMap {α β : Type} {f : α → Option β} {g : β → α}
    (h : ∀ a b, f a = some b → g b = a) (l : List α) : ((l.filterMap f).map g).Sublist l := by
  induction l with
  | nil => exact .slnil
  | cons a rest ih =>
      cases hf : f a with
      | none =>
          rw [List.filterMap_cons_none hf]
          exact ih.cons a
      | some b =>
          rw [List.filterMap_cons_some hf, List.map_cons, h a b hf]
          exact ih.cons_cons a

/-- What `route_peer_descriptors` lists. -/
theorem gathered_route (hub : Hub) (time : Seconds) (routeTag sid : String)
    {found : Dict String Descriptor} (h : ∀ key d, found.get? key = some d → key = d.sessionId) :
    Gathered sid (hub.routePeerDescriptors time routeTag (some sid)) found := by
  have hsublist : ((hub.routePeerDescriptors time routeTag (some sid)).map
      PeerDescriptor.sessionId).Sublist (hub.routeSubscribers time routeTag (some sid)) :=
    sublist_filterMap (fun _ _ => Hub.peerDescriptor_sessionId) _
  refine ⟨(Dict.nodup_keys _).sublist hsublist, fun hmem => ?_, h⟩
  obtain ⟨expiresAt, hget⟩ := Dict.mem_keys.mp (hsublist.subset hmem)
  have hkept := (Dict.get?_filter_eq_some.mp hget).2
  simp at hkept

end

namespace ServerRun

variable {m : MeshConfig} {cr : Crypto} {trust : NodeTrust} {s s' : ServerRun} {sid : String}
variable {e : ServerEvent}

/-- The mesh has a descriptor that the reply to a DISCOVER would show: one of
the own registry for the route, or one a waiting DISCOVER has found or was
given in answer. -/
def MeshShows (m : MeshConfig) (s : ServerRun) (e : ServerEvent) (sid routeTag : String) : Prop :=
  let hub := s.server.hub
  match e.op with
  | .frame _ _ _ =>
      let mesh := s.server.mesh.pruneRoutes e.now.wall
      ∃ target,
        Place m sid (hub.routePeerDescriptors e.now.monotonic routeTag (some sid)) target ∧
          Takes m hub e.now.wall target mesh
            ((mesh.routeRegistry.getD routeTag ∅).values.map Descriptor.raw)
  | .resume _ _ =>
      ∃ conn id peers found queries target, s.connections.get? sid = some conn ∧
        conn.phase = .waiting (.discover id routeTag peers found queries) ∧
          Place m sid peers target ∧ (target ∈ found.keys ∨
            Takes m hub e.now.wall target s.server.mesh (answersOf queries))
  | _ => False

/-! ## What a waiting DISCOVER has gathered -/

def AllGathered (s : ServerRun) : Prop :=
  ∀ sid conn id routeTag peers found queries, s.connections.get? sid = some conn →
    conn.endpoint = .v2 → conn.phase = .waiting (.discover id routeTag peers found queries) →
    Gathered sid peers found

theorem AllGathered.next (h : AllGathered s) : AllGathered (s.after m cr trust e) := by
  intro sid conn' id routeTag peers found queries hconn' hv2 hphase'
  have hkept : (∃ conn queries, s.connections.get? sid = some conn ∧ conn.endpoint = .v2 ∧
      conn.phase = .waiting (.discover id routeTag peers found queries)) →
      Gathered sid peers found := by
    intro ⟨conn, queries, hconn, hend, hphase⟩
    exact h sid conn id routeTag peers found queries hconn hend hphase
  cases discovery_after m cr trust s e with
  | standBy hstandBy => exact hkept (hstandBy.waits sid conn' _ _ _ _ _ hconn' hv2 hphase')
  | message _ hconn hstep hconnections =>
      rw [hconnections, applyStep, setPhase, Dict.get?_set] at hconn'
      split at hconn'
      · next heq =>
          subst heq
          cases hconn'
          cases hstep with
          | answered _ _ _ hnext =>
              rw [hnext] at hphase'
              cases hphase'
          | waits _ _ _ hnext =>
              rw [hnext] at hphase'
              cases hphase'
              exact gathered_route _ _ _ _ fun key d hget => (get?_discover hget).1.key
      · exact hkept ⟨conn', queries, hconn', hv2, hphase'⟩
  | resumed _ hconn _ _ hconnections =>
      rw [hconnections, applyStep, setPhase, Dict.get?_set] at hconn'
      split at hconn'
      · cases hconn'
        cases hphase'
      · exact hkept ⟨conn', queries, hconn', hv2, hphase'⟩

theorem allGathered_of_reachable (h : (serverSystem m cr trust).Reachable s) : AllGathered s := by
  refine h.invariant (P := fun s => AllGathered s) ?_ ?_
  · rintro s ⟨incarnation, clocks, rfl⟩
    nofun
  · rintro s e s' hs ⟨-, rfl⟩
    exact hs.next

/-! ## The reply -/

theorem listing_of_reply {id id' : Json} {routeTag routeTag' : String}
    {peers : List PeerDescriptor} {found : Dict String Descriptor} {listed : List Json}
    (h : V2.answer id routeV2 "PEERS" [("routeTag", .str routeTag), ("peers", .arr listed)] =
      V2.peersReply m sid id' routeTag' peers found) :
    routeTag' = routeTag ∧ listed = listing m sid peers found := by
  rw [peersReply_eq] at h
  unfold V2.answer messageOf at h
  simp only [Effect.reply.injEq, Json.obj.injEq, Json.arr.injEq, Json.str.injEq, List.cons.injEq,
    Prod.mk.injEq, true_and, and_true] at h
  exact ⟨h.2.1.symm, h.2.2⟩

/-- A DISCOVER that is answered at once shows the own registry. -/
theorem shown_at_once {hub : Hub} {raw : List Char} {draws : Draws} {other routeTag : String}
    (hop : e.op = .frame other raw draws) (hsessions : hub.sessions = s.server.hub.sessions)
    (hroutes : hub.routes = s.server.hub.routes) :
    (∀ peer ∈ listing m sid (hub.routePeerDescriptors e.now.monotonic routeTag (some sid))
        (s.server.mesh.discover m cr hub e.now.wall routeTag).2.1, Bare peer) ↔
      ¬MeshShows m s e sid routeTag := by
  have hgathered := gathered_route hub e.now.monotonic routeTag sid fun key d hget =>
    (@get?_discover m cr hub e.now.wall s.server.mesh routeTag key d hget).1.key
  rw [hgathered.listing_bare_iff]
  unfold MeshShows
  simp only [hop]
  rw [routePeerDescriptors_congr hsessions hroutes]
  refine not_congr (exists_congr fun target => and_congr_right fun _ => ?_)
  show target ∈ (List.foldl (collect m hub e.now.wall) _ _).2.keys ↔ _
  rw [collect_congr hsessions, mem_keys_collected]
  exact or_iff_right List.not_mem_nil

/-- A DISCOVER whose answers are there shows what it had found, and them. -/
theorem shown_at_last {conn : Connection} {arrived : Bool} {id : Json} {routeTag : String}
    {peers : List PeerDescriptor} {found : Dict String Descriptor} {queries : List Query}
    (hop : e.op = .resume sid arrived) (hconn : s.connections.get? sid = some conn)
    (hphase : conn.phase = .waiting (.discover id routeTag peers found queries))
    (hgathered : Gathered sid peers found) :
    (∀ peer ∈ listing m sid peers
        (s.server.mesh.discovered m s.server.hub e.now.wall found queries).2, Bare peer) ↔
      ¬MeshShows m s e sid routeTag := by
  have hkeys (target : String) :
      target ∈ (s.server.mesh.discovered m s.server.hub e.now.wall found queries).2.keys ↔
        target ∈ found.keys ∨
          Takes m s.server.hub e.now.wall target s.server.mesh (answersOf queries) :=
    mem_keys_collected (answersOf queries) s.server.mesh found
  have hkeyed : Gathered sid peers
      (s.server.mesh.discovered m s.server.hub e.now.wall found queries).2 := by
    refine ⟨hgathered.distinct, hgathered.others, fun key d hget => ?_⟩
    obtain hold | ⟨_, -, hcollected⟩ := get?_foldl_collect _ _ hget
    · exact hgathered.keyed key d hold
    · exact hcollected.key
  rw [hkeyed.listing_bare_iff]
  unfold MeshShows
  simp only [hop]
  refine not_congr ⟨?_, ?_⟩
  · rintro ⟨target, hplace, hmem⟩
    exact ⟨conn, id, peers, found, queries, target, hconn, hphase, hplace, (hkeys target).mp hmem⟩
  · rintro ⟨conn', id', peers', found', queries', target, hconn', hphase', hplace, hmem⟩
    rw [hconn] at hconn'
    cases hconn'
    rw [hphase] at hphase'
    cases hphase'
    exact ⟨target, hplace, (hkeys target).mpr hmem⟩

/-- Every PEERS reply of the second endpoint lists at most `max_fanout` peers,
each with a session of its own that is not the one that asks; and its entries
have exactly the three fields of `peer_descriptor` if and only if the mesh has
no descriptor that comes among them. -/
theorem peers_replies_bare_iff (h : (serverSystem m cr trust).Reachable s)
    (hstep : (serverSystem m cr trust).step s e s') {conn : Connection} {id : Json}
    {routeTag : String} {listed : List Json} (hconn : s.connections.get? sid = some conn)
    (hv2 : conn.endpoint = .v2)
    (hreply : V2.answer id routeV2 "PEERS" [("routeTag", .str routeTag), ("peers", .arr listed)] ∈
      (s'.effectsOf sid).drop (s.effectsOf sid).length) :
    listed.length ≤ m.maxFanout ∧
      (∃ ids : List String, listed.map sessionIdOf = ids.map some ∧ ids.Nodup ∧ sid ∉ ids) ∧
      ((∀ peer ∈ listed, Bare peer) ↔ ¬MeshShows m s e sid routeTag) := by
  obtain ⟨-, rfl⟩ := hstep
  have hmade : ∀ {id' : Json} {routeTag' : String} {peers : List PeerDescriptor}
      {found : Dict String Descriptor},
      V2.answer id routeV2 "PEERS" [("routeTag", .str routeTag), ("peers", .arr listed)] =
        V2.peersReply m sid id' routeTag' peers found →
      ((∀ peer ∈ listing m sid peers found, Bare peer) ↔ ¬MeshShows m s e sid routeTag') →
      listed.length ≤ m.maxFanout ∧
        (∃ ids : List String, listed.map sessionIdOf = ids.map some ∧ ids.Nodup ∧ sid ∉ ids) ∧
        ((∀ peer ∈ listed, Bare peer) ↔ ¬MeshShows m s e sid routeTag) := by
    intro id' routeTag' peers found heq hbare
    obtain ⟨rfl, rfl⟩ := listing_of_reply heq
    exact ⟨List.length_take_le _ _, sessionIds_listing m sid peers found, hbare⟩
  cases discovery_after m cr trust s e with
  | standBy hstandBy =>
      have hnot := hstandBy.unanswered sid conn _ hconn hv2 hreply
      rw [V2.isPeers_answer] at hnot
      cases hnot
  | @message other raw draws conn' step hop hconn' hdiscovers _ hlog =>
      have heffects : (s.after m cr trust e).effectsOf sid =
          (s.applyStep other conn' step).effectsOf sid := by
        unfold effectsOf
        rw [hlog]
      rw [heffects, effectsOf_applyStep, List.drop_left] at hreply
      split at hreply
      · next heq =>
        subst heq
        cases hdiscovers with
        | answered hsessions hroutes heffects _ =>
            rw [heffects, List.mem_singleton] at hreply
            exact hmade hreply (shown_at_once hop hsessions hroutes)
        | waits _ _ heffects _ =>
            rw [heffects] at hreply
            cases hreply
      · cases hreply
  | @resumed other conn' arrived id' routeTag' peers found queries hop hconn' hphase hanswered _
      hlog =>
      have heffects : (s.after m cr trust e).effectsOf sid = (s.applyStep other conn'
          (V2.finishDiscover m e.now other id' routeTag' peers found queries
            s.server)).effectsOf sid := by
        unfold effectsOf
        rw [hlog]
      rw [heffects, effectsOf_applyStep, List.drop_left] at hreply
      split at hreply
      · next heq =>
        subst heq
        rw [hconn] at hconn'
        cases hconn'
        exact hmade (List.mem_singleton.mp hreply) (shown_at_last hop hconn hphase
          (allGathered_of_reachable h sid conn _ _ _ _ _ hconn hv2 hphase))
      · cases hreply

end ServerRun

/-! ## A node on its own -/

namespace Sample

/-- Two clients are on a route, and one asks who is there: it is answered, with
the node and the expiry of the other's descriptor in the registry. -/
theorem asked_answered :
    (serverSystem .alone crypto trust).Reachable beforeAsked ∧
      (serverSystem .alone crypto trust).step beforeAsked asked
        (beforeAsked.after .alone crypto trust asked) ∧
      (∃ conn, beforeAsked.connections.get? "t" = some conn ∧ conn.endpoint = .v2) ∧
      ∃ id routeTag listed peer,
        V2.answer id routeV2 "PEERS" [("routeTag", .str routeTag), ("peers", .arr listed)] ∈
          ((beforeAsked.after .alone crypto trust asked).effectsOf "t").drop
            (beforeAsked.effectsOf "t").length ∧
          peer ∈ listed ∧ (peer.get? "nodeId").isSome = true := by
  have hrun : System.Meets (fun s e => s.clocks.before e.now ∧ s.allowed .alone e.op)
        (ServerRun.after .alone crypto trust) (start .alone) (asking .alone) ∧
      (beforeAsked.clocks.before asked.now ∧ beforeAsked.allowed .alone asked.op) ∧
      (beforeAsked.connections.get? "t").any (fun conn => conn.endpoint = .v2) = true ∧
      (((beforeAsked.after .alone crypto trust asked).effectsOf "t").drop
        (beforeAsked.effectsOf "t").length).any
          (listsPeer fun peer => (peer.get? "nodeId").isSome) = true := by
    decide +kernel
  obtain ⟨hmeets, hallowed, hconn, hlists⟩ := hrun
  obtain ⟨conn, hconn, hv2⟩ := (Option.any_eq_true _ _).mp hconn
  exact ⟨reachable_run .alone _ hmeets, ⟨hallowed, rfl⟩, ⟨conn, hconn, of_decide_eq_true hv2⟩,
    reply_of_listsPeer hlists⟩

end Sample

namespace ServerRun

/-- The client learns the other's node. -/
theorem peers_reply_names_node :
    ∃ (s s' : ServerRun) (e : ServerEvent) (conn : Connection) (id : Json) (routeTag : String)
      (listed : List Json),
      (serverSystem .alone Sample.crypto Sample.trust).Reachable s ∧
      (serverSystem .alone Sample.crypto Sample.trust).step s e s' ∧
      s.connections.get? "t" = some conn ∧ conn.endpoint = .v2 ∧
      V2.answer id routeV2 "PEERS" [("routeTag", .str routeTag), ("peers", .arr listed)] ∈
        (s'.effectsOf "t").drop (s.effectsOf "t").length ∧
      ¬∀ peer ∈ listed, Bare peer := by
  obtain ⟨hreach, hstep, ⟨conn, hconn, hv2⟩, id, routeTag, listed, peer, hreply, hpeer, hnode⟩ :=
    Sample.asked_answered
  obtain ⟨value, hnode⟩ := Option.isSome_iff_exists.mp hnode
  exact ⟨_, _, _, conn, id, routeTag, listed, hreach, hstep, hconn, hv2, hreply,
    fun hbare => not_bare_of_nodeId hnode (hbare peer hpeer)⟩

theorem peers_replies_bare_iff_pair :
    ∃ (listed : List Json) (ids : List String), listed.map sessionIdOf = ids.map some ∧
      ids.Nodup ∧ "t" ∉ ids ∧ listed ≠ [] := by
  obtain ⟨hreach, hstep, ⟨conn, hconn, hv2⟩, id, routeTag, listed, peer, hreply, hpeer, -⟩ :=
    Sample.asked_answered
  obtain ⟨ids, hids, hnodup, hself⟩ :=
    (peers_replies_bare_iff hreach hstep hconn hv2 hreply).2.1
  exact ⟨listed, ids, hids, hnodup, hself, List.ne_nil_of_mem hpeer⟩

end ServerRun

end Masterserver
