import Masterserver.Proofs.RequestOps
import Masterserver.Runs.Pending

/-!
# The requests that are pending

An entry of one of the two tables is there for a request that a running call
has open: `Entries`. A call puts it in under an identifier that is new, if the
tables together are below their cap, and takes it out where the request ends,
whichever way that is. In between others only set the future in it, or, at a
stop, clear it away. So when a call returns it has no entry left.

What happens to the futures is of two kinds, `Settles`: one that is pending is
resolved, or a new one is made. So none is resolved twice.
-/

namespace Masterserver

open Lib NodeMesh Relation

variable {m : MeshConfig} {cr : Crypto} {hub : Hub} {now : Clocks}

/-! ## What leaves the tables alone -/

namespace NodeMesh

/-- The two tables of pending requests are the same. -/
structure SamePending (mesh mesh' : NodeMesh) : Prop where
  pendingQueries : mesh'.pendingQueries = mesh.pendingQueries
  pendingAcks : mesh'.pendingAcks = mesh.pendingAcks

variable {mesh mesh' mesh'' : NodeMesh}

theorem SamePending.refl : SamePending mesh mesh := ⟨rfl, rfl⟩

theorem SamePending.trans (h : SamePending mesh mesh') (h' : SamePending mesh' mesh'') :
    SamePending mesh mesh'' :=
  ⟨h'.pendingQueries.trans h.pendingQueries, h'.pendingAcks.trans h.pendingAcks⟩

theorem Edits.samePending {E : String → Prop} {wall : Seconds}
    (h : Edits m hub wall E mesh mesh') : SamePending mesh mesh' := by
  obtain ⟨_, _, _, _, rfl⟩ := h.onlyTables
  exact ⟨rfl, rfl⟩

theorem samePending_reconcileMembership (mesh : NodeMesh) (monotonic : Seconds) :
    SamePending mesh (mesh.reconcileMembership m monotonic) := by
  unfold reconcileMembership
  simp only
  split <;> exact ⟨rfl, rfl⟩

theorem samePending_topologyChanged (mesh : NodeMesh) (wall monotonic : Seconds) :
    SamePending mesh (mesh.topologyChanged m cr hub wall monotonic).1 := by
  have hdrop : Edits m hub wall (fun _ => False) (mesh.reconcileMembership m monotonic)
      ((mesh.reconcileMembership m monotonic).dropStaleOwnership m cr) :=
    edits_dropStaleOwnership _
  exact (samePending_reconcileMembership mesh monotonic).trans
    (Edits.samePending (hdrop.trans (edits_registerLocalLeases _)))

theorem samePending_recordState {wall monotonic : Seconds} {nodeId : String} {payload : Json}
    (h : mesh.recordState m wall monotonic nodeId payload = some mesh') :
    SamePending mesh mesh' := by
  unfold recordState at h
  simp only at h
  split at h
  · cases h
  · split at h
    · cases h
      exact ⟨rfl, rfl⟩
    · cases h

/-- Every operation on the mesh but a stop. -/
theorem samePending_apply (mesh : NodeMesh) {op : MeshOp} (hstop : op ≠ .stop) :
    SamePending mesh (op.apply m cr hub now mesh) := by
  have hedits {mesh'} (h : Edits m hub now.wall (fun _ => True) mesh mesh') :
      SamePending mesh mesh' := h.samePending
  cases op with
  | applyRouteMessage msgType tag descriptor => exact hedits (edits_applyRouteMessage _ _ _ _)
  | cacheDescriptor descriptor => exact hedits (edits_cacheDescriptor _ _)
  | pruneRoutes => exact hedits (edits_pruneRoutes _ fun _ => trivial)
  | remoteDescriptor target => exact hedits (edits_remoteDescriptor _ trivial)
  | registerLocalRoute tag sid => exact hedits (edits_registerLocalRoute _ _ _)
  | removeLocalRoute tag sid => exact hedits (edits_replicate _ _ _ _)
  | dropStaleOwnership => exact hedits (edits_dropStaleOwnership _)
  | reconcileMembership | membershipTick => exact samePending_reconcileMembership _ _
  | topologyChanged => exact samePending_topologyChanged _ _ _
  | linkUp node socket =>
      simp only [MeshOp.apply, linkUp]
      obtain heq | heq := claimConnection_cases mesh node socket
      · rw [heq]
        exact .refl
      · rw [heq]
        have hclaimed : SamePending mesh
            { mesh with connections := mesh.connections.set node socket } := ⟨rfl, rfl⟩
        exact hclaimed.trans (samePending_topologyChanged _ _ _)
  | linkDown node socket =>
      simp only [MeshOp.apply, linkDown]
      split
      · next mesh' hreleased =>
          have hsame : SamePending mesh mesh' := by
            unfold releaseConnection at hreleased
            split at hreleased
            · cases hreleased
              exact ⟨rfl, rfl⟩
            · cases hreleased
          exact hsame.trans (samePending_topologyChanged _ _ _)
      · exact .refl
  | nodeState node payload =>
      simp only [MeshOp.apply, handleNodeState]
      split
      · next mesh' hrecorded =>
          exact (samePending_recordState hrecorded).trans (samePending_reconcileMembership _ _)
      · exact .refl
  | stop => exact absurd rfl hstop

theorem samePending_foldl_collect (wall : Seconds) (descriptors : List Json)
    (acc : NodeMesh × Dict String Descriptor) :
    SamePending acc.1 (descriptors.foldl (NodeMesh.collect m hub wall) acc).1 := by
  refine foldl_invariant (P := fun acc' : NodeMesh × Dict String Descriptor =>
    SamePending acc.1 acc'.1) descriptors .refl ?_
  intro acc' descriptor _ ih
  have hcached : SamePending acc'.1 (acc'.1.cacheDescriptor m hub wall descriptor).1 :=
    Edits.samePending (edits_cacheDescriptor (E := fun _ => False) acc'.1 descriptor)
  refine ih.trans ?_
  unfold NodeMesh.collect
  simp only
  split
  · exact hcached
  · exact hcached

theorem samePending_discover (mesh : NodeMesh) (wall : Seconds) (routeTag : String) :
    SamePending mesh (mesh.discover m cr hub wall routeTag).1 := by
  have hpruned : Edits m hub wall (fun _ => True) mesh (mesh.pruneRoutes wall) :=
    edits_pruneRoutes mesh fun _ => trivial
  exact hpruned.samePending.trans
    (samePending_foldl_collect wall _ (mesh.pruneRoutes wall, ∅))

end NodeMesh

/-! ## Who has a request open -/

namespace PendingRun

/-- The call that drew the identifier is running, and is such. -/
def Holds (drawnBy : Dict String Nat) (calls : Dict Nat Call) (p : Call → Bool)
    (requestId : String) : Prop :=
  ∃ number call, drawnBy.get? requestId = some number ∧ calls.get? number = some call ∧
    p call = true

variable {s : PendingRun} {drawnBy : Dict String Nat} {calls : Dict Nat Call} {p : Call → Bool}
  {requestId other : String} {number : Nat} {call : Call}

/-- A call is replaced by one that is such if it was. -/
theorem Holds.set (h : Holds drawnBy calls p requestId)
    (hkeep : ∀ before, calls.get? number = some before → p before = true → p call = true) :
    Holds drawnBy (calls.set number call) p requestId := by
  obtain ⟨n, before, hdrawn, hget, hp⟩ := h
  by_cases hn : n = number
  · subst hn
    exact ⟨n, call, hdrawn, Dict.get?_set_self _ _ _, hkeep before hget hp⟩
  · exact ⟨n, before, hdrawn, (Dict.get?_set_of_ne _ _ hn).trans hget, hp⟩

/-- A call that is not such returns. -/
theorem Holds.erase (h : Holds drawnBy calls p requestId)
    (hnot : ∀ before, calls.get? number = some before → p before = false) :
    Holds drawnBy (calls.erase number) p requestId := by
  obtain ⟨n, before, hdrawn, hget, hp⟩ := h
  have hn : n ≠ number := by
    rintro rfl
    rw [hnot before hget] at hp
    cases hp
  exact ⟨n, before, hdrawn, (Dict.get?_erase_of_ne _ hn).trans hget, hp⟩

theorem Holds.draw (h : Holds drawnBy calls p requestId) (hne : requestId ≠ other) :
    Holds (drawnBy.set other number) calls p requestId := by
  obtain ⟨n, before, hdrawn, hget, hp⟩ := h
  exact ⟨n, before, (Dict.get?_set_of_ne _ _ hne).trans hdrawn, hget, hp⟩

theorem holder?_eq_some :
    s.holder? requestId = some (number, call) ↔
      s.drawnBy.get? requestId = some number ∧ s.calls.get? number = some call ∧
        (call.asks requestId || call.forwards requestId) = true := by
  unfold holder?
  constructor
  · intro h
    split at h
    · cases h
    next hdrawn =>
    split at h
    · cases h
    next hget =>
    split at h
    · next hholds =>
        cases h
        exact ⟨hdrawn, hget, hholds⟩
    · cases h
  · rintro ⟨hdrawn, hget, hholds⟩
    simp only [hdrawn, hget, hholds, if_true]

theorem Holds.holder? {p : String → Call → Bool}
    (h : Holds s.drawnBy s.calls (p requestId) requestId)
    (hp : ∀ call : Call, p requestId call = true →
      (call.asks requestId || call.forwards requestId) = true) :
    (s.holder? requestId).isSome = true := by
  obtain ⟨number, call, hdrawn, hget, hcall⟩ := h
  rw [holder?_eq_some.mpr ⟨hdrawn, hget, hp call hcall⟩]
  rfl

/-! ## The entries -/

/-- Each entry is of a running call that has the request open, and there are
not too many of them. -/
structure Entries (m : MeshConfig) (s : PendingRun) : Prop where
  bounded : s.mesh.pendingOperationCount ≤ m.nodeMeshMaxPendingOperations
  queries : ∀ requestId ∈ s.mesh.pendingQueries.keys,
    Holds s.drawnBy s.calls (Call.asks requestId) requestId
  acks : ∀ requestId ∈ s.mesh.pendingAcks.keys,
    Holds s.drawnBy s.calls (Call.forwards requestId) requestId
  numbered : ∀ number call, s.calls.get? number = some call → number < s.started
  drawn : ∀ requestId number, s.drawnBy.get? requestId = some number →
    number < s.started ∧ s.futures.contains requestId = true

theorem entries_new (incarnation : String) : Entries m (.new m incarnation) where
  bounded := Nat.zero_le _
  queries _ h := absurd h List.not_mem_nil
  acks _ h := absurd h List.not_mem_nil
  numbered _ _ h := by cases h
  drawn _ _ h := by cases h

/-- Entries can be taken out, or answered, at any time. -/
theorem Entries.shrink (h : Entries m s) {mesh : NodeMesh}
    (hcount : mesh.pendingOperationCount ≤ s.mesh.pendingOperationCount)
    (hqueries : mesh.pendingQueries.keys ⊆ s.mesh.pendingQueries.keys)
    (hacks : mesh.pendingAcks.keys ⊆ s.mesh.pendingAcks.keys) :
    Entries m { s with mesh := mesh } where
  bounded := hcount.trans h.bounded
  queries id hid := h.queries id (hqueries hid)
  acks id hid := h.acks id (hacks hid)
  numbered := h.numbered
  drawn := h.drawn

theorem Entries.withMesh (h : Entries m s) {mesh : NodeMesh} (hsame : SamePending s.mesh mesh) :
    Entries m { s with mesh := mesh } := by
  refine h.shrink ?_ ?_ ?_
  · rw [pendingOperationCount, hsame.pendingQueries, hsame.pendingAcks]
    exact le_refl _
  · rw [hsame.pendingQueries]
    exact List.Subset.refl _
  · rw [hsame.pendingAcks]
    exact List.Subset.refl _

theorem contains_set_of_contains {futures : Dict String Future} {outcome : Future}
    (h : futures.contains requestId = true) :
    (futures.set other outcome).contains requestId = true := by
  rw [Dict.contains_set, h, Bool.or_true]

theorem Entries.resolve (h : Entries m s) (outcome : Future) :
    Entries m (s.resolve requestId outcome) := by
  unfold PendingRun.resolve
  split
  · exact ⟨h.bounded, h.queries, h.acks, h.numbered, fun id number hdrawn =>
      ⟨(h.drawn id number hdrawn).1, contains_set_of_contains (h.drawn id number hdrawn).2⟩⟩
  · exact h

/-- A call begins. -/
theorem Entries.begin (h : Entries m s) (call : Call) :
    Entries m { s with calls := s.calls.set s.started call, started := s.started + 1 } := by
  have hnew : ∀ before, s.calls.get? s.started = some before → False := fun before hget =>
    absurd (h.numbered _ _ hget) (lt_irrefl _)
  constructor
  · exact h.bounded
  · intro id hid
    exact (h.queries id hid).set fun before hget _ => (hnew before hget).elim
  · intro id hid
    exact (h.acks id hid).set fun before hget _ => (hnew before hget).elim
  · intro number before hget
    by_cases hn : number = s.started
    · rw [hn]
      exact Nat.lt_succ_self _
    · rw [Dict.get?_set_of_ne _ _ hn] at hget
      exact Nat.lt_succ_of_lt (h.numbered number before hget)
  · intro id number hdrawn
    obtain ⟨hlt, hfuture⟩ := h.drawn id number hdrawn
    exact ⟨Nat.lt_succ_of_lt hlt, hfuture⟩

/-- A running call goes on as one that has the same requests open. -/
theorem Entries.become (h : Entries m s) {before : Call} (hget : s.calls.get? number = some before)
    (hasks : ∀ id ∈ s.mesh.pendingQueries.keys, before.asks id = true → call.asks id = true)
    (hforwards : ∀ id ∈ s.mesh.pendingAcks.keys, before.forwards id = true →
      call.forwards id = true) :
    Entries m { s with calls := s.calls.set number call } := by
  have hsame : ∀ before', s.calls.get? number = some before' → before' = before := by
    intro before' hget'
    rw [hget, Option.some.injEq] at hget'
    exact hget'.symm
  constructor
  · exact h.bounded
  · intro id hid
    refine (h.queries id hid).set fun before' hget' hp => hasks id hid ?_
    rwa [← hsame before' hget']
  · intro id hid
    refine (h.acks id hid).set fun before' hget' hp => hforwards id hid ?_
    rwa [← hsame before' hget']
  · intro n before' hget'
    by_cases hn : n = number
    · rw [hn]
      exact h.numbered number before hget
    · rw [Dict.get?_set_of_ne _ _ hn] at hget'
      exact h.numbered n before' hget'
  · exact h.drawn

/-- A call returns that has no request open. -/
theorem Entries.return (h : Entries m s) {before : Call} (hget : s.calls.get? number = some before)
    (hasks : ∀ id ∈ s.mesh.pendingQueries.keys, before.asks id = false)
    (hforwards : ∀ id ∈ s.mesh.pendingAcks.keys, before.forwards id = false) :
    Entries m { s with calls := s.calls.erase number } := by
  have hsame : ∀ before', s.calls.get? number = some before' → before' = before := by
    intro before' hget'
    rw [hget, Option.some.injEq] at hget'
    exact hget'.symm
  constructor
  · exact h.bounded
  · intro id hid
    refine (h.queries id hid).erase fun before' hget' => ?_
    rw [hsame before' hget']
    exact hasks id hid
  · intro id hid
    refine (h.acks id hid).erase fun before' hget' => ?_
    rw [hsame before' hget']
    exact hforwards id hid
  · intro n before' hget'
    by_cases hn : n = number
    · rw [hn, Dict.get?_erase_self] at hget'
      cases hget'
    · rw [Dict.get?_erase_of_ne _ hn] at hget'
      exact h.numbered n before' hget'
  · exact h.drawn

theorem Entries.erase (h : Entries m s) (requestId : String) :
    Entries m { s with mesh := { s.mesh with
      pendingQueries := s.mesh.pendingQueries.erase requestId } } ∧
    Entries m { s with mesh := { s.mesh with
      pendingAcks := s.mesh.pendingAcks.erase requestId } } := by
  constructor
  · refine h.shrink ?_ (fun id hid => (Dict.mem_keys_erase.mp hid).2) (List.Subset.refl _)
    exact Nat.add_le_add_right (Dict.size_erase_le _ _) _
  · refine h.shrink ?_ (List.Subset.refl _) fun id hid => (Dict.mem_keys_erase.mp hid).2
    exact Nat.add_le_add_left (Dict.size_erase_le _ _) _

/-- A running call draws a new identifier for a request it has open. -/
theorem Entries.draw (h : Entries m s) (hfresh : s.futures.contains requestId = false)
    (hget : s.calls.get? number = some call) {mesh : NodeMesh}
    (hbounded : mesh.pendingOperationCount ≤ m.nodeMeshMaxPendingOperations)
    (hqueries : ∀ id ∈ mesh.pendingQueries.keys,
      id ∈ s.mesh.pendingQueries.keys ∨ id = requestId ∧ call.asks requestId = true)
    (hacks : ∀ id ∈ mesh.pendingAcks.keys,
      id ∈ s.mesh.pendingAcks.keys ∨ id = requestId ∧ call.forwards requestId = true) :
    Entries m (({ s with mesh := mesh } : PendingRun).draw requestId number) := by
  -- whoever holds a request has drawn its identifier before
  have hold : ∀ {p : Call → Bool} {id : String}, Holds s.drawnBy s.calls p id →
      Holds (s.drawnBy.set requestId number) s.calls p id := by
    intro p id hholds
    refine hholds.draw ?_
    rintro rfl
    obtain ⟨n, -, hdrawn, -⟩ := hholds
    rw [(h.drawn id n hdrawn).2] at hfresh
    cases hfresh
  constructor
  · exact hbounded
  · intro id hid
    obtain hid | ⟨rfl, hasks⟩ := hqueries id hid
    · exact hold (h.queries id hid)
    · exact ⟨number, call, Dict.get?_set_self _ _ _, hget, hasks⟩
  · intro id hid
    obtain hid | ⟨rfl, hforwards⟩ := hacks id hid
    · exact hold (h.acks id hid)
    · exact ⟨number, call, Dict.get?_set_self _ _ _, hget, hforwards⟩
  · exact h.numbered
  · intro id n hdrawn
    by_cases hid : id = requestId
    · subst hid
      rw [PendingRun.draw, Dict.get?_set_self, Option.some.injEq] at hdrawn
      rw [← hdrawn]
      exact ⟨h.numbered number call hget, by simp [PendingRun.draw, Dict.contains_set]⟩
    · rw [PendingRun.draw, Dict.get?_set_of_ne _ _ hid] at hdrawn
      obtain ⟨hlt, hfuture⟩ := h.drawn id n hdrawn
      exact ⟨hlt, contains_set_of_contains hfuture⟩

theorem size_set_le {α : Type} (d : Dict String α) (k : String) (v : α) :
    (d.set k v).size ≤ d.size + 1 := by
  rw [Dict.size_set]
  split <;> omega

/-! ## Step by step -/

theorem isAsked_iff {id : String} {query : Query} :
    ServerRun.isAsked id query = true ↔ query = .asked id := by
  cases query <;> simp [ServerRun.isAsked]

/-- A task that is not waiting can be replaced. -/
theorem any_isAsked_set {queries : List Query} {index link : Nat} {query : Query} {id : String}
    (hindex : queries[index]? = some (.unstarted link))
    (h : queries.any (ServerRun.isAsked id) = true) :
    (queries.set index query).any (ServerRun.isAsked id) = true := by
  obtain ⟨task, htask, hasked⟩ := List.any_eq_true.mp h
  obtain ⟨i, hi, rfl⟩ := List.mem_iff_getElem.mp htask
  refine List.any_eq_true.mpr ⟨queries[i], ?_, hasked⟩
  have hne : index ≠ i := by
    rintro rfl
    rw [List.getElem?_eq_getElem hi, Option.some.injEq] at hindex
    rw [hindex] at hasked
    cases hasked
  refine List.mem_iff_getElem.mpr ⟨i, by rwa [List.length_set], ?_⟩
  rw [List.getElem_set_ne hne]

/-- A task asks if there is room. -/
theorem queryOwner_cases (m : MeshConfig) (mesh : NodeMesh) (queryId routeTag : String)
    (link : Nat) :
    mesh.queryOwner m queryId routeTag link = (mesh, .answered [], []) ∨
      ¬ m.nodeMeshMaxPendingOperations ≤ mesh.pendingOperationCount ∧
        mesh.queryOwner m queryId routeTag link =
          ({ mesh with pendingQueries := mesh.pendingQueries.set queryId none }, .asked queryId,
            [⟨link, .routeQuery queryId routeTag⟩]) := by
  unfold queryOwner
  split
  · exact .inl rfl
  · next hroom => exact .inr ⟨hroom, rfl⟩

theorem Entries.startQuery (h : Entries m s) (number index : Nat)
    (hfresh : s.futures.contains requestId = false) :
    Entries m (s.startQuery m number index requestId) := by
  unfold PendingRun.startQuery
  split
  · next routeTag found queries hget =>
    split
    · next link hindex =>
      have hkeeps (query : Query) :
          Entries m { s with
            calls := s.calls.set number (.discover routeTag found (queries.set index query)) } :=
        h.become hget (fun id _ hasks => any_isAsked_set hindex hasks) fun _ _ hno => by cases hno
      obtain heq | ⟨hroom, heq⟩ := queryOwner_cases m s.mesh requestId routeTag link
      · rw [heq]
        exact hkeeps (.answered [])
      · rw [heq]
        have hcall : (s.calls.set number
            (.discover routeTag found (queries.set index (.asked requestId)))).get? number = _ :=
          Dict.get?_set_self _ _ _
        have hlt : index < queries.length := by
          by_contra hge
          rw [List.getElem?_eq_none (not_lt.mp hge)] at hindex
          cases hindex
        refine (hkeeps (.asked requestId)).draw hfresh hcall ?_ ?_ fun id hid => .inl hid
        · have hsize := size_set_le s.mesh.pendingQueries requestId none
          unfold pendingOperationCount at hroom ⊢
          simp only at hroom ⊢
          omega
        · intro id hid
          obtain rfl | hid := Dict.mem_keys_set.mp hid
          · refine .inr ⟨rfl, List.any_eq_true.mpr ⟨.asked id, ?_, isAsked_iff.mpr rfl⟩⟩
            exact List.mem_of_getElem? (by rw [List.getElem?_set_self hlt])
          · exact .inl hid
    · exact h
  · exact h

theorem Entries.forwardSignal (h : Entries m s) (routeTag target : String) (envelope : Json)
    (hfresh : s.futures.contains requestId = false) :
    Entries m (s.forwardSignal m requestId routeTag target envelope) := by
  unfold PendingRun.forwardSignal NodeMesh.forwardSignal
  split
  · next hnone => exact h
  · next mesh send hsome =>
    have hopened : ¬ m.nodeMeshMaxPendingOperations ≤ s.mesh.pendingOperationCount ∧
        mesh = { s.mesh with pendingAcks := s.mesh.pendingAcks.set requestId none } := by
      split at hsome
      · cases hsome
      split at hsome
      · cases hsome
      split at hsome
      · cases hsome
      split at hsome
      · cases hsome
      · next hroom =>
          cases hsome
          exact ⟨hroom, rfl⟩
    obtain ⟨hroom, rfl⟩ := hopened
    have hcall : (s.calls.set s.started (.forwardSignal requestId)).get? s.started = _ :=
      Dict.get?_set_self _ _ _
    refine (h.begin (.forwardSignal requestId)).draw hfresh hcall ?_ (fun id hid => .inl hid) ?_
    · have hsize := size_set_le s.mesh.pendingAcks requestId none
      unfold pendingOperationCount at hroom ⊢
      simp only at hroom ⊢
      omega
    · intro id hid
      obtain rfl | hid := Dict.mem_keys_set.mp hid
      · exact .inr ⟨rfl, by simp [Call.forwards]⟩
      · exact .inl hid

/-- However a request ends, its entry is out. -/
theorem Entries.release (h : Entries m s) (arrived : Bool) :
    Entries m (s.release requestId arrived) := by
  unfold PendingRun.release
  split
  · exact h
  · next number id hholder =>
    obtain ⟨-, hget, hholds⟩ := holder?_eq_some.mp hholder
    obtain rfl : id = requestId := by simpa [Call.asks, Call.forwards] using hholds
    refine (h.erase id).2.return hget (fun _ _ => rfl) ?_
    intro other hother
    have hne := (Dict.mem_keys_erase.mp hother).1
    simpa [Call.forwards] using Ne.symm hne
  · next number routeTag found queries hholder =>
    obtain ⟨-, hget, -⟩ := holder?_eq_some.mp hholder
    refine (h.erase requestId).1.become hget ?_ fun _ _ hno => by cases hno
    intro other hother hasks
    have hne := (Dict.mem_keys_erase.mp hother).1
    obtain ⟨task, htask, hasked⟩ := List.any_eq_true.mp hasks
    refine List.any_eq_true.mpr ⟨task, List.mem_map.mpr ⟨task, htask, if_neg ?_⟩, hasked⟩
    rw [isAsked_iff] at hasked ⊢
    rw [hasked]
    intro heq
    cases heq
    exact hne rfl

theorem Entries.collect (h : Entries m s) (number : Nat) :
    Entries m (s.collect m hub now number) := by
  unfold PendingRun.collect
  split
  · next routeTag found queries hget =>
    split
    · next hall =>
      have hasks : ∀ id, (Call.discover routeTag found queries).asks id = false := by
        intro id
        refine List.any_eq_false.mpr fun task htask => ?_
        have hanswered := List.all_eq_true.mp hall task htask
        rw [isAsked_iff]
        rintro rfl
        cases hanswered
      have hreturned := h.return hget (fun id _ => hasks id) fun _ _ => rfl
      exact hreturned.withMesh (samePending_foldl_collect now.wall _ (s.mesh, found))
    · exact h
  · exact h

/-- An answer goes to an entry that is there. -/
theorem keys_answerPending {α : Type} (pending : Dict String (Option α)) (requestId : String)
    (answer : α) :
    (answerPending pending requestId answer).keys ⊆ pending.keys ∧
      (answerPending pending requestId answer).size ≤ pending.size := by
  unfold answerPending
  split
  · next hget =>
      have hcontains : pending.contains requestId = true := Dict.contains_iff.mpr ⟨none, hget⟩
      constructor
      · intro id hid
        obtain rfl | hid := Dict.mem_keys_set.mp hid
        · exact Dict.contains_iff_mem_keys.mp hcontains
        · exact hid
      · rw [Dict.size_set, if_pos hcontains]
  · exact ⟨List.Subset.refl _, le_refl _⟩

theorem Entries.routeResult (h : Entries m s) (payload : Payload) :
    Entries m (s.routeResult m now payload) := by
  unfold PendingRun.routeResult
  split
  · next queryId mesh hkey hmesh =>
    split
    · refine Entries.resolve ?_ _
      unfold handleRouteResult at hmesh
      rw [hkey, Option.some.injEq] at hmesh
      subst hmesh
      exact h.shrink (Nat.add_le_add_right (keys_answerPending _ _ _).2 _)
        (keys_answerPending _ _ _).1 (List.Subset.refl _)
    · exact h
  · exact h

theorem Entries.ack (h : Entries m s) (payload : Payload) : Entries m (s.ack payload) := by
  unfold PendingRun.ack
  split
  · next requestId mesh hkey hmesh =>
    split
    · refine Entries.resolve ?_ _
      unfold handleAck at hmesh
      rw [hkey, Option.some.injEq] at hmesh
      subst hmesh
      exact h.shrink (Nat.add_le_add_left (keys_answerPending _ _ _).2 _) (List.Subset.refl _)
        (keys_answerPending _ _ _).1
    · exact h
  · exact h

theorem Entries.stop (h : Entries m s) : Entries m (s.stop m) := by
  have hcancelled := foldl_invariant (P := Entries m)
    (s.mesh.pendingQueries.keys ++ s.mesh.pendingAcks.keys) h
    (f := fun s requestId => s.resolve requestId .cancelled) fun _ _ _ hs => hs.resolve _
  exact hcancelled.shrink (Nat.zero_le _) (List.nil_subset _) (List.nil_subset _)

theorem Entries.after (h : Entries m s) {e : PendingEvent} (hfresh : s.Fresh e) :
    Entries m (s.after m cr e) := by
  obtain ⟨hub, now, op⟩ := e
  cases op with
  | discover routeTag =>
      have hfound : SamePending s.mesh (s.mesh.discover m cr hub now.wall routeTag).1 :=
        samePending_discover s.mesh now.wall routeTag
      exact (h.withMesh hfound).begin _
  | startQuery number index queryId => exact h.startQuery number index (hfresh queryId rfl)
  | forwardSignal requestId routeTag target envelope =>
      exact h.forwardSignal routeTag target envelope (hfresh requestId rfl)
  | sent requestId ok =>
      simp only [PendingRun.after, sendDone]
      split
      · exact h
      split
      · exact ⟨h.bounded, h.queries, h.acks, h.numbered, h.drawn⟩
      · exact h.release false
  | routeResult payload => exact h.routeResult payload
  | ack payload => exact h.ack payload
  | timeout requestId =>
      simp only [PendingRun.after, PendingRun.timeout]
      split
      · exact h.resolve _
      · exact h
  | resume requestId arrived =>
      simp only [PendingRun.after, PendingRun.resume]
      split
      · exact h.release arrived
      · exact h
  | collect number => exact h.collect number
  | mesh op =>
      simp only [PendingRun.after, PendingRun.meshOp]
      split
      · exact h.stop
      · next hstop => exact h.withMesh (samePending_apply s.mesh hstop)

/-! ## The futures -/

/-- The futures there are, and the record of those that were resolved. -/
abbrev Ledger := Dict String Future × List String

def ledger (s : PendingRun) : Ledger := (s.futures, s.resolved)

/-- A future that is pending is resolved, or a new one is made. -/
inductive Settles : Ledger → Ledger → Prop
  | resolve {futures : Dict String Future} (resolved : List String) {requestId : String}
      {outcome : Future} : futures.get? requestId = some .pending → outcome.done = true →
      Settles (futures, resolved) (futures.set requestId outcome, resolved ++ [requestId])
  | draw {futures : Dict String Future} (resolved : List String) {requestId : String} :
      futures.contains requestId = false →
      Settles (futures, resolved) (futures.set requestId .pending, resolved)

theorem settles_resolve (s : PendingRun) (requestId : String) {outcome : Future}
    (hdone : outcome.done = true) :
    ReflTransGen Settles s.ledger (s.resolve requestId outcome).ledger := by
  unfold PendingRun.resolve
  split
  · next hpending => exact .single (.resolve s.resolved hpending hdone)
  · exact .refl

theorem ledger_release (s : PendingRun) (requestId : String) (arrived : Bool) :
    (s.release requestId arrived).ledger = s.ledger := by
  unfold PendingRun.release
  split <;> rfl

theorem settles_startQuery (s : PendingRun) (number index : Nat)
    (hfresh : s.futures.contains requestId = false) :
    ReflTransGen Settles s.ledger (s.startQuery m number index requestId).ledger := by
  unfold PendingRun.startQuery
  split
  · next routeTag found queries hget =>
    split
    · next link hindex =>
      obtain heq | ⟨-, heq⟩ := queryOwner_cases m s.mesh requestId routeTag link
      · rw [heq]
        exact .refl
      · rw [heq]
        exact .single (.draw s.resolved hfresh)
    · exact .refl
  · exact .refl

theorem settles_stop (s : PendingRun) : ReflTransGen Settles s.ledger (s.stop m).ledger :=
  foldl_invariant (P := fun s' : PendingRun => ReflTransGen Settles s.ledger s'.ledger)
    (s.mesh.pendingQueries.keys ++ s.mesh.pendingAcks.keys) .refl
    (f := fun s requestId => s.resolve requestId .cancelled)
    fun s' requestId _ h => h.trans (settles_resolve s' requestId rfl)

theorem settles_after {e : PendingEvent} (hfresh : s.Fresh e) :
    ReflTransGen Settles s.ledger (s.after m cr e).ledger := by
  obtain ⟨hub, now, op⟩ := e
  cases op with
  | discover routeTag => exact .refl
  | startQuery number index queryId => exact settles_startQuery s number index (hfresh queryId rfl)
  | forwardSignal requestId routeTag target envelope =>
      simp only [PendingRun.after, PendingRun.forwardSignal]
      split
      · exact .refl
      · exact .single (.draw s.resolved (hfresh requestId rfl))
  | sent requestId ok =>
      simp only [PendingRun.after, sendDone]
      split
      · exact .refl
      split
      · exact .refl
      · rw [ledger_release]
  | routeResult payload =>
      simp only [PendingRun.after, PendingRun.routeResult]
      split
      · next mesh _ _ =>
        split
        · exact settles_resolve { s with mesh := mesh } _ rfl
        · exact .refl
      · exact .refl
  | ack payload =>
      simp only [PendingRun.after, PendingRun.ack]
      split
      · next mesh _ _ =>
        split
        · exact settles_resolve { s with mesh := mesh } _ rfl
        · exact .refl
      · exact .refl
  | timeout requestId =>
      simp only [PendingRun.after, PendingRun.timeout]
      split
      · exact settles_resolve s requestId rfl
      · exact .refl
  | resume requestId arrived =>
      simp only [PendingRun.after, PendingRun.resume]
      split
      · rw [ledger_release]
      · exact .refl
  | collect number =>
      simp only [PendingRun.after, PendingRun.collect]
      split
      · split <;> exact .refl
      · exact .refl
  | mesh op =>
      simp only [PendingRun.after, PendingRun.meshOp]
      split
      · exact settles_stop s
      · exact .refl

/-- The record has each future that is done, and has it once. -/
structure Once (l : Ledger) : Prop where
  nodup : l.2.Nodup
  mem_iff : ∀ requestId, requestId ∈ l.2 ↔ (l.1.get? requestId).any Future.done = true

theorem Once.settles {l l' : Ledger} (h : Once l) (hstep : ReflTransGen Settles l l') :
    Once l' := by
  induction hstep with
  | refl => exact h
  | tail _ hone ih =>
      cases hone with
      | @resolve futures resolved requestId outcome hpending hdone =>
          have hnot : requestId ∉ resolved := by
            rw [ih.mem_iff, hpending]
            simp [Future.done]
          constructor
          · rw [← List.concat_eq_append]
            exact ih.nodup.concat hnot
          · intro id
            have hmem := ih.mem_iff id
            by_cases hid : id = requestId
            · simp [hid, hdone]
            · simpa [hid, Dict.get?_set_of_ne _ _ hid] using hmem
      | @draw futures resolved requestId hfresh =>
          refine ⟨ih.nodup, fun id => ?_⟩
          have hmem := ih.mem_iff id
          by_cases hid : id = requestId
          · have hnone : futures.get? requestId = none := by
              rwa [Dict.contains, Option.isSome_eq_false_iff, Option.isNone_iff_eq_none] at hfresh
            simpa [hid, hnone, Future.done] using hmem
          · simpa [Dict.get?_set_of_ne _ _ hid] using hmem

/-- A future that is done stays as it is. -/
theorem done_settles {l l' : Ledger} (hstep : ReflTransGen Settles l l') {outcome : Future}
    (hget : l.1.get? requestId = some outcome) (hdone : outcome.done = true) :
    l'.1.get? requestId = some outcome := by
  induction hstep with
  | refl => exact hget
  | tail _ hone ih =>
      cases hone with
      | @resolve futures resolved other outcome' hpending _ =>
          have hne : requestId ≠ other := by
            rintro rfl
            rw [hpending, Option.some.injEq] at ih
            rw [← ih] at hdone
            cases hdone
          rwa [Dict.get?_set_of_ne _ _ hne]
      | @draw futures resolved other hfresh =>
          have hne : requestId ≠ other := by
            rintro rfl
            rw [Dict.contains, ih] at hfresh
            cases hfresh
          rwa [Dict.get?_set_of_ne _ _ hne]

/-! ## Over a whole run -/

/-- What holds of the pending requests: there are at most so many, each is of
a call that is running, the futures that are done were resolved once each, and
a call that has returned left no entry. -/
structure Released (m : MeshConfig) (s : PendingRun) : Prop where
  bounded : s.mesh.pendingQueries.size + s.mesh.pendingAcks.size ≤ m.nodeMeshMaxPendingOperations
  owned : ∀ requestId, requestId ∈ s.mesh.pendingQueries.keys ∨
    requestId ∈ s.mesh.pendingAcks.keys → (s.holder? requestId).isSome = true
  once : s.resolved.Nodup
  resolved_iff : ∀ requestId,
    requestId ∈ s.resolved ↔ (s.futures.get? requestId).any Future.done = true
  returned : ∀ requestId number, s.drawnBy.get? requestId = some number →
    s.calls.get? number = none →
      requestId ∉ s.mesh.pendingQueries.keys ∧ requestId ∉ s.mesh.pendingAcks.keys

theorem Entries.released (h : Entries m s) (honce : Once s.ledger) : Released m s where
  bounded := h.bounded
  owned := by
    rintro requestId (hid | hid)
    · refine (h.queries requestId hid).holder? fun call hasks => ?_
      rw [hasks, Bool.true_or]
    · refine (h.acks requestId hid).holder? fun call hforwards => ?_
      rw [hforwards, Bool.or_true]
  once := honce.nodup
  resolved_iff := honce.mem_iff
  returned := by
    intro requestId number hdrawn hgone
    have hrunning : ∀ {p : Call → Bool}, ¬ Holds s.drawnBy s.calls p requestId := by
      rintro p ⟨n, call, hdrawn', hget, -⟩
      rw [hdrawn, Option.some.injEq] at hdrawn'
      rw [← hdrawn', hgone] at hget
      cases hget
    exact ⟨fun hid => hrunning (h.queries requestId hid),
      fun hid => hrunning (h.acks requestId hid)⟩

/-- In every state that any number of calls, answers, time-outs, stops and
other operations lead to, in any order; and a future that is done is left as
it is by every step from there. -/
theorem released_of_reachable (h : (pendingSystem m cr).Reachable s) :
    Released m s ∧ ∀ e s', (pendingSystem m cr).step s e s' → ∀ requestId outcome,
      s.futures.get? requestId = some outcome → outcome.done = true →
        s'.futures.get? requestId = some outcome := by
  have hinv : Entries m s ∧ Once s.ledger := by
    refine h.invariant (P := fun s => Entries m s ∧ Once s.ledger) ?_ ?_
    · rintro s ⟨incarnation, rfl⟩
      exact ⟨entries_new incarnation, List.nodup_nil, fun id => ⟨nofun, nofun⟩⟩
    · rintro s e s' ⟨hentries, honce⟩ ⟨hfresh, rfl⟩
      exact ⟨hentries.after hfresh, honce.settles (settles_after hfresh)⟩
  refine ⟨hinv.1.released hinv.2, ?_⟩
  rintro e s' ⟨hfresh, rfl⟩ requestId outcome hget hdone
  exact done_settles (settles_after hfresh) hget hdone

/-- A signal and a discovery are under way, and the signal is answered. -/
def underWay : List PendingEvent :=
  [.mesh (.linkUp "node-b" 1), .mesh (.applyRouteMessage .register "r" sessionAtB),
    .forwardSignal "1" "r" "s" .null, .discover "r", .startQuery 1 0 "2", .sent "1" true,
    .ack [("requestId", .str "1"), ("delivered", .bool true)]].map
    (⟨.new .default 0, ⟨0, 0⟩, ·⟩)
where
  sessionAtB : Json := .obj [("sessionId", .str "s"), ("nodeId", .str "node-b"),
    ("expiresAt", .int 60)]

theorem released_underWay :
    ∃ s, (pendingSystem .pair default).Reachable s ∧ s.mesh.pendingQueries.keys = ["2"] ∧
      s.mesh.pendingAcks.keys = ["1"] ∧ s.resolved = ["1"] ∧ Released .pair s := by
  let s := underWay.foldl (PendingRun.after .pair default) (.new .pair "i")
  have hstart : (pendingSystem .pair default).Reachable (.new .pair "i") := .start ⟨"i", rfl⟩
  have hs : (pendingSystem .pair default).Reachable s :=
    System.reachable_foldl hstart underWay (by decide +kernel)
  exact ⟨s, hs, by decide +kernel, by decide +kernel, by decide +kernel,
    (released_of_reachable hs).1⟩

end PendingRun

end Masterserver
