import Masterserver.Proofs.SingleOwner

/-!
# What a membership review does

`reconcileMembership` reviews the nodes of the universe one by one, and the
review of one node touches no other: `foldl_reviewCandidate`. So the outcome
has a closed form, `mem_reconcileMembership`. With a quorum of reporters a node
is a member afterwards exactly if it is the local node, a quorum of the
reporters list it, or it was a member and is not suspected for long enough.

The threshold is on the votes for a node. A node that falls short of a quorum
of votes is dropped whether or not a quorum denies it, and between the two
lies a gap: with enough reporters to decide, a node listed by fewer than a
quorum but by more than the reporters in excess of one is dropped against the
view of some of the quorum. Such a node is `Contested`, and a review confirms
every loss it acts on exactly if no node is.
-/

namespace Masterserver.NodeMesh

open Lib

variable {m : MeshConfig} {cr : Crypto} {hub : Hub} {now : Seconds} {mesh mesh' : NodeMesh}
  {R : Dict String (Finset String)}

/-! ## One candidate at a time -/

theorem reviewCandidate_of_ne (m : MeshConfig) (now : Seconds)
    (R : Dict String (Finset String)) (acc : Finset String × Dict String Seconds) {x y : String}
    (h : x ≠ y) :
    (x ∈ (reviewCandidate m now R acc y).1 ↔ x ∈ acc.1) ∧
      (reviewCandidate m now R acc y).2.get? x = acc.2.get? x := by
  unfold reviewCandidate
  simp only
  split
  · exact ⟨by simp [h], Dict.get?_erase_of_ne _ h⟩
  · refine ⟨?_, Dict.get?_set_of_ne _ _ h⟩
    split
    · simp [h]
    · rfl

/-- A review sees of the accumulator only what stands there for its node. -/
theorem mem_reviewCandidate_congr {acc acc' : Finset String × Dict String Seconds} {x : String}
    (hmem : x ∈ acc.1 ↔ x ∈ acc'.1) (hget : acc.2.get? x = acc'.2.get? x) :
    x ∈ (reviewCandidate m now R acc x).1 ↔ x ∈ (reviewCandidate m now R acc' x).1 := by
  unfold reviewCandidate Dict.getD
  simp only [hget]
  split
  · simp
  · split
    · simp
    · exact hmem

theorem foldl_reviewCandidate (l : List String) (hl : l.Nodup)
    (acc : Finset String × Dict String Seconds) (x : String) :
    x ∈ (l.foldl (reviewCandidate m now R) acc).1 ↔
      if x ∈ l then x ∈ (reviewCandidate m now R acc x).1 else x ∈ acc.1 := by
  induction l generalizing acc with
  | nil => simp
  | cons y rest ih =>
      obtain ⟨hy, hrest⟩ := List.nodup_cons.mp hl
      rw [List.foldl_cons, ih hrest]
      by_cases hxy : x = y
      · subst hxy
        rw [if_neg hy, if_pos List.mem_cons_self]
      · obtain ⟨hmem, hget⟩ := reviewCandidate_of_ne m now R acc hxy
        simp only [List.mem_cons, hxy, false_or]
        split
        · exact mem_reviewCandidate_congr hmem hget
        · exact hmem

/-! ## The outcome of a review -/

/-- A node counts as a member after a review that had a quorum. -/
def Retains (m : MeshConfig) (now : Seconds) (mesh : NodeMesh) (x : String) : Prop :=
  x = m.nodeId ∨ m.quorum ≤ aliveVotes (mesh.reporters m now) x ∨
    x ∈ mesh.membershipNodes ∧
      now - mesh.suspectedSince.getD x now < m.nodeMeshSuspicionSeconds

/-- Enough nodes report for a review to decide. -/
def Decides (m : MeshConfig) (now : Seconds) (mesh : NodeMesh) : Prop :=
  m.quorum ≤ (mesh.reporters m now).size

theorem reconcileMembership_of_not_decides (h : ¬ Decides m now mesh) :
    (mesh.reconcileMembership m now).membershipNodes = mesh.membershipNodes := by
  unfold reconcileMembership
  simp only
  rw [if_pos (not_le.mp h)]

theorem hasQuorum_reconcileMembership (m : MeshConfig) (now : Seconds) (mesh : NodeMesh) :
    (mesh.reconcileMembership m now).hasQuorum = true ↔ Decides m now mesh := by
  unfold reconcileMembership Decides
  simp only
  split <;> simp

theorem membershipNodes_reconcileMembership (h : Decides m now mesh) :
    (mesh.reconcileMembership m now).membershipNodes =
      ((sorted (m.membershipUniverse.erase m.nodeId)).foldl
        (reviewCandidate m now (mesh.reporters m now))
        (insert m.nodeId mesh.membershipNodes, mesh.suspectedSince)).1 := by
  unfold reconcileMembership
  simp only
  rw [if_neg (not_lt.mpr h)]

theorem mem_reconcileMembership (h : Decides m now mesh) {x : String}
    (hx : x ∈ m.membershipUniverse) :
    x ∈ (mesh.reconcileMembership m now).membershipNodes ↔ Retains m now mesh x := by
  rw [membershipNodes_reconcileMembership h, foldl_reviewCandidate _ (nodup_sorted _)]
  simp only [mem_sorted, Finset.mem_erase, hx, and_true]
  unfold Retains
  by_cases hself : x = m.nodeId
  · simp [hself]
  · simp only [if_pos (show x ≠ m.nodeId from hself), hself, false_or]
    unfold reviewCandidate
    simp only
    by_cases hvotes : m.quorum ≤ aliveVotes (mesh.reporters m now) x
    · simp [hvotes]
    · rw [if_neg hvotes]
      by_cases hlong : m.nodeMeshSuspicionSeconds ≤ now - mesh.suspectedSince.getD x now
      · simp [if_pos hlong, hvotes, not_lt.mpr hlong]
      · simp [if_neg hlong, hvotes, hself, not_le.mp hlong]

/-- Nodes outside the universe are never reviewed. -/
theorem mem_reconcileMembership_of_notMem (h : Decides m now mesh) {x : String}
    (hx : x ∉ m.membershipUniverse) :
    x ∈ (mesh.reconcileMembership m now).membershipNodes ↔ x ∈ mesh.membershipNodes := by
  have hself : x ≠ m.nodeId := by
    rintro rfl
    exact hx (Finset.mem_insert_self _ _)
  rw [membershipNodes_reconcileMembership h, foldl_reviewCandidate _ (nodup_sorted _)]
  simp [hx, hself]

theorem membershipNodes_reconcileMembership_subset (now : Seconds)
    (h : mesh.membershipNodes ⊆ m.membershipUniverse) :
    (mesh.reconcileMembership m now).membershipNodes ⊆ m.membershipUniverse := by
  intro x hx
  by_contra hno
  by_cases hdec : Decides m now mesh
  · exact hno (h ((mem_reconcileMembership_of_notMem hdec hno).mp hx))
  · rw [reconcileMembership_of_not_decides hdec] at hx
    exact hno (h hx)

/-! ## Votes -/

/-- The reporters whose view does not contain a node. -/
def denials (reporters : Dict String (Finset String)) (candidate : String) : Nat :=
  reporters.values.countP fun view => candidate ∉ view

theorem aliveVotes_add_denials (reporters : Dict String (Finset String)) (candidate : String) :
    aliveVotes reporters candidate + denials reporters candidate = reporters.size := by
  unfold aliveVotes denials
  rw [← Dict.size_values, List.length_eq_countP_add_countP (fun view => decide (candidate ∈ view))]
  simp

/-- What a review that drops a node had found. -/
structure Dropped (m : MeshConfig) (now : Seconds) (mesh : NodeMesh) (c : String) : Prop where
  decides : Decides m now mesh
  mem : c ∈ mesh.membershipNodes
  mem_universe : c ∈ m.membershipUniverse
  ne_local : c ≠ m.nodeId
  votes : aliveVotes (mesh.reporters m now) c < m.quorum
  suspected : m.nodeMeshSuspicionSeconds ≤ now - mesh.suspectedSince.getD c now

theorem dropped_iff (m : MeshConfig) (now : Seconds) (mesh : NodeMesh) (c : String) :
    Dropped m now mesh c ↔
      c ∈ mesh.membershipNodes ∧ c ∉ (mesh.reconcileMembership m now).membershipNodes := by
  constructor
  · rintro ⟨hdec, hmem, huniv, hself, hvotes, hsusp⟩
    rw [mem_reconcileMembership hdec huniv]
    refine ⟨hmem, ?_⟩
    rintro (hself' | hvotes' | ⟨-, hyoung⟩)
    · exact hself hself'
    · exact absurd hvotes (not_lt.mpr hvotes')
    · exact absurd hsusp (not_le.mpr hyoung)
  · rintro ⟨hmem, hgone⟩
    have hdec : Decides m now mesh := by
      by_contra hno
      rw [reconcileMembership_of_not_decides hno] at hgone
      exact hgone hmem
    have huniv : c ∈ m.membershipUniverse := by
      by_contra hno
      exact hgone ((mem_reconcileMembership_of_notMem hdec hno).mpr hmem)
    rw [mem_reconcileMembership hdec huniv] at hgone
    unfold Retains at hgone
    simp only [not_or, not_and, not_lt, not_le] at hgone
    exact ⟨hdec, hmem, huniv, hgone.1, hgone.2.1, hgone.2.2 hmem⟩

/-- Every node a review drops is denied by a quorum of its reporters. -/
def LossesConfirmed (m : MeshConfig) (now : Seconds) (mesh : NodeMesh) : Prop :=
  ∀ c ∈ mesh.membershipNodes, c ∉ (mesh.reconcileMembership m now).membershipNodes →
    m.quorum ≤ denials (mesh.reporters m now) c

/-- A member under suspicion long enough that is listed by too few reporters to
stay and by too many for a quorum of them to deny it. -/
structure Contested (m : MeshConfig) (now : Seconds) (mesh : NodeMesh) (c : String) :
    Prop where
  mem : c ∈ mesh.membershipNodes
  suspected : m.nodeMeshSuspicionSeconds ≤ now - mesh.suspectedSince.getD c now
  reported : m.quorum ≤ (mesh.reporters m now).size
  tooFew : aliveVotes (mesh.reporters m now) c < m.quorum
  tooMany : (mesh.reporters m now).size < aliveVotes (mesh.reporters m now) c + m.quorum

instance (m : MeshConfig) (now : Seconds) (mesh : NodeMesh) (c : String) :
    Decidable (Contested m now mesh c) :=
  decidable_of_iff (c ∈ mesh.membershipNodes ∧
      m.nodeMeshSuspicionSeconds ≤ now - mesh.suspectedSince.getD c now ∧
      m.quorum ≤ (mesh.reporters m now).size ∧
      aliveVotes (mesh.reporters m now) c < m.quorum ∧
      (mesh.reporters m now).size < aliveVotes (mesh.reporters m now) c + m.quorum)
    ⟨fun ⟨h1, h2, h3, h4, h5⟩ => ⟨h1, h2, h3, h4, h5⟩,
      fun ⟨h1, h2, h3, h4, h5⟩ => ⟨h1, h2, h3, h4, h5⟩⟩

theorem lossesConfirmed_iff (m : MeshConfig) (now : Seconds) (mesh : NodeMesh) :
    LossesConfirmed m now mesh ↔ ∀ c ∈ m.trusted, ¬ Contested m now mesh c := by
  have hsum := aliveVotes_add_denials (mesh.reporters m now)
  constructor
  · rintro h c htrusted ⟨hmem, hsusp, hrep, hfew, hmany⟩
    have hne : c ≠ m.nodeId := by
      rintro rfl
      exact m.local_notMem htrusted
    have hdrop : Dropped m now mesh c :=
      ⟨hrep, hmem, Finset.mem_insert_of_mem htrusted, hne, hfew, hsusp⟩
    have hden := h c hmem ((dropped_iff m now mesh c).mp hdrop).2
    have := hsum c
    omega
  · intro h c hmem hgone
    obtain ⟨hdec, -, huniv, hne, hfew, hsusp⟩ := (dropped_iff m now mesh c).mpr ⟨hmem, hgone⟩
    have htrusted : c ∈ m.trusted := (Finset.mem_insert.mp huniv).resolve_left hne
    by_contra hfewer
    refine h c htrusted ⟨hmem, hsusp, hdec, hfew, ?_⟩
    have := hsum c
    omega

/-! ## Over a whole run -/

theorem membershipNodes_reviews {clocks : Clocks} {op : MeshOp}
    (h : op.reviews m clocks mesh = some mesh') :
    mesh'.membershipNodes = mesh.membershipNodes := by
  cases op with
  | reconcileMembership | topologyChanged | membershipTick => cases h; rfl
  | linkUp node socket =>
      simp only [MeshOp.reviews] at h
      obtain heq | heq := claimConnection_cases mesh node socket
      · rw [heq] at h; cases h
      · rw [heq] at h; cases h; rfl
  | linkDown node socket =>
      simp only [MeshOp.reviews, releaseConnection] at h
      split at h
      · cases h; rfl
      · cases h
  | nodeState node payload =>
      simp only [MeshOp.reviews, recordState] at h
      split at h
      · cases h
      · split at h
        · cases h; rfl
        · cases h
  | _ => cases h

/-- An operation that reviews the membership leaves it as the review left it. -/
theorem sameMembership_of_reviews (cr : Crypto) (hub : Hub) {clocks : Clocks} {op : MeshOp}
    (h : op.reviews m clocks mesh = some mesh') :
    SameMembership (mesh'.reconcileMembership m clocks.monotonic)
      (op.apply m cr hub clocks mesh) := by
  cases op with
  | reconcileMembership | membershipTick => cases h; exact .refl _
  | topologyChanged => cases h; exact sameMembership_topologyChanged _ _ _
  | linkUp node socket =>
      simp only [MeshOp.reviews] at h
      simp only [MeshOp.apply, linkUp]
      obtain heq | heq := claimConnection_cases mesh node socket
      · rw [heq] at h; cases h
      · rw [heq] at h
        cases h
        rw [heq]
        exact sameMembership_topologyChanged _ _ _
  | linkDown node socket =>
      simp only [MeshOp.apply, linkDown]
      rw [show mesh.releaseConnection clocks.monotonic node socket = some mesh' from h]
      exact sameMembership_topologyChanged _ _ _
  | nodeState node payload =>
      simp only [MeshOp.apply, handleNodeState]
      rw [show mesh.recordState m clocks.wall clocks.monotonic node payload = some mesh' from h]
      exact .refl _
  | _ => cases h

/-- Every other operation but the reset leaves it alone. -/
theorem sameMembership_of_not_reviews (cr : Crypto) (hub : Hub) {clocks : Clocks} {op : MeshOp}
    (h : op.reviews m clocks mesh = none) (hstop : op ≠ .stop) :
    SameMembership mesh (op.apply m cr hub clocks mesh) := by
  have hedits {mesh'} (he : Edits m hub clocks.wall (fun _ => True) mesh mesh') :
      SameMembership mesh mesh' := he.sameMembership
  cases op with
  | applyRouteMessage msgType tag descriptor => exact hedits (edits_applyRouteMessage _ _ _ _)
  | cacheDescriptor descriptor => exact hedits (edits_cacheDescriptor _ _)
  | pruneRoutes => exact hedits (edits_pruneRoutes _ fun _ => trivial)
  | remoteDescriptor target => exact hedits (edits_remoteDescriptor _ trivial)
  | registerLocalRoute tag sid => exact hedits (edits_registerLocalRoute _ _ _)
  | removeLocalRoute tag sid => exact hedits (edits_replicate _ _ _ _)
  | dropStaleOwnership => exact hedits (edits_dropStaleOwnership _)
  | reconcileMembership | membershipTick | topologyChanged => cases h
  | linkUp node socket =>
      simp only [MeshOp.reviews] at h
      simp only [MeshOp.apply, linkUp]
      obtain heq | heq := claimConnection_cases mesh node socket
      · rw [heq]; exact .refl mesh
      · rw [heq] at h; cases h
  | linkDown node socket =>
      simp only [MeshOp.apply, linkDown]
      rw [show mesh.releaseConnection clocks.monotonic node socket = none from h]
      exact .refl mesh
  | nodeState node payload =>
      simp only [MeshOp.apply, handleNodeState]
      rw [show mesh.recordState m clocks.wall clocks.monotonic node payload = none from h]
      exact .refl mesh
  | stop => exact absurd rfl hstop

/-- The members are always nodes of the universe. -/
theorem membershipNodes_subset {s : MeshRun} (h : (meshSystem m cr).Reachable s) :
    s.mesh.membershipNodes ⊆ m.membershipUniverse := by
  refine h.invariant (P := fun s => s.mesh.membershipNodes ⊆ m.membershipUniverse) ?_ ?_
  · rintro s ⟨incarnation, hinit⟩
    rw [hinit]
    exact Finset.Subset.refl _
  · rintro s e s' hs rfl
    simp only [MeshRun.after]
    cases hrev : e.op.reviews m e.now s.mesh with
    | some mesh' =>
        rw [(sameMembership_of_reviews cr e.hub hrev).membershipNodes]
        refine membershipNodes_reconcileMembership_subset _ ?_
        rw [membershipNodes_reviews hrev]
        exact hs
    | none =>
        by_cases hstop : e.op = .stop
        · rw [hstop]; exact Finset.Subset.refl _
        · rw [(sameMembership_of_not_reviews cr e.hub hrev hstop).membershipNodes]
          exact hs

/-- No review of the step finds a contested member. -/
def Uncontested (m : MeshConfig) (s : MeshRun) (e : MeshEvent) : Prop :=
  ∀ mesh' ∈ e.op.reviews m e.now s.mesh, ∀ c ∈ m.trusted,
    ¬ Contested m e.now.monotonic mesh' c

instance (m : MeshConfig) (s : MeshRun) (e : MeshEvent) : Decidable (Uncontested m s e) :=
  inferInstanceAs (Decidable (∀ _ ∈ _, ∀ _ ∈ _, ¬ _))

end Masterserver.NodeMesh
