import Masterserver.Lib.Since
import Masterserver.Proofs.SplitBrain

/-!
# How long a node was under suspicion

A review drops a node it has suspected for the suspicion delay. The suspicion
is dated by a review, the first that finds too few votes for the node with a
quorum of reporters, and is lifted by one that finds enough. So as long as
only reviews date suspicions, each is as old as what the reviews have found:
`Backed` ties it to the history of the run's reviews.

The end of a link dates one too, if the node is not suspected yet, just before
the review it calls for. With a quorum that review confirms the suspicion or
lifts it. Without one it does neither, and the suspicion stands, dated by no
review, whatever becomes of the link. The first review that has a quorum again
then drops the node without delay.
-/

namespace Masterserver

open Lib NodeMesh

/-- The review a step makes, if it makes one. -/
def reviewOf (m : MeshConfig) (s : MeshRun) (e : MeshEvent) : Option Review :=
  (e.op.reviews m e.now s.mesh).map fun mesh => ⟨e.now.monotonic, mesh⟩

namespace Review

variable (m : MeshConfig) (r : Review) (c : String)

/-- It has a quorum of reporters. -/
def Decides : Prop := NodeMesh.Decides m r.now r.before

/-- Fewer than a quorum of the reporters list the node. -/
def Short : Prop := aliveVotes (r.before.reporters m r.now) c < m.quorum

/-- The node is a member before the review and not after it. -/
def Drops : Prop :=
  c ∈ r.before.membershipNodes ∧ c ∉ (r.before.reconcileMembership m r.now).membershipNodes

instance : Decidable (r.Decides m) := inferInstanceAs (Decidable (_ ≤ _))

instance : Decidable (r.Drops m c) := inferInstanceAs (Decidable (_ ∧ ¬ _))

end Review

/-- A review with a quorum found the node short of votes by that time, and so
did every review with a quorum since. -/
def ObservedShort (m : MeshConfig) (c : String) (limit : Seconds) (history : List Review) : Prop :=
  Since (fun r => r.Decides m → r.Short m c)
    (fun r => r.now ≤ limit ∧ r.Decides m ∧ r.Short m c) history

/-- Every node a review dropped had been observed short for the delay. -/
def DropsObserved (m : MeshConfig) (history : List Review) : Prop :=
  ∀ before r, before ++ [r] <+: history → ∀ c, r.Drops m c →
    ObservedShort m c (r.now - m.nodeMeshSuspicionSeconds) (before ++ [r])

variable {m : MeshConfig} {cr : Crypto} {mesh mesh' : NodeMesh} {now : Seconds} {c : String}
  {history : List Review}

/-! ## What a review does to a suspicion -/

theorem get?_foldl_reviewCandidate {R : Dict String (Finset String)} (l : List String)
    (hl : l.Nodup) (acc : Finset String × Dict String Seconds) (x : String) :
    (l.foldl (reviewCandidate m now R) acc).2.get? x =
      if x ∈ l then
        if m.quorum ≤ aliveVotes R x then none else some (acc.2.getD x now)
      else acc.2.get? x := by
  induction l generalizing acc with
  | nil => simp
  | cons y rest ih =>
      obtain ⟨hy, hrest⟩ := List.nodup_cons.mp hl
      rw [List.foldl_cons, ih hrest]
      by_cases hxy : x = y
      · subst hxy
        rw [if_neg hy, if_pos List.mem_cons_self]
        unfold reviewCandidate
        split
        · exact Dict.get?_erase_self _ _
        · exact Dict.get?_set_self _ _ _
      · obtain ⟨-, hget⟩ := reviewCandidate_of_ne m now R acc hxy
        simp only [List.mem_cons, hxy, false_or, hget, Dict.getD]

theorem suspectedSince_of_not_decides (h : ¬ Decides m now mesh) :
    (mesh.reconcileMembership m now).suspectedSince = mesh.suspectedSince := by
  unfold reconcileMembership
  simp only
  rw [if_pos (not_le.mp h)]

theorem get?_suspectedSince_of_decides (h : Decides m now mesh) (hc : c ∈ m.trusted) :
    (mesh.reconcileMembership m now).suspectedSince.get? c =
      if m.quorum ≤ aliveVotes (mesh.reporters m now) c then none
      else some (mesh.suspectedSince.getD c now) := by
  have hmem : c ∈ sorted (m.membershipUniverse.erase m.nodeId) := by
    rw [mem_sorted, Finset.mem_erase]
    refine ⟨?_, Finset.mem_insert_of_mem hc⟩
    rintro rfl
    exact m.local_notMem hc
  unfold reconcileMembership
  simp only
  rw [if_neg (not_lt.mpr h), get?_foldl_reviewCandidate _ (nodup_sorted _), if_pos hmem]

/-- A step leaves the suspicions to its review as they are, but for the one
that the end of a link dates. -/
theorem get?_suspectedSince_reviews {clocks : Clocks} {op : MeshOp}
    (h : op.reviews m clocks mesh = some mesh') (c : String) :
    mesh'.suspectedSince.get? c = mesh.suspectedSince.get? c ∨
      (∃ socket, op = .linkDown c socket) ∧ mesh.suspectedSince.get? c = none ∧
        mesh'.suspectedSince.get? c = some clocks.monotonic := by
  cases op with
  | reconcileMembership | topologyChanged | membershipTick => cases h; exact .inl rfl
  | linkUp node socket =>
      simp only [MeshOp.reviews] at h
      obtain heq | heq := claimConnection_cases mesh node socket
      · rw [heq] at h; cases h
      · rw [heq] at h; cases h; exact .inl rfl
  | linkDown node socket =>
      simp only [MeshOp.reviews, releaseConnection] at h
      split at h
      · cases h
        by_cases hc : c = node
        · subst hc
          simp only [Dict.get?_set_self, Dict.getD]
          cases hget : mesh.suspectedSince.get? c with
          | none => exact .inr ⟨⟨socket, rfl⟩, rfl, rfl⟩
          | some since => exact .inl rfl
        · exact .inl (Dict.get?_set_of_ne _ _ hc)
      · cases h
  | nodeState node payload =>
      simp only [MeshOp.reviews, recordState] at h
      split at h
      · cases h
      · split at h
        · cases h; exact .inl rfl
        · cases h
  | _ => cases h

/-! ## Over a whole run -/

/-- The link whose end an operation handles, if it does. -/
def MeshOp.loses : MeshOp → Option (String × Nat)
  | .linkDown node socket => some (node, socket)
  | _ => none

/-- A link that is lost while its node is not suspected is lost while a quorum
reports. -/
def LossesReviewed (m : MeshConfig) (s : MeshRun) (e : MeshEvent) : Prop :=
  ∀ link ∈ e.op.loses, s.mesh.connections.get? link.1 = some link.2 →
    s.mesh.suspectedSince.get? link.1 = none → Decides m e.now.monotonic s.mesh

instance (m : MeshConfig) (s : MeshRun) (e : MeshEvent) : Decidable (LossesReviewed m s e) :=
  inferInstanceAs (Decidable (∀ _ ∈ _, _ → _ → _ ≤ _))

/-- Who reports depends on the views alone. -/
theorem decides_congr (h : mesh'.peerViews = mesh.peerViews) :
    Decides m now mesh' ↔ Decides m now mesh := by
  have hfresh : mesh'.freshViews m now = mesh.freshViews m now := by
    unfold freshViews
    rw [h]
  have hkeys : (mesh'.reporters m now).keys.Perm (mesh.reporters m now).keys := by
    refine (List.perm_ext_iff_of_nodup (Dict.nodup_keys _) (Dict.nodup_keys _)).mpr ?_
    intro x
    rw [mem_keys_reporters, mem_keys_reporters, hfresh]
  unfold Decides
  rw [← Dict.size_keys, ← Dict.size_keys, hkeys.length_eq]

/-- The review after such a loss decides. -/
theorem LossesReviewed.decides {s : MeshRun} {e : MeshEvent} (h : LossesReviewed m s e)
    {node : String} {socket : Nat} (hop : e.op = .linkDown node socket)
    (hnone : s.mesh.suspectedSince.get? node = none)
    (hrev : e.op.reviews m e.now s.mesh = some mesh') : Decides m e.now.monotonic mesh' := by
  unfold LossesReviewed at h
  rw [hop] at h hrev
  simp only [MeshOp.reviews, releaseConnection] at hrev
  split at hrev
  · next hlink =>
      cases hrev
      refine (decides_congr ?_).mpr (h (node, socket) rfl hlink hnone)
      rfl
  · cases hrev

/-- Each suspicion of a trusted node is dated by the review that began it. -/
def Backed (m : MeshConfig) (mesh : NodeMesh) (history : List Review) : Prop :=
  ∀ c ∈ m.trusted, ∀ since, mesh.suspectedSince.get? c = some since →
    Since (fun r => r.Decides m → r.Short m c)
      (fun r => r.now = since ∧ r.Decides m ∧ r.Short m c) history

/-- A review keeps the suspicions backed, unless one is dated before a review
that does not decide. -/
theorem Backed.review (h : Backed m mesh history) {clocks : Clocks} {op : MeshOp}
    (hrev : op.reviews m clocks mesh = some mesh')
    (hloss : ∀ node socket, op = .linkDown node socket → mesh.suspectedSince.get? node = none →
      Decides m clocks.monotonic mesh') :
    Backed m (mesh'.reconcileMembership m clocks.monotonic)
      (history ++ [⟨clocks.monotonic, mesh'⟩]) := by
  intro c hc since hsince
  rw [since_concat_iff]
  by_cases hdec : Decides m clocks.monotonic mesh'
  · rw [get?_suspectedSince_of_decides hdec hc] at hsince
    split at hsince
    · cases hsince
    next hfew =>
    have hshort := not_le.mp hfew
    rw [Option.some.injEq] at hsince
    cases hbefore : mesh.suspectedSince.get? c with
    | some since' =>
        -- the suspicion is older than the step, and this review finds the same
        have hget : mesh'.suspectedSince.get? c = some since' := by
          obtain heq | ⟨-, hnone, -⟩ := get?_suspectedSince_reviews hrev c
          · rw [heq, hbefore]
          · rw [hbefore] at hnone; cases hnone
        rw [Dict.getD, hget, Option.getD_some] at hsince
        subst hsince
        exact .inr ⟨fun _ => hshort, h c hc since' hbefore⟩
    | none =>
        -- it is dated now, by this review or just before it
        have hnow : mesh'.suspectedSince.getD c clocks.monotonic = clocks.monotonic := by
          obtain heq | ⟨-, -, hget⟩ := get?_suspectedSince_reviews hrev c
          · rw [Dict.getD, heq, hbefore, Option.getD_none]
          · rw [Dict.getD, hget, Option.getD_some]
        exact .inl ⟨hnow.symm.trans hsince, hdec, hshort⟩
  · rw [suspectedSince_of_not_decides hdec] at hsince
    obtain heq | ⟨⟨socket, hop⟩, hnone, -⟩ := get?_suspectedSince_reviews hrev c
    · rw [heq] at hsince
      exact .inr ⟨fun hd => absurd hd hdec, h c hc since hsince⟩
    · exact absurd (hloss c socket hop hnone) hdec

/-- A node a review drops is under a suspicion that is old enough. -/
theorem suspected_of_drops {r : Review} (h : r.Drops m c) :
    c ∈ m.trusted ∧ ∃ since, since ≤ r.now - m.nodeMeshSuspicionSeconds ∧
      (r.before.reconcileMembership m r.now).suspectedSince.get? c = some since := by
  obtain ⟨hdec, -, huniv, hne, hfew, hsuspected⟩ := (dropped_iff m r.now r.before c).mpr h
  have hc : c ∈ m.trusted := (Finset.mem_insert.mp huniv).resolve_left hne
  refine ⟨hc, r.before.suspectedSince.getD c r.now, by linarith, ?_⟩
  rw [get?_suspectedSince_of_decides hdec hc, if_neg (not_le.mpr hfew)]

theorem DropsObserved.concat {r : Review} (h : DropsObserved m history)
    (hlast : ∀ c, r.Drops m c →
      ObservedShort m c (r.now - m.nodeMeshSuspicionSeconds) (history ++ [r])) :
    DropsObserved m (history ++ [r]) := by
  intro before last hprefix c hdrops
  obtain heq | hprefix := List.prefix_concat_iff.mp hprefix
  · obtain ⟨rfl, hlast'⟩ := List.append_inj' heq rfl
    cases hlast'
    exact hlast c hdrops
  · exact h before last hprefix c hdrops

/-- In every run in which no link is lost without a quorum of reporters, unless
its node is suspected already, every node that a review drops was found short
of votes by a review with a quorum at least the suspicion delay earlier, and by
every review with a quorum since. -/
theorem drops_observed {s : MeshRun}
    (h : (((meshSystem m cr).restrict (LossesReviewed m)).recorded (reviewOf m)).Reachable
      (s, history)) : DropsObserved m history := by
  have hinv : Backed m s.mesh history ∧ DropsObserved m history := by
    refine h.invariant (P := fun p => Backed m p.1.mesh p.2 ∧ DropsObserved m p.2) ?_ ?_
    · rintro ⟨s, history⟩ ⟨⟨incarnation, hinit⟩, rfl⟩
      constructor
      · intro c _ since hsince
        rw [hinit] at hsince
        cases hsince
      · intro before r hprefix
        exact absurd (List.prefix_nil.mp hprefix) (by simp)
    · rintro ⟨s, history⟩ e ⟨s', history'⟩ ⟨hbacked, hobserved⟩ ⟨⟨hloss, rfl⟩, rfl⟩
      simp only [MeshRun.after, reviewOf]
      cases hrev : e.op.reviews m e.now s.mesh with
      | some mesh' =>
          have hnext := hbacked.review hrev fun node socket hop hnone =>
            hloss.decides hop hnone hrev
          have hsame := (sameMembership_of_reviews cr e.hub hrev).suspectedSince
          simp only [Option.map_some, Option.toList_some]
          refine ⟨?_, hobserved.concat ?_⟩
          · unfold Backed
            rw [hsame]
            exact hnext
          · intro c hdrops
            obtain ⟨hc, since, hold, hsince⟩ := suspected_of_drops hdrops
            refine (hnext c hc since hsince).mono ?_
            rintro r ⟨rfl, hfound⟩
            exact ⟨hold, hfound⟩
      | none =>
          simp only [Option.map_none, Option.toList_none, List.append_nil]
          refine ⟨?_, hobserved⟩
          by_cases hstop : e.op = .stop
          · intro c _ since hsince
            rw [hstop] at hsince
            cases hsince
          · unfold Backed
            rw [(sameMembership_of_not_reviews cr e.hub hrev hstop).suspectedSince]
            exact hbacked
  exact hinv.2

/-! ## With and without a quorum -/

/-- The reviews of a computed run. -/
theorem reachable_reviewOf {C : MeshRun → MeshEvent → Prop} (es : List MeshEvent)
    (hC : System.Meets C (MeshRun.after m cr) ⟨.new m "i", ⟨0, 0⟩⟩ es) :
    (((meshSystem m cr).restrict C).recorded (reviewOf m)).Reachable
      (es.foldl (MeshRun.after m cr) ⟨.new m "i", ⟨0, 0⟩⟩,
        System.notes (reviewOf m) (MeshRun.after m cr) ⟨.new m "i", ⟨0, 0⟩⟩ es) := by
  have hstart : (((meshSystem m cr).restrict C).recorded (reviewOf m)).Reachable
      (⟨.new m "i", ⟨0, 0⟩⟩, []) := .start ⟨⟨"i", rfl⟩, rfl⟩
  have hstep : ∀ s e, C s e → ((meshSystem m cr).restrict C).step s e (s.after m cr e) :=
    fun _ _ hc => ⟨hc, rfl⟩
  exact System.reachable_recorded_foldl hstep hstart es hC

/-- `node-b` is lost in sight of `node-c`, and dropped. -/
def lossReported : List MeshEvent :=
  [at_ 0 (.linkUp "node-b" 1), at_ 0 (.linkUp "node-c" 2),
    at_ 1 (.nodeState "node-c" (stateOf "node-c" ["particle-node-local", "node-c"] 1)),
    at_ 2 (.linkDown "node-b" 1), at_ 15 .membershipTick]

theorem drops_observed_reported :
    "node-b" ∉ (lossReported.foldl (MeshRun.after .trio default)
        ⟨.new .trio "i", ⟨0, 0⟩⟩).mesh.membershipNodes ∧
      DropsObserved .trio (System.notes (reviewOf .trio) (MeshRun.after .trio default)
        ⟨.new .trio "i", ⟨0, 0⟩⟩ lossReported) := by
  have hreachable : (((meshSystem .trio default).restrict (LossesReviewed .trio)).recorded
      (reviewOf .trio)).Reachable (lossReported.foldl (MeshRun.after .trio default)
          ⟨.new .trio "i", ⟨0, 0⟩⟩,
        System.notes (reviewOf .trio) (MeshRun.after .trio default) ⟨.new .trio "i", ⟨0, 0⟩⟩
          lossReported) := reachable_reviewOf _ (by decide +kernel)
  exact ⟨by decide +kernel, drops_observed hreachable⟩

/-- `node-b` is lost while nobody reports, and is back a second later. -/
def lossUnreported : List MeshEvent :=
  [at_ 0 (.linkUp "node-b" 1), at_ 1 (.linkDown "node-b" 1), at_ 2 (.linkUp "node-b" 3),
    at_ 3600 (.linkUp "node-c" 2)]

/-- An hour later `node-c` reports, and the first review with a quorum drops
`node-b`, though it is linked. -/
theorem dropped_unobserved :
    ∃ s history, (((meshSystem .trio default).restrict Orderly).recorded
      (reviewOf .trio)).Reachable (s, history) ∧ ¬ DropsObserved .trio history := by
  let report := at_ 3600
    (.nodeState "node-c" (stateOf "node-c" ["particle-node-local", "node-c"] 3600))
  let s := lossUnreported.foldl (MeshRun.after .trio default) ⟨.new .trio "i", ⟨0, 0⟩⟩
  let earlier := System.notes (reviewOf .trio) (MeshRun.after .trio default)
    ⟨.new .trio "i", ⟨0, 0⟩⟩ lossUnreported
  have hs : (((meshSystem .trio default).restrict Orderly).recorded (reviewOf .trio)).Reachable
      (s, earlier) := reachable_reviewOf lossUnreported (by decide +kernel)
  have hundecided : ∀ r ∈ earlier, ¬ r.Decides .trio := by decide +kernel
  have hlast : ∃ r ∈ reviewOf .trio s report, r.now = 3600 ∧ r.Drops .trio "node-b" := by
    decide +kernel
  obtain ⟨r, hr, hnow, hdrops⟩ := hlast
  refine ⟨s.after .trio default report, earlier ++ [r], hs.next (e := report) ?_, ?_⟩
  · refine ⟨⟨by decide +kernel, rfl⟩, ?_⟩
    simp only [Option.mem_def.mp hr, Option.toList_some]
  · intro hobserved
    have hsince := hobserved earlier r (List.prefix_refl _) "node-b" hdrops
    obtain ⟨r', hr', hold, hdec, -⟩ := hsince.exists_start
    obtain hr' | hr' := List.mem_append.mp hr'
    · exact hundecided r' hr' hdec
    · rw [List.mem_singleton.mp hr', hnow] at hold
      exact absurd hold (by decide +kernel)

end Masterserver
