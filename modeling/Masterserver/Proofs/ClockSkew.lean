import Masterserver.Lib.Rounding
import Masterserver.Proofs.RequestOps
import Masterserver.Runs.ClockSkew

/-!
# Which clock the readiness of a node speaks of

Readiness is to fail while the clock of a connected peer is off by more than
the limit. What it looks at is one gauge that every peer's report is written
to, so that it speaks of the report that came last and not of the peers: the
report of a healthy peer takes back the alarm of another. A report without a
time is refused for its skew and leaves the gauge as it was, and a skew that no
float holds makes readiness raise.

`keeps_iff` is the step lemma: given that the gauge speaks for the peers, it
still does after an event exactly if the event meets `Keeps`.
-/

namespace Masterserver

open Lib

/-! ## Links -/

namespace NodeMesh

variable {m : MeshConfig} {cr : Crypto} {hub : Hub} {mesh : NodeMesh} {nodeId other : String}
  {socket : Nat}

theorem connections_topologyChanged (mesh : NodeMesh) (wall monotonic : Seconds) :
    (mesh.topologyChanged m cr hub wall monotonic).1.connections = mesh.connections := by
  have hsame : SameMembership (mesh.reconcileMembership m monotonic)
      (mesh.topologyChanged m cr hub wall monotonic).1 :=
    sameMembership_topologyChanged mesh wall monotonic
  exact hsame.connections.trans (sameRequests_reconcileMembership mesh monotonic).connections

theorem connections_linkUp (mesh : NodeMesh) (wall monotonic : Seconds) (nodeId : String)
    (socket : Nat) :
    (mesh.linkUp m cr hub wall monotonic nodeId socket).1.connections =
      (mesh.claimConnection nodeId socket).1.connections := by
  unfold linkUp
  simp only
  split
  · exact connections_topologyChanged _ wall monotonic
  · rfl

theorem contains_claimConnection :
    (mesh.claimConnection nodeId socket).1.connections.contains other = true ↔
      other = nodeId ∨ mesh.connections.contains other = true := by
  unfold claimConnection
  split
  · next existing hexisting =>
      have hlinked : mesh.connections.contains nodeId = true :=
        Dict.contains_iff.mpr ⟨existing, hexisting⟩
      split
      · refine ⟨.inr, fun h => h.elim ?_ id⟩
        rintro rfl
        exact hlinked
      · rw [Dict.contains_set, Bool.or_eq_true, decide_eq_true_iff]
  · rw [Dict.contains_set, Bool.or_eq_true, decide_eq_true_iff]

/-- Only a link that comes up adds one. -/
theorem contains_of_apply {now : Clocks} {op : MeshOp}
    (hop : ∀ nodeId socket, op ≠ .linkUp nodeId socket)
    (h : (op.apply m cr hub now mesh).connections.contains other = true) :
    mesh.connections.contains other = true := by
  have hedits {mesh' : NodeMesh} (hedits : Edits m hub now.wall (fun _ => True) mesh mesh')
      (h : mesh'.connections.contains other = true) : mesh.connections.contains other = true := by
    rwa [hedits.sameMembership.connections] at h
  have hreview (h : (mesh.reconcileMembership m now.monotonic).connections.contains other = true) :
      mesh.connections.contains other = true := by
    rwa [(sameRequests_reconcileMembership mesh now.monotonic).connections] at h
  cases op with
  | applyRouteMessage msgType tag descriptor => exact hedits (edits_applyRouteMessage _ _ _ _) h
  | cacheDescriptor descriptor => exact hedits (edits_cacheDescriptor _ _) h
  | pruneRoutes => exact hedits (edits_pruneRoutes _ fun _ => trivial) h
  | remoteDescriptor target => exact hedits (edits_remoteDescriptor _ trivial) h
  | registerLocalRoute tag sid => exact hedits (edits_registerLocalRoute _ _ _) h
  | removeLocalRoute tag sid => exact hedits (edits_replicate _ _ _ _) h
  | reconcileMembership => exact hreview h
  | dropStaleOwnership => exact hedits (edits_dropStaleOwnership _) h
  | topologyChanged =>
      rw [MeshOp.apply, connections_topologyChanged] at h
      exact h
  | linkUp node socket => exact absurd rfl (hop node socket)
  | linkDown node socket =>
      rw [MeshOp.apply, linkDown] at h
      split at h
      · next mesh' hreleased =>
          rw [connections_topologyChanged] at h
          unfold releaseConnection at hreleased
          split at hreleased
          · cases hreleased
            rw [Dict.contains_erase, Bool.and_eq_true] at h
            exact h.2
          · cases hreleased
      · exact h
  | nodeState node payload =>
      rw [MeshOp.apply, (sameRequests_handleNodeState mesh _ _ _ _).connections] at h
      exact h
  | membershipTick => exact hreview h
  | stop => cases h

end NodeMesh

/-! ## The gauge -/

namespace Metrics

theorem gaugeValue_congr {metrics metrics' : Metrics} (h : metrics'.gauges = metrics.gauges)
    (name : String) : metrics'.gaugeValue name = metrics.gaugeValue name := by
  unfold gaugeValue
  rw [h]

/-- A number of seconds is read off the gauge as it is, or as one that is far
above any limit; if no float holds it, it cannot be read. -/
theorem gaugeValue_natCast (metrics : Metrics) (name : String) (skew : Nat) :
    (metrics.gauge name skew).gaugeValue name =
      (toBinary64 skew 1).map Binary64.toRat := by
  rw [gaugeValue_gauge_self]
  simp

end Metrics

/-- A skew and the float it becomes are on the same side of the limit. -/
theorem limit_lt_toRat_iff (c : Config) {skew : Nat} {x : Binary64}
    (hx : toBinary64 skew 1 = some x) :
    c.nodeMeshMaxClockSkewSeconds < x.toRat ↔ c.nodeMeshMaxClockSkewSeconds < skew := by
  obtain hexact | hlarge := Nat.lt_or_ge skew (2 ^ 53)
  · obtain ⟨x', hx', hvalue⟩ := toBinary64_natCast hexact
    rw [hx] at hx'
    cases hx'
    rw [hvalue]
  · have hlimit := c.clockSkew_bounds.2
    have hfar : (2 : ℚ) ^ (53 : Int) ≤ skew := by exact_mod_cast hlarge
    have hrounded : (2 : ℚ) ^ (53 : Int) ≤ x.toRat := by
      refine le_toRat ?_ one_pos ?_ hx
      · rintro rfl
        exact absurd hlarge (by norm_num)
      · rwa [Nat.cast_one, div_one]
    have hbound : (86400 : ℚ) < 2 ^ (53 : Int) := by norm_num
    exact iff_of_true (hlimit.trans_lt (hbound.trans_le hrounded))
      (hlimit.trans_lt (hbound.trans_le hfar))

theorem clockSkewed_natCast (c : Config) (metrics : Metrics) (skew : Nat) :
    Health.clockSkewed c (metrics.gauge Health.skewGauge skew) = some true ↔
      c.nodeMeshEnabled = true ∧ c.nodeMeshMaxClockSkewSeconds < skew ∧
        (skew : ℚ) < overflowThreshold := by
  have hnone := toBinary64_eq_none_iff skew one_pos
  rw [Nat.cast_one, div_one] at hnone
  unfold Health.clockSkewed
  split
  · next hon =>
      rw [Metrics.gaugeValue_natCast]
      cases hx : toBinary64 skew 1 with
      | none =>
          have hover := hnone.mp hx
          exact iff_of_false nofun fun h => absurd h.2.2 (not_lt.mpr hover)
      | some x =>
          have hfits : (skew : ℚ) < overflowThreshold := by
            refine lt_of_not_ge fun hover => ?_
            rw [hnone.mpr hover] at hx
            cases hx
          rw [Option.map_some, Option.map_some, Option.some.injEq, decide_eq_true_iff,
            limit_lt_toRat_iff c hx]
          exact ⟨fun h => ⟨hon, h, hfits⟩, fun h => h.2.1⟩
  · next hoff => exact iff_of_false nofun fun h => hoff h.1

theorem clockSkewed_congr (c : Config) {metrics metrics' : Metrics}
    (h : metrics'.gauges = metrics.gauges) :
    Health.clockSkewed c metrics' = Health.clockSkewed c metrics := by
  unfold Health.clockSkewed
  rw [Metrics.gaugeValue_congr h]

theorem gauges_stateMetrics (m : MeshConfig) (mesh : NodeMesh) (metrics : Metrics)
    (wall monotonic : Seconds) (nodeId : String) (payload : Json) :
    (mesh.stateMetrics m metrics wall monotonic nodeId payload).gauges =
      match NodeMesh.clockSkew wall payload with
      | some skew => (metrics.gauge Health.skewGauge skew).gauges
      | none => metrics.gauges := by
  unfold NodeMesh.stateMetrics
  simp only
  generalize NodeMesh.clockSkew wall payload = skew
  split
  · cases skew <;> rfl
  · split
    · cases skew <;> rfl
    · cases skew <;> rfl

namespace SkewRun

variable {c : ReadyConfig} {cr : Crypto} {s : SkewRun} {e : SkewEvent}

/-! ## What is reported -/

/-- A skew that is above the limit, as an infinite one is. -/
def TooFar (c : ReadyConfig) : Option Nat → Prop
  | some skew => c.nodeMeshMaxClockSkewSeconds < skew
  | none => True

def Connected (s : SkewRun) (nodeId : String) : Prop :=
  s.mesh.connections.contains nodeId = true

/-- The last report of the peer came with a skew above the limit. -/
def LastTooFar (c : ReadyConfig) (s : SkewRun) (nodeId : String) : Prop :=
  ∃ skew, s.latest.get? nodeId = some skew ∧ TooFar c skew

/-- Some connected peer's did. -/
def Suspect (c : ReadyConfig) (s : SkewRun) : Prop :=
  ∃ nodeId, s.Connected nodeId ∧ s.LastTooFar c nodeId

/-- The gauge is above the limit. -/
def Reports (c : ReadyConfig) (s : SkewRun) : Prop :=
  Health.clockSkewed c.toConfig s.metrics = some true

/-- Readiness fails for the clock skew while some connected peer's clock is
off. -/
def SkewReported (c : ReadyConfig) (s : SkewRun) : Prop :=
  s.Suspect c → ∀ hub trust now, ∃ reasons,
    Health.readinessReasons hub c.toTurnConfig s.metrics trust (some s.mesh) now = some reasons ∧
      "node-clock-skew" ∈ reasons

/-- No links without a mesh, and the other gauge can be read. -/
structure Sound (c : ReadyConfig) (s : SkewRun) : Prop where
  enabled : ∀ nodeId, s.Connected nodeId → c.nodeMeshEnabled = true
  readable : ∃ rss, s.metrics.gaugeValue "process_rss_bytes" = some rss

theorem skewReported_iff (h : s.Sound c) : s.SkewReported c ↔ (s.Suspect c → s.Reports c) := by
  obtain ⟨rss, hrss⟩ := h.readable
  refine imp_congr_right fun _ => ⟨fun hreported => ?_, fun hreports hub trust now => ?_⟩
  · obtain ⟨reasons, hreasons, hmem⟩ := hreported (.new c.toConfig 0) none 0
    exact (Health.nodeClockSkew_mem hreasons).mp hmem
  · obtain ⟨reasons, hreasons⟩ :=
      Health.exists_readinessReasons (c := c.toTurnConfig) hrss hreports hub trust (some s.mesh) now
    exact ⟨reasons, hreasons, (Health.nodeClockSkew_mem hreasons).mpr hreports⟩

/-! ## One event -/

/-- What an event has to meet for the gauge to go on speaking for the peers. A
report does if its skew is above the limit and fits a float, or no connected
peer's is above the limit with it; one without a time and a link of a peer that
was off leave the gauge alone, so it has to be above the limit already. -/
def Keeps (c : ReadyConfig) (s : SkewRun) : SkewEvent → Prop
  | .mesh ⟨_, now, .nodeState nodeId payload⟩ =>
      (∃ other, s.Connected other ∧ if other = nodeId then TooFar c (NodeMesh.clockSkew now.wall payload)
        else s.LastTooFar c other) →
      match NodeMesh.clockSkew now.wall payload with
      | some skew => c.nodeMeshMaxClockSkewSeconds < skew ∧ (skew : ℚ) < overflowThreshold
      | none => s.Reports c
  | .mesh ⟨_, _, .linkUp nodeId _⟩ =>
      c.nodeMeshEnabled = true → s.LastTooFar c nodeId → s.Reports c
  | _ => True

theorem clockSkewed_elsewhere (metrics : Metrics) (op : {op : MetricsOp // op.Elsewhere}) :
    Health.clockSkewed c.toConfig (metrics.after op) = Health.clockSkewed c.toConfig metrics := by
  obtain ⟨op, hop⟩ := op
  cases op with
  | increment name amount => exact clockSkewed_congr _ rfl
  | gauge name value =>
      show Health.clockSkewed c.toConfig (metrics.gauge name value) = _
      unfold Health.clockSkewed
      rw [Metrics.gaugeValue_gauge_of_ne metrics value (Ne.symm hop.1)]
  | observe name value => cases value <;> exact clockSkewed_congr _ rfl

/-- An operation that is neither a report nor a new link. -/
def Other (op : MeshOp) : Prop :=
  (∀ nodeId payload, op ≠ .nodeState nodeId payload) ∧ ∀ nodeId socket, op ≠ .linkUp nodeId socket

theorem after_other {op : MeshOp} (hop : Other op) (hub : Hub) (now : Clocks) :
    s.after c.toMeshConfig cr (.mesh ⟨hub, now, op⟩) =
      { s with mesh := op.apply c.toMeshConfig cr hub now s.mesh } := by
  cases op with
  | nodeState nodeId payload => exact absurd rfl (hop.1 nodeId payload)
  | linkUp nodeId socket => exact absurd rfl (hop.2 nodeId socket)
  | _ => rfl

theorem keeps_other {op : MeshOp} (hop : Other op) (hub : Hub) (now : Clocks) :
    s.Keeps c (.mesh ⟨hub, now, op⟩) := by
  cases op with
  | nodeState nodeId payload => exact absurd rfl (hop.1 nodeId payload)
  | linkUp nodeId socket => exact absurd rfl (hop.2 nodeId socket)
  | _ => trivial

theorem suspect_nodeState {hub : Hub} {now : Clocks} {nodeId : String} {payload : Json} :
    (s.after c.toMeshConfig cr (.mesh ⟨hub, now, .nodeState nodeId payload⟩)).Suspect c ↔
      ∃ other, s.Connected other ∧
        if other = nodeId then TooFar c (NodeMesh.clockSkew now.wall payload)
        else s.LastTooFar c other := by
  unfold Suspect
  refine exists_congr fun other => and_congr ?_ ?_
  · show (s.mesh.handleNodeState _ now.wall now.monotonic nodeId payload).connections.contains other =
      true ↔ _
    rw [(NodeMesh.sameRequests_handleNodeState s.mesh _ _ _ _).connections]
    rfl
  · unfold LastTooFar
    show (∃ skew, (s.latest.set nodeId _).get? other = some skew ∧ TooFar c skew) ↔ _
    rw [Dict.get?_set]
    split
    · refine ⟨?_, fun hfar => ⟨_, rfl, hfar⟩⟩
      rintro ⟨skew, hskew, hfar⟩
      cases hskew
      exact hfar
    · rfl

theorem reports_nodeState {hub : Hub} {now : Clocks} {nodeId : String} {payload : Json}
    (hon : c.nodeMeshEnabled = true) :
    (s.after c.toMeshConfig cr (.mesh ⟨hub, now, .nodeState nodeId payload⟩)).Reports c ↔
      match NodeMesh.clockSkew now.wall payload with
      | some skew => c.nodeMeshMaxClockSkewSeconds < skew ∧ (skew : ℚ) < overflowThreshold
      | none => s.Reports c := by
  have hgauges := gauges_stateMetrics c.toMeshConfig s.mesh s.metrics now.wall now.monotonic nodeId
    payload
  show Health.clockSkewed c.toConfig (s.mesh.stateMetrics c.toMeshConfig s.metrics now.wall
    now.monotonic nodeId payload) = some true ↔ _
  cases hskew : NodeMesh.clockSkew now.wall payload with
  | none =>
      rw [hskew] at hgauges
      rw [clockSkewed_congr c.toConfig hgauges]
      rfl
  | some skew =>
      rw [hskew] at hgauges
      rw [clockSkewed_congr c.toConfig hgauges, clockSkewed_natCast]
      exact and_iff_right hon

theorem after_linkUp (hon : c.nodeMeshEnabled = true) (hub : Hub) (now : Clocks) (nodeId : String)
    (socket : Nat) :
    s.after c.toMeshConfig cr (.mesh ⟨hub, now, .linkUp nodeId socket⟩) =
      { s with
        mesh := (s.mesh.linkUp c.toMeshConfig cr hub now.wall now.monotonic nodeId socket).1 } :=
  if_pos hon

theorem after_linkUp_off (hoff : ¬ c.nodeMeshEnabled = true) (hub : Hub) (now : Clocks)
    (nodeId : String) (socket : Nat) :
    s.after c.toMeshConfig cr (.mesh ⟨hub, now, .linkUp nodeId socket⟩) = s :=
  if_neg hoff

theorem connected_linkUp {hub : Hub} {now : Clocks} {nodeId other : String} {socket : Nat}
    (hon : c.nodeMeshEnabled = true) :
    (s.after c.toMeshConfig cr (.mesh ⟨hub, now, .linkUp nodeId socket⟩)).Connected other ↔
      other = nodeId ∨ s.Connected other := by
  rw [after_linkUp hon]
  unfold Connected
  rw [NodeMesh.connections_linkUp]
  exact NodeMesh.contains_claimConnection

/-- The gauge goes on speaking for the peers exactly if the event meets the
condition. -/
theorem keeps_iff (hs : s.Sound c) (h : s.Suspect c → s.Reports c) :
    ((s.after c.toMeshConfig cr e).Suspect c → (s.after c.toMeshConfig cr e).Reports c) ↔
      s.Keeps c e := by
  cases e with
  | metrics op =>
      refine iff_of_true (fun hsuspect => ?_) trivial
      exact (clockSkewed_elsewhere s.metrics op).trans (h hsuspect)
  | mesh e =>
      obtain ⟨hub, now, op⟩ := e
      by_cases hother : Other op
      · refine iff_of_true ?_ (keeps_other hother hub now)
        rw [after_other hother]
        rintro ⟨nodeId, hconnected, hfar⟩
        exact h ⟨nodeId, NodeMesh.contains_of_apply hother.2 hconnected, hfar⟩
      cases op with
      | nodeState nodeId payload =>
          rw [suspect_nodeState]
          refine imp_congr_right fun hsuspect => ?_
          obtain ⟨other, hconnected, -⟩ := hsuspect
          exact reports_nodeState (hs.enabled other hconnected)
      | linkUp nodeId socket =>
          by_cases hon : c.nodeMeshEnabled = true
          · constructor
            · intro hkept _ hfar
              have hkept := hkept ⟨nodeId, (connected_linkUp hon).mpr (.inl rfl), by
                rwa [after_linkUp hon]⟩
              rwa [after_linkUp hon] at hkept
            · rintro hkeeps ⟨other, hconnected, hfar⟩
              rw [after_linkUp hon] at hfar ⊢
              obtain rfl | hconnected := (connected_linkUp hon).mp hconnected
              · exact hkeeps hon hfar
              · exact h ⟨other, hconnected, hfar⟩
          · rw [after_linkUp_off hon]
            exact iff_of_true h fun hon' => absurd hon' hon
      | _ => exact absurd ⟨nofun, nofun⟩ hother

theorem readable_elsewhere {metrics : Metrics}
    (h : ∃ rss, metrics.gaugeValue "process_rss_bytes" = some rss)
    (op : {op : MetricsOp // op.Elsewhere}) :
    ∃ rss, (metrics.after op).gaugeValue "process_rss_bytes" = some rss := by
  obtain ⟨op, hop⟩ := op
  cases op with
  | increment name amount => exact h
  | gauge name value =>
      show ∃ rss, (metrics.gauge name value).gaugeValue "process_rss_bytes" = some rss
      by_cases hname : "process_rss_bytes" = name
      · subst hname
        obtain ⟨x, hx⟩ := Option.ne_none_iff_exists'.mp hop.2
        rw [Metrics.gaugeValue_gauge_self, hx]
        exact ⟨_, rfl⟩
      · rwa [Metrics.gaugeValue_gauge_of_ne metrics value hname]
  | observe name value => cases value <;> exact h

theorem readable_stateMetrics (m : MeshConfig) (mesh : NodeMesh) (metrics : Metrics)
    (wall monotonic : Seconds) (nodeId : String) (payload : Json) :
    (mesh.stateMetrics m metrics wall monotonic nodeId payload).gaugeValue "process_rss_bytes" =
      metrics.gaugeValue "process_rss_bytes" := by
  have hgauges := gauges_stateMetrics m mesh metrics wall monotonic nodeId payload
  cases hskew : NodeMesh.clockSkew wall payload with
  | none =>
      rw [hskew] at hgauges
      exact Metrics.gaugeValue_congr hgauges _
  | some skew =>
      rw [hskew] at hgauges
      exact (Metrics.gaugeValue_congr hgauges _).trans
        (Metrics.gaugeValue_gauge_of_ne metrics skew (by decide))

theorem Sound.after (hs : s.Sound c) (e : SkewEvent) :
    (s.after c.toMeshConfig cr e).Sound c := by
  cases e with
  | metrics op => exact ⟨hs.enabled, readable_elsewhere hs.readable op⟩
  | mesh e =>
      obtain ⟨hub, now, op⟩ := e
      by_cases hother : Other op
      · rw [after_other hother]
        exact ⟨fun nodeId hconnected => hs.enabled nodeId
          (NodeMesh.contains_of_apply hother.2 hconnected), hs.readable⟩
      cases op with
      | nodeState nodeId payload =>
          constructor
          · intro other hconnected
            have happly : ((MeshOp.nodeState nodeId payload).apply c.toMeshConfig cr hub now
                s.mesh).connections.contains other = true := hconnected
            exact hs.enabled other (NodeMesh.contains_of_apply (fun _ _ h => by cases h) happly)
          · obtain ⟨rss, hrss⟩ := hs.readable
            exact ⟨rss, (readable_stateMetrics _ _ _ _ _ _ _).trans hrss⟩
      | linkUp nodeId socket =>
          by_cases hon : c.nodeMeshEnabled = true
          · rw [after_linkUp hon]
            exact ⟨fun _ _ => hon, hs.readable⟩
          · rwa [after_linkUp_off hon]
      | _ => exact absurd ⟨nofun, nofun⟩ hother

theorem sound_start (incarnation : String) : (start c.toMeshConfig incarnation).Sound c :=
  ⟨nofun, 0, Metrics.gaugeValue_new _⟩

/-! ## Whole runs -/

/-- The state after a sequence of events. -/
def run (c : ReadyConfig) (cr : Crypto) (incarnation : String) (es : List SkewEvent) : SkewRun :=
  es.foldl (SkewRun.after c.toMeshConfig cr) (start c.toMeshConfig incarnation)

theorem sound_run (incarnation : String) (es : List SkewEvent) : (run c cr incarnation es).Sound c :=
  foldl_invariant es (sound_start incarnation) fun _ e _ hs => hs.after e

/-- Readiness fails for the clock skew, at every point of a run, while some
connected peer's clock is off, if and only if every event of the run meets the
condition. -/
theorem skew_reported_iff (c : ReadyConfig) (cr : Crypto) (incarnation : String)
    (es : List SkewEvent) :
    (∀ before, before <+: es → (run c cr incarnation before).SkewReported c) ↔
      System.Meets (Keeps c) (SkewRun.after c.toMeshConfig cr) (start c.toMeshConfig incarnation)
        es := by
  simp only [skewReported_iff (sound_run _ _)]
  have hstart : (start c.toMeshConfig incarnation).Suspect c →
      (start c.toMeshConfig incarnation).Reports c := by
    rintro ⟨nodeId, hconnected, -⟩
    cases hconnected
  exact System.forall_prefix_iff_meets (fun _ e hs => hs.after e) (fun _ _ => keeps_iff)
    (sound_start incarnation) hstart

/-! ## Two peers -/

/-- A node that trusts two others. -/
def twoPeers : ReadyConfig where
  toConfig := ⟨{ nodeMeshEnabled := true }, by decide +kernel⟩
  trusted := {"node-b", "node-c"}
  trusted_nonempty := MeshConfig.trio.trusted_nonempty
  trusted_card_le := MeshConfig.trio.trusted_card_le
  local_notMem := by decide

/-- The clock of `node-b` is ten minutes slow, that of `node-c` is right. -/
def slowThenRight : List SkewEvent :=
  [.mesh (at_ 1000 (.linkUp "node-b" 1)), .mesh (at_ 1000 (.linkUp "node-c" 2)),
    .mesh (at_ 1000 (.nodeState "node-b" (stateOf "node-b" ["node-b"] 400))),
    .mesh (at_ 1000 (.nodeState "node-c" (stateOf "node-c" ["node-c"] 1000)))]

/-- With both reports there, readiness no longer fails for the clock skew. -/
theorem skew_masked : ¬ (run twoPeers default "i" slowThenRight).SkewReported twoPeers := by
  have hrun : let s := run twoPeers default "i" slowThenRight
      s.mesh.connections.contains "node-b" = true ∧ s.latest.get? "node-b" = some (some 600) ∧
        Health.clockSkewed twoPeers.toConfig s.metrics = some false := by decide +kernel
  obtain ⟨hconnected, hlatest, hgauge⟩ := hrun
  have hfar : TooFar twoPeers (some 600) := by
    show (30 : ℚ) < (600 : Nat)
    norm_num
  intro hreported
  obtain ⟨reasons, hreasons, hmem⟩ :=
    hreported ⟨"node-b", hconnected, some 600, hlatest, hfar⟩ (.new .default 0) none 1000
  rw [(Health.nodeClockSkew_mem hreasons).mp hmem] at hgauge
  cases hgauge

end SkewRun

end Masterserver
