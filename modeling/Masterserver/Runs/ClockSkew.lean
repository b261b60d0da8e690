import Masterserver.App.Health
import Masterserver.Runs.Mesh
import Masterserver.Runs.Metrics

/-!
# Runs of the clock skew gauge

A node's mesh state beside its registry of metrics. A `NODE_STATE` writes the
skew of the clock it was sent by to the gauge readiness looks at, before it is
known whether the report is accepted. The gauge is one for all peers.

What else the mesh does, and what else is written to the registry, can happen
in between. `latest` is a record of the run and not of the program: the skew of
the last `NODE_STATE` of each peer, `none` for an infinite one.
-/

namespace Masterserver

open Lib

/-- What readiness and the mesh are configured with. -/
structure ReadyConfig extends MeshConfig, TurnConfig

namespace NodeMesh

/-- How far the sender's clock is off; a report without a time is infinitely
far off, `none`. -/
def clockSkew (wall : Seconds) (payload : Json) : Option Nat :=
  ((payload.get? "sentAt").bind Json.int?).map fun sentAt => (pyInt wall - sentAt).natAbs

/-- What `_handle_message` writes to the registry on a `NODE_STATE`. -/
def stateMetrics (m : MeshConfig) (mesh : NodeMesh) (metrics : Metrics) (wall monotonic : Seconds)
    (nodeId : String) (payload : Json) : Metrics :=
  let skew := clockSkew wall payload
  let metrics := match skew with
    | some skew => metrics.gauge Health.skewGauge skew
    | none => metrics
  if (mesh.recordState m wall monotonic nodeId payload).isSome then
    metrics.increment "node_mesh_state_messages" 1
  else if skew.all fun (skew : Nat) => decide (m.nodeMeshMaxClockSkewSeconds < skew) then
    metrics.increment "node_mesh_clock_skew_rejections" 1
  else metrics

end NodeMesh

/-- A value that a float can hold. -/
def Converts (value : ℚ) : Prop := toBinary64 value.num.natAbs value.den ≠ none

/-- A write that is not to the gauge of the skew. -/
def MetricsOp.Elsewhere : MetricsOp → Prop
  | .gauge name value => name ≠ Health.skewGauge ∧ Converts value
  | _ => True

structure SkewRun where
  mesh : NodeMesh
  metrics : Metrics
  latest : Dict String (Option Nat)

inductive SkewEvent
  | mesh (e : MeshEvent)
  | metrics (op : {op : MetricsOp // op.Elsewhere})

namespace SkewRun

def start (m : MeshConfig) (incarnation : String) : SkewRun := ⟨.new m incarnation, .new, ∅⟩

/-- Only a node with a mesh has links. -/
def after (m : MeshConfig) (cr : Crypto) (s : SkewRun) : SkewEvent → SkewRun
  | .mesh ⟨_, now, .nodeState nodeId payload⟩ =>
      ⟨s.mesh.handleNodeState m now.wall now.monotonic nodeId payload,
        s.mesh.stateMetrics m s.metrics now.wall now.monotonic nodeId payload,
        s.latest.set nodeId (NodeMesh.clockSkew now.wall payload)⟩
  | .mesh ⟨hub, now, .linkUp nodeId socket⟩ =>
      if m.nodeMeshEnabled then
        { s with mesh := (MeshOp.linkUp nodeId socket).apply m cr hub now s.mesh }
      else s
  | .mesh ⟨hub, now, op⟩ => { s with mesh := op.apply m cr hub now s.mesh }
  | .metrics op => { s with metrics := s.metrics.after op }

end SkewRun

end Masterserver
