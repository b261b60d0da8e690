import Masterserver.App.Metrics
import Masterserver.App.NodeMesh
import Masterserver.App.Trust
import Masterserver.App.Turn

/-!
# Readiness

What keeps a node from being ready, read off the state of its parts at the
time it is asked. Reading a gauge raises where its value is too large an
integer; then there is no answer, `none`.
-/

namespace Masterserver

open Lib

namespace Health

/-- The characters `str.strip` takes off. -/
def isSpace (c : Char) : Bool :=
  let code := c.toNat
  decide (9 ≤ code ∧ code ≤ 13) || decide (28 ≤ code ∧ code ≤ 32) || code == 0x85 ||
    code == 0xA0 || code == 0x1680 || decide (0x2000 ≤ code ∧ code ≤ 0x200A) ||
    code == 0x2028 || code == 0x2029 || code == 0x202F || code == 0x205F || code == 0x3000

def strip (text : List Char) : List Char :=
  ((text.dropWhile isSpace).reverse.dropWhile isSpace).reverse

/-- `text.strip() not in {"", "[]"}`. -/
def isSet (text : List Char) : Bool :=
  let text := strip text
  text != [] && text != ['[', ']']

/-- `_turn_configured`. -/
def turnConfigured (c : TurnConfig) : Bool :=
  !c.turnSharedSecret.isEmpty || isSet c.turnSharedSecretsJson || isSet c.turnServersJson

/-- The gauge that every peer's `NODE_STATE` is written to. -/
def skewGauge : String := "node_mesh_clock_skew_seconds"

/-- The check on the gauge: only a node with a mesh reads it. -/
def clockSkewed (c : Config) (metrics : Metrics) : Option Bool :=
  if c.nodeMeshEnabled then
    (metrics.gaugeValue skewGauge).map fun skew => decide (c.nodeMeshMaxClockSkewSeconds < skew)
  else some false

def reason (holds : Bool) (text : String) : List String := if holds then [text] else []

/-- `readiness_reasons` at a reading of the clock of the day. -/
def readinessReasons (hub : Hub) (c : TurnConfig) (metrics : Metrics) (trust : Option NodeTrust)
    (mesh : Option NodeMesh) (now : Seconds) : Option (List String) := do
  let rss ← metrics.gaugeValue "process_rss_bytes"
  let skewed ← clockSkewed c.toConfig metrics
  let lagP99 := metrics.quantile "event_loop_lag_seconds" (literal 99 100)
  pure (reason (decide (c.maxConcurrency ≤ hub.sessionCount)) "session-capacity" ++
    reason (trust.isSome && decide (c.signingKeyExpiresAt < pyInt now)) "signing-key-expired" ++
    reason (decide (c.readinessEventLoopP99Seconds < lagP99)) "event-loop-lag" ++
    reason (decide (c.readinessRssBytes < rss)) "memory-pressure" ++
    reason (c.readinessRequireTurn && !turnConfigured c) "turn-unavailable" ++
    reason (c.nodeMeshEnabled && mesh.any (!·.hasQuorum)) "node-quorum" ++
    reason skewed "node-clock-skew")

/-! ## Single reasons -/

variable {hub : Hub} {c : TurnConfig} {metrics : Metrics} {trust : Option NodeTrust}
  {mesh : Option NodeMesh} {now : Seconds} {reasons : List String}

@[simp] theorem mem_reason {holds : Bool} {text text' : String} :
    text' ∈ reason holds text ↔ holds = true ∧ text' = text := by
  cases holds <;> simp [reason]

/-- There is an answer if both gauges can be read. -/
theorem exists_readinessReasons {rss : ℚ} {skewed : Bool}
    (hrss : metrics.gaugeValue "process_rss_bytes" = some rss)
    (hskewed : clockSkewed c.toConfig metrics = some skewed) (hub : Hub) (trust : Option NodeTrust)
    (mesh : Option NodeMesh) (now : Seconds) :
    ∃ reasons, readinessReasons hub c metrics trust mesh now = some reasons := by
  unfold readinessReasons
  rw [hrss, hskewed]
  exact ⟨_, rfl⟩

theorem turnUnavailable_mem (h : readinessReasons hub c metrics trust mesh now = some reasons) :
    "turn-unavailable" ∈ reasons ↔ c.readinessRequireTurn = true ∧ turnConfigured c = false := by
  unfold readinessReasons at h
  obtain ⟨rss, -, h⟩ := Option.bind_eq_some_iff.mp h
  obtain ⟨skewed, -, h⟩ := Option.bind_eq_some_iff.mp h
  cases h
  simp

theorem nodeClockSkew_mem (h : readinessReasons hub c metrics trust mesh now = some reasons) :
    "node-clock-skew" ∈ reasons ↔ clockSkewed c.toConfig metrics = some true := by
  unfold readinessReasons at h
  obtain ⟨rss, -, h⟩ := Option.bind_eq_some_iff.mp h
  obtain ⟨skewed, hskewed, h⟩ := Option.bind_eq_some_iff.mp h
  cases h
  simp [hskewed]

end Health

end Masterserver
