import Mathlib.Data.Rat.Floor

/-!
# Runtime configuration

`ConfigFields` is the record as an operator fills it, with the defaults the
source falls back on; `postInit` is its validation, in the order the source
checks, answering the text of the error it raises. A `Config` is a record that
passed, so the bounds the rest of the server relies on are facts about every
configuration rather than premises of the results.

Only the fields the validation or a modelled component reads are here; the
texts (endpoint URLs, key material, credential lists) come with the components
that parse them. Integers are naturals, since every bounded field rejects a
negative value, and seconds are rationals.
-/

namespace Masterserver

/-- Seconds on a clock, or a duration. -/
abbrev Seconds := ℚ

/-- `int(x)`: truncation toward zero. -/
def pyInt (x : Seconds) : Int := if 0 ≤ x then ⌊x⌋ else ⌈x⌉

/-- A reading of the clock of the day and of the monotonic clock. -/
structure Clocks where
  wall : Seconds
  monotonic : Seconds

/-- Both clocks stand no earlier. -/
def Clocks.before (earlier later : Clocks) : Prop :=
  earlier.wall ≤ later.wall ∧ earlier.monotonic ≤ later.monotonic

instance (earlier later : Clocks) : Decidable (earlier.before later) :=
  inferInstanceAs (Decidable (_ ∧ _))

structure ConfigFields where
  maxFrameBytes : Nat := 65536
  maxRoutesPerSession : Nat := 32
  maxV1RoutesPerSession : Nat := 8
  maxSubscriptions : Nat := 16
  maxFanout : Nat := 16
  maxHops : Nat := 3
  maxConcurrency : Nat := 128
  maxJsonDepth : Nat := 16
  maxJsonNodes : Nat := 512
  maxDedupeEntries : Nat := 65536
  admissionCryptoConcurrency : Nat := 8
  admissionCryptoWaitSeconds : Seconds := 1 / 4
  admissionRateBurst : Nat := 128
  admissionRatePerSecond : Seconds := 2
  admissionGlobalBurst : Nat := 256
  admissionGlobalPerSecond : Seconds := 32
  turnRateBurst : Nat := 20
  turnRatePerSecond : Seconds := 1
  turnGlobalBurst : Nat := 128
  turnGlobalPerSecond : Seconds := 16
  signalGlobalBurst : Nat := 512
  signalGlobalPerSecond : Seconds := 256
  messageGlobalBurst : Nat := 2048
  messageGlobalPerSecond : Seconds := 1024
  routeLeaseSeconds : Seconds := 90
  heartbeatIntervalSeconds : Seconds := 27
  sessionStaleSeconds : Seconds := 90
  dedupeWindowSeconds : Seconds := 120
  proofDeadlineSeconds : Seconds := 10
  cleanupIntervalSeconds : Seconds := 15
  outboundQueueFrames : Nat := 64
  outboundQueueBytes : Nat := 262144
  outboundSendTimeoutSeconds : Seconds := 5
  nodeId : String := "particle-node-local"
  networkRootId : String := "particle-network-root-v1"
  networkRootVersion : Nat := 1
  networkRootRollbackVersion : Nat := 0
  signingKeyActivatesAt : Int := 0
  signingKeyExpiresAt : Int := 2147483647
  manifestTtlSeconds : Nat := 3600
  admissionTtlSeconds : Nat := 60
  turnTtlSeconds : Nat := 600
  nodeMeshEnabled : Bool := false
  nodeMeshReplicaCount : Nat := 2
  nodeMeshAckTimeoutSeconds : Seconds := 2
  nodeMeshMembershipEpoch : Nat := 1
  nodeMeshSuspicionSeconds : Seconds := 10
  nodeMeshMaxClockSkewSeconds : Seconds := 30
  nodeMeshMaxPendingOperations : Nat := 1024
  nodeMeshMaxRouteDescriptors : Nat := 16384
  runtimeMetricsIntervalSeconds : Seconds := 1
  readinessEventLoopP99Seconds : Seconds := 1 / 4
  readinessRssBytes : Nat := 600 * 1024 * 1024

namespace ConfigFields

/-- The bounded integers: name, value, least and greatest admissible value. -/
def bounded (c : ConfigFields) : List (String × Nat × Nat × Nat) :=
  [("max_frame_bytes", c.maxFrameBytes, 1024, 1024 * 1024),
    ("max_routes_per_session", c.maxRoutesPerSession, 1, 256),
    ("max_v1_routes_per_session", c.maxV1RoutesPerSession, 1, 64),
    ("max_subscriptions", c.maxSubscriptions, 1, 256),
    ("max_fanout", c.maxFanout, 1, 256),
    ("max_hops", c.maxHops, 1, 16),
    ("max_concurrency", c.maxConcurrency, 1, 100000),
    ("max_json_depth", c.maxJsonDepth, 2, 64),
    ("max_json_nodes", c.maxJsonNodes, 16, 100000),
    ("max_dedupe_entries", c.maxDedupeEntries, 1024, 10000000),
    ("admission_crypto_concurrency", c.admissionCryptoConcurrency, 1, 64),
    ("admission_rate_burst", c.admissionRateBurst, 1, 100000),
    ("admission_global_burst", c.admissionGlobalBurst, 1, 100000),
    ("turn_rate_burst", c.turnRateBurst, 1, 100000),
    ("turn_global_burst", c.turnGlobalBurst, 1, 100000),
    ("signal_global_burst", c.signalGlobalBurst, 1, 100000),
    ("message_global_burst", c.messageGlobalBurst, 1, 1000000),
    ("outbound_queue_frames", c.outboundQueueFrames, 1, 1024),
    ("outbound_queue_bytes", c.outboundQueueBytes, 1024, 64 * 1024 * 1024),
    ("network_root_version", c.networkRootVersion, 0, 2 ^ 31 - 1),
    ("network_root_rollback_version", c.networkRootRollbackVersion, 0, 2 ^ 31 - 1),
    ("manifest_ttl_seconds", c.manifestTtlSeconds, 60, 86400),
    ("admission_ttl_seconds", c.admissionTtlSeconds, 10, 3600),
    ("turn_ttl_seconds", c.turnTtlSeconds, 60, 86400),
    ("node_mesh_replica_count", c.nodeMeshReplicaCount, 1, 8),
    ("node_mesh_membership_epoch", c.nodeMeshMembershipEpoch, 1, 2 ^ 31 - 1),
    ("node_mesh_max_pending_operations", c.nodeMeshMaxPendingOperations, 1, 100000),
    ("node_mesh_max_route_descriptors", c.nodeMeshMaxRouteDescriptors, 128, 1000000),
    ("readiness_rss_bytes", c.readinessRssBytes, 16 * 1024 * 1024,
      64 * 1024 * 1024 * 1024)]

def positive (c : ConfigFields) : List (String × Seconds) :=
  [("route_lease_seconds", c.routeLeaseSeconds),
    ("heartbeat_interval_seconds", c.heartbeatIntervalSeconds),
    ("session_stale_seconds", c.sessionStaleSeconds),
    ("dedupe_window_seconds", c.dedupeWindowSeconds),
    ("proof_deadline_seconds", c.proofDeadlineSeconds),
    ("cleanup_interval_seconds", c.cleanupIntervalSeconds),
    ("admission_crypto_wait_seconds", c.admissionCryptoWaitSeconds),
    ("node_mesh_ack_timeout_seconds", c.nodeMeshAckTimeoutSeconds),
    ("runtime_metrics_interval_seconds", c.runtimeMetricsIntervalSeconds),
    ("readiness_event_loop_p99_seconds", c.readinessEventLoopP99Seconds),
    ("admission_rate_per_second", c.admissionRatePerSecond),
    ("admission_global_per_second", c.admissionGlobalPerSecond),
    ("turn_rate_per_second", c.turnRatePerSecond),
    ("turn_global_per_second", c.turnGlobalPerSecond),
    ("signal_global_per_second", c.signalGlobalPerSecond),
    ("outbound_send_timeout_seconds", c.outboundSendTimeoutSeconds),
    ("message_global_per_second", c.messageGlobalPerSecond)]

def nonNegative (c : ConfigFields) : List (String × Seconds) :=
  [("node_mesh_suspicion_seconds", c.nodeMeshSuspicionSeconds),
    ("node_mesh_max_clock_skew_seconds", c.nodeMeshMaxClockSkewSeconds)]

/-- The relations between fields and the two bounded texts: what is refused,
and the message. -/
def relations (c : ConfigFields) : List (Bool × String) :=
  [(decide (c.outboundQueueBytes < c.maxFrameBytes),
      "outbound_queue_bytes must hold at least one maximum-sized frame"),
    (decide (c.routeLeaseSeconds ≤ c.heartbeatIntervalSeconds),
      "route_lease_seconds must exceed heartbeat_interval_seconds"),
    (decide (c.sessionStaleSeconds ≤ c.heartbeatIntervalSeconds),
      "session_stale_seconds must exceed heartbeat_interval_seconds"),
    (decide (c.networkRootVersion < c.networkRootRollbackVersion),
      "network_root_rollback_version cannot exceed network_root_version"),
    (decide (c.signingKeyExpiresAt < c.signingKeyActivatesAt),
      "signing key activation cannot be after expiry"),
    (!decide (1 ≤ c.nodeId.utf8ByteSize ∧ c.nodeId.utf8ByteSize ≤ 128),
      "node_id must contain 1..128 UTF-8 bytes"),
    (!decide (1 ≤ c.networkRootId.utf8ByteSize ∧ c.networkRootId.utf8ByteSize ≤ 128),
      "network_root_id must contain 1..128 UTF-8 bytes")]

/-- Every check in order, as what it refuses and the message. -/
def checks (c : ConfigFields) : List (Bool × String) :=
  c.bounded.map (fun (name, value, minimum, maximum) =>
      (!decide (minimum ≤ value ∧ value ≤ maximum),
        s!"{name} must be in {minimum}..{maximum}")) ++
    c.positive.map (fun (name, value) =>
      (!decide (0 < value ∧ value ≤ 86400), s!"{name} must be finite and in 0..86400")) ++
    c.nonNegative.map (fun (name, value) =>
      (!decide (0 ≤ value ∧ value ≤ 86400), s!"{name} must be finite and in 0..86400")) ++
    c.relations

/-- `__post_init__`: the message of the error it raises, if it raises one. -/
def postInit (c : ConfigFields) : Option String :=
  (c.checks.find? fun check => check.1).map Prod.snd

end ConfigFields

/-- A configuration `__post_init__` accepted. -/
structure Config extends ConfigFields where
  accepted : toConfigFields.postInit = none

/-- The configuration of an empty environment. -/
def Config.default : Config := ⟨{}, by decide +kernel⟩

instance : Inhabited Config := ⟨Config.default⟩

namespace Config

variable (c : Config)

theorem not_refused {check : Bool × String} (h : check ∈ c.checks) : check.1 = false := by
  have hnone := c.accepted
  rw [ConfigFields.postInit, Option.map_eq_none_iff, List.find?_eq_none] at hnone
  simpa using hnone check h

theorem bounded_le (name : String) (value minimum maximum : Nat)
    (h : (name, value, minimum, maximum) ∈ c.bounded) : minimum ≤ value ∧ value ≤ maximum := by
  have hmem : (!decide (minimum ≤ value ∧ value ≤ maximum),
      s!"{name} must be in {minimum}..{maximum}") ∈ c.checks := by
    simp only [ConfigFields.checks, List.mem_append, List.mem_map]
    exact .inl (.inl (.inl ⟨_, h, rfl⟩))
  simpa using c.not_refused hmem

theorem positive_bounds (name : String) (value : Seconds) (h : (name, value) ∈ c.positive) :
    0 < value ∧ value ≤ 86400 := by
  have hmem : (!decide (0 < value ∧ value ≤ 86400),
      s!"{name} must be finite and in 0..86400") ∈ c.checks := by
    simp only [ConfigFields.checks, List.mem_append, List.mem_map]
    exact .inl (.inl (.inr ⟨_, h, rfl⟩))
  simpa using c.not_refused hmem

theorem positive_lt (name : String) (value : Seconds) (h : (name, value) ∈ c.positive) :
    0 < value := (c.positive_bounds name value h).1

theorem nonNegative_bounds (name : String) (value : Seconds) (h : (name, value) ∈ c.nonNegative) :
    0 ≤ value ∧ value ≤ 86400 := by
  have hmem : (!decide (0 ≤ value ∧ value ≤ 86400),
      s!"{name} must be finite and in 0..86400") ∈ c.checks := by
    simp only [ConfigFields.checks, List.mem_append, List.mem_map]
    exact .inl (.inr ⟨_, h, rfl⟩)
  simpa using c.not_refused hmem

theorem outboundQueueFrames_pos : 0 < c.outboundQueueFrames :=
  (c.bounded_le "outbound_queue_frames" _ 1 1024 (by simp [ConfigFields.bounded])).1

theorem routeLeaseSeconds_bounds : 0 < c.routeLeaseSeconds ∧ c.routeLeaseSeconds ≤ 86400 :=
  c.positive_bounds "route_lease_seconds" _ (by simp [ConfigFields.positive])

theorem clockSkew_bounds :
    0 ≤ c.nodeMeshMaxClockSkewSeconds ∧ c.nodeMeshMaxClockSkewSeconds ≤ 86400 :=
  c.nonNegative_bounds "node_mesh_max_clock_skew_seconds" _ (by simp [ConfigFields.nonNegative])

end Config

end Masterserver
