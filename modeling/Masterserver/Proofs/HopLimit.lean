import Masterserver.Proofs.IdleRecipient

/-!
# The hop limit of a legacy relay

A server that relays a SIGNAL, FORWARD or PUBLISH puts one hop less into the
copies, and does not relay a message without hops left. An absent limit reads
as the server's own, at most 16, and the validator admits integers up to 16.
So the copies of a message, re-sent to whatever server, run out of hops after
at most 16 relays, with no help from a replay window.

The validator and the relay disagree on one spelling. An explicit `null` is no
limit to the validator, which takes it for an absent one, and none to the
relay, whose default is only for an absent one: the copies carry the `null` on,
and they never run out.
-/

namespace Masterserver

open Lib Protocol

namespace V1

/-- `payload.ttl` of a message, if it is there. -/
def ttlField (message : Json) : Option Json :=
  (message.get? "payload").bind (Json.get? · "ttl")

/-- The validator accepts the message as one that is relayed. -/
def Relayable (message : Json) : Prop :=
  ∃ type data payload routeId, validateV1Message message = .ok (.relay type data payload routeId)

/-- Some server of this configuration has a session that sends the message,
and relays it: there are subscribers, and each is sent this copy. -/
def Relays (c : Config) (message outgoing : Json) : Prop :=
  ∃ cr now sid sess type data payload routeId server subscribers,
    validateV1Message message = .ok (.relay type data payload routeId) ∧
    server.hub.sessions.get? sid = some sess ∧ subscribers ≠ [] ∧
    (handleRouteMessage c cr now sid sess type data payload routeId server).next =
      .waiting (.relay subscribers outgoing)

/-- The copy has an integer limit, one less than the message's own or than the
server's if the message has none, and not negative. -/
def TakesHop (c : Config) (message outgoing : Json) : Prop :=
  ∃ hops : Int, (ttlField message).getD (.int c.maxHops) = .int hops ∧ 1 ≤ hops ∧
    ttlField outgoing = some (.int (hops - 1))

/-- The message can be relayed so many times in a row: a copy is sent again,
with whatever else changed but its hop limit, to any server. -/
inductive Travels : Json → Nat → Prop
  | stays (message : Json) : Travels message 0
  | relayed {c : Config} {message outgoing resent : Json} {hops : Nat} :
      Relays c message outgoing → ttlField resent = ttlField outgoing → Travels resent hops →
      Travels message (hops + 1)

/-- Every relay takes a hop, and there are at most 16 in a row. -/
def HopLimited (message : Json) : Prop :=
  (∀ c outgoing, Relays c message outgoing → TakesHop c message outgoing) ∧
    ∀ hops, Travels message hops → hops ≤ 16

/-! ## What the validator and the relay agree on -/

variable {c : Config} {message outgoing : Json}

theorem relayable_cases {type : RelayType} {data payload : Payload} {routeId : String}
    (h : validateV1Message message = .ok (.relay type data payload routeId)) :
    message = .obj data ∧ data.lookup "payload" = some (.obj payload) ∧
      ttlField message = payload.lookup "ttl" ∧
      (payload.lookup "ttl" = none ∨ payload.lookup "ttl" = some .null ∨
        ∃ hops : Int, payload.lookup "ttl" = some (.int hops) ∧ 0 ≤ hops ∧ hops ≤ 16) := by
  obtain ⟨rfl, hpayload, -⟩ := relay_of_message h
  refine ⟨rfl, hpayload, ?_, ?_⟩
  · simp only [ttlField, Json.get?, hpayload, Option.bind_some]
  · obtain ⟨e, _, -, hrelay⟩ := validateRelayV1_of_message h
    obtain ⟨-, rfl, -⟩ := validateRelayV1_ok hrelay
    unfold validateRelayV1 at hrelay
    obtain ⟨_, -, hrelay⟩ := bind_eq_ok.mp hrelay
    obtain ⟨_, httl, -⟩ := bind_eq_ok.mp hrelay
    unfold validateTtl Payload.get at httl
    cases hlookup : e.payload.lookup "ttl" with
    | none => exact .inl rfl
    | some ttl =>
        refine .inr ?_
        rw [hlookup, Option.getD_some] at httl
        cases ttl with
        | null => exact .inl rfl
        | int hops =>
            simp only at httl
            split at httl
            · next hbounds => exact .inr ⟨hops, rfl, hbounds⟩
            · cases httl
        | _ => cases httl

theorem ttlField_relayed {data payload : Payload} :
    ttlField (relayed c data payload) =
      some (match hopLimit c payload with
        | .int n => Json.int (n - 1)
        | ttl => ttl) := by
  have hput (name : String) (v : Json) (members : Payload) :
      (Json.obj (Dict.put name v members)).get? name = some v := by
    rw [Json.get?, Dict.lookup_put, if_pos rfl]
  unfold relayed ttlField
  rw [hput, Option.bind_some]
  exact hput "ttl" _ payload

/-- A relay puts one hop less into the copies than it had or, on an explicit
`null`, the `null`. -/
theorem ttlField_of_relays (h : Relays c message outgoing) :
    TakesHop c message outgoing ∨
      ttlField message = some .null ∧ ttlField outgoing = some .null := by
  obtain ⟨cr, now, sid, sess, type, data, payload, routeId, server, subscribers, hvalid, -, -,
    hnext⟩ := h
  obtain ⟨rfl, -, httl, hcases⟩ := relayable_cases hvalid
  obtain hsettled | hleft :=
    handleRouteMessage_cases c cr now sid sess type data payload routeId server
  · exact absurd hnext (hsettled.next _ _)
  rw [hleft.next] at hnext
  cases hnext
  have hhops := hleft.hops
  have hcopy : ttlField (relayed c data payload) = some (match hopLimit c payload with
      | .int n => Json.int (n - 1)
      | ttl => ttl) := ttlField_relayed
  unfold TakesHop
  rw [httl, hcopy]
  unfold hopLimit at hhops hcopy ⊢
  obtain hnone | hnull | ⟨hops, hint, -, -⟩ := hcases
  · rw [hnone] at hhops ⊢
    refine .inl ⟨c.maxHops, rfl, ?_, rfl⟩
    simp [Json.int?] at hhops
    omega
  · rw [hnull]
    exact .inr ⟨rfl, rfl⟩
  · rw [hint] at hhops ⊢
    refine .inl ⟨hops, rfl, ?_, rfl⟩
    simp [Json.int?] at hhops
    omega

/-! ## In a row -/

/-- A message with an integer limit is relayed at most that often. -/
theorem Travels.le_hops {hops : Nat} (h : Travels message hops) {limit : Int}
    (hlimit : ttlField message = some (.int limit)) : (hops : Int) ≤ max limit 0 := by
  induction h generalizing limit with
  | stays message => exact le_max_right _ _
  | relayed hrelays hresent _ ih =>
      obtain ⟨given, hgiven, hone, hout⟩ | ⟨hnull, -⟩ := ttlField_of_relays hrelays
      · rw [hlimit, Option.getD_some, Json.int.injEq] at hgiven
        have hrest := ih (hresent.trans hout)
        omega
      · rw [hlimit] at hnull
        cases hnull

theorem maxHops_le (c : Config) : c.maxHops ≤ 16 :=
  (c.bounded_le "max_hops" _ 1 16 (by simp [ConfigFields.bounded])).2

theorem Travels.le_sixteen {hops : Nat} (h : Travels message hops) (hrelayable : Relayable message)
    (hnull : ttlField message ≠ some .null) : hops ≤ 16 := by
  obtain ⟨type, data, payload, routeId, hvalid⟩ := hrelayable
  obtain ⟨-, -, httl, hcases⟩ := relayable_cases hvalid
  rw [← httl] at hcases
  obtain hnone | hnull' | ⟨limit, hlimit, hlow, hhigh⟩ := hcases
  · cases h with
    | stays => exact Nat.zero_le _
    | @relayed c _ outgoing resent rest hrelays hresent htravels =>
        obtain ⟨given, hgiven, hone, hout⟩ | ⟨hnull', -⟩ := ttlField_of_relays hrelays
        · rw [hnone, Option.getD_none, Json.int.injEq] at hgiven
          have hrest := htravels.le_hops (hresent.trans hout)
          have hmax := maxHops_le c
          omega
        · exact absurd hnull' hnull
  · exact absurd hnull' hnull
  · have hle := h.le_hops hlimit
    omega

/-! ## An explicit `null` -/

/-- One session sends, another is on the route. -/
def twoOnRoute (routeId : String) : Server where
  hub := { Hub.new .default 0 with
    sessions := Dict.set ∅ "a" { lastHeartbeat := 0, routes := {routeId} }
    routes := Dict.set ∅ routeId (Dict.set ∅ "b" 1) }
  mesh := .new .alone "i"
  signalGlobalLimiter := .new 1 1 0

theorem fresh_bucket_admits (op : Operation) :
    (RateLimiterRegistry.empty.check 0 "a" op).1 = true := by
  cases op <;> decide +kernel

theorem marks_unseen {hub : Hub} (hseen : hub.seen = ∅) (key : String) (ttl : Seconds) :
    hub.checkAndMarkSeen .default 0 key ttl =
      ({ hub with seen := hub.seen.set key (0 + ttl) }, true) := by
  have hget : hub.seen.get? key = none := by rw [hseen]; rfl
  have hroom : ¬ Config.default.maxDedupeEntries ≤ hub.seen.size := by rw [hseen]; decide
  unfold Hub.checkAndMarkSeen
  rw [hget]
  simp only
  rw [if_neg hroom, if_neg hroom]

/-- A message with an explicit `null` is relayed with it. -/
theorem relays_null (hrelayable : Relayable message) (hnull : ttlField message = some .null) :
    ∃ outgoing, Relays .default message outgoing ∧ ttlField outgoing = some .null := by
  obtain ⟨type, data, payload, routeId, hvalid⟩ := hrelayable
  obtain ⟨-, -, httl, -⟩ := relayable_cases hvalid
  have hlimit : hopLimit .default payload = .null := by
    rw [hopLimit, ← httl, hnull, Option.getD_some]
  refine ⟨relayed .default data payload, ⟨default, 0, "a",
    { lastHeartbeat := 0, routes := {routeId} }, type, data, payload, routeId, twoOnRoute routeId,
    ["b"], hvalid, rfl, by simp, ?_⟩, ?_⟩
  · have hallowed := fresh_bucket_admits (if type = .forward then .forward else .signal)
    have hsubscribers : (Hub.routeSubscribers (twoOnRoute routeId).hub 0 routeId (some "a")) =
        ["b"] := by
      simp [Hub.routeSubscribers, twoOnRoute, Dict.getD, Dict.get?_set_self]
      decide +kernel
    unfold handleRouteMessage Hub.checkRate
    generalize (if type = .forward then Operation.forward else Operation.signal) = op at *
    rw [show (twoOnRoute routeId).hub.rateLimiter = .empty from rfl]
    simp only [hallowed, Bool.not_true, Bool.false_eq_true, if_false, Finset.mem_singleton,
      not_true_eq_false]
    rw [marks_unseen rfl]
    simp only [hlimit, Json.int?, Option.any_none, Bool.not_true, Bool.false_eq_true, if_false]
    show Next.waiting (.relay (((twoOnRoute routeId).hub.routeSubscribers 0 routeId
      (some "a")).take 16) _) = _
    rw [hsubscribers]
    rfl
  · rw [ttlField_relayed, hlimit]

/-- A message the endpoint relays loses a hop with each relay, and travels at
most 16 of them, if and only if its hop limit is not an explicit `null`. -/
theorem hop_limited_iff {message : Json} (hrelayable : Relayable message) :
    HopLimited message ↔ ttlField message ≠ some .null := by
  constructor
  · rintro ⟨htakes, -⟩ hnull
    obtain ⟨outgoing, hrelays, -⟩ := relays_null hrelayable hnull
    obtain ⟨hops, hgiven, -⟩ := htakes _ outgoing hrelays
    rw [hnull] at hgiven
    cases hgiven
  · intro hnull
    constructor
    · intro c outgoing hrelays
      exact (ttlField_of_relays hrelays).resolve_right fun h => hnull h.1
    · intro hops htravels
      exact htravels.le_sixteen hrelayable hnull

/-- A SIGNAL with this hop limit. -/
def signalWith (ttl : Json) : Json :=
  .obj [("protocol", .str discovery), ("type", .str "SIGNAL"),
    ("payload", .obj [("routeId", .str "r"), ("ttl", ttl)])]

/-- Three hops are three hops. -/
theorem hop_limited_three : HopLimited (signalWith (.int 3)) := by
  have hrelayable : Relayable (signalWith (.int 3)) := ⟨.signal, _, _, "r", rfl⟩
  have httl : ttlField (signalWith (.int 3)) = some (.int 3) := rfl
  refine (hop_limited_iff hrelayable).mpr ?_
  rw [httl]
  simp

/-- A SIGNAL with an explicit `null` travels on and on. -/
theorem null_travels :
    Relayable (signalWith .null) ∧ (∀ hops, Travels (signalWith .null) hops) ∧
      ¬ HopLimited (signalWith .null) := by
  have hrelayable : Relayable (signalWith .null) := ⟨.signal, _, _, "r", rfl⟩
  have httl : ttlField (signalWith .null) = some .null := rfl
  have htravels : ∀ hops, Travels (signalWith .null) hops := by
    intro hops
    induction hops with
    | zero => exact .stays _
    | succ hops ih =>
        obtain ⟨outgoing, hrelays, hnull⟩ := relays_null hrelayable httl
        exact .relayed hrelays (httl.trans hnull.symm) ih
  refine ⟨hrelayable, htravels, ?_⟩
  intro hlimited
  exact absurd (hlimited.2 17 (htravels 17)) (by decide)

end V1

end Masterserver
