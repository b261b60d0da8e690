import Masterserver.Proofs.Relays
import Masterserver.Proofs.ProofSafety

/-!
# Who may use a route, and who is seen on it

Four requests are for sessions attached to the route they name. Whether one is
attached is read off the session's own record, while the subscribers of a
route are the sessions whose lease on it has not run out. A lease that ran out
stays in both tables until the cleanup loop comes round, so in between a
session may use a route it is not seen on.
-/

namespace Masterserver

open Lib Hub Protocol

/-- A request that is refused to sessions not attached to its route. -/
inductive RouteUse
  | discoverV1 (routeId : String)
  | relayV1 (type : RelayType) (data payload : Payload) (routeId : String)
  | discoverV2 (routeTag : String)
  | signalV2 (signal : Signal)

namespace RouteUse

def routeId : RouteUse → String
  | discoverV1 routeId | relayV1 _ _ _ routeId | discoverV2 routeId => routeId
  | signalV2 signal => signal.routeTag

/-- The handler's step on a request of a session with this record. -/
def step (m : MeshConfig) (cr : Crypto) (trust : NodeTrust) (now : Clocks) (sid : String)
    (id : Json) (draws : Draws) (sess : Session) (server : Server) : RouteUse → Step
  | discoverV1 routeId =>
      V1.handle m.toConfig cr now.monotonic sid draws sess (.discover routeId) server
  | relayV1 type data payload routeId =>
      V1.handle m.toConfig cr now.monotonic sid draws sess (.relay type data payload routeId)
        server
  | discoverV2 routeTag =>
      V2.handle m cr trust now sid id draws sess (.discover routeTag) server
  | signalV2 signal => V2.handle m cr trust now sid id draws sess (.signal signal) server

/-- The request gets as far as the check: three of the four are rated first. -/
def reached (hub : Hub) (now : Seconds) (sid : String) : RouteUse → Bool
  | discoverV1 _ | discoverV2 _ => (hub.checkRate now sid .discover).2
  | relayV1 type _ _ _ => (hub.checkRate now sid (if type = .forward then .forward else .signal)).2
  | signalV2 _ => true

end RouteUse

/-- The code of an error that is sent. -/
def Effect.errorCode? : Effect → Option String
  | .reply message => (message.get? "code").bind Json.str?
  | _ => none

theorem errorCode?_makeError (protocol code message : String) (id : Json) :
    (Effect.reply (makeError protocol code message id)).errorCode? = some code := rfl

/-- The request is refused because its session is not attached. -/
def Step.NotAttached (step : Step) : Prop :=
  ∃ e ∈ step.effects, e.errorCode? = some "not-attached"

theorem V1.notAttached_refuse {server : Server} {code message : String} :
    (V1.refuse server code message).NotAttached ↔ code = "not-attached" := by
  simp [Step.NotAttached, V1.refuse, Server.done, sendError, errorCode?_makeError]

theorem V2.notAttached_refuse {id : Json} {server : Server} {code message : String} :
    (V2.refuse id server code message).NotAttached ↔ code = "not-attached" := by
  simp [Step.NotAttached, V2.refuse, Server.done, v2Error, errorCode?_makeError]

theorem not_notAttached_nil {step : Step} (h : step.effects = []) : ¬step.NotAttached := by
  simp [Step.NotAttached, h]

section Handlers

variable {m : MeshConfig} {cr : Crypto} {trust : NodeTrust} {now : Clocks} {sid : String}
variable {id : Json} {server : Server}

theorem V1.notAttached_handleDiscover {now : Seconds} {sess : Session} {routeId : String}
    (h : (server.hub.checkRate now sid .discover).2 = true) :
    (handleDiscover now sid sess routeId server).NotAttached ↔ routeId ∉ sess.routes := by
  unfold handleDiscover
  simp only [h, Bool.not_true, Bool.false_eq_true, if_false]
  split
  · next hroute => simp [V1.notAttached_refuse, hroute]
  · next hroute =>
      refine ⟨fun hno => ?_, fun hno => absurd hno hroute⟩
      obtain ⟨e, he, hcode⟩ := hno
      rcases List.mem_singleton.mp he with rfl
      cases hcode

theorem V1.notAttached_handleRouteMessage {c : Config} {now : Seconds} {sess : Session}
    {type : RelayType} {data payload : Payload} {routeId : String}
    (h : (server.hub.checkRate now sid (if type = .forward then .forward else .signal)).2 = true) :
    (handleRouteMessage c cr now sid sess type data payload routeId server).NotAttached ↔
      routeId ∉ sess.routes := by
  unfold handleRouteMessage
  revert h
  generalize (if type = .forward then Operation.forward else Operation.signal) = op
  intro h
  simp only [h, Bool.not_true, Bool.false_eq_true, if_false]
  split
  · next hroute => simp [V1.notAttached_refuse, hroute]
  · next hroute =>
      refine ⟨fun hno => absurd hno ?_, fun hno => absurd hno hroute⟩
      split
      · exact not_notAttached_nil rfl
      split
      · exact not_notAttached_nil rfl
      · exact not_notAttached_nil rfl

theorem V2.notAttached_handleDiscover {sess : Session} {routeTag : String}
    (h : (server.hub.checkRate now.monotonic sid .discover).2 = true) :
    (handleDiscover m cr now sid id sess routeTag server).NotAttached ↔
      routeTag ∉ sess.routes := by
  unfold handleDiscover
  simp only [h, Bool.not_true, Bool.false_eq_true, if_false]
  split
  · next hroute => simp [V2.notAttached_refuse, hroute]
  · next hroute =>
      refine ⟨fun hno => absurd hno ?_, fun hno => absurd hno hroute⟩
      split
      · rintro ⟨e, he, hcode⟩
        rcases List.mem_singleton.mp he with rfl
        cases hcode
      · exact not_notAttached_nil rfl

theorem errorCode?_answer (protocol type : String) (payload : List (String × Json)) :
    (V2.answer id protocol type payload).errorCode? = none := rfl

theorem V2.not_notAttached_relaySignal (draws : Draws) (signal : Signal) (server : Server) :
    ¬(relaySignal m now sid id draws signal server).NotAttached := by
  have herror : ∀ message, (Effect.reply (v2Error "unknown-recipient" message id)).errorCode? ≠
      some "not-attached" := by
    intro message
    rw [v2Error, errorCode?_makeError]
    decide
  unfold relaySignal Step.NotAttached
  simp only
  split
  · simp [Server.done, herror, Effect.errorCode?.eq_2]
  split
  · simp [Server.done, signalAck, errorCode?_answer, Effect.errorCode?.eq_2]
  split
  · simp [Server.done, signalAck, errorCode?_answer, Effect.errorCode?.eq_2]
  · simp [Effect.errorCode?.eq_2]

theorem V2.notAttached_handleSignal {draws : Draws} {sess : Session} {signal : Signal} :
    (handleSignal m cr now sid id draws sess signal server).NotAttached ↔
      signal.routeTag ∉ sess.routes := by
  have hother : ∀ (server : Server) code message, code ≠ "not-attached" →
      ¬(refuse id server code message).NotAttached := by
    intro server code message hcode
    rw [V2.notAttached_refuse]
    exact hcode
  unfold handleSignal
  simp only
  split
  · next hroute => simp [V2.notAttached_refuse, hroute]
  next hroute =>
  refine ⟨fun hno => absurd hno ?_, fun hno => absurd hno hroute⟩
  split
  · exact hother _ _ _ (by decide)
  split
  · exact hother _ _ _ (by decide)
  split
  · exact hother _ _ _ (by decide)
  split
  · exact hother _ _ _ (by decide)
  split
  · exact not_notAttached_nil rfl
  split
  · exact hother _ _ _ (by decide)
  split
  · exact hother _ _ _ (by decide)
  split
  · exact hother _ _ _ (by decide)
  · exact not_notAttached_relaySignal draws signal _

/-- What a proven session's request is refused for is its own record. -/
theorem RouteUse.notAttached_iff {use : RouteUse} {draws : Draws} {sess : Session}
    (hproven : sess.proven = true) (h : use.reached server.hub now.monotonic sid = true) :
    (use.step m cr trust now sid id draws sess server).NotAttached ↔
      use.routeId ∉ sess.routes := by
  cases use with
  | discoverV1 routeId =>
      simp only [RouteUse.step, V1.handle, hproven]
      exact V1.notAttached_handleDiscover h
  | relayV1 type data payload routeId =>
      simp only [RouteUse.step, V1.handle, hproven]
      exact V1.notAttached_handleRouteMessage h
  | discoverV2 routeTag =>
      simp only [RouteUse.step, V2.handle, hproven]
      exact V2.notAttached_handleDiscover h
  | signalV2 signal =>
      simp only [RouteUse.step, V2.handle, hproven]
      exact V2.notAttached_handleSignal

end Handlers

/-! ## Reachable states -/

namespace ServerRun

variable {m : MeshConfig} {cr : Crypto} {trust : NodeTrust} {s : ServerRun} {sid : String}

/-- The lease the hub has of a session on a route, run out or not. -/
def leaseOf (s : ServerRun) (routeId sid : String) : Option Seconds :=
  (s.server.hub.routes.get? routeId).bind fun route => route.get? sid

theorem leased_iff {now : Seconds} {routeId : String} :
    s.server.hub.Leased now routeId sid ↔
      ∃ expiresAt, s.leaseOf routeId sid = some expiresAt ∧ now < expiresAt := by
  unfold Leased leaseOf
  simp only [Option.bind_eq_some_iff]
  constructor
  · rintro ⟨route, expiresAt, hroute, hlease, hlive⟩
    exact ⟨expiresAt, ⟨route, hroute, hlease⟩, hlive⟩
  · rintro ⟨expiresAt, ⟨route, hroute, hlease⟩, hlive⟩
    exact ⟨route, expiresAt, hroute, hlease, hlive⟩

/-- A session has a lease on the routes of its record and on no others. -/
theorem Sound.leaseOf (h : Sound m cr trust s) {sess : Session} {routeId : String}
    (hs : s.server.hub.sessions.get? sid = some sess) :
    (∃ expiresAt, s.leaseOf routeId sid = some expiresAt) ↔ routeId ∈ sess.routes := by
  have hsubscribed := h.consistent.subscribed_iff_attached routeId sid
  rw [subscribed_iff] at hsubscribed
  simp only [ServerRun.leaseOf, Option.bind_eq_some_iff]
  constructor
  · rintro ⟨expiresAt, route, hroute, hlease⟩
    obtain ⟨sess', hs', hmem⟩ := hsubscribed.mp ⟨route, expiresAt, hroute, hlease⟩
    rw [hs] at hs'
    cases hs'
    exact hmem
  · intro hmem
    obtain ⟨route, expiresAt, hroute, hlease⟩ := hsubscribed.mpr ⟨sess, hs, hmem⟩
    exact ⟨expiresAt, route, hroute, hlease⟩

/-- A request that gets through the check is one of a current subscriber,
exactly if the lease its session has on the route has not run out. -/
theorem Sound.authority_iff (h : Sound m cr trust s) (now : Clocks) (id : Json) (draws : Draws)
    {sess : Session} {use : RouteUse}
    (hs : s.server.hub.sessions.get? sid = some sess) (hproven : sess.proven = true)
    (hreached : use.reached s.server.hub now.monotonic sid = true) :
    (¬(use.step m cr trust now sid id draws sess s.server).NotAttached →
        sid ∈ s.server.hub.routeSubscribers now.monotonic use.routeId none) ↔
      ∀ expiresAt, s.leaseOf use.routeId sid = some expiresAt → now.monotonic < expiresAt := by
  rw [RouteUse.notAttached_iff hproven hreached, not_not, mem_routeSubscribers, leased_iff,
    ← h.leaseOf hs]
  constructor
  · intro himp expiresAt hlease
    obtain ⟨⟨expiresAt', hlease', hlive⟩, -⟩ := himp ⟨expiresAt, hlease⟩
    rw [hlease] at hlease'
    cases hlease'
    exact hlive
  · rintro hlive ⟨expiresAt, hlease⟩
    exact ⟨⟨expiresAt, hlease, hlive expiresAt hlease⟩, nofun⟩

/-- In every reachable state and at every reading of the clocks. -/
theorem route_authority_iff (h : (serverSystem m cr trust).Reachable s) (now : Clocks)
    (id : Json) (draws : Draws) {sess : Session} {use : RouteUse}
    (hs : s.server.hub.sessions.get? sid = some sess) (hproven : sess.proven = true)
    (hreached : use.reached s.server.hub now.monotonic sid = true) :
    (¬(use.step m cr trust now sid id draws sess s.server).NotAttached →
        sid ∈ s.server.hub.routeSubscribers now.monotonic use.routeId none) ↔
      ∀ expiresAt, s.leaseOf use.routeId sid = some expiresAt → now.monotonic < expiresAt :=
  (sound_of_reachable h).authority_iff now id draws hs hproven hreached

end ServerRun

/-! ## Before and after a lease runs out -/

namespace Sample

open ServerRun

/-- The route of zeros. -/
def zeroRoute : String := String.ofList (List.replicate 64 '0')

/-- A client that attached at zero, under a lease of 90 seconds. -/
theorem attached_until :
    ∃ s sess, (serverSystem .alone crypto trust).Reachable s ∧
      s.server.hub.sessions.get? "s" = some sess ∧ sess.proven = true ∧
      s.leaseOf zeroRoute "s" = some 90 ∧
      (RouteUse.discoverV2 zeroRoute).reached s.server.hub 0 "s" = true ∧
      (RouteUse.discoverV2 zeroRoute).reached s.server.hub 90 "s" = true := by
  have hrun : System.Meets (fun s e => s.clocks.before e.now ∧ s.allowed .alone e.op)
        (ServerRun.after .alone crypto trust) (start .alone) (attachedClient .alone "s") ∧
      ((run .alone (attachedClient .alone "s")).server.hub.sessions.get? "s").any
        (fun sess => sess.proven) = true ∧
      (run .alone (attachedClient .alone "s")).leaseOf zeroRoute "s" = some 90 ∧
      (RouteUse.discoverV2 zeroRoute).reached
        (run .alone (attachedClient .alone "s")).server.hub 0 "s" = true ∧
      (RouteUse.discoverV2 zeroRoute).reached
        (run .alone (attachedClient .alone "s")).server.hub 90 "s" = true := by
    decide +kernel
  obtain ⟨hmeets, hproven, hrest⟩ := hrun
  obtain ⟨sess, hs, hp⟩ := (Option.any_eq_true _ _).mp hproven
  exact ⟨_, sess, reachable_run .alone _ hmeets, hs, hp, hrest⟩

/-- At zero its DISCOVER is one of a subscriber. -/
theorem route_authority_attached :
    ∃ (s : ServerRun) (sess : Session), s.server.hub.sessions.get? "s" = some sess ∧
      (¬((RouteUse.discoverV2 zeroRoute).step .alone crypto trust ⟨0, 0⟩ "s" .null draws sess
          s.server).NotAttached →
        "s" ∈ s.server.hub.routeSubscribers 0 zeroRoute none) := by
  obtain ⟨s, sess, hreach, hs, hproven, hlease, hreached, -⟩ := attached_until
  refine ⟨s, sess, hs, ?_⟩
  refine (route_authority_iff hreach ⟨0, 0⟩ .null draws hs hproven hreached).mpr ?_
  intro expiresAt hexpires
  have heq : some expiresAt = some (90 : Seconds) := hexpires.symm.trans hlease
  rw [Option.some.inj heq]
  norm_num

/-- At 90 seconds it is served though it is no subscriber any more. -/
theorem expired_lease_still_authorizes :
    ∃ s sess, (serverSystem .alone crypto trust).Reachable s ∧
      s.server.hub.sessions.get? "s" = some sess ∧ sess.proven = true ∧
      ¬(¬((RouteUse.discoverV2 zeroRoute).step .alone crypto trust ⟨90, 90⟩ "s" .null draws sess
          s.server).NotAttached →
        "s" ∈ s.server.hub.routeSubscribers 90 zeroRoute none) := by
  obtain ⟨s, sess, hreach, hs, hproven, hlease, -, hreached⟩ := attached_until
  refine ⟨s, sess, hreach, hs, hproven, ?_⟩
  intro himp
  have hsound := sound_of_reachable hreach
  have hlive := (hsound.authority_iff ⟨90, 90⟩ .null draws hs hproven hreached).mp himp 90 hlease
  exact absurd hlive (lt_irrefl _)

end Sample

end Masterserver
