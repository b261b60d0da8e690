import Masterserver.Proofs.Endpoints

/-!
# The handlers of the legacy endpoint

Each handler follows the session machine; the frame it starts with is quiet.
-/

namespace Masterserver.V1

open Lib Hub Protocol

variable {c : Config} {cr : Crypto} {trust : NodeTrust} {sid : String}

theorem keeps_refuse (server : Server) (code message : String) :
    Keeps c cr trust .v1 sid server.hub (refuse server code message).server.hub
      (refuse server code message).effects :=
  .of_quiet (.refl _) (by simp [refuse, Server.done, Effect.quiet])

theorem keeps_handleHello (draws : Draws) (publicKeyHex : String) {server : Server} {sess : Session}
    (hs : server.hub.sessions.get? sid = some sess) (hc : sess.challenge = none)
    (hp : sess.proven = false) :
    Keeps c cr trust .v1 sid server.hub (handleHello sid draws publicKeyHex server).server.hub
      (handleHello sid draws publicKeyHex server).effects := by
  unfold handleHello
  set publicKeyRaw := if publicKeyHex = "" then none else fromHex publicKeyHex
  refine Keeps.andThen [.hello ⟨publicKeyRaw, none, none, draws.challenge, none⟩]
    ⟨?_, ?_, ?_⟩ (.refl _) (by simp [Effect.quiet])
  · intro es hr
    have hs' : (server.hub.updateSession sid fun sess =>
        { sess with
          challenge := some draws.challenge
          proven := false
          publicKeyRaw := publicKeyRaw }).sessions.get? sid =
        some { sess with
          challenge := some draws.challenge
          proven := false
          publicKeyRaw := publicKeyRaw } := by
      rw [get?_updateSession, if_pos rfl, hs]
      rfl
    refine hr.hello hs hs' hc hp ⟨rfl, rfl⟩ ?_ rfl rfl (rateLimiter_updateSession _ _)
    intro hconnected
    simp only [Session.credentials, ProofPhase.credentials, Credentials.mk.injEq] at hconnected
    simp [Session.credentials, Hello.credentials, hconnected]
  · intro other hne
    exact quietAt_updateSession_of_ne hne _
  · intro hcons
    exact consistent_updateSession hcons sid fun _ => rfl

theorem keeps_handleProve (now : Seconds) (signatureHex : String) {server : Server} {sess : Session}
    (hs : server.hub.sessions.get? sid = some sess) (hc : sess.challenge.isSome = true) :
    Keeps c cr trust .v1 sid server.hub (handleProve cr now sid sess signatureHex server).server.hub
      (handleProve cr now sid sess signatureHex server).effects := by
  obtain ⟨challenge, hchallenge⟩ := Option.isSome_iff_exists.mp hc
  unfold handleProve
  simp only
  split
  · exact keeps_proofToken now (by simp [Server.done, Effect.quiet])
  · next hallowed =>
      rw [Bool.not_eq_true, Bool.not_eq_false'] at hallowed
      split
      · exact keeps_proofToken now (by simp [refuse, Server.done, Effect.quiet])
      · split
        · exact keeps_proofToken now (by simp [refuse, Server.done, Effect.quiet])
        · next signature _ =>
            rw [hchallenge, Option.getD_some]
            split
            · next hv =>
                rw [Bool.not_eq_true'] at hv
                rw [hv]
                exact (keeps_proofFailed now hs hchallenge hallowed hv).andThen _ (.refl _)
                  (by simp [Effect.quiet])
            · next hv =>
                rw [Bool.not_eq_true, Bool.not_eq_false'] at hv
                rw [hv]
                exact (keeps_proved now hs hchallenge hallowed hv).andThen _ (.refl _)
                  (by simp [Effect.quiet])

theorem keeps_handlePing (now : Seconds) (server : Server) :
    Keeps c cr trust .v1 sid server.hub (handlePing now sid server).server.hub
      (handlePing now sid server).effects := by
  have hrate : server.hub.Quiet (server.hub.checkRate now sid .heartbeat).1 :=
    quiet_checkRate now sid (by decide)
  unfold handlePing
  simp only
  split
  · exact .of_quiet hrate (by simp [refuse, Server.done, Effect.quiet])
  · exact .of_quiet (hrate.trans (quiet_touchHeartbeat now sid))
      (by simp [Server.done, Effect.quiet])

theorem keeps_handleAttachRoute (now : Seconds) (rid : String) {server : Server} {sess : Session}
    (hs : server.hub.sessions.get? sid = some sess) (hp : sess.proven = true) :
    Keeps c cr trust .v1 sid server.hub (handleAttachRoute c now sid rid server).server.hub
      (handleAttachRoute c now sid rid server).effects := by
  have hrate : server.hub.Quiet (server.hub.checkRate now sid .attachRoute).1 :=
    quiet_checkRate now sid (by decide)
  have hattach : Keeps c cr trust .v1 sid server.hub
      ((server.hub.checkRate now sid .attachRoute).1.attachRoute c now sid rid none
        (some c.maxV1RoutesPerSession)).1 [] :=
    .after hrate (keeps_attachRoute now rid _ hs hp)
  unfold handleAttachRoute
  simp only
  split
  · exact .of_quiet hrate (by simp [refuse, Server.done, Effect.quiet])
  · split
    · exact hattach.andThen _ (.refl _) (List.forall_mem_nil _)
    · exact hattach.andThen _ (.refl _) (by simp [Effect.quiet])
    · exact hattach.andThen _ (.refl _) (by simp [Effect.quiet])

theorem keeps_handleDetachRoute (rid : String) (server : Server) :
    Keeps c cr trust .v1 sid server.hub (handleDetachRoute sid rid server).server.hub
      (handleDetachRoute sid rid server).effects := by
  refine .of_quiet ?_ (by simp [handleDetachRoute, Server.done, Effect.quiet])
  unfold handleDetachRoute
  simp only [Server.done]
  split
  · exact .refl _
  · exact quiet_detachRoute sid rid

theorem keeps_handleDiscover (now : Seconds) (sess : Session) (rid : String) (server : Server) :
    Keeps c cr trust .v1 sid server.hub (handleDiscover now sid sess rid server).server.hub
      (handleDiscover now sid sess rid server).effects := by
  have hrate : server.hub.Quiet (server.hub.checkRate now sid .discover).1 :=
    quiet_checkRate now sid (by decide)
  unfold handleDiscover
  simp only
  split
  · exact .of_quiet hrate (by simp [refuse, Server.done, Effect.quiet])
  · split
    · exact .of_quiet hrate (by simp [refuse, Server.done, Effect.quiet])
    · exact .of_quiet hrate (by simp [Server.done, Effect.quiet])

theorem keeps_handleRouteMessage (now : Seconds) (sess : Session) (type : RelayType)
    (data payload : Payload) (rid : String) (server : Server) :
    Keeps c cr trust .v1 sid server.hub
      (handleRouteMessage c cr now sid sess type data payload rid server).server.hub
      (handleRouteMessage c cr now sid sess type data payload rid server).effects := by
  unfold handleRouteMessage
  generalize hop : (if type = .forward then Operation.forward else Operation.signal) = op
  have hne : op ≠ .prove := by
    rw [← hop]
    split <;> decide
  have hrate : server.hub.Quiet (server.hub.checkRate now sid op).1 := quiet_checkRate now sid hne
  simp only
  split
  · exact .of_quiet hrate (by simp [refuse, Server.done, Effect.quiet])
  · split
    · exact .of_quiet hrate (by simp [refuse, Server.done, Effect.quiet])
    · have hseen := hrate.trans (quiet_checkAndMarkSeen c now (relayKey cr type payload rid)
        c.dedupeWindowSeconds)
      split
      · exact .of_quiet hseen (List.forall_mem_nil _)
      · split
        · exact .of_quiet hseen (List.forall_mem_nil _)
        · exact .of_quiet hseen (List.forall_mem_nil _)

theorem keeps_handle (now : Seconds) (draws : Draws) (message : V1Message) {server : Server}
    {sess : Session} (hs : server.hub.sessions.get? sid = some sess) :
    Keeps c cr trust .v1 sid server.hub (handle c cr now sid draws sess message server).server.hub
      (handle c cr now sid draws sess message server).effects := by
  unfold handle
  split
  · exact keeps_refuse server _ _
  · next hproven =>
      cases message with
      | hello publicKeyHex =>
          simp only
          split
          · exact keeps_refuse server _ _
          · next hstate =>
              rw [Bool.or_eq_true, not_or, Bool.not_eq_true, Bool.not_eq_true] at hstate
              exact keeps_handleHello draws publicKeyHex hs
                (Option.not_isSome_iff_eq_none.mp (by simp [hstate.1])) hstate.2
      | prove signatureHex =>
          simp only
          split
          · exact keeps_refuse server _ _
          · next hstate =>
              rw [Bool.or_eq_true, not_or] at hstate
              exact keeps_handleProve now signatureHex hs
                (Option.isSome_iff_ne_none.mpr (by simpa using hstate.2))
      | ping => exact keeps_handlePing now server
      | attachRoute rid =>
          exact keeps_handleAttachRoute now rid hs (by simpa [beforeProof] using hproven)
      | detachRoute rid => exact keeps_handleDetachRoute rid server
      | discover rid => exact keeps_handleDiscover now sess rid server
      | relay type data payload rid =>
          exact keeps_handleRouteMessage now sess type data payload rid server

theorem keeps_receiveFrame (now : Seconds) (draws : Draws) (raw : List Char) (server : Server) :
    Keeps c cr trust .v1 sid server.hub (receiveFrame c cr now sid draws raw server).server.hub
      (receiveFrame c cr now sid draws raw server).effects := by
  have hadmitted := admitFrame_quiet c sendError now sid raw server
  unfold receiveFrame
  split
  · next step heq =>
      rw [heq] at hadmitted
      exact .of_quiet hadmitted.1 fun e he => (hadmitted.2.1 e he).1
  · next server' data heq =>
      rw [heq] at hadmitted
      split
      · exact .after hadmitted.1 (keeps_refuse server' _ _)
      · exact .of_quiet hadmitted.1 nofun
      · split
        · exact .of_quiet hadmitted.1 nofun
        · next sess hs => exact .after hadmitted.1 (keeps_handle now draws _ hs)

/-- The tasks of a relay only fill queues. -/
theorem quiet_relayTo (outgoing : Json) (subscribers : List String) (server : Server) :
    server.hub.Quiet (relayTo c outgoing subscribers server).server.hub ∧
      ∀ e ∈ (relayTo c outgoing subscribers server).effects, e.quiet = true := by
  unfold relayTo
  simp only [Server.done]
  refine foldl_invariant (P := fun acc : Server × List Effect =>
    server.hub.Quiet acc.1.hub ∧ ∀ e ∈ acc.2, e.quiet = true) subscribers ⟨.refl _, List.forall_mem_nil _⟩ ?_
  intro acc target _ h
  refine ⟨h.1.trans (quiet_sendSession c target outgoing), ?_⟩
  intro e he
  rcases List.mem_append.mp he with he | he
  · exact h.2 e he
  · rcases List.mem_singleton.mp he with rfl
    rfl

end Masterserver.V1
