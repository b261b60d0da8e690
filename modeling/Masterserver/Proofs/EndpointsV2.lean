import Masterserver.Proofs.SignalChecks

/-!
# The handlers of the second endpoint

As for the legacy endpoint: each handler follows the session machine. The
mesh state a handler also works on is no part of this.
-/

namespace Masterserver.V2

open Lib Hub Protocol

variable {m : MeshConfig} {cr : Crypto} {trust : NodeTrust} {sid : String} {id : Json}

theorem keeps_refuse (server : Server) (code message : String) :
    Keeps m.toConfig cr trust .v2 sid server.hub (refuse id server code message).server.hub
      (refuse id server code message).effects :=
  .of_quiet (.refl _) (by simp [refuse, Server.done, Effect.quiet])

/-- A point is written in hexadecimal. -/
theorem exists_fromHex_of_isP256Point {value : String} (h : isP256Point cr value = true) :
    ∃ key, fromHex value = some key := by
  unfold isP256Point isHexBytes at h
  rw [Bool.and_eq_true] at h
  cases hkey : fromHex value with
  | none =>
      rw [hkey] at h
      simp at h
  | some key => exact ⟨key, rfl⟩

theorem setV2Identity_eq {hub : Hub} {sess : Session} {identityKeyHex encryptionKeyHex : String}
    {key encryptionKey : Bytes} (hs : hub.sessions.get? sid = some sess)
    (hkey : fromHex identityKeyHex = some key)
    (henc : fromHex encryptionKeyHex = some encryptionKey) :
    hub.setV2Identity cr sid identityKeyHex encryptionKeyHex =
      some { hub with
        sessions := hub.sessions.set sid
          { sess with
            protocolVersion := 2
            identityKeyHex := some identityKeyHex
            identityKeyId := keyIdOf cr identityKeyHex
            encryptionKeyHex := some encryptionKeyHex
            encryptionKeyId := keyIdOf cr encryptionKeyHex } } := by
  unfold setV2Identity keyIdOf
  rw [hs, hkey, henc]
  rfl

/-- The hub after an accepted HELLO: the record with its challenge and keys. -/
theorem hello_hub (cr : Crypto) {hub : Hub} {sess : Session} (challenge : Bytes)
    {identityKeyHex encryptionKeyHex : String} {key encryptionKey : Bytes}
    (hs : hub.sessions.get? sid = some sess) (hkey : fromHex identityKeyHex = some key)
    (henc : fromHex encryptionKeyHex = some encryptionKey) :
    ∃ hub', (hub.updateSession sid fun sess =>
        { sess with challenge := some challenge, publicKeyRaw := some key, proven := false
          : Session }).setV2Identity cr sid identityKeyHex encryptionKeyHex = some hub' ∧
      hub'.sessions = hub.sessions.set sid
        { sess with
          challenge := some challenge
          publicKeyRaw := some key
          proven := false
          protocolVersion := 2
          identityKeyHex := some identityKeyHex
          identityKeyId := keyIdOf cr identityKeyHex
          encryptionKeyHex := some encryptionKeyHex
          encryptionKeyId := keyIdOf cr encryptionKeyHex } ∧
      hub'.routes = hub.routes ∧ hub'.rateLimiter = hub.rateLimiter := by
  have hs' : (hub.updateSession sid fun sess =>
      { sess with challenge := some challenge, publicKeyRaw := some key, proven := false
        : Session }).sessions.get? sid =
      some { sess with challenge := some challenge, publicKeyRaw := some key, proven := false } := by
    rw [get?_updateSession, if_pos rfl, hs]
    rfl
  refine ⟨_, setV2Identity_eq hs' hkey henc, ?_, routes_updateSession _ _,
    rateLimiter_updateSession _ _⟩
  unfold updateSession
  rw [hs]
  exact Dict.set_set _ _ _ _

theorem keeps_handleHello (now : Clocks) (draws : Draws) (grant : Payload)
    (identityKeyHex encryptionKeyHex : String) {server : Server} {sess : Session}
    (hs : server.hub.sessions.get? sid = some sess) :
    Keeps m.toConfig cr trust .v2 sid server.hub
      (handleHello m cr trust now sid id draws sess grant identityKeyHex encryptionKeyHex
        server).server.hub
      (handleHello m cr trust now sid id draws sess grant identityKeyHex encryptionKeyHex
        server).effects := by
  unfold handleHello
  split
  · exact keeps_refuse server _ _
  · next hstate =>
      rw [Bool.or_eq_true, not_or, Bool.not_eq_true, Bool.not_eq_true] at hstate
      split
      · exact keeps_refuse server _ _
      · next hpoints =>
          rw [Bool.or_eq_true, not_or, Bool.not_eq_true', Bool.not_eq_false, Bool.not_eq_true',
            Bool.not_eq_false] at hpoints
          obtain ⟨key, hkey⟩ := exists_fromHex_of_isP256Point hpoints.1
          obtain ⟨encryptionKey, henc⟩ := exists_fromHex_of_isP256Point hpoints.2
          split
          · exact .of_quiet (.refl _) nofun
          · exact keeps_refuse server _ _
          · next hverified =>
              obtain ⟨hub', hset, hsessions, hroutes, hlimiter⟩ :=
                hello_hub cr draws.challenge hs hkey henc
              simp only [hkey, hset]
              set hello : Hello := ⟨some key, some identityKeyHex, some encryptionKeyHex,
                draws.challenge, some (grant, now.wall)⟩
              refine Keeps.andThen [.hello hello] ⟨?_, ?_, ?_⟩ (.refl _)
                (by simp [answer, Effect.quiet])
              · intro es hr
                have hadm : hello.Admitted m.toConfig cr trust .v2 :=
                  ⟨grant, now.wall, identityKeyHex, encryptionKeyHex, rfl, rfl, rfl, hkey.symm,
                    hverified⟩
                have hs' := congrArg (Dict.get? · sid) hsessions
                simp only [Dict.get?_set_self] at hs'
                refine hr.hello hs hs' (by simpa using hstate.1) hstate.2 hadm ?_ rfl rfl hlimiter
                intro hconnected
                simp [Session.credentials, Hello.credentials, hello, keyIdOf]
              · intro other hne
                refine ⟨fun t ht => ⟨t, ?_, rfl, rfl, Finset.Subset.refl _⟩, .inl ?_⟩
                · simp only [Server.done, hsessions, Dict.get?_set_of_ne _ _ hne] at ht
                  exact ht
                · simp only [Server.done, hlimiter]
              · intro hcons
                exact hcons.of_set hroutes hsessions hs rfl

theorem keeps_handleProve (now : Clocks) (signatureHex : String) {server : Server}
    {sess : Session} (hs : server.hub.sessions.get? sid = some sess) :
    Keeps m.toConfig cr trust .v2 sid server.hub
      (handleProve m cr now sid id sess signatureHex server).server.hub
      (handleProve m cr now sid id sess signatureHex server).effects := by
  unfold handleProve
  split
  · exact keeps_refuse server _ _
  · next hstate =>
      rw [Bool.or_eq_true, not_or] at hstate
      obtain ⟨challenge, hchallenge⟩ :=
        Option.ne_none_iff_exists'.mp (by simpa using hstate.2 : sess.challenge ≠ none)
      simp only
      split
      · exact keeps_proofToken now.monotonic (by simp [Server.done, Effect.quiet])
      · next hallowed =>
          rw [Bool.not_eq_true, Bool.not_eq_false'] at hallowed
          split
          · exact keeps_proofToken now.monotonic (List.forall_mem_nil _)
          · next signature _ =>
              rw [hchallenge, Option.getD_some]
              split
              · exact keeps_proofToken now.monotonic (by simp [refuse, Server.done, Effect.quiet])
              · split
                · next hv =>
                    rw [Bool.not_eq_true'] at hv
                    rw [hv]
                    exact (keeps_proofFailed now.monotonic hs hchallenge hallowed hv).andThen _
                      (.refl _) (by simp [Effect.quiet])
                · next hv =>
                    rw [Bool.not_eq_true, Bool.not_eq_false'] at hv
                    rw [hv]
                    exact (keeps_proved now.monotonic hs hchallenge hallowed hv).andThen _ (.refl _)
                      (by simp [answer, Effect.quiet])

theorem keeps_handlePing (now : Clocks) (server : Server) :
    Keeps m.toConfig cr trust .v2 sid server.hub (handlePing now sid id server).server.hub
      (handlePing now sid id server).effects := by
  have hrate : server.hub.Quiet (server.hub.checkRate now.monotonic sid .heartbeat).1 :=
    quiet_checkRate now.monotonic sid (by decide)
  unfold handlePing
  simp only
  split
  · exact .of_quiet hrate (by simp [refuse, Server.done, Effect.quiet])
  · exact .of_quiet (hrate.trans (quiet_touchHeartbeat now.monotonic sid))
      (by simp [Server.done, Effect.quiet])

/-- What goes to other nodes is quiet. -/
theorem quiet_toNode {sends : List Send} {effects : List Effect}
    (h : ∀ e ∈ effects, e.quiet = true) :
    ∀ e ∈ sends.map Effect.toNode ++ effects, e.quiet = true := by
  intro e he
  rcases List.mem_append.mp he with he | he
  · obtain ⟨send, -, rfl⟩ := List.mem_map.mp he
    rfl
  · exact h e he

theorem keeps_handleAttachRoute (now : Clocks) (routeTag : String) {server : Server}
    {sess : Session} (hs : server.hub.sessions.get? sid = some sess) (hp : sess.proven = true) :
    Keeps m.toConfig cr trust .v2 sid server.hub
      (handleAttachRoute m cr now sid id routeTag server).server.hub
      (handleAttachRoute m cr now sid id routeTag server).effects := by
  have hrate : server.hub.Quiet (server.hub.checkRate now.monotonic sid .attachRoute).1 :=
    quiet_checkRate now.monotonic sid (by decide)
  have hattach : Keeps m.toConfig cr trust .v2 sid server.hub
      ((server.hub.checkRate now.monotonic sid .attachRoute).1.attachRoute m.toConfig
        now.monotonic sid routeTag none none).1 [] :=
    .after hrate (keeps_attachRoute now.monotonic routeTag none hs hp)
  unfold handleAttachRoute
  simp only
  split
  · exact .of_quiet hrate (by simp [refuse, Server.done, Effect.quiet])
  · split
    · exact hattach.andThen _ (.refl _) (List.forall_mem_nil _)
    · exact hattach.andThen _ (.refl _) (by simp [Effect.quiet])
    · exact hattach.andThen _ (.refl _) (quiet_toNode (by simp [answer, Effect.quiet]))

theorem keeps_handleDetachRoute (now : Clocks) (routeTag : String) (server : Server) :
    Keeps m.toConfig cr trust .v2 sid server.hub
      (handleDetachRoute m cr now sid id routeTag server).server.hub
      (handleDetachRoute m cr now sid id routeTag server).effects :=
  .of_quiet (quiet_detachRoute sid routeTag) (quiet_toNode (by simp [answer, Effect.quiet]))

theorem keeps_handleDiscover (now : Clocks) (sess : Session) (routeTag : String)
    (server : Server) :
    Keeps m.toConfig cr trust .v2 sid server.hub
      (handleDiscover m cr now sid id sess routeTag server).server.hub
      (handleDiscover m cr now sid id sess routeTag server).effects := by
  have hrate : server.hub.Quiet (server.hub.checkRate now.monotonic sid .discover).1 :=
    quiet_checkRate now.monotonic sid (by decide)
  unfold handleDiscover
  simp only
  split
  · exact .of_quiet hrate (by simp [refuse, Server.done, Effect.quiet])
  · split
    · exact .of_quiet hrate (by simp [refuse, Server.done, Effect.quiet])
    · split
      · exact .of_quiet hrate (by simp [Server.done, peersReply, answer, Effect.quiet])
      · exact .of_quiet hrate (List.forall_mem_nil _)

theorem keeps_handleSignal (now : Clocks) (draws : Draws) (signal : Signal) {server : Server}
    {sess : Session} (hs : server.hub.sessions.get? sid = some sess) (hp : sess.proven = true)
    (hvalid : validateSignalV2 signal.payload = .ok signal) :
    Keeps m.toConfig cr trust .v2 sid server.hub
      (handleSignal m cr now sid id draws sess signal server).server.hub
      (handleSignal m cr now sid id draws sess signal server).effects := by
  obtain ⟨hplain, hquiet⟩ | ⟨hchecked, server', htables, hquiet, -, heq⟩ :=
    handleSignal_cases m cr now sid id draws sess signal server
  · exact .of_quiet hquiet fun e he => (hplain e he).1
  · obtain ⟨hrelay, effects, heffects, hcases⟩ :=
      relaySignal_cases m now sid id draws signal (watermarked sid signal server')
    rw [heq, heffects]
    refine .after hquiet (Keeps.andThen [.signalAccepted signal] ⟨?_, ?_, ?_⟩ hrelay hcases.quiet)
    · intro es hr
      have hs' : server'.hub.sessions.get? sid = some sess := by
        rw [htables.sessions]
        exact hs
      exact hr.accepted hs' hp hchecked.sequence hchecked.fromSessionId hvalid
    · intro other hne
      exact quietAt_updateSession_of_ne hne _
    · intro hcons
      exact consistent_updateSession hcons sid fun _ => rfl

theorem keeps_handle (now : Clocks) (draws : Draws) (request : V2Request) {server : Server}
    {sess : Session} (hs : server.hub.sessions.get? sid = some sess)
    (hvalid : ∀ signal, request = .signal signal → validateSignalV2 signal.payload = .ok signal) :
    Keeps m.toConfig cr trust .v2 sid server.hub
      (handle m cr trust now sid id draws sess request server).server.hub
      (handle m cr trust now sid id draws sess request server).effects := by
  unfold handle
  split
  · exact keeps_refuse server _ _
  · next hproven =>
      cases request with
      | hello grant identityKeyHex encryptionKeyHex =>
          exact keeps_handleHello now draws grant identityKeyHex encryptionKeyHex hs
      | prove signatureHex => exact keeps_handleProve now signatureHex hs
      | ping => exact keeps_handlePing now server
      | attachRoute routeTag =>
          exact keeps_handleAttachRoute now routeTag hs (by simpa [beforeProof] using hproven)
      | detachRoute routeTag => exact keeps_handleDetachRoute now routeTag server
      | discover routeTag => exact keeps_handleDiscover now sess routeTag server
      | signal signal =>
          exact keeps_handleSignal now draws signal hs (by simpa [beforeProof] using hproven)
            (hvalid signal rfl)

theorem keeps_receiveFrame (now : Clocks) (draws : Draws) (raw : List Char) (server : Server) :
    Keeps m.toConfig cr trust .v2 sid server.hub
      (receiveFrame m cr trust now sid draws raw server).server.hub
      (receiveFrame m cr trust now sid draws raw server).effects := by
  have hadmitted := admitFrame_quiet m.toConfig (fun code message => v2Error code message .null)
    now.monotonic sid raw server
  unfold receiveFrame
  split
  · next step heq =>
      rw [heq] at hadmitted
      exact .of_quiet hadmitted.1 fun e he => (hadmitted.2.1 e he).1
  · next server' data heq =>
      rw [heq] at hadmitted
      split
      · exact .of_quiet hadmitted.1 (by simp [Server.done, Effect.quiet])
      · exact .of_quiet hadmitted.1 (List.forall_mem_nil _)
      next message hmessage =>
      split
      · exact .of_quiet hadmitted.1 (List.forall_mem_nil _)
      · next sess hs =>
          exact .after hadmitted.1 (keeps_handle now draws _ hs fun signal =>
            validateSignalV2_of_message hmessage)

end Masterserver.V2
