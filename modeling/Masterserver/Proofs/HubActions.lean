import Masterserver.App.Routes
import Masterserver.App.V2
import Masterserver.Proofs.HubOps

/-!
# What a handler does to the hub

Whatever branch a handler takes, it calls the hub a few times, in the name of
its own session except where it queues a message for another one. `Acts` is
the closure of these calls. The handlers of both endpoints are shown to act
once, here; what all the calls keep, the handlers keep.
-/

namespace Masterserver

open Lib Protocol

namespace Hub

/-- A record keeps its routes, and its key unless it gets a new one, of the
length of a point. -/
def Rewrites (f : Session → Session) : Prop :=
  ∀ sess, (f sess).routes = sess.routes ∧ ∀ key, (f sess).encryptionKeyHex = some key →
    isHexBytes key 65 = true ∨ sess.encryptionKeyHex = some key

/-- A record that keeps both. -/
theorem Rewrites.of_same {f : Session → Session} (hroutes : ∀ sess, (f sess).routes = sess.routes)
    (hkey : ∀ sess, (f sess).encryptionKeyHex = sess.encryptionKeyHex) : Rewrites f :=
  fun sess => ⟨hroutes sess, fun _ h => .inr ((hkey sess).symm.trans h)⟩

/-- The hub after calls a handler of the session makes. No handler draws from
the bucket its own frame was admitted with. -/
inductive Acts (c : Config) (now : Seconds) (sid : String) (hub : Hub) : Hub → Prop
  | refl : Acts c now sid hub hub
  | rate {hub' : Hub} (h : Acts c now sid hub hub') {op : Operation} (hop : op ≠ .message) :
      Acts c now sid hub (hub'.checkRate now sid op).1
  | record {hub' : Hub} (h : Acts c now sid hub hub') {f : Session → Session}
      (hf : Rewrites f) : Acts c now sid hub (hub'.updateSession sid f)
  | attach {hub' : Hub} (h : Acts c now sid hub hub') (rid : String) (ttl : Option Seconds)
      (limit : Option Int) : Acts c now sid hub (hub'.attachRoute c now sid rid ttl limit).1
  | detach {hub' : Hub} (h : Acts c now sid hub hub') (rid : String) :
      Acts c now sid hub (hub'.detachRoute sid rid)
  | seen {hub' : Hub} (h : Acts c now sid hub hub') (key : String) (ttl : Seconds) :
      Acts c now sid hub (hub'.checkAndMarkSeen c now key ttl).1
  | send {hub' : Hub} (h : Acts c now sid hub hub') (target : String) (data : Json) :
      Acts c now sid hub (hub'.sendSession c target data).1

variable {c : Config} {cr : Crypto} {now : Seconds} {sid : String} {hub hub' hub'' : Hub}

theorem Acts.trans (h : Acts c now sid hub hub') (h' : Acts c now sid hub' hub'') :
    Acts c now sid hub hub'' := by
  induction h' with
  | refl => exact h
  | rate _ hop ih => exact ih.rate hop
  | record _ hf ih => exact ih.record hf
  | attach _ rid ttl limit ih => exact ih.attach rid ttl limit
  | detach _ rid ih => exact ih.detach rid
  | seen _ key ttl ih => exact ih.seen key ttl
  | send _ target data ih => exact ih.send target data

theorem Acts.heartbeat (h : Acts c now sid hub hub') :
    Acts c now sid hub (hub'.touchHeartbeat now sid) :=
  h.record (.of_same (fun _ => rfl) fun _ => rfl)

/-- The keys a HELLO brings are written into the record. -/
theorem Acts.identity (h : Acts c now sid hub hub') {identityKeyHex encryptionKeyHex : String}
    (hshape : isHexBytes encryptionKeyHex 65 = true)
    (hset : hub'.setV2Identity cr sid identityKeyHex encryptionKeyHex = some hub'') :
    Acts c now sid hub hub'' := by
  unfold setV2Identity at hset
  simp only [Option.bind_eq_bind, Option.bind_eq_some_iff] at hset
  obtain ⟨sess, hs, identityKey, -, encryptionKey, -, heq⟩ := hset
  have hrecord : hub'' = hub'.updateSession sid fun sess =>
      { sess with
        protocolVersion := 2
        identityKeyHex := some identityKeyHex
        identityKeyId := some (hexdigest (cr.sha256 identityKey))
        encryptionKeyHex := some encryptionKeyHex
        encryptionKeyId := some (hexdigest (cr.sha256 encryptionKey)) } := by
    rw [← Option.some.inj heq, updateSession, hs]
  rw [hrecord]
  refine h.record fun sess => ⟨rfl, fun key hkey => .inl ?_⟩
  rw [← Option.some.inj hkey]
  exact hshape

end Hub

open Hub

/-! ## The legacy endpoint -/

namespace V1

variable {c : Config} {cr : Crypto} {now : Seconds} {sid : String}

theorem acts_handleProve (sess : Session) (signatureHex : String) (server : Server) :
    Acts c now sid server.hub
      (handleProve cr now sid sess signatureHex server).server.hub := by
  have hrate : Acts c now sid server.hub (server.hub.checkRate now sid .prove).1 :=
    Acts.refl.rate (by decide)
  unfold handleProve
  simp only
  split
  · exact hrate
  split
  · exact hrate
  split
  · exact hrate
  split
  · exact hrate
  · refine Acts.heartbeat (.record hrate ?_)
    exact .of_same (fun _ => rfl) fun _ => rfl

theorem acts_handlePing (server : Server) :
    Acts c now sid server.hub (handlePing now sid server).server.hub := by
  have hrate : Acts c now sid server.hub (server.hub.checkRate now sid .heartbeat).1 :=
    Acts.refl.rate (by decide)
  unfold handlePing
  simp only
  split
  · exact hrate
  · exact hrate.heartbeat

theorem acts_handleAttachRoute (routeId : String) (server : Server) :
    Acts c now sid server.hub (handleAttachRoute c now sid routeId server).server.hub := by
  have hrate : Acts c now sid server.hub (server.hub.checkRate now sid .attachRoute).1 :=
    Acts.refl.rate (by decide)
  unfold handleAttachRoute
  simp only
  split
  · exact hrate
  split
  · exact hrate.attach _ _ _
  · exact hrate.attach _ _ _
  · exact hrate.attach _ _ _

theorem acts_handleDetachRoute (routeId : String) (server : Server) :
    Acts c now sid server.hub (handleDetachRoute sid routeId server).server.hub := by
  unfold handleDetachRoute
  simp only [Server.done]
  split
  · exact .refl
  · exact Acts.refl.detach _

theorem acts_handleDiscover (sess : Session) (routeId : String) (server : Server) :
    Acts c now sid server.hub (handleDiscover now sid sess routeId server).server.hub := by
  have hrate : Acts c now sid server.hub (server.hub.checkRate now sid .discover).1 :=
    Acts.refl.rate (by decide)
  unfold handleDiscover
  simp only
  split
  · exact hrate
  split
  · exact hrate
  · exact hrate

theorem acts_handleRouteMessage (sess : Session) (type : RelayType) (data payload : Payload)
    (routeId : String) (server : Server) :
    Acts c now sid server.hub
      (handleRouteMessage c cr now sid sess type data payload routeId server).server.hub := by
  unfold handleRouteMessage
  generalize hop : (if type = .forward then Operation.forward else Operation.signal) = op
  have hne : op ≠ .message := by
    rw [← hop]
    split <;> decide
  have hrate : Acts c now sid server.hub (server.hub.checkRate now sid op).1 :=
    Acts.refl.rate hne
  simp only
  split
  · exact hrate
  split
  · exact hrate
  have hseen := hrate.seen (relayKey cr type payload routeId) c.dedupeWindowSeconds
  split
  · exact hseen
  split
  · exact hseen
  · exact hseen

theorem acts_handle (draws : Draws) (sess : Session) (message : V1Message) (server : Server) :
    Acts c now sid server.hub (handle c cr now sid draws sess message server).server.hub := by
  unfold handle
  split
  · exact .refl
  cases message with
  | hello publicKeyHex =>
      simp only
      split
      · exact .refl
      · exact Acts.refl.record (.of_same (fun _ => rfl) fun _ => rfl)
  | prove signatureHex =>
      simp only
      split
      · exact .refl
      · exact acts_handleProve sess signatureHex server
  | ping => exact acts_handlePing server
  | attachRoute routeId => exact acts_handleAttachRoute routeId server
  | detachRoute routeId => exact acts_handleDetachRoute routeId server
  | discover routeId => exact acts_handleDiscover sess routeId server
  | relay type data payload routeId =>
      exact acts_handleRouteMessage sess type data payload routeId server

/-- The tasks of a relay only queue. -/
theorem acts_relayTo (outgoing : Json) (subscribers : List String) (server : Server) :
    Acts c now sid server.hub (relayTo c outgoing subscribers server).server.hub := by
  unfold relayTo
  exact foldl_invariant (P := fun acc : Server × List Effect =>
    Acts c now sid server.hub acc.1.hub) subscribers .refl fun _ target _ h =>
      h.send target outgoing

end V1

/-! ## The second endpoint -/

namespace V2

variable {m : MeshConfig} {cr : Crypto} {trust : NodeTrust} {now : Clocks} {sid : String}
variable {id : Json}

theorem acts_handleHello (draws : Draws) (sess : Session) (grant : Payload)
    (identityKeyHex encryptionKeyHex : String) (server : Server) :
    Acts m.toConfig now.monotonic sid server.hub
      (handleHello m cr trust now sid id draws sess grant identityKeyHex encryptionKeyHex
        server).server.hub := by
  unfold handleHello
  split
  · exact .refl
  split
  · exact .refl
  next hpoints =>
  split
  · exact .refl
  · exact .refl
  simp only
  split
  · next hset =>
      simp only [isP256Point, Bool.or_eq_true, Bool.not_eq_true', not_or, Bool.not_eq_false,
        Bool.and_eq_true] at hpoints
      refine Acts.identity (.record .refl ?_) hpoints.2.1 hset
      exact .of_same (fun _ => rfl) fun _ => rfl
  · exact .refl

theorem acts_handleProve (sess : Session) (signatureHex : String) (server : Server) :
    Acts m.toConfig now.monotonic sid server.hub
      (handleProve m cr now sid id sess signatureHex server).server.hub := by
  have hrate : Acts m.toConfig now.monotonic sid server.hub
      (server.hub.checkRate now.monotonic sid .prove).1 := Acts.refl.rate (by decide)
  unfold handleProve
  split
  · exact .refl
  simp only
  split
  · exact hrate
  split
  · exact hrate
  split
  · exact hrate
  split
  · exact hrate
  · refine Acts.heartbeat (.record hrate ?_)
    exact .of_same (fun _ => rfl) fun _ => rfl

theorem acts_handlePing (m : MeshConfig) (server : Server) :
    Acts m.toConfig now.monotonic sid server.hub (handlePing now sid id server).server.hub := by
  have hrate : Acts m.toConfig now.monotonic sid server.hub
      (server.hub.checkRate now.monotonic sid .heartbeat).1 := Acts.refl.rate (by decide)
  unfold handlePing
  simp only
  split
  · exact hrate
  · exact hrate.heartbeat

theorem acts_handleAttachRoute (routeTag : String) (server : Server) :
    Acts m.toConfig now.monotonic sid server.hub
      (handleAttachRoute m cr now sid id routeTag server).server.hub := by
  have hrate : Acts m.toConfig now.monotonic sid server.hub
      (server.hub.checkRate now.monotonic sid .attachRoute).1 := Acts.refl.rate (by decide)
  unfold handleAttachRoute
  simp only
  split
  · exact hrate
  split
  · exact hrate.attach _ _ _
  · exact hrate.attach _ _ _
  · exact hrate.attach _ _ _

theorem acts_handleDiscover (sess : Session) (routeTag : String) (server : Server) :
    Acts m.toConfig now.monotonic sid server.hub
      (handleDiscover m cr now sid id sess routeTag server).server.hub := by
  have hrate : Acts m.toConfig now.monotonic sid server.hub
      (server.hub.checkRate now.monotonic sid .discover).1 := Acts.refl.rate (by decide)
  unfold handleDiscover
  simp only
  split
  · exact hrate
  split
  · exact hrate
  split
  · exact hrate
  · exact hrate

theorem acts_relaySignal (draws : Draws) (signal : Signal) (server : Server) :
    Acts m.toConfig now.monotonic sid server.hub
      (relaySignal m now sid id draws signal server).server.hub := by
  have hhub : (recipientKeyId now signal.toSessionId server).1.hub = server.hub := by
    unfold recipientKeyId
    split <;> rfl
  unfold relaySignal
  simp only [hhub]
  split
  · rw [Server.done, hhub]
    exact .refl
  split
  · exact Acts.refl.send _ _
  split
  · exact .refl
  · exact .refl

theorem acts_handleSignal (draws : Draws) (sess : Session) (signal : Signal) (server : Server) :
    Acts m.toConfig now.monotonic sid server.hub
      (handleSignal m cr now sid id draws sess signal server).server.hub := by
  have hrate : Acts m.toConfig now.monotonic sid server.hub
      (server.hub.checkRate now.monotonic sid .signalV2).1 := Acts.refl.rate (by decide)
  have hseen := hrate.seen (replayKey sid signal) m.dedupeWindowSeconds
  unfold handleSignal
  simp only
  split
  · exact .refl
  split
  · exact .refl
  split
  · exact .refl
  split
  · exact hrate
  split
  · exact hrate
  split
  · exact hrate
  split
  · exact hrate
  split
  · exact hrate
  split
  · exact hseen
  · refine .trans ?_ (acts_relaySignal draws signal _)
    refine .record hseen ?_
    exact .of_same (fun _ => rfl) fun _ => rfl

theorem acts_handle (draws : Draws) (sess : Session) (request : V2Request) (server : Server) :
    Acts m.toConfig now.monotonic sid server.hub
      (handle m cr trust now sid id draws sess request server).server.hub := by
  unfold handle
  split
  · exact .refl
  cases request with
  | hello grant identityKeyHex encryptionKeyHex =>
      exact acts_handleHello draws sess grant identityKeyHex encryptionKeyHex server
  | prove signatureHex => exact acts_handleProve sess signatureHex server
  | ping => exact acts_handlePing m server
  | attachRoute routeTag => exact acts_handleAttachRoute routeTag server
  | detachRoute routeTag => exact Acts.refl.detach routeTag
  | discover routeTag => exact acts_handleDiscover sess routeTag server
  | signal signal => exact acts_handleSignal draws sess signal server

end V2

/-! ## The node links -/

namespace Server

variable {m : MeshConfig} {cr : Crypto} {now : Clocks} {nodeId sid : String} {link : Nat}

/-- A message of a peer only fills a queue. -/
theorem acts_handleMessage (server : Server) (type : String) (payload : Payload) {step : Step}
    (h : server.handleMessage m cr now nodeId link type payload = some step) :
    Acts m.toConfig now.monotonic sid server.hub step.server.hub := by
  unfold handleMessage at h
  simp only at h
  split at h
  · cases h
    exact .refl
  split at h
  · cases h
    exact .refl
  split at h
  · cases h
    exact .refl
  split at h
  · obtain ⟨mesh, -, rfl⟩ := Option.map_eq_some_iff.mp h
    exact .refl
  split at h
  · unfold handleSignalForward at h
    split at h
    · cases h
    · simp only at h
      split at h
      · split at h
        · cases h
          exact Acts.refl.send _ _
        · cases h
          exact .refl
      · cases h
        exact .refl
  split at h
  · obtain ⟨mesh, -, rfl⟩ := Option.map_eq_some_iff.mp h
    exact .refl
  split at h
  · cases h
    exact .refl
  · cases h
    exact .refl

theorem acts_receiveNodeFrame (m : MeshConfig) (cr : Crypto) (now : Clocks) (nodeId : String)
    (link : Nat) (bucket : TokenBucket) (raw : List Char) (server : Server) (sid : String) :
    Acts m.toConfig now.monotonic sid server.hub
      (server.receiveNodeFrame m cr now nodeId link bucket raw).2.server.hub := by
  unfold receiveNodeFrame
  split
  · exact .refl
  simp only
  split
  · exact .refl
  split
  · exact .refl
  split
  · exact .refl
  · exact .refl
  next type id payload _ =>
  simp only
  have hseen : Acts m.toConfig now.monotonic sid server.hub
      (server.hub.checkAndMarkSeen m.toConfig now.monotonic s!"node:{nodeId}:{id}"
        m.dedupeWindowSeconds).1 := Acts.refl.seen _ _
  split
  · exact hseen
  · cases hstep : ({ server with
      hub := (server.hub.checkAndMarkSeen m.toConfig now.monotonic
        s!"node:{nodeId}:{id}" m.dedupeWindowSeconds).1 } : Server).handleMessage m cr now
        nodeId link type payload with
    | none => exact hseen
    | some step => exact hseen.trans (acts_handleMessage _ type payload hstep)

end Server

end Masterserver
