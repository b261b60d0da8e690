import Masterserver.Proofs.Relays
import Masterserver.Proofs.LocalEntries

/-!
# Which attachments a step keeps

A session is attached to a route as long as its record says so. Most of what
happens to a hub keeps every attachment; `Attends` says so for the attachments
that meet a condition, and the five ways to lose one are the five conditions
here. A step of a handler is described by what it keeps and by what it adds to
the registry: the handlers of the second endpoint register a session only on a
route it is attached to.
-/

namespace Masterserver

open Lib NodeMesh Protocol

/-! ## The hub -/

namespace Hub

variable {hub hub' hub'' : Hub} {kept : String → String → Prop}

/-- The attachments that meet the condition are kept. -/
def Attends (kept : String → String → Prop) (hub hub' : Hub) : Prop :=
  ∀ tag sid, kept tag sid → hub.Attached tag sid → hub'.Attached tag sid

theorem Attends.of_sessions (h : hub'.sessions = hub.sessions) : Attends kept hub hub' := by
  intro tag sid _ hattached
  unfold Attached
  rw [h]
  exact hattached

theorem Attends.refl : Attends kept hub hub := .of_sessions rfl

theorem Attends.trans (h : Attends kept hub hub') (h' : Attends kept hub' hub'') :
    Attends kept hub hub'' :=
  fun tag sid hkept hattached => h' tag sid hkept (h tag sid hkept hattached)

theorem Attends.mono {kept' : String → String → Prop} (h : Attends kept hub hub')
    (hmono : ∀ tag sid, kept' tag sid → kept tag sid) : Attends kept' hub hub' :=
  fun tag sid hkept => h tag sid (hmono tag sid hkept)

/-- A record is rewritten and has the routes it had. -/
theorem Attends.of_set {sid : String} {sess sess' : Session}
    (hset : hub'.sessions = hub.sessions.set sid sess') (hs : hub.sessions.get? sid = some sess)
    (hr : sess.routes ⊆ sess'.routes) : Attends kept hub hub' := by
  intro tag other _ hattached
  rw [attached_set sess' tag other hset hs]
  split
  · next heq =>
      subst heq
      obtain ⟨sess₀, hs₀, hmem⟩ := hattached
      rw [hs] at hs₀
      cases hs₀
      exact hr hmem
  · exact hattached

theorem attends_updateSession (sid : String) {f : Session → Session}
    (hf : ∀ sess, (f sess).routes = sess.routes) : Attends kept hub (hub.updateSession sid f) := by
  unfold updateSession
  split
  · exact .refl
  · next sess hs => exact .of_set rfl hs (hf sess).symm.subset

theorem attends_touchHeartbeat (now : Seconds) (sid : String) :
    Attends kept hub (hub.touchHeartbeat now sid) :=
  attends_updateSession sid fun _ => rfl

theorem attends_checkAndMarkSeen (c : Config) (now : Seconds) (key : String) (ttl : Seconds) :
    Attends kept hub (hub.checkAndMarkSeen c now key ttl).1 := by
  obtain ⟨seen, heq⟩ := checkAndMarkSeen_hub hub c now key ttl
  rw [heq]
  exact .of_sessions rfl

theorem attends_setV2Identity {cr : Crypto} {sid identityKeyHex encryptionKeyHex : String}
    (h : hub.setV2Identity cr sid identityKeyHex encryptionKeyHex = some hub') :
    Attends kept hub hub' := by
  obtain ⟨sess, sess', hs, hr, rfl⟩ := setV2Identity_eq_some h
  exact .of_set rfl hs hr.symm.subset

theorem attends_attachRoute (c : Config) (now : Seconds) (sid rid : String)
    (ttl : Option Seconds) (limit : Option Int) :
    Attends kept hub (hub.attachRoute c now sid rid ttl limit).1 := by
  obtain ⟨e, heq⟩ | ⟨sess, hs, -, heq⟩ := attachRoute_cases hub c now sid rid ttl limit
  · rw [heq]
    exact .refl
  · rw [heq]
    exact .of_set rfl hs (Finset.subset_insert rid sess.routes)

theorem attached_attachRoute {c : Config} {now : Seconds} {sid rid : String}
    {ttl : Option Seconds} {limit : Option Int}
    (h : (hub.attachRoute c now sid rid ttl limit).2 = none) :
    (hub.attachRoute c now sid rid ttl limit).1.Attached rid sid := by
  obtain ⟨e, heq⟩ | ⟨sess, hs, -, heq⟩ := attachRoute_cases hub c now sid rid ttl limit
  · rw [heq] at h
    cases h
  · rw [heq]
    exact ⟨_, Dict.get?_set_self _ _ _, Finset.mem_insert_self rid sess.routes⟩

theorem attends_sendSession (c : Config) (sid : String) (data : Json) :
    Attends kept hub (hub.sendSession c sid data).1 := by
  obtain heq | ⟨sess, hs, -, -, heq⟩ := sendSession_cases hub c sid data
  · rw [heq]
    exact .refl
  · rw [heq]
    exact .of_set rfl hs (Finset.Subset.refl _)

theorem attends_writerDequeue (sid : String) : Attends kept hub (hub.writerDequeue sid) := by
  obtain heq | ⟨sess, frame, rest, -, hs, -, heq⟩ := writerDequeue_cases hub sid
  · rw [heq]
    exact .refl
  · rw [heq]
    exact .of_set rfl hs (Finset.Subset.refl _)

theorem attends_releaseFrame (sid : String) (frame : Frame) :
    Attends kept hub (hub.releaseFrameBy clamp sid frame) := by
  unfold releaseFrameBy
  split
  · exact .refl
  · next sess hs => exact .of_set rfl hs (Finset.Subset.refl _)

theorem attends_writerSent (sid : String) : Attends kept hub (hub.writerSent sid) := by
  unfold writerSent
  obtain heq | ⟨frame, next, -, -, heq⟩ := writerSentBy_cases hub clamp sid
  · rw [heq]
    exact .refl
  · rw [heq]
    exact (attends_releaseFrame sid frame).trans (.of_sessions rfl)

theorem attends_writerFailed (sid : String) : Attends kept hub (hub.writerFailed sid) := by
  unfold writerFailed
  obtain heq | ⟨w, -, -, heq⟩ | ⟨frame, -, heq⟩ := writerFailedBy_cases hub clamp sid
  · rw [heq]
    exact .refl
  · rw [heq]
    exact .of_sessions rfl
  · rw [heq]
    exact (attends_releaseFrame sid frame).trans (.of_sessions rfl)

theorem attends_createSession (now : Seconds) {sid : String}
    (h : hub.sessions.get? sid = none) : Attends kept hub (hub.createSession now sid) := by
  rintro tag other - ⟨sess, hs, hmem⟩
  refine ⟨sess, ?_, hmem⟩
  have hne : other ≠ sid := by
    rintro rfl
    rw [h] at hs
    cases hs
  rwa [createSession, Dict.get?_set_of_ne _ _ hne]

/-! ### The ways to lose an attachment -/

theorem attends_detachRoute (sid rid : String) :
    Attends (fun tag other => ¬(tag = rid ∧ other = sid)) hub (hub.detachRoute sid rid) := by
  intro tag other hkept hattached
  rw [detachRoute_eq, attached_discardRoute]
  refine ⟨?_, hkept⟩
  obtain ⟨sess, hs, hmem⟩ := hattached
  exact ⟨sess, by rwa [sessions_dropLease], hmem⟩

theorem attends_removeSession (sid : String) :
    Attends (fun _ other => other ≠ sid) hub (hub.removeSession sid) := by
  rintro tag other hne ⟨sess, hs, hmem⟩
  refine ⟨sess, ?_, hmem⟩
  rwa [removeSession, sessions_removeSessionBy, Dict.get?_erase_of_ne _ hne]

theorem attends_pruneStaleSessions (c : Config) (now : Seconds) :
    Attends (fun _ sid => sid ∉ hub.staleSessions c now) hub (hub.pruneStaleSessions c now) := by
  intro tag sid hnot hattached
  refine foldl_invariant (P := fun hub' : Hub => hub'.Attached tag sid) _ hattached ?_
  intro hub' other hother ih
  have hne : sid ≠ other := fun heq => hnot (heq ▸ hother)
  exact attends_removeSession other tag sid hne ih

/-- Pruning a route keeps the leases that have not run out. -/
theorem pruneRoute_keeps {now : Seconds} {tag sid : String} (rid : String)
    (hleased : hub.Leased now tag sid) (hattached : hub.Attached tag sid) :
    (hub.pruneRoute now rid).Leased now tag sid ∧ (hub.pruneRoute now rid).Attached tag sid := by
  obtain ⟨route, expiresAt, hroute, hlease, hlive⟩ := hleased
  unfold pruneRoute
  split
  · exact ⟨⟨route, expiresAt, hroute, hlease, hlive⟩, hattached⟩
  next route' hroute' =>
  constructor
  · unfold Leased
    rw [routes_discardAll]
    unfold storeRoute
    simp only
    by_cases htag : tag = rid
    · subst htag
      rw [hroute] at hroute'
      cases hroute'
      have hkept : (route.filter fun _ expiresAt => now < expiresAt).get? sid = some expiresAt :=
        Dict.get?_filter_eq_some.mpr ⟨hlease, decide_eq_true hlive⟩
      have hsize : (route.filter fun _ expiresAt => now < expiresAt).size ≠ 0 := fun hzero => by
        rw [Dict.size_eq_zero.mp hzero] at hkept
        cases hkept
      rw [if_neg hsize]
      exact ⟨_, expiresAt, Dict.get?_set_self _ _ _, hkept, hlive⟩
    · refine ⟨route, expiresAt, ?_, hlease, hlive⟩
      split
      · rw [Dict.get?_erase_of_ne _ htag]
        exact hroute
      · rw [Dict.get?_set_of_ne _ _ htag]
        exact hroute
  · rw [attached_discardAll]
    refine ⟨hattached, ?_⟩
    rintro ⟨rfl, hexpired⟩
    rw [hroute] at hroute'
    cases hroute'
    obtain ⟨expiresAt', hmem⟩ := Dict.mem_keys.mp hexpired
    obtain ⟨hget, hle⟩ := Dict.get?_filter_eq_some.mp hmem
    rw [hlease] at hget
    cases hget
    exact absurd hlive (not_lt.mpr (of_decide_eq_true hle))

theorem attends_pruneRoutes (now : Seconds) :
    Attends (fun tag sid => hub.Leased now tag sid) hub (hub.pruneRoutes now) := by
  intro tag sid hleased hattached
  have hloop := foldl_invariant (P := fun hub' : Hub => hub'.Leased now tag sid ∧
    hub'.Attached tag sid) (f := fun hub rid => hub.pruneRoute now rid) hub.routes.keys
    ⟨hleased, hattached⟩ fun _ rid _ ih => pruneRoute_keeps rid ih.1 ih.2
  exact hloop.2

end Hub

/-! ## The handlers -/

variable {m : MeshConfig} {cr : Crypto} {trust : NodeTrust} {sid : String}
variable {kept : String → String → Prop} {server server' server'' : Server}

/-- The mesh is left alone, and the attachments that meet the condition. -/
structure Server.Stays (kept : String → String → Prop) (server server' : Server) : Prop where
  attends : Hub.Attends kept server.hub server'.hub
  mesh : server'.mesh = server.mesh

/-- What a step of a session's handler adds to the registry: the session's
lease on a route it is attached to. -/
def Server.Leases (m : MeshConfig) (now : Seconds) (hub : Hub) (sid : String) (tag : String)
    (d : Descriptor) : Prop :=
  hub.Attached tag sid ∧ ∃ p, hub.peerDescriptor sid = some p ∧ d = leaseDescriptor m now p

structure Server.Grows (m : MeshConfig) (now : Seconds) (sid : String)
    (kept : String → String → Prop) (server server' : Server) : Prop where
  attends : Hub.Attends kept server.hub server'.hub
  adds : Adds m (Server.Leases m now server'.hub sid) server.mesh server'.mesh

namespace Server

theorem Stays.of_hub {hub : Hub} (h : Hub.Attends kept server.hub hub) :
    Stays kept server { server with hub := hub } := ⟨h, rfl⟩

theorem Stays.refl : Stays kept server server := ⟨.refl, rfl⟩

theorem Stays.trans (h : Stays kept server server') (h' : Stays kept server' server'') :
    Stays kept server server'' := ⟨h.attends.trans h'.attends, h'.mesh.trans h.mesh⟩

theorem Stays.grows {now : Seconds} (h : Stays kept server server') :
    Grows m now sid kept server server' :=
  ⟨h.attends, .of_eq (congrArg NodeMesh.routeRegistry h.mesh)⟩

theorem Grows.after {now : Seconds} (h : Stays kept server server')
    (h' : Grows m now sid kept server' server'') : Grows m now sid kept server server'' :=
  ⟨h.attends.trans h'.attends, h.mesh ▸ h'.adds⟩

theorem stays_checkRate (now : Seconds) (sid : String) (op : Operation) :
    Stays kept server { server with hub := (server.hub.checkRate now sid op).1 } :=
  .of_hub (.of_sessions rfl)

end Server

theorem stays_admitFrame {c : Config} {error : String → String → Json} {now : Seconds}
    {raw : List Char} :
    match server.admitFrame c error now sid raw with
    | .error step => Server.Stays kept server step.server
    | .ok (server', _) => Server.Stays kept server server' := by
  unfold Server.admitFrame
  split
  · next step h =>
      split at h
      · cases h
        exact .refl
      simp only at h
      split at h
      · cases h
        exact .of_hub (.of_sessions rfl)
      split at h
      · cases h
        exact .of_hub (.of_sessions rfl)
      split at h
      · cases h
        exact .of_hub (.of_sessions rfl)
      · cases h
        exact .of_hub (.of_sessions rfl)
      · cases h
  · next server' data h =>
      obtain ⟨-, htables, hmesh⟩ := admitFrame_ok h
      exact ⟨.of_sessions htables.sessions, hmesh⟩

namespace V1

variable {c : Config}

theorem stays_handleProve (now : Seconds) (sess : Session) (signatureHex : String) :
    Server.Stays kept server (handleProve cr now sid sess signatureHex server).server := by
  have hrate : Server.Stays kept server
      { server with hub := (server.hub.checkRate now sid .prove).1 } :=
    Server.stays_checkRate now sid .prove
  unfold handleProve
  simp only
  split
  · exact hrate
  split
  · exact hrate
  split
  · exact hrate
  split
  · exact hrate
  · refine hrate.trans (.of_hub (.trans (Hub.attends_updateSession sid ?_)
      (Hub.attends_touchHeartbeat now sid)))
    exact fun _ => rfl

theorem stays_handlePing (now : Seconds) :
    Server.Stays kept server (handlePing now sid server).server := by
  unfold handlePing
  simp only
  split
  · exact Server.stays_checkRate now sid .heartbeat
  · exact (Server.stays_checkRate now sid .heartbeat).trans
      (.of_hub (Hub.attends_touchHeartbeat now sid))

theorem stays_handleAttachRoute (now : Seconds) (routeId : String) :
    Server.Stays kept server (handleAttachRoute c now sid routeId server).server := by
  have hattach : Server.Stays kept server
      { server with
        hub := ((server.hub.checkRate now sid .attachRoute).1.attachRoute c now sid routeId none
          (some c.maxV1RoutesPerSession)).1 } :=
    (Server.stays_checkRate now sid .attachRoute).trans
      (.of_hub (Hub.attends_attachRoute c now sid routeId none _))
  unfold handleAttachRoute
  simp only
  split
  · exact Server.stays_checkRate now sid .attachRoute
  split
  · exact hattach
  · exact hattach
  · exact hattach

theorem stays_handleDiscover (now : Seconds) (sess : Session) (routeId : String) :
    Server.Stays kept server (handleDiscover now sid sess routeId server).server := by
  unfold handleDiscover
  simp only
  split
  · exact Server.stays_checkRate now sid .discover
  split
  · exact Server.stays_checkRate now sid .discover
  · exact Server.stays_checkRate now sid .discover

theorem stays_handleRouteMessage (now : Seconds) (sess : Session) (type : RelayType)
    (data payload : Payload) (routeId : String) :
    Server.Stays kept server
      (handleRouteMessage c cr now sid sess type data payload routeId server).server := by
  unfold handleRouteMessage
  generalize (if type = .forward then Operation.forward else Operation.signal) = op
  have hseen : Server.Stays kept server
      { server with
        hub := ((server.hub.checkRate now sid op).1.checkAndMarkSeen c now
          (relayKey cr type payload routeId) c.dedupeWindowSeconds).1 } :=
    (Server.stays_checkRate now sid op).trans
      (.of_hub (Hub.attends_checkAndMarkSeen c now _ _))
  simp only
  split
  · exact Server.stays_checkRate now sid op
  split
  · exact Server.stays_checkRate now sid op
  split
  · exact hseen
  split
  · exact hseen
  · exact hseen

/-- A legacy session changes its own attachments at most. -/
theorem stays_handle (now : Seconds) (draws : Draws) (sess : Session) (message : V1Message) :
    Server.Stays (fun _ other => other ≠ sid) server
      (handle c cr now sid draws sess message server).server := by
  unfold handle
  split
  · exact .refl
  cases message with
  | hello publicKeyHex =>
      simp only
      split
      · exact .refl
      · exact .of_hub (Hub.attends_updateSession sid fun _ => rfl)
  | prove signatureHex =>
      simp only
      split
      · exact .refl
      · exact stays_handleProve now sess signatureHex
  | ping => exact stays_handlePing now
  | attachRoute routeId => exact stays_handleAttachRoute now routeId
  | detachRoute routeId =>
      simp only [handleDetachRoute]
      split
      · exact .refl
      · exact .of_hub ((Hub.attends_detachRoute sid routeId).mono fun _ _ hne h => hne h.2)
  | discover routeId => exact stays_handleDiscover now sess routeId
  | relay type data payload routeId =>
      exact stays_handleRouteMessage now sess type data payload routeId

theorem stays_receiveFrame (c : Config) (cr : Crypto) (now : Seconds) (sid : String)
    (draws : Draws) (raw : List Char) (server : Server) :
    Server.Stays (fun _ other => other ≠ sid) server
      (receiveFrame c cr now sid draws raw server).server := by
  have hadmitted : match server.admitFrame c sendError now sid raw with
      | .error step => Server.Stays (fun _ other => other ≠ sid) server step.server
      | .ok (server', _) => Server.Stays (fun _ other => other ≠ sid) server server' :=
    stays_admitFrame
  unfold receiveFrame
  split
  · next step heq =>
      rw [heq] at hadmitted
      exact hadmitted
  next server' data heq =>
  rw [heq] at hadmitted
  split
  · exact hadmitted
  · exact hadmitted
  split
  · exact hadmitted
  · exact hadmitted.trans (stays_handle now draws _ _)

theorem stays_relayTo (outgoing : Json) (subscribers : List String) :
    Server.Stays kept server (relayTo c outgoing subscribers server).server := by
  have hloop := foldl_invariant (P := fun acc : Server × List Effect =>
    Server.Stays kept server acc.1) (f := relayTask c outgoing) subscribers
    (b := (server, [])) .refl fun acc target _ ih =>
      ih.trans (.of_hub (Hub.attends_sendSession c target outgoing))
  exact hloop

end V1

namespace V2

variable {id : Json}

theorem stays_handleHello (now : Clocks) (draws : Draws) (sess : Session) (grant : Payload)
    (identityKeyHex encryptionKeyHex : String) :
    Server.Stays kept server
      (handleHello m cr trust now sid id draws sess grant identityKeyHex encryptionKeyHex
        server).server := by
  unfold handleHello
  split
  · exact .refl
  split
  · exact .refl
  split
  · exact .refl
  · exact .refl
  simp only
  split
  · next hub _ hset =>
      refine .of_hub (.trans (Hub.attends_updateSession sid ?_) (Hub.attends_setV2Identity hset))
      exact fun _ => rfl
  · exact .refl

theorem stays_handleProve (now : Clocks) (sess : Session) (signatureHex : String) :
    Server.Stays kept server (handleProve m cr now sid id sess signatureHex server).server := by
  have hrate : Server.Stays kept server
      { server with hub := (server.hub.checkRate now.monotonic sid .prove).1 } :=
    Server.stays_checkRate now.monotonic sid .prove
  unfold handleProve
  split
  · exact .refl
  simp only
  split
  · exact hrate
  split
  · exact hrate
  split
  · exact hrate
  split
  · exact hrate
  · refine hrate.trans (.of_hub (.trans (Hub.attends_updateSession sid ?_)
      (Hub.attends_touchHeartbeat now.monotonic sid)))
    exact fun _ => rfl

theorem stays_handlePing (now : Clocks) :
    Server.Stays kept server (handlePing now sid id server).server := by
  unfold handlePing
  simp only
  split
  · exact Server.stays_checkRate now.monotonic sid .heartbeat
  · exact (Server.stays_checkRate now.monotonic sid .heartbeat).trans
      (.of_hub (Hub.attends_touchHeartbeat now.monotonic sid))

theorem grows_handleAttachRoute (now : Clocks) (routeTag : String) :
    Server.Grows m now.wall sid kept server
      (handleAttachRoute m cr now sid id routeTag server).server := by
  have hattach : Server.Stays kept server
      { server with
        hub := ((server.hub.checkRate now.monotonic sid .attachRoute).1.attachRoute m.toConfig
          now.monotonic sid routeTag none none).1 } :=
    (Server.stays_checkRate now.monotonic sid .attachRoute).trans
      (.of_hub (Hub.attends_attachRoute m.toConfig now.monotonic sid routeTag none none))
  unfold handleAttachRoute
  simp only
  split
  · exact (Server.stays_checkRate now.monotonic sid .attachRoute).grows
  split
  · exact hattach.grows
  · exact hattach.grows
  · next hnone =>
      refine .after hattach ⟨.refl, ?_⟩
      refine (adds_registerLocalRoute m cr _ now.wall server.mesh routeTag sid).mono ?_
      rintro tag d ⟨rfl, hreg⟩
      exact ⟨Hub.attached_attachRoute hnone, hreg.descriptor⟩

theorem grows_handleDiscover (now : Clocks) (sess : Session) (routeTag : String) :
    Server.Grows m now.wall sid kept server
      (handleDiscover m cr now sid id sess routeTag server).server := by
  have hrate : Server.Stays kept server
      { server with hub := (server.hub.checkRate now.monotonic sid .discover).1 } :=
    Server.stays_checkRate now.monotonic sid .discover
  unfold handleDiscover
  simp only
  split
  · exact hrate.grows
  split
  · exact hrate.grows
  split
  · exact .after hrate ⟨.refl, (sheds_discover m cr _ now.wall server.mesh routeTag).adds⟩
  · exact .after hrate ⟨.refl, (sheds_discover m cr _ now.wall server.mesh routeTag).adds⟩

theorem grows_relaySignal (now : Clocks) (draws : Draws) (signal : Signal) :
    Server.Grows m now.wall sid kept server
      (relaySignal m now sid id draws signal server).server := by
  have hlookup : (recipientKeyId now signal.toSessionId server).1.hub = server.hub ∧
      ∀ new, Adds m new server.mesh (recipientKeyId now signal.toSessionId server).1.mesh := by
    unfold recipientKeyId
    split
    · exact ⟨rfl, fun _ => .refl⟩
    · exact ⟨rfl, fun _ => (sheds_remoteDescriptor server.mesh signal.toSessionId).adds⟩
  obtain ⟨hhub, hadds⟩ := hlookup
  unfold relaySignal
  simp only
  split
  · exact ⟨.of_sessions (congrArg Hub.sessions hhub), hadds _⟩
  split
  · refine ⟨.trans (.of_sessions (congrArg Hub.sessions hhub)) ?_, hadds _⟩
    exact Hub.attends_sendSession m.toConfig signal.toSessionId (outgoing id signal)
  have hforward : ∀ new, Adds m new server.mesh
      ((recipientKeyId now signal.toSessionId server).1.mesh.forwardSignal m draws.requestId
        signal.routeTag signal.toSessionId (outgoing id signal)).1 := fun new =>
    (hadds new).trans (sheds_forwardSignal _ _ _ _ _).adds
  split
  · exact ⟨.of_sessions (congrArg Hub.sessions hhub), hforward _⟩
  · exact ⟨.of_sessions (congrArg Hub.sessions hhub), hforward _⟩

theorem grows_handleSignal (now : Clocks) (draws : Draws) (sess : Session) (signal : Signal) :
    Server.Grows m now.wall sid kept server
      (handleSignal m cr now sid id draws sess signal server).server := by
  have hrate : Server.Stays kept server
      { server with hub := (server.hub.checkRate now.monotonic sid .signalV2).1 } :=
    Server.stays_checkRate now.monotonic sid .signalV2
  have hseen : Server.Stays kept server
      { server with
        hub := ((server.hub.checkRate now.monotonic sid .signalV2).1.checkAndMarkSeen m.toConfig
          now.monotonic (replayKey sid signal) m.dedupeWindowSeconds).1 } :=
    hrate.trans (.of_hub (Hub.attends_checkAndMarkSeen m.toConfig now.monotonic _ _))
  have hlimit : ∀ server' limiter, Server.Stays kept server server' →
      Server.Stays kept server { server' with signalGlobalLimiter := limiter } :=
    fun _ _ h => ⟨h.attends, h.mesh⟩
  unfold handleSignal
  simp only
  split
  · exact Server.Stays.refl.grows
  split
  · exact Server.Stays.refl.grows
  split
  · exact Server.Stays.refl.grows
  split
  · exact hrate.grows
  split
  · exact (hlimit _ _ hrate).grows
  split
  · exact (hlimit _ _ hrate).grows
  split
  · exact (hlimit _ _ hrate).grows
  split
  · exact (hlimit _ _ hrate).grows
  split
  · exact (hlimit _ _ hseen).grows
  · refine .after ((hlimit _ _ hseen).trans (.of_hub (Hub.attends_updateSession sid ?_)))
      (grows_relaySignal now draws signal)
    exact fun _ => rfl

/-- A request that takes no route off keeps every attachment. -/
theorem grows_handle (now : Clocks) (draws : Draws) (sess : Session) (request : V2Request)
    (h : ∀ tag, request ≠ .detachRoute tag) :
    Server.Grows m now.wall sid kept server
      (handle m cr trust now sid id draws sess request server).server := by
  unfold handle
  split
  · exact Server.Stays.refl.grows
  cases request with
  | hello grant identityKeyHex encryptionKeyHex =>
      exact (stays_handleHello now draws sess grant identityKeyHex encryptionKeyHex).grows
  | prove signatureHex => exact (stays_handleProve now sess signatureHex).grows
  | ping => exact (stays_handlePing now).grows
  | attachRoute routeTag => exact grows_handleAttachRoute now routeTag
  | detachRoute routeTag => exact absurd rfl (h routeTag)
  | discover routeTag => exact grows_handleDiscover now sess routeTag
  | signal signal => exact grows_handleSignal now draws sess signal

/-- A DETACH_ROUTE that is carried out: one attachment goes, and the mesh is
told. -/
structure Detached (m : MeshConfig) (cr : Crypto) (now : Clocks) (sid tag : String)
    (server server' : Server) : Prop where
  attends : Hub.Attends (fun t other => ¬(t = tag ∧ other = sid)) server.hub server'.hub
  mesh : ∃ hub, server'.mesh = (server.mesh.removeLocalRoute m cr hub now.wall tag sid).1

theorem receiveFrame_grows (m : MeshConfig) (cr : Crypto) (trust : NodeTrust) (now : Clocks)
    (sid : String) (draws : Draws) (raw : List Char) (server : Server) :
    Server.Grows m now.wall sid (fun _ _ => True) server
        (receiveFrame m cr trust now sid draws raw server).server ∨
      ∃ admitted data id tag, server.admitFrame m.toConfig
          (fun code message => v2Error code message .null) now.monotonic sid raw =
            .ok (admitted, data) ∧
        validateV2Message data = .ok ⟨id, .detachRoute tag⟩ ∧
        Detached m cr now sid tag server
          (receiveFrame m cr trust now sid draws raw server).server := by
  have hadmitted : ∀ kept, match server.admitFrame m.toConfig
        (fun code message => v2Error code message .null) now.monotonic sid raw with
      | .error step => Server.Stays kept server step.server
      | .ok (server', _) => Server.Stays kept server server' := fun _ => stays_admitFrame
  unfold receiveFrame
  split
  · next step heq =>
      have hstays := hadmitted fun _ _ => True
      rw [heq] at hstays
      exact .inl hstays.grows
  next server' data heq =>
  have hstays : ∀ kept, Server.Stays kept server server' := fun kept => by
    have hstays := hadmitted kept
    rw [heq] at hstays
    exact hstays
  split
  · exact .inl (hstays _).grows
  · exact .inl (hstays _).grows
  next message hmessage =>
  split
  · exact .inl (hstays _).grows
  next sess hs =>
  by_cases hdetach : ∃ tag, message.request = .detachRoute tag
  · obtain ⟨tag, hrequest⟩ := hdetach
    rw [hrequest]
    unfold handle
    split
    · exact .inl (hstays _).grows
    · refine .inr ⟨server', data, message.id, tag, heq, ?_, ?_, ?_⟩
      · rw [hmessage, ← hrequest]
      · exact (hstays _).attends.trans (Hub.attends_detachRoute sid tag)
      · rw [← (hstays fun _ _ => True).mesh]
        exact ⟨_, rfl⟩
  · exact .inl (.after (hstays _) (grows_handle now draws sess message.request
      fun tag heq => hdetach ⟨tag, heq⟩))

end V2

end Masterserver
