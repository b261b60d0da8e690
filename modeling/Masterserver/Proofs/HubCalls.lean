import Masterserver.Proofs.Handovers

/-!
# What a handler asks of the hub

Between two suspensions a handler makes a few calls of the hub's methods and
nothing else happens there. `Calls` is the list of them with what each gave
back, and every handler has a lemma that says which list it is, as far as the
effects of its step tell: a message that was handed over is in both, under
the same result. What the calls keep, the events of a server keep.
-/

namespace Masterserver

open Lib Protocol

/-- A call of `send_session`: the target, the message and what it returned. -/
def Effect.sent? : Effect → Option (String × Json × Bool)
  | .sendSession target message delivered => some (target, message, delivered)
  | _ => none

/-- The calls of `send_session` a step records. -/
def sentIn (effects : List Effect) : List (String × Json × Bool) :=
  effects.filterMap Effect.sent?

theorem sentIn_append (effects effects' : List Effect) :
    sentIn (effects ++ effects') = sentIn effects ++ sentIn effects' := List.filterMap_append

theorem sentIn_toNode (sends : List Send) : sentIn (sends.map .toNode) = [] := by
  rw [sentIn, List.filterMap_eq_nil_iff]
  intro e he
  obtain ⟨send, -, rfl⟩ := List.mem_map.mp he
  rfl

theorem sentIn_of_silent {effects : List Effect} (h : ∀ e ∈ effects, e.silent = true) :
    sentIn effects = [] := by
  rw [sentIn, List.filterMap_eq_nil_iff]
  intro e he
  cases e with
  | sendSession target message delivered => cases h _ he
  | _ => rfl

namespace Hub

/-- A record keeps its routes, its last sign of life and its queue. -/
structure Rewrite (f : Session → Session) : Prop where
  routes : ∀ sess, (f sess).routes = sess.routes
  lastHeartbeat : ∀ sess, (f sess).lastHeartbeat = sess.lastHeartbeat
  outboundQueue : ∀ sess, (f sess).outboundQueue = sess.outboundQueue

/-- A call a handler makes, with what the later calls or the effects depend on. -/
inductive Call
  /-- A rate check of another operation than attaching, or one that is refused. -/
  | check (op : Operation)
  | consume
  | rewrite
  | heartbeat
  /-- `attach_route`, right after the rate check that allowed it. -/
  | attach (routeId : String) (limit : Option Int)
  | detach (routeId : String)
  | mark (key : String)
  | send (target : String) (message : Json) (delivered : Bool)

def Call.sent? : Call → Option (String × Json × Bool)
  | .send target message delivered => some (target, message, delivered)
  | _ => none

/-- The hub after the calls a handler of the session made. -/
inductive Calls (c : Config) (now : Seconds) (sid : String) (hub : Hub) : List Call → Hub → Prop
  | nil : Calls c now sid hub [] hub
  | check {calls : List Call} {hub' : Hub} (h : Calls c now sid hub calls hub') (op : Operation)
      (hop : op = .attachRoute → (hub'.checkRate now sid op).2 = false) :
      Calls c now sid hub (calls ++ [.check op]) (hub'.checkRate now sid op).1
  | consume {calls : List Call} {hub' : Hub} (h : Calls c now sid hub calls hub') :
      Calls c now sid hub (calls ++ [.consume]) (hub'.consumeMessage now).1
  | rewrite {calls : List Call} {hub' : Hub} (h : Calls c now sid hub calls hub')
      {f : Session → Session} (hf : Rewrite f) :
      Calls c now sid hub (calls ++ [.rewrite]) (hub'.updateSession sid f)
  | heartbeat {calls : List Call} {hub' : Hub} (h : Calls c now sid hub calls hub') :
      Calls c now sid hub (calls ++ [.heartbeat]) (hub'.touchHeartbeat now sid)
  | attach {calls : List Call} {hub' : Hub} (h : Calls c now sid hub calls hub')
      (routeId : String) (limit : Option Int)
      (hallowed : (hub'.checkRate now sid .attachRoute).2 = true) :
      Calls c now sid hub (calls ++ [.attach routeId limit])
        ((hub'.checkRate now sid .attachRoute).1.attachRoute c now sid routeId none limit).1
  | detach {calls : List Call} {hub' : Hub} (h : Calls c now sid hub calls hub')
      (routeId : String) :
      Calls c now sid hub (calls ++ [.detach routeId]) (hub'.detachRoute sid routeId)
  | mark {calls : List Call} {hub' : Hub} (h : Calls c now sid hub calls hub') (key : String)
      (ttl : Seconds) :
      Calls c now sid hub (calls ++ [.mark key]) (hub'.checkAndMarkSeen c now key ttl).1
  | send {calls : List Call} {hub' : Hub} (h : Calls c now sid hub calls hub')
      (target : String) (message : Json) :
      Calls c now sid hub
        (calls ++ [.send target message (hub'.sendSession c target message).2])
        (hub'.sendSession c target message).1

variable {c : Config} {cr : Crypto} {now : Seconds} {sid : String} {hub hub' hub'' : Hub}
variable {calls calls' : List Call}

theorem Calls.trans (h : Calls c now sid hub calls hub') (h' : Calls c now sid hub' calls' hub'') :
    Calls c now sid hub (calls ++ calls') hub'' := by
  induction h' with
  | nil =>
      rw [List.append_nil]
      exact h
  | check _ op hop ih =>
      rw [← List.append_assoc]
      exact ih.check op hop
  | consume _ ih =>
      rw [← List.append_assoc]
      exact ih.consume
  | rewrite _ hf ih =>
      rw [← List.append_assoc]
      exact ih.rewrite hf
  | heartbeat _ ih =>
      rw [← List.append_assoc]
      exact ih.heartbeat
  | attach _ routeId limit hallowed ih =>
      rw [← List.append_assoc]
      exact ih.attach routeId limit hallowed
  | detach _ routeId ih =>
      rw [← List.append_assoc]
      exact ih.detach routeId
  | mark _ key ttl ih =>
      rw [← List.append_assoc]
      exact ih.mark key ttl
  | send _ target message ih =>
      rw [← List.append_assoc]
      exact ih.send target message

/-- The keys a HELLO brings are written into the record. -/
theorem Calls.identity (h : Calls c now sid hub calls hub') {identityKeyHex encryptionKeyHex : String}
    (hset : hub'.setV2Identity cr sid identityKeyHex encryptionKeyHex = some hub'') :
    Calls c now sid hub (calls ++ [.rewrite]) hub'' := by
  unfold setV2Identity at hset
  simp only [Option.bind_eq_bind, Option.bind_eq_some_iff] at hset
  obtain ⟨sess, hs, identityKey, -, encryptionKey, -, heq⟩ := hset
  have hrecord : hub'' = hub'.updateSession sid fun sess =>
      { sess with
        protocolVersion := 2
        identityKeyHex := some identityKeyHex
        identityKeyId := some (hexdigest (cr.sha256 identityKey))
        encryptionKeyHex := some encryptionKeyHex
        encryptionKeyId := some (hexdigest (cr.sha256 encryptionKey)) } := by
    rw [← Option.some.inj heq, updateSession, hs]
  rw [hrecord]
  exact h.rewrite ⟨fun _ => rfl, fun _ => rfl, fun _ => rfl⟩

/-- A step whose handler made the calls its effects tell of. -/
def Traces (c : Config) (now : Seconds) (sid : String) (hub : Hub) (step : Step) : Prop :=
  ∃ calls, Calls c now sid hub calls step.server.hub ∧
    calls.filterMap Call.sent? = sentIn step.effects

theorem Traces.after (calls : List Call) (h : Calls c now sid hub calls hub')
    (hcalls : calls.filterMap Call.sent? = []) {step : Step} (hstep : Traces c now sid hub' step) :
    Traces c now sid hub step := by
  obtain ⟨calls', hcalls', hsent⟩ := hstep
  refine ⟨calls ++ calls', h.trans hcalls', ?_⟩
  rw [List.filterMap_append, hcalls, hsent, List.nil_append]

/-- A step whose handler made calls that are no session's. -/
def LinkTraces (c : Config) (now : Seconds) (hub : Hub) (step : Step) : Prop :=
  ∃ calls, (∀ sid, Calls c now sid hub calls step.server.hub) ∧
    calls.filterMap Call.sent? = sentIn step.effects

theorem LinkTraces.traces {step : Step} (h : LinkTraces c now hub step) (sid : String) :
    Traces c now sid hub step := by
  obtain ⟨calls, hcalls, hsent⟩ := h
  exact ⟨calls, hcalls sid, hsent⟩

theorem LinkTraces.after (calls : List Call) (h : ∀ sid, Calls c now sid hub calls hub')
    (hcalls : calls.filterMap Call.sent? = []) {step : Step} (hstep : LinkTraces c now hub' step) :
    LinkTraces c now hub step := by
  obtain ⟨calls', hcalls', hsent⟩ := hstep
  refine ⟨calls ++ calls', fun sid => (h sid).trans (hcalls' sid), ?_⟩
  rw [List.filterMap_append, hcalls, hsent, List.nil_append]

end Hub

open Hub

/-! ## The beginning of a receive loop -/

theorem calls_admitFrame_error {c : Config} {error : String → String → Json} {now : Seconds}
    {sid : String} {raw : List Char} {server : Server} {step : Step}
    (h : server.admitFrame c error now sid raw = .error step) :
    Traces c now sid server.hub step := by
  have hcheck : Calls c now sid server.hub [.check .message]
      (server.hub.checkRate now sid .message).1 := Calls.nil.check .message (fun h => by cases h)
  unfold Server.admitFrame at h
  split at h
  · cases h
    exact ⟨[], .nil, rfl⟩
  simp only at h
  split at h
  · cases h
    exact ⟨_, hcheck, rfl⟩
  split at h
  · cases h
    exact ⟨_, hcheck.consume, rfl⟩
  split at h
  · cases h
    exact ⟨_, hcheck.consume, rfl⟩
  · cases h
    exact ⟨_, hcheck.consume, rfl⟩
  · cases h

theorem calls_admitFrame_ok {c : Config} {error : String → String → Json} {now : Seconds}
    {sid : String} {raw : List Char} {server server' : Server} {data : Json}
    (h : server.admitFrame c error now sid raw = .ok (server', data)) :
    Calls c now sid server.hub [.check .message, .consume] server'.hub := by
  unfold Server.admitFrame at h
  split at h
  · cases h
  simp only at h
  split at h
  · cases h
  split at h
  · cases h
  split at h
  · cases h
  · cases h
  · cases h
    exact (Calls.nil.check .message fun h => by cases h).consume

theorem calls_proofTimeout {c : Config} {now : Seconds} {sid : String}
    (error : String → String → Json) (server : Server) :
    Traces c now sid server.hub (server.proofTimeout error) := ⟨[], .nil, rfl⟩

/-! ## The legacy endpoint -/

namespace V1

variable {c : Config} {cr : Crypto} {now : Seconds} {sid : String}

theorem calls_handleProve (sess : Session) (signatureHex : String) (server : Server) :
    Traces c now sid server.hub (handleProve cr now sid sess signatureHex server) := by
  have hrate : Calls c now sid server.hub [.check .prove]
      (server.hub.checkRate now sid .prove).1 := Calls.nil.check .prove (fun h => by cases h)
  unfold handleProve
  simp only
  split
  · exact ⟨_, hrate, rfl⟩
  split
  · exact ⟨_, hrate, rfl⟩
  split
  · exact ⟨_, hrate, rfl⟩
  split
  · exact ⟨_, hrate, rfl⟩
  · refine ⟨_, Calls.heartbeat (.rewrite hrate ?_), rfl⟩
    exact ⟨fun _ => rfl, fun _ => rfl, fun _ => rfl⟩

theorem calls_handlePing (server : Server) :
    Traces c now sid server.hub (handlePing now sid server) := by
  have hrate : Calls c now sid server.hub [.check .heartbeat]
      (server.hub.checkRate now sid .heartbeat).1 := Calls.nil.check .heartbeat (fun h => by cases h)
  unfold handlePing
  simp only
  split
  · exact ⟨_, hrate, rfl⟩
  · exact ⟨_, hrate.heartbeat, rfl⟩

theorem calls_handleAttachRoute (routeId : String) (server : Server) :
    Traces c now sid server.hub (handleAttachRoute c now sid routeId server) := by
  unfold handleAttachRoute
  simp only
  split
  · next hrefused =>
      rw [Bool.not_eq_true'] at hrefused
      exact ⟨_, Calls.nil.check .attachRoute fun _ => hrefused, rfl⟩
  next hallowed =>
  rw [Bool.not_eq_true', Bool.not_eq_false] at hallowed
  have hnone : Calls c now sid server.hub [] server.hub := .nil
  have hattach := hnone.attach routeId
    (some (c.maxV1RoutesPerSession : Int)) hallowed
  split
  · exact ⟨_, hattach, rfl⟩
  · exact ⟨_, hattach, rfl⟩
  · exact ⟨_, hattach, rfl⟩

theorem calls_handleDetachRoute (routeId : String) (server : Server) :
    Traces c now sid server.hub (handleDetachRoute sid routeId server) := by
  unfold handleDetachRoute
  simp only [Server.done]
  split
  · exact ⟨[], .nil, rfl⟩
  · exact ⟨_, Calls.nil.detach _, rfl⟩

theorem calls_handleDiscover (sess : Session) (routeId : String) (server : Server) :
    Traces c now sid server.hub (handleDiscover now sid sess routeId server) := by
  have hrate : Calls c now sid server.hub [.check .discover]
      (server.hub.checkRate now sid .discover).1 := Calls.nil.check .discover (fun h => by cases h)
  unfold handleDiscover
  simp only
  split
  · exact ⟨_, hrate, rfl⟩
  split
  · exact ⟨_, hrate, rfl⟩
  · exact ⟨_, hrate, rfl⟩

theorem calls_handleRouteMessage (sess : Session) (type : RelayType) (data payload : Payload)
    (routeId : String) (server : Server) :
    Traces c now sid server.hub
      (handleRouteMessage c cr now sid sess type data payload routeId server) := by
  unfold handleRouteMessage
  generalize hop : (if type = .forward then Operation.forward else Operation.signal) = op
  have hne : op ≠ .attachRoute := by
    rw [← hop]
    split <;> decide
  have hrate : Calls c now sid server.hub [.check op]
      (server.hub.checkRate now sid op).1 := Calls.nil.check op (fun h => absurd h hne)
  simp only
  split
  · exact ⟨_, hrate, rfl⟩
  split
  · exact ⟨_, hrate, rfl⟩
  have hseen := hrate.mark (relayKey cr type payload routeId) c.dedupeWindowSeconds
  split
  · exact ⟨_, hseen, rfl⟩
  split
  · exact ⟨_, hseen, rfl⟩
  · exact ⟨_, hseen, rfl⟩

theorem calls_handle (draws : Draws) (sess : Session) (message : V1Message) (server : Server) :
    Traces c now sid server.hub (handle c cr now sid draws sess message server) := by
  unfold handle
  split
  · exact ⟨[], .nil, rfl⟩
  cases message with
  | hello publicKeyHex =>
      simp only
      split
      · exact ⟨[], .nil, rfl⟩
      · exact ⟨_, Calls.nil.rewrite ⟨fun _ => rfl, fun _ => rfl, fun _ => rfl⟩, rfl⟩
  | prove signatureHex =>
      simp only
      split
      · exact ⟨[], .nil, rfl⟩
      · exact calls_handleProve sess signatureHex server
  | ping => exact calls_handlePing server
  | attachRoute routeId => exact calls_handleAttachRoute routeId server
  | detachRoute routeId => exact calls_handleDetachRoute routeId server
  | discover routeId => exact calls_handleDiscover sess routeId server
  | relay type data payload routeId =>
      exact calls_handleRouteMessage sess type data payload routeId server

theorem calls_receiveFrame (draws : Draws) (raw : List Char) (server : Server) :
    Traces c now sid server.hub (receiveFrame c cr now sid draws raw server) := by
  unfold receiveFrame
  split
  · next step heq => exact calls_admitFrame_error heq
  next server' data heq =>
  have hadmitted := calls_admitFrame_ok heq
  split
  · exact ⟨_, hadmitted, rfl⟩
  · exact ⟨_, hadmitted, rfl⟩
  split
  · exact ⟨_, hadmitted, rfl⟩
  · exact .after _ hadmitted rfl (calls_handle draws _ _ server')

/-- The tasks of a relay only queue. -/
theorem calls_relayTo (outgoing : Json) (subscribers : List String) (server : Server) :
    Traces c now sid server.hub (relayTo c outgoing subscribers server) := by
  have hloop : ∃ calls, Calls c now sid server.hub calls
      (subscribers.foldl (relayTask c outgoing) (server, [])).1.hub ∧
      calls.filterMap Call.sent? =
        sentIn (subscribers.foldl (relayTask c outgoing) (server, [])).2 := by
    refine foldl_invariant (P := fun acc : Server × List Effect =>
      ∃ calls, Calls c now sid server.hub calls acc.1.hub ∧
        calls.filterMap Call.sent? = sentIn acc.2) subscribers ⟨[], .nil, rfl⟩ ?_
    rintro ⟨server', effects⟩ target - ⟨calls, hcalls, hsent⟩
    refine ⟨_, hcalls.send target outgoing, ?_⟩
    rw [List.filterMap_append, hsent]
    exact (sentIn_append effects
      [.sendSession target outgoing (server'.hub.sendSession c target outgoing).2]).symm
  exact hloop

end V1

/-! ## The second endpoint -/

namespace V2

variable {m : MeshConfig} {cr : Crypto} {trust : NodeTrust} {now : Clocks} {sid : String}
variable {id : Json}

theorem calls_handleHello (draws : Draws) (sess : Session) (grant : Payload)
    (identityKeyHex encryptionKeyHex : String) (server : Server) :
    Traces m.toConfig now.monotonic sid server.hub
      (handleHello m cr trust now sid id draws sess grant identityKeyHex encryptionKeyHex
        server) := by
  unfold handleHello
  split
  · exact ⟨[], .nil, rfl⟩
  split
  · exact ⟨[], .nil, rfl⟩
  split
  · exact ⟨[], .nil, rfl⟩
  · exact ⟨[], .nil, rfl⟩
  simp only
  split
  · next hset =>
      refine ⟨_, Calls.identity (.rewrite .nil ?_) hset, rfl⟩
      exact ⟨fun _ => rfl, fun _ => rfl, fun _ => rfl⟩
  · exact ⟨[], .nil, rfl⟩

theorem calls_handleProve (sess : Session) (signatureHex : String) (server : Server) :
    Traces m.toConfig now.monotonic sid server.hub
      (handleProve m cr now sid id sess signatureHex server) := by
  have hrate : Calls m.toConfig now.monotonic sid server.hub [.check .prove]
      (server.hub.checkRate now.monotonic sid .prove).1 :=
    Calls.nil.check .prove (fun h => by cases h)
  unfold handleProve
  split
  · exact ⟨[], .nil, rfl⟩
  simp only
  split
  · exact ⟨_, hrate, rfl⟩
  split
  · exact ⟨_, hrate, rfl⟩
  split
  · exact ⟨_, hrate, rfl⟩
  split
  · exact ⟨_, hrate, rfl⟩
  · refine ⟨_, Calls.heartbeat (.rewrite hrate ?_), rfl⟩
    exact ⟨fun _ => rfl, fun _ => rfl, fun _ => rfl⟩

theorem calls_handlePing (m : MeshConfig) (server : Server) :
    Traces m.toConfig now.monotonic sid server.hub (handlePing now sid id server) := by
  have hrate : Calls m.toConfig now.monotonic sid server.hub [.check .heartbeat]
      (server.hub.checkRate now.monotonic sid .heartbeat).1 :=
    Calls.nil.check .heartbeat (fun h => by cases h)
  unfold handlePing
  simp only
  split
  · exact ⟨_, hrate, rfl⟩
  · exact ⟨_, hrate.heartbeat, rfl⟩

theorem sentIn_sends_answer (sends : List Send) (protocol type : String)
    (payload : List (String × Json)) :
    sentIn (sends.map .toNode ++ [answer id protocol type payload]) = [] := by
  rw [sentIn_append, sentIn_toNode]
  rfl

theorem calls_handleAttachRoute (routeTag : String) (server : Server) :
    Traces m.toConfig now.monotonic sid server.hub
      (handleAttachRoute m cr now sid id routeTag server) := by
  unfold handleAttachRoute
  simp only
  split
  · next hrefused =>
      rw [Bool.not_eq_true'] at hrefused
      exact ⟨_, Calls.nil.check .attachRoute fun _ => hrefused, rfl⟩
  next hallowed =>
  rw [Bool.not_eq_true', Bool.not_eq_false] at hallowed
  have hnone : Calls m.toConfig now.monotonic sid server.hub [] server.hub := .nil
  have hattach := hnone.attach routeTag none hallowed
  split
  · exact ⟨_, hattach, rfl⟩
  · exact ⟨_, hattach, rfl⟩
  · exact ⟨_, hattach, (sentIn_sends_answer _ _ _ _).symm⟩

theorem calls_handleDetachRoute (routeTag : String) (server : Server) :
    Traces m.toConfig now.monotonic sid server.hub
      (handleDetachRoute m cr now sid id routeTag server) :=
  ⟨_, Calls.nil.detach routeTag, (sentIn_sends_answer _ _ _ _).symm⟩

theorem calls_handleDiscover (sess : Session) (routeTag : String) (server : Server) :
    Traces m.toConfig now.monotonic sid server.hub
      (handleDiscover m cr now sid id sess routeTag server) := by
  have hrate : Calls m.toConfig now.monotonic sid server.hub [.check .discover]
      (server.hub.checkRate now.monotonic sid .discover).1 :=
    Calls.nil.check .discover (fun h => by cases h)
  unfold handleDiscover
  simp only
  split
  · exact ⟨_, hrate, rfl⟩
  split
  · exact ⟨_, hrate, rfl⟩
  split
  · exact ⟨_, hrate, rfl⟩
  · exact ⟨_, hrate, rfl⟩

theorem calls_relaySignal (draws : Draws) (signal : Signal) (server : Server) :
    Traces m.toConfig now.monotonic sid server.hub
      (relaySignal m now sid id draws signal server) := by
  have hhub : (recipientKeyId now signal.toSessionId server).1.hub = server.hub := by
    unfold recipientKeyId
    split <;> rfl
  unfold relaySignal
  simp only [hhub]
  split
  · refine ⟨[], ?_, rfl⟩
    rw [Server.done, hhub]
    exact .nil
  split
  · exact ⟨_, Calls.nil.send _ _, rfl⟩
  split
  · exact ⟨[], .nil, rfl⟩
  · exact ⟨[], .nil, rfl⟩

theorem calls_handleSignal (draws : Draws) (sess : Session) (signal : Signal) (server : Server) :
    Traces m.toConfig now.monotonic sid server.hub
      (handleSignal m cr now sid id draws sess signal server) := by
  have hrate : Calls m.toConfig now.monotonic sid server.hub [.check .signalV2]
      (server.hub.checkRate now.monotonic sid .signalV2).1 :=
    Calls.nil.check .signalV2 (fun h => by cases h)
  have hseen := hrate.mark (replayKey sid signal) m.dedupeWindowSeconds
  unfold handleSignal
  simp only
  split
  · exact ⟨[], .nil, rfl⟩
  split
  · exact ⟨[], .nil, rfl⟩
  split
  · exact ⟨[], .nil, rfl⟩
  split
  · exact ⟨_, hrate, rfl⟩
  split
  · exact ⟨_, hrate, rfl⟩
  split
  · exact ⟨_, hrate, rfl⟩
  split
  · exact ⟨_, hrate, rfl⟩
  split
  · exact ⟨_, hrate, rfl⟩
  split
  · exact ⟨_, hseen, rfl⟩
  · have hwatermark := hseen.rewrite
      (f := fun sess => { sess with lastSignalSequence := signal.sequence })
      ⟨fun _ => rfl, fun _ => rfl, fun _ => rfl⟩
    refine .after [.check .signalV2, .mark (replayKey sid signal), .rewrite] ?_ rfl
      (calls_relaySignal draws signal _)
    exact hwatermark

theorem calls_handle (draws : Draws) (sess : Session) (request : V2Request) (server : Server) :
    Traces m.toConfig now.monotonic sid server.hub
      (handle m cr trust now sid id draws sess request server) := by
  unfold handle
  split
  · exact ⟨[], .nil, rfl⟩
  cases request with
  | hello grant identityKeyHex encryptionKeyHex =>
      exact calls_handleHello draws sess grant identityKeyHex encryptionKeyHex server
  | prove signatureHex => exact calls_handleProve sess signatureHex server
  | ping => exact calls_handlePing m server
  | attachRoute routeTag => exact calls_handleAttachRoute routeTag server
  | detachRoute routeTag => exact calls_handleDetachRoute routeTag server
  | discover routeTag => exact calls_handleDiscover sess routeTag server
  | signal signal => exact calls_handleSignal draws sess signal server

omit id in
theorem calls_receiveFrame (draws : Draws) (raw : List Char) (server : Server) :
    Traces m.toConfig now.monotonic sid server.hub
      (receiveFrame m cr trust now sid draws raw server) := by
  unfold receiveFrame
  split
  · next step heq => exact calls_admitFrame_error heq
  next server' data heq =>
  have hadmitted := calls_admitFrame_ok heq
  split
  · exact ⟨_, hadmitted, rfl⟩
  · exact ⟨_, hadmitted, rfl⟩
  split
  · exact ⟨_, hadmitted, rfl⟩
  · exact .after _ hadmitted rfl (calls_handle draws _ _ server')

end V2

/-! ## The node links -/

namespace Server

variable {m : MeshConfig} {cr : Crypto} {now : Clocks} {nodeId : String} {link : Nat}

theorem calls_withMesh (server : Server) (mesh : NodeMesh) (sends : List Send) :
    LinkTraces m.toConfig now.monotonic server.hub (server.withMesh mesh sends) :=
  ⟨[], fun _ => .nil, (sentIn_toNode sends).symm⟩

/-- A message of a peer only fills a queue. -/
theorem calls_handleMessage (server : Server) (type : String) (payload : Payload) {step : Step}
    (h : server.handleMessage m cr now nodeId link type payload = some step) :
    LinkTraces m.toConfig now.monotonic server.hub step := by
  unfold handleMessage at h
  simp only at h
  split at h
  · cases h
    exact calls_withMesh _ _ _
  split at h
  · cases h
    exact calls_withMesh _ _ _
  split at h
  · cases h
    exact calls_withMesh _ _ _
  split at h
  · obtain ⟨mesh, -, rfl⟩ := Option.map_eq_some_iff.mp h
    exact calls_withMesh _ _ _
  split at h
  · unfold handleSignalForward at h
    split at h
    · cases h
    · simp only at h
      split at h
      · split at h
        · cases h
          exact ⟨_, fun _ => Calls.nil.send _ _, rfl⟩
        · cases h
          exact ⟨[], fun _ => .nil, rfl⟩
      · cases h
        exact ⟨[], fun _ => .nil, rfl⟩
  split at h
  · obtain ⟨mesh, -, rfl⟩ := Option.map_eq_some_iff.mp h
    exact calls_withMesh _ _ _
  split at h
  · cases h
    exact calls_withMesh _ _ _
  · cases h
    exact ⟨[], fun _ => .nil, rfl⟩

theorem calls_receiveNodeFrame (m : MeshConfig) (cr : Crypto) (now : Clocks) (nodeId : String)
    (link : Nat) (bucket : TokenBucket) (raw : List Char) (server : Server) :
    LinkTraces m.toConfig now.monotonic server.hub
      (server.receiveNodeFrame m cr now nodeId link bucket raw).2 := by
  unfold receiveNodeFrame
  split
  · exact ⟨[], fun _ => .nil, rfl⟩
  simp only
  split
  · exact ⟨[], fun _ => .nil, rfl⟩
  split
  · exact ⟨[], fun _ => .nil, rfl⟩
  split
  · exact ⟨[], fun _ => .nil, rfl⟩
  · exact ⟨[], fun _ => .nil, rfl⟩
  next type id payload _ =>
  simp only
  have hseen : ∀ sid, Calls m.toConfig now.monotonic sid server.hub
      [.mark s!"node:{nodeId}:{id}"]
      (server.hub.checkAndMarkSeen m.toConfig now.monotonic s!"node:{nodeId}:{id}"
        m.dedupeWindowSeconds).1 := fun _ => Calls.nil.mark _ _
  split
  · exact ⟨_, hseen, rfl⟩
  · cases hstep : ({ server with
      hub := (server.hub.checkAndMarkSeen m.toConfig now.monotonic
        s!"node:{nodeId}:{id}" m.dedupeWindowSeconds).1 } : Server).handleMessage m cr now
        nodeId link type payload with
    | none => exact ⟨_, hseen, rfl⟩
    | some step => exact .after _ hseen rfl (calls_handleMessage _ type payload hstep)

end Server

end Masterserver
