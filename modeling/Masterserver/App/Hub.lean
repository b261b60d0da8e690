import Masterserver.App.RateLimits
import Masterserver.App.SessionCrypto
import Masterserver.Lib.Dict
import Masterserver.Lib.Json
import Masterserver.Lib.Sorting

/-!
# The hub: sessions, routes, dedupe cache and outbound queues

All server-side state of one node, in memory only. Every method is a function
from the hub before to the hub after; a method that reads the monotonic clock
takes the reading as `now`, and `createSession` takes the identifier its UUID
call drew.

A method of the source runs without giving up control up to its first `await`
on something that can really block, so each function below is one atomic step.
The writer loop is the exception and is cut at its two suspension points: a
writer waits on the queue or is in the middle of a send, and `writerDequeue`,
`writerSent` and `writerFailed` are what happens when it resumes. Removing a
session cancels its writer, but the task only learns of it when it resumes,
so `writers` outlives `sessions`.

Sockets, metrics and the creation time of a session are left out: nothing here
reads them.
-/

namespace Masterserver

open Lib

/-- The size `send_session` charges for a message. -/
def encodedBytes (data : Json) : Nat := String.utf8Len data.dumps

/-- A queued message with the size it was admitted at. -/
structure Frame where
  data : Json
  size : Nat
  sized : size = encodedBytes data

structure Session where
  proven : Bool := false
  challenge : Option Bytes := none
  publicKeyRaw : Option Bytes := none
  identityKeyHex : Option String := none
  identityKeyId : Option String := none
  lastHeartbeat : Seconds
  routes : Finset String := ∅
  encryptionKeyHex : Option String := none
  encryptionKeyId : Option String := none
  protocolVersion : Nat := 1
  lastSignalSequence : Int := -1
  outboundQueue : List Frame := []
  outboundBytes : Int := 0

/-- Where a writer task stands: at `queue.get()`, inside a send, or finished. -/
inductive Writer
  | waiting
  | sending (frame : Frame)
  | done

structure Hub where
  sessions : Dict String Session
  routes : Dict String (Dict String Seconds)
  seen : Dict String Seconds
  outboundQueuedBytes : Int
  writers : Dict String Writer
  rateLimiter : RateLimiterRegistry
  globalMessageLimiter : TokenBucket

namespace Hub

def new (c : Config) (now : Seconds) : Hub where
  sessions := ∅
  routes := ∅
  seen := ∅
  outboundQueuedBytes := 0
  writers := ∅
  rateLimiter := .empty
  globalMessageLimiter := .new c.messageGlobalBurst c.messageGlobalPerSecond now

variable (hub : Hub)

/-! ## Sessions -/

def createSession (now : Seconds) (sessionId : String) : Hub :=
  { hub with sessions := hub.sessions.set sessionId { lastHeartbeat := now } }

def sessionCount : Nat := hub.sessions.size

/-- Rewrite one session's record, if it is there. -/
def updateSession (sessionId : String) (f : Session → Session) : Hub :=
  match hub.sessions.get? sessionId with
  | none => hub
  | some sess => { hub with sessions := hub.sessions.set sessionId (f sess) }

def touchHeartbeat (now : Seconds) (sessionId : String) : Hub :=
  hub.updateSession sessionId fun sess => { sess with lastHeartbeat := now }

/-- Raises (`none`) for a missing session or a key that is not hexadecimal. -/
def setV2Identity (cr : Crypto) (sessionId identityKeyHex encryptionKeyHex : String) :
    Option Hub := do
  let sess ← hub.sessions.get? sessionId
  let identityKey ← fromHex identityKeyHex
  let encryptionKey ← fromHex encryptionKeyHex
  pure { hub with
    sessions := hub.sessions.set sessionId
      { sess with
        protocolVersion := 2
        identityKeyHex := some identityKeyHex
        identityKeyId := some (hexdigest (cr.sha256 identityKey))
        encryptionKeyHex := some encryptionKeyHex
        encryptionKeyId := some (hexdigest (cr.sha256 encryptionKey)) } }

/-- What the hub tells about a session: only proven V2 sessions have one. -/
structure PeerDescriptor where
  sessionId : String
  encryptionKeyHex : Option String
  keyId : Option String
  deriving DecidableEq

def peerDescriptor (sessionId : String) : Option PeerDescriptor :=
  match hub.sessions.get? sessionId with
  | none => none
  | some sess =>
      if !sess.proven || sess.protocolVersion != 2 then none
      else some ⟨sessionId, sess.encryptionKeyHex, sess.encryptionKeyId⟩

/-! ## Routes -/

inductive AttachError
  | unknownSession
  | tooManyRoutes
  deriving DecidableEq

/-- The hub after the call, and the exception if it raised one. -/
def attachRoute (c : Config) (now : Seconds) (sessionId routeId : String)
    (ttlSeconds : Option Seconds) (maxRoutes : Option Int) : Hub × Option AttachError :=
  match hub.sessions.get? sessionId with
  | none => (hub, some .unknownSession)
  | some sess =>
      let routeLimit := maxRoutes.getD c.maxRoutesPerSession
      if routeId ∉ sess.routes ∧ routeLimit ≤ sess.routes.card then
        (hub, some .tooManyRoutes)
      else
        let ttl := ttlSeconds.getD c.routeLeaseSeconds
        let route := hub.routes.getD routeId ∅
        ({ hub with
            routes := hub.routes.set routeId (route.set sessionId (now + ttl))
            sessions := hub.sessions.set sessionId
              { sess with routes := insert routeId sess.routes } }, none)

def heartbeatRoute (c : Config) (now : Seconds) (sessionId routeId : String)
    (ttlSeconds : Option Seconds) : Hub × Bool :=
  match hub.routes.get? routeId with
  | none => (hub, false)
  | some route =>
      if route.contains sessionId then
        let ttl := ttlSeconds.getD c.routeLeaseSeconds
        ({ hub with routes := hub.routes.set routeId (route.set sessionId (now + ttl)) }, true)
      else (hub, false)

/-- Store a route's subscribers, dropping the route once it has none. -/
def storeRoute (routeId : String) (route : Dict String Seconds) : Hub :=
  { hub with
    routes := if route.size = 0 then hub.routes.erase routeId else hub.routes.set routeId route }

/-- `sess["routes"].discard(route_id)` for a session that may be gone. -/
def discardRoute (routeId sessionId : String) : Hub :=
  hub.updateSession sessionId fun sess => { sess with routes := sess.routes.erase routeId }

def detachRoute (sessionId routeId : String) : Hub :=
  let hub' := match hub.routes.get? routeId with
    | none => hub
    | some route => hub.storeRoute routeId (route.erase sessionId)
  hub'.discardRoute routeId sessionId

/-- The sessions with a live lease on a route, in the order of their leases. -/
def routeSubscribers (now : Seconds) (routeId : String) (exclude : Option String) :
    List String :=
  ((hub.routes.getD routeId ∅).filter fun sid expiresAt =>
    decide (now < expiresAt) && decide (some sid ≠ exclude)).keys

def routePeerDescriptors (now : Seconds) (routeId : String) (exclude : Option String) :
    List PeerDescriptor :=
  (hub.routeSubscribers now routeId exclude).filterMap hub.peerDescriptor

/-- One route of `prune_routes`: its expired leases go, each also from the
session that held it, and the route goes with the last of them. -/
def pruneRoute (now : Seconds) (routeId : String) : Hub :=
  match hub.routes.get? routeId with
  | none => hub
  | some route =>
      let expired := (route.filter fun _ expiresAt => expiresAt ≤ now).keys
      let live := route.filter fun _ expiresAt => now < expiresAt
      expired.foldl (fun hub sid => hub.discardRoute routeId sid) (hub.storeRoute routeId live)

def pruneRoutes (now : Seconds) : Hub :=
  hub.routes.keys.foldl (fun hub routeId => hub.pruneRoute now routeId) hub

/-! ## Removal

The two byte counters are clamped at zero wherever something is subtracted
from them. The clamp is a parameter, so that the claim that it never acts can
be said: the source's functions are the ones at `clamp`. -/

/-- `max(0, x)`. -/
def clamp (x : Int) : Int := max 0 x

def removeSessionBy (clamp : Int → Int) (sessionId : String) : Hub :=
  match hub.sessions.get? sessionId with
  | none => hub
  | some sess =>
      let hub' := { hub with
        sessions := hub.sessions.erase sessionId
        outboundQueuedBytes := clamp (hub.outboundQueuedBytes - sess.outboundBytes) }
      let hub' := (sorted sess.routes).foldl
        (fun hub routeId => hub.detachRoute sessionId routeId) hub'
      { hub' with rateLimiter := hub'.rateLimiter.dropSession sessionId }

def removeSession (sessionId : String) : Hub := hub.removeSessionBy clamp sessionId

def staleSessions (c : Config) (now : Seconds) : List String :=
  (hub.sessions.filter fun _ sess =>
    c.sessionStaleSeconds < now - sess.lastHeartbeat).keys

def pruneStaleSessionsBy (clamp : Int → Int) (c : Config) (now : Seconds) : Hub :=
  (hub.staleSessions c now).foldl (fun hub sid => hub.removeSessionBy clamp sid) hub

def pruneStaleSessions (c : Config) (now : Seconds) : Hub :=
  hub.pruneStaleSessionsBy clamp c now

/-! ## Outbound queues -/

/-- A writer task is created if there is none or the last one has finished. -/
def startWriter (writers : Dict String Writer) (sessionId : String) : Dict String Writer :=
  match writers.get? sessionId with
  | none | some .done => writers.set sessionId .waiting
  | some _ => writers

/-- Queue one message: the hub after the call and what it returned. -/
def sendSession (c : Config) (sessionId : String) (data : Json) : Hub × Bool :=
  match hub.sessions.get? sessionId with
  | none => (hub, false)
  | some sess =>
      let size := encodedBytes data
      if c.outboundQueueFrames ≤ sess.outboundQueue.length ∨
          (c.outboundQueueBytes : Int) < sess.outboundBytes + size then
        (hub, false)
      else
        ({ hub with
            sessions := hub.sessions.set sessionId
              { sess with
                outboundQueue := sess.outboundQueue ++ [⟨data, size, rfl⟩]
                outboundBytes := sess.outboundBytes + size }
            outboundQueuedBytes := hub.outboundQueuedBytes + size
            writers := startWriter hub.writers sessionId }, true)

/-- A waiting writer takes the oldest frame and starts sending it. -/
def writerDequeue (sessionId : String) : Hub :=
  match hub.writers.get? sessionId, hub.sessions.get? sessionId with
  | some .waiting, some sess =>
      match sess.outboundQueue with
      | [] => hub
      | frame :: rest =>
          { hub with
            sessions := hub.sessions.set sessionId { sess with outboundQueue := rest }
            writers := hub.writers.set sessionId (.sending frame) }
  | _, _ => hub

/-- The `finally` of a send: the frame leaves the two counters if the session
is still the one it was queued for. -/
def releaseFrameBy (clamp : Int → Int) (sessionId : String) (frame : Frame) : Hub :=
  match hub.sessions.get? sessionId with
  | none => hub
  | some sess =>
      { hub with
        sessions := hub.sessions.set sessionId
          { sess with outboundBytes := clamp (sess.outboundBytes - frame.size) }
        outboundQueuedBytes := clamp (hub.outboundQueuedBytes - frame.size) }

/-- A send completes: the loop goes round while its session is there. -/
def writerSentBy (clamp : Int → Int) (sessionId : String) : Hub :=
  match hub.writers.get? sessionId with
  | some (.sending frame) =>
      let next := if hub.sessions.contains sessionId then Writer.waiting else .done
      { hub.releaseFrameBy clamp sessionId frame with
        writers := hub.writers.set sessionId next }
  | _ => hub

/-- A send raises, or the cancellation of a removed session's writer is
delivered: the loop ends, and a send under way is accounted for first. -/
def writerFailedBy (clamp : Int → Int) (sessionId : String) : Hub :=
  match hub.writers.get? sessionId with
  | some (.sending frame) =>
      { hub.releaseFrameBy clamp sessionId frame with
        writers := hub.writers.set sessionId .done }
  | some .waiting =>
      if hub.sessions.contains sessionId then hub
      else { hub with writers := hub.writers.set sessionId .done }
  | _ => hub

def writerSent (sessionId : String) : Hub := hub.writerSentBy clamp sessionId

def writerFailed (sessionId : String) : Hub := hub.writerFailedBy clamp sessionId

/-! ## Dedupe -/

def pruneDedupe (now : Seconds) : Hub :=
  { hub with seen := hub.seen.filter fun _ expiresAt => now < expiresAt }

def checkAndMarkSeen (c : Config) (now : Seconds) (dedupeKey : String) (ttlSeconds : Seconds) :
    Hub × Bool :=
  match hub.seen.get? dedupeKey with
  | some expiresAt =>
      if now < expiresAt then (hub, false)
      else ({ hub with seen := hub.seen.set dedupeKey (now + ttlSeconds) }, true)
  | none =>
      let hub' := if c.maxDedupeEntries ≤ hub.seen.size then hub.pruneDedupe now else hub
      if c.maxDedupeEntries ≤ hub'.seen.size then (hub', false)
      else ({ hub' with seen := hub'.seen.set dedupeKey (now + ttlSeconds) }, true)

/-! ## Limits -/

/-- `hub.rate_limiter.check`. -/
def checkRate (now : Seconds) (sessionId : String) (op : Operation) : Hub × Bool :=
  let (allowed, rateLimiter) := hub.rateLimiter.check now sessionId op
  ({ hub with rateLimiter := rateLimiter }, allowed)

/-- `hub.global_message_limiter.try_consume()`. -/
def consumeMessage (now : Seconds) : Hub × Bool :=
  let (allowed, globalMessageLimiter) := hub.globalMessageLimiter.tryConsume now 1
  ({ hub with globalMessageLimiter := globalMessageLimiter }, allowed)

end Hub

end Masterserver
