import Masterserver.App.Hub
import Masterserver.Lib.System

/-!
# Runs of the hub

The hub under any sequence of its own operations with any arguments: what the
two WebSocket endpoints, the node mesh and the cleanup loop can do to it
between them, and more, since nothing ties the arguments together. Three
things are required of a run. Readings of the monotonic clock do not
decrease; a UUID is never drawn twice, so `createSession` uses an identifier
that was not issued before; and a session is created only while the count is
below `maxConcurrency`, which is the test both endpoints make first.
-/

namespace Masterserver

open Lib

inductive HubOp
  | createSession (sessionId : String)
  | touchHeartbeat (sessionId : String)
  | attachRoute (sessionId routeId : String) (ttlSeconds : Option Seconds)
      (maxRoutes : Option Int)
  | heartbeatRoute (sessionId routeId : String) (ttlSeconds : Option Seconds)
  | detachRoute (sessionId routeId : String)
  | pruneRoutes
  | pruneStaleSessions
  | removeSession (sessionId : String)
  | sendSession (sessionId : String) (data : Json)
  | writerDequeue (sessionId : String)
  | writerSent (sessionId : String)
  | writerFailed (sessionId : String)
  | checkAndMarkSeen (dedupeKey : String) (ttlSeconds : Seconds)
  | pruneDedupe

/-- The hub after an operation at clock reading `now`, for a given clamp. -/
def HubOp.applyBy (clamp : Int → Int) (c : Config) (now : Seconds) (hub : Hub) : HubOp → Hub
  | .createSession sid => hub.createSession now sid
  | .touchHeartbeat sid => hub.touchHeartbeat now sid
  | .attachRoute sid rid ttl limit => (hub.attachRoute c now sid rid ttl limit).1
  | .heartbeatRoute sid rid ttl => (hub.heartbeatRoute c now sid rid ttl).1
  | .detachRoute sid rid => hub.detachRoute sid rid
  | .pruneRoutes => hub.pruneRoutes now
  | .pruneStaleSessions => hub.pruneStaleSessionsBy clamp c now
  | .removeSession sid => hub.removeSessionBy clamp sid
  | .sendSession sid data => (hub.sendSession c sid data).1
  | .writerDequeue sid => hub.writerDequeue sid
  | .writerSent sid => hub.writerSentBy clamp sid
  | .writerFailed sid => hub.writerFailedBy clamp sid
  | .checkAndMarkSeen key ttl => (hub.checkAndMarkSeen c now key ttl).1
  | .pruneDedupe => hub.pruneDedupe now

/-- The hub after an operation of the source, whose clamp is `Hub.clamp`. -/
abbrev HubOp.apply (c : Config) (now : Seconds) (hub : Hub) (op : HubOp) : Hub :=
  op.applyBy Hub.clamp c now hub

/-- A hub in the middle of a run. `issued` and `largestLimit` only record what
happened: the identifiers drawn so far, and for each session the largest route
limit one of its attaches succeeded with (zero before the first). -/
structure HubRun where
  hub : Hub
  clock : Seconds
  issued : Finset String
  largestLimit : String → Int

namespace HubRun

/-- What the caller of an operation has checked. -/
def allowed (c : Config) (s : HubRun) : HubOp → Prop
  | .createSession sid => sid ∉ s.issued ∧ s.hub.sessionCount < c.maxConcurrency
  | _ => True

instance (c : Config) (s : HubRun) : ∀ op, Decidable (s.allowed c op)
  | .createSession _ => inferInstanceAs (Decidable (_ ∧ _))
  | .touchHeartbeat _ | .attachRoute _ _ _ _ | .heartbeatRoute _ _ _ | .detachRoute _ _
  | .pruneRoutes | .pruneStaleSessions | .removeSession _ | .sendSession _ _
  | .writerDequeue _ | .writerSent _ | .writerFailed _ | .checkAndMarkSeen _ _
  | .pruneDedupe => isTrue trivial

def issuedAfter (s : HubRun) : HubOp → Finset String
  | .createSession sid => insert sid s.issued
  | _ => s.issued

def largestLimitAfter (c : Config) (now : Seconds) (s : HubRun) : HubOp → String → Int
  | .attachRoute sid rid ttl limit =>
      if (s.hub.attachRoute c now sid rid ttl limit).2 = none then
        Function.update s.largestLimit sid
          (max (s.largestLimit sid) (limit.getD c.maxRoutesPerSession))
      else s.largestLimit
  | _ => s.largestLimit

def after (c : Config) (s : HubRun) (e : Seconds × HubOp) : HubRun :=
  ⟨e.2.apply c e.1 s.hub, e.1, s.issuedAfter e.2, s.largestLimitAfter c e.1 e.2⟩

end HubRun

def hubSystem (c : Config) : System HubRun (Seconds × HubOp) :=
  (System.machine (fun s => ∃ now, s = ⟨.new c now, now, ∅, fun _ => 0⟩)
    (HubRun.after c)).restrict fun s e => s.clock ≤ e.1 ∧ s.allowed c e.2

end Masterserver
