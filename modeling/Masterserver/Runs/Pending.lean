import Masterserver.Runs.Mesh
import Masterserver.Runs.Server

/-!
# Runs of the calls that wait for other nodes

Any number of `discover` and `forward_signal` calls share the two tables of
pending requests. A call gives up control while a request of it is sent and
while it waits for the answer, and everything else can run in between: other
calls, the messages of peers, the operations on links and membership, a stop.

A request puts a future into a table under an identifier of its own. The call
holds the future as well, and so has it also after a stop has cleared the
tables. A future is resolved by an answer, by the end of the wait, which
cancels it, or by a stop, each time only if it is not done; `resolved` is the
record of that.

The identifiers are drawn at random and do not repeat. A call cannot be
cancelled from outside.
-/

namespace Masterserver

open Lib NodeMesh

/-- What stands in a future, once it is done. -/
inductive Future
  | pending
  | descriptors (answer : List Json)
  | delivered (answer : Bool)
  | cancelled

def Future.done : Future → Bool
  | .pending => false
  | _ => true

/-- A call that is running. -/
inductive Call
  | discover (routeTag : String) (found : Dict String Descriptor) (queries : List Query)
  | forwardSignal (requestId : String)

/-- A `_query_owner` task of the call has sent, or sends, this question. -/
def Call.asks (requestId : String) : Call → Bool
  | .discover _ _ queries => queries.any (ServerRun.isAsked requestId)
  | .forwardSignal _ => false

/-- The call forwards its signal under this identifier. -/
def Call.forwards (requestId : String) : Call → Bool
  | .discover _ _ _ => false
  | .forwardSignal id => id == requestId

/-- The calls are numbered in the order in which they began; `drawnBy` is the
call that drew an identifier, and `sent` are the requests that have been sent. -/
structure PendingRun where
  mesh : NodeMesh
  calls : Dict Nat Call
  started : Nat
  futures : Dict String Future
  drawnBy : Dict String Nat
  sent : Finset String
  resolved : List String

inductive PendingOp
  | discover (routeTag : String)
  /-- A task of a discovery begins. -/
  | startQuery (call index : Nat) (queryId : String)
  | forwardSignal (requestId routeTag target : String) (envelope : Json)
  /-- The send of a request is through, or has failed. -/
  | sent (requestId : String) (ok : Bool)
  | routeResult (payload : Payload)
  | ack (payload : Payload)
  | timeout (requestId : String)
  /-- The wait for a future that is done ends, with the answer or, where the
  time ran out just then, without. -/
  | resume (requestId : String) (arrived : Bool)
  /-- The tasks of a discovery are through, and it returns. -/
  | collect (call : Nat)
  | mesh (op : MeshOp)

/-- The identifier an operation draws, if it draws one. -/
def PendingOp.draws : PendingOp → Option String
  | .startQuery _ _ requestId | .forwardSignal requestId _ _ _ => some requestId
  | _ => none

structure PendingEvent where
  hub : Hub
  now : Clocks
  op : PendingOp

namespace PendingRun

variable (m : MeshConfig) (cr : Crypto) (hub : Hub) (now : Clocks) (s : PendingRun)

def new (m : MeshConfig) (incarnation : String) : PendingRun where
  mesh := .new m incarnation
  calls := ∅
  started := 0
  futures := ∅
  drawnBy := ∅
  sent := ∅
  resolved := []

/-- A future that is not done is resolved. -/
def resolve (requestId : String) (outcome : Future) : PendingRun :=
  match s.futures.get? requestId with
  | some .pending =>
      { s with
        futures := s.futures.set requestId outcome
        resolved := s.resolved ++ [requestId] }
  | _ => s

/-- A call draws an identifier for a request, and makes its future. -/
def draw (requestId : String) (call : Nat) : PendingRun :=
  { s with
    futures := s.futures.set requestId .pending
    drawnBy := s.drawnBy.set requestId call }

/-- The running call that has this request open, with its number. -/
def holder? (requestId : String) : Option (Nat × Call) :=
  match s.drawnBy.get? requestId with
  | none => none
  | some number =>
      match s.calls.get? number with
      | none => none
      | some call =>
          if call.asks requestId || call.forwards requestId then some (number, call) else none

/-! ## Calls -/

def discover (routeTag : String) : PendingRun :=
  let (mesh, found, queries) := s.mesh.discover m cr hub now.wall routeTag
  { s with
    mesh := mesh
    calls := s.calls.set s.started (.discover routeTag found queries)
    started := s.started + 1 }

/-- `_query_owner` up to its send. -/
def startQuery (number index : Nat) (queryId : String) : PendingRun :=
  match s.calls.get? number with
  | some (.discover routeTag found queries) =>
      match queries[index]? with
      | some (.unstarted link) =>
          let (mesh, query, _) := s.mesh.queryOwner m queryId routeTag link
          let s := { s with
            mesh := mesh
            calls := s.calls.set number (.discover routeTag found (queries.set index query)) }
          match query with
          | .asked queryId => s.draw queryId number
          | _ => s
      | _ => s
  | _ => s

/-- `forward_signal` up to its send, or to its return where it asks nobody. -/
def forwardSignal (requestId routeTag target : String) (envelope : Json) : PendingRun :=
  match s.mesh.forwardSignal m requestId routeTag target envelope with
  | (_, none) => s
  | (mesh, some _) =>
      let s := { s with
        mesh := mesh
        calls := s.calls.set s.started (.forwardSignal requestId)
        started := s.started + 1 }
      s.draw requestId (s.started - 1)

/-- What the wait of a `_query_owner` returns. -/
def answerOf (requestId : String) (arrived : Bool) : List Json :=
  match s.futures.get? requestId with
  | some (.descriptors answer) => if arrived then answer else []
  | _ => []

/-- A request is over: its entry is taken out of the table, and the call, or
the task of it, returns. -/
def release (requestId : String) (arrived : Bool) : PendingRun :=
  match s.holder? requestId with
  | none => s
  | some (number, .forwardSignal _) =>
      { s with
        mesh := (s.mesh.ackAnswered requestId arrived).1
        calls := s.calls.erase number }
  | some (number, .discover routeTag found queries) =>
      let answer := Query.answered (s.answerOf requestId arrived)
      { s with
        mesh := (s.mesh.queryAnswered requestId arrived).1
        calls := s.calls.set number (.discover routeTag found
          (queries.map fun query => if ServerRun.isAsked requestId query then answer else query)) }

def sendDone (requestId : String) (ok : Bool) : PendingRun :=
  if requestId ∈ s.sent ∨ (s.holder? requestId).isNone then s
  else if ok then { s with sent := insert requestId s.sent }
  else s.release requestId false

/-- The time of a wait is over. -/
def timeout (requestId : String) : PendingRun :=
  if requestId ∈ s.sent ∧ (s.holder? requestId).isSome then s.resolve requestId .cancelled else s

def resume (requestId : String) (arrived : Bool) : PendingRun :=
  if requestId ∈ s.sent ∧ (s.futures.get? requestId).any Future.done then
    s.release requestId arrived
  else s

def collect (number : Nat) : PendingRun :=
  match s.calls.get? number with
  | some (.discover _ found queries) =>
      if ServerRun.allAnswered queries then
        { s with
          mesh := (s.mesh.discovered m hub now.wall found queries).1
          calls := s.calls.erase number }
      else s
  | _ => s

/-! ## Answers and the rest -/

/-- A `ROUTE_RESULT`: the future it names gets the descriptors, if it is in
the table and not done. -/
def routeResult (payload : Payload) : PendingRun :=
  match requestKey (payload.get "queryId"), s.mesh.handleRouteResult m now.wall payload with
  | some (some queryId), some mesh =>
      match s.futures.get? queryId, mesh.pendingQueries.get? queryId with
      | some .pending, some (some answer) =>
          { s with mesh := mesh }.resolve queryId (.descriptors answer)
      | _, _ => s
  | _, _ => s

/-- An `ACK`, likewise. -/
def ack (payload : Payload) : PendingRun :=
  match requestKey (payload.get "requestId"), s.mesh.handleAck payload with
  | some (some requestId), some mesh =>
      match s.futures.get? requestId, mesh.pendingAcks.get? requestId with
      | some .pending, some (some answer) =>
          { s with mesh := mesh }.resolve requestId (.delivered answer)
      | _, _ => s
  | _, _ => s

/-- `stop` cancels the futures in the tables and clears these. -/
def stop : PendingRun :=
  let s := (s.mesh.pendingQueries.keys ++ s.mesh.pendingAcks.keys).foldl
    (fun s requestId => s.resolve requestId .cancelled) s
  { s with mesh := s.mesh.stop m }

def meshOp : MeshOp → PendingRun
  | .stop => s.stop m
  | op => { s with mesh := op.apply m cr hub now s.mesh }

def after (e : PendingEvent) : PendingRun :=
  match e.op with
  | .discover routeTag => s.discover m cr e.hub e.now routeTag
  | .startQuery number index queryId => s.startQuery m number index queryId
  | .forwardSignal requestId routeTag target envelope =>
      s.forwardSignal m requestId routeTag target envelope
  | .sent requestId ok => s.sendDone requestId ok
  | .routeResult payload => s.routeResult m e.now payload
  | .ack payload => s.ack payload
  | .timeout requestId => s.timeout requestId
  | .resume requestId arrived => s.resume requestId arrived
  | .collect number => s.collect m e.hub e.now number
  | .mesh op => s.meshOp m cr e.hub e.now op

/-- The identifier a step draws has not been drawn before. -/
def Fresh (e : PendingEvent) : Prop :=
  ∀ requestId ∈ e.op.draws, s.futures.contains requestId = false

instance (e : PendingEvent) : Decidable (s.Fresh e) :=
  inferInstanceAs (Decidable (∀ _ ∈ _, _ = _))

end PendingRun

def pendingSystem (m : MeshConfig) (cr : Crypto) : System PendingRun PendingEvent :=
  (System.machine (fun s => ∃ incarnation, s = .new m incarnation)
    (PendingRun.after m cr)).restrict PendingRun.Fresh

end Masterserver
