import Masterserver.App.NodeHello
import Masterserver.Runs.Server

/-!
# How links come up and go down

A server and the sockets of its node links. A peer dials in (`accept`) or is
dialled (`_connect_forever`); in either case the socket is claimed for its node
once the other end has shown its manifest. After a granted claim the task sends
its registrations and its state before the receive loop starts, and all the
while other tasks run: other sockets, clients, the membership loop. Sockets are
any numbers, each used once.

No task is cancelled: what ends a socket's task before its claim is a failed
attempt, and after its claim the end of its receive loop.
-/

namespace Masterserver

open Lib

/-- How far the task of a socket has come. -/
inductive Attempt
  /-- `accept` waits for the first frame. -/
  | inbound
  /-- `_connect_forever` has sent its hello and waits for the answer. -/
  | outbound (node : TrustedNode)
  /-- `accept` sends its own hello to a node it has authenticated. -/
  | welcomed (nodeId : String)
  /-- The claim was granted; the loop has not started. -/
  | claimed (nodeId : String)
  | looping (nodeId : String)
  | closed

structure LinkRun where
  run : ServerRun
  attempts : Dict Nat Attempt
  /-- The claims that were granted, in order, and those that were refused. -/
  claims : List (String × Nat)
  refused : List (String × Nat)
  /-- The sockets whose receive loop has ended. -/
  ended : List Nat

inductive LinkOp
  | accept (socket : Nat)
  | dial (socket : Nat) (nodeId : String)
  /-- The first frame of the other end. -/
  | hello (socket : Nat) (raw : List Char)
  /-- The hello of this end is sent. -/
  | sent (socket : Nat)
  | fail (socket : Nat)
  | start (socket : Nat)
  | frame (socket : Nat) (raw : List Char)
  | hangUp (socket : Nat)
  /-- What is no link's: clients, timers, registrations. -/
  | other (op : ServerOp)

def LinkOp.socket? : LinkOp → Option Nat
  | .accept socket | .dial socket _ | .hello socket _ | .sent socket | .fail socket
  | .start socket | .frame socket _ | .hangUp socket => some socket
  | .other _ => none

structure LinkEvent where
  now : Clocks
  op : LinkOp

namespace LinkRun

variable (p : PinnedConfig) (cr : Crypto) (trust : NodeTrust) (s : LinkRun) (now : Clocks)

def new (p : PinnedConfig) (incarnation : String) (clocks : Clocks) : LinkRun where
  run := .new p.toMeshConfig incarnation clocks
  attempts := ∅
  claims := []
  refused := []
  ended := []

def setAttempt (socket : Nat) (attempt : Attempt) : LinkRun :=
  { s with attempts := s.attempts.set socket attempt }

/-- `_claim_connection` and what hangs on it. -/
def claim (nodeId : String) (socket : Nat) : LinkRun :=
  if (s.run.server.mesh.claimConnection nodeId socket).2 then
    { s.setAttempt socket (.claimed nodeId) with
      run := s.run.linkUp p.toMeshConfig cr now nodeId socket
      claims := s.claims ++ [(nodeId, socket)] }
  else
    { s.setAttempt socket .closed with refused := s.refused ++ [(nodeId, socket)] }

/-- The first frame of a socket that dialled in. -/
def helloInbound (socket : Nat) (raw : List Char) : LinkRun :=
  if p.maxFrameBytes < String.utf8Len raw then s.setAttempt socket .closed
  else
    match loadsStrict p.toConfig.jsonLimits raw with
    | .error _ => s.setAttempt socket .closed
    | .ok first =>
        match p.authenticateHello cr now.wall none first with
        | .ok (some nodeId) =>
            if nodeId < p.nodeId then s.setAttempt socket (.welcomed nodeId)
            else s.setAttempt socket .closed
        | _ => s.setAttempt socket .closed

/-- The answer of a node that was dialled. -/
def helloOutbound (node : TrustedNode) (socket : Nat) (raw : List Char) : LinkRun :=
  match loadsStrict p.toConfig.jsonLimits raw with
  | .error _ => s.setAttempt socket .closed
  | .ok response =>
      match p.authenticateHello cr now.wall (some node) response with
      | .ok (some nodeId) => s.claim p cr now nodeId socket
      | _ => s.setAttempt socket .closed

/-- The receive loop of a socket is over. -/
def close (socket : Nat) : LinkRun :=
  { s.setAttempt socket .closed with ended := s.ended ++ [socket] }

def frame (socket : Nat) (raw : List Char) : LinkRun :=
  let s := { s with run := s.run.nodeFrame p.toMeshConfig cr now socket raw }
  if s.run.links.contains socket then s else s.close socket

/-- An event of a socket, at the stage it belongs to. -/
def socketEvent (attempt : Attempt) : LinkOp → LinkRun
  | .hello socket raw => match attempt with
      | .inbound => s.helloInbound p cr now socket raw
      | .outbound node => s.helloOutbound p cr now node socket raw
      | _ => s
  | .sent socket => match attempt with
      | .welcomed nodeId => s.claim p cr now nodeId socket
      | _ => s
  | .fail socket => match attempt with
      | .inbound | .outbound _ | .welcomed _ => s.setAttempt socket .closed
      | _ => s
  | .start socket => match attempt with
      | .claimed nodeId =>
          { s.setAttempt socket (.looping nodeId) with
            run := { s.run with
              links := s.run.links.set socket ⟨nodeId, Server.nodeBucket now.monotonic⟩ } }
      | _ => s
  | .frame socket raw => match attempt with
      | .looping _ => s.frame p cr now socket raw
      | _ => s
  | .hangUp socket => match attempt with
      | .looping _ =>
          { s with run := s.run.linkDown p.toMeshConfig cr now socket }.close socket
      | _ => s
  | _ => s

/-- An outbound attempt is only made for a trusted node. -/
def dial (socket : Nat) (nodeId : String) : LinkRun :=
  match p.trustedNode? nodeId with
  | some node => s.setAttempt socket (.outbound node)
  | none => s

def apply (op : LinkOp) : LinkRun :=
  match op with
  | .accept socket => s.setAttempt socket .inbound
  | .dial socket nodeId => s.dial p socket nodeId
  | .other op => { s with run := s.run.apply p.toMeshConfig cr trust now op }
  | op =>
      match op.socket?.bind s.attempts.get? with
      | none => s
      | some attempt => s.socketEvent p cr now attempt op

def after (e : LinkEvent) : LinkRun :=
  let s' := s.apply p cr trust e.now e.op
  { s' with run := { s'.run with clocks := e.now } }

/-- Whether an event is one of a link. -/
def isLinks : ServerOp → Bool
  | .linkUp _ _ | .linkDown _ | .nodeFrame _ _ => true
  | _ => false

/-- Every socket is a new one, and of each pair of nodes the one with the lower
identifier dials. -/
def allowed : LinkOp → Prop
  | .accept socket => s.attempts.get? socket = none
  | .dial socket nodeId => s.attempts.get? socket = none ∧ p.nodeId < nodeId
  | .other op => isLinks op = false ∧ s.run.allowed p.toMeshConfig op
  | _ => True

instance (op : LinkOp) : Decidable (s.allowed p op) := by
  cases op <;> unfold allowed <;> infer_instance

end LinkRun

def linkSystem (p : PinnedConfig) (cr : Crypto) (trust : NodeTrust) : System LinkRun LinkEvent :=
  (System.machine
    (fun s => ∃ (incarnation : String) (clocks : Clocks), s = .new p incarnation clocks)
    (LinkRun.after p cr trust)).restrict
      fun s e => s.run.clocks.before e.now ∧ s.allowed p e.op

end Masterserver
