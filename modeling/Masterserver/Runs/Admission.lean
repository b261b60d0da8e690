import Masterserver.App.Admission
import Masterserver.Lib.System

/-!
# Runs of an admission limiter

Any clients call at any times of a clock that does not go back. The log keeps
every call with its answer; beside it stands the bucket each client's last
call left behind, whether or not the limiter has kept it.
-/

namespace Masterserver

open Lib

/-- The limiter after calls, oldest first. -/
def AdmissionLimiter.after (l : AdmissionLimiter) (calls : List (Seconds × String)) :
    AdmissionLimiter :=
  calls.foldl (fun l call => (l.allow call.1 call.2).2) l

structure AdmissionCall where
  now : Seconds
  clientKey : String
  granted : Bool

structure AdmissionRun where
  limiter : AdmissionLimiter
  clock : Seconds
  leftBehind : String → Option TokenBucket
  log : List AdmissionCall

namespace AdmissionRun

def new (rates : AdmissionRates) (now : Seconds) : AdmissionRun where
  limiter := .new rates now
  clock := now
  leftBehind := fun _ => none
  log := []

def call (s : AdmissionRun) (e : Seconds × String) : AdmissionRun where
  limiter := (s.limiter.allow e.1 e.2).2
  clock := e.1
  leftBehind := fun key =>
    if key = e.2 then some ((s.limiter.bucket e.1 e.2).tryConsume e.1 1).2
    else s.leftBehind key
  log := s.log ++ [⟨e.1, e.2, (s.limiter.allow e.1 e.2).1⟩]

/-- When calls were granted. -/
def grants (s : AdmissionRun) : List Seconds :=
  (s.log.filter fun call => call.granted).map AdmissionCall.now

/-- When calls of one client were. -/
def grantsOf (s : AdmissionRun) (clientKey : String) : List Seconds :=
  (s.log.filter fun call => call.granted && call.clientKey == clientKey).map AdmissionCall.now

/-- If the client calls and its bucket was not kept, the bucket would be full
again by now. -/
def Refilled (clientKey : String) (s : AdmissionRun) (e : Seconds × String) : Prop :=
  e.2 = clientKey → s.limiter.buckets.get? clientKey = none →
    ∀ bucket, s.leftBehind clientKey = some bucket →
      (bucket.refill e.1).tokens = bucket.capacity

end AdmissionRun

def admissionSystem (rates : AdmissionRates) : System AdmissionRun (Seconds × String) :=
  (System.machine (fun s => ∃ now, s = .new rates now) AdmissionRun.call).restrict
    fun s e => s.clock ≤ e.1

end Masterserver
