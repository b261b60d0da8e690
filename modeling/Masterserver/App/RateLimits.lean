import Masterserver.App.Config
import Masterserver.Lib.Dict

/-!
# Token buckets

One bucket per session and operation. A bucket refills with the time since it
was last looked at and never holds more than its capacity; a bucket with rate
zero, the proof budget of a socket, only ever drains.

Every function that reads the monotonic clock takes the reading as `now`.
-/

namespace Masterserver

open Lib

structure TokenBucket where
  capacity : Rat
  tokens : Rat
  refillPerSec : Rat
  lastRefill : Seconds

namespace TokenBucket

def new (capacity refillPerSec : Rat) (now : Seconds) : TokenBucket where
  capacity := capacity
  tokens := capacity
  refillPerSec := refillPerSec
  lastRefill := now

/-- `_refill`. -/
def refill (b : TokenBucket) (now : Seconds) : TokenBucket :=
  { b with
    tokens := min b.capacity (b.tokens + max 0 (now - b.lastRefill) * b.refillPerSec)
    lastRefill := now }

def tryConsume (b : TokenBucket) (now : Seconds) (cost : Rat) : Bool × TokenBucket :=
  let b := b.refill now
  if b.tokens < cost then (false, b) else (true, { b with tokens := b.tokens - cost })

end TokenBucket

/-- The operations a session is limited in. -/
inductive Operation
  | message
  | attachRoute
  | signal
  | signalV2
  | forward
  | discover
  | heartbeat
  | prove
  deriving DecidableEq

/-- `DEFAULTS`: burst and refill rate. -/
def Operation.limits : Operation → Rat × Rat
  | .message => (128, 64)
  | .attachRoute => (4, 4 / 60)
  | .signal => (40, 20)
  | .signalV2 => (40, 20)
  | .forward => (10, 5)
  | .discover => (10, 2)
  | .heartbeat => (1, 1 / 20)
  -- A proof is deliberately not refillable within one socket lifetime.
  | .prove => (3, 0)

structure RateLimiterRegistry where
  buckets : Dict (String × Operation) TokenBucket

namespace RateLimiterRegistry

def empty : RateLimiterRegistry := ⟨∅⟩

/-- The bucket `check` consults: the stored one, or a full one made on the spot. -/
def bucket (r : RateLimiterRegistry) (now : Seconds) (sessionId : String)
    (op : Operation) : TokenBucket :=
  (r.buckets.get? (sessionId, op)).getD (.new op.limits.1 op.limits.2 now)

def check (r : RateLimiterRegistry) (now : Seconds) (sessionId : String) (op : Operation) :
    Bool × RateLimiterRegistry :=
  let (allowed, bucket) := (r.bucket now sessionId op).tryConsume now 1
  (allowed, ⟨r.buckets.set (sessionId, op) bucket⟩)

def dropSession (r : RateLimiterRegistry) (sessionId : String) : RateLimiterRegistry :=
  ⟨r.buckets.filter fun key _ => key.1 ≠ sessionId⟩

end RateLimiterRegistry

end Masterserver
