import Masterserver.App.RateLimits

/-!
# Admission limits

The limiter in front of the admission and the relay-credential endpoints: one
bucket for each client address, of which the 4096 that called last are kept,
and one bucket for all of them together. A call that the client's own bucket
turns down does not draw from the common one.
-/

namespace Masterserver

open Lib

/-- What a limiter is made with. The configuration promises the signs. -/
structure AdmissionRates where
  perClientBurst : Rat
  perClientRefill : Rat
  globalBurst : Rat
  globalRefill : Rat
  perClientBurst_nonneg : 0 ≤ perClientBurst
  perClientRefill_nonneg : 0 ≤ perClientRefill
  globalBurst_nonneg : 0 ≤ globalBurst
  globalRefill_nonneg : 0 ≤ globalRefill

namespace AdmissionRates

variable (c : Config)

/-- `admission_limiter`. -/
def admission : AdmissionRates where
  perClientBurst := c.admissionRateBurst
  perClientRefill := c.admissionRatePerSecond
  globalBurst := c.admissionGlobalBurst
  globalRefill := c.admissionGlobalPerSecond
  perClientBurst_nonneg := Nat.cast_nonneg _
  perClientRefill_nonneg :=
    (c.positive_lt "admission_rate_per_second" _ (by simp [ConfigFields.positive])).le
  globalBurst_nonneg := Nat.cast_nonneg _
  globalRefill_nonneg :=
    (c.positive_lt "admission_global_per_second" _ (by simp [ConfigFields.positive])).le

/-- `turn_limiter`. -/
def turn : AdmissionRates where
  perClientBurst := c.turnRateBurst
  perClientRefill := c.turnRatePerSecond
  globalBurst := c.turnGlobalBurst
  globalRefill := c.turnGlobalPerSecond
  perClientBurst_nonneg := Nat.cast_nonneg _
  perClientRefill_nonneg :=
    (c.positive_lt "turn_rate_per_second" _ (by simp [ConfigFields.positive])).le
  globalBurst_nonneg := Nat.cast_nonneg _
  globalRefill_nonneg :=
    (c.positive_lt "turn_global_per_second" _ (by simp [ConfigFields.positive])).le

end AdmissionRates

structure AdmissionLimiter where
  /-- With the time of the client's last call. -/
  buckets : Dict String (TokenBucket × Seconds)
  perClientBurst : Rat
  perClientRefill : Rat
  globalBucket : TokenBucket

namespace AdmissionLimiter

def new (rates : AdmissionRates) (now : Seconds) : AdmissionLimiter where
  buckets := ∅
  perClientBurst := rates.perClientBurst
  perClientRefill := rates.perClientRefill
  globalBucket := .new rates.globalBurst rates.globalRefill now

variable (l : AdmissionLimiter) (now : Seconds) (clientKey : String)

/-- The client's bucket: the one that is kept, or a full one made on the spot. -/
def bucket : TokenBucket :=
  match l.buckets.get? clientKey with
  | some existing => existing.1
  | none => .new l.perClientBurst l.perClientRefill now

def allow : Bool × AdmissionLimiter :=
  let (granted, bucket) := (l.bucket now clientKey).tryConsume now 1
  let buckets := ((l.buckets.erase clientKey).set clientKey (bucket, now)).trim 4096
  if granted then
    let (granted, globalBucket) := l.globalBucket.tryConsume now 1
    (granted, { l with buckets := buckets, globalBucket := globalBucket })
  else (false, { l with buckets := buckets })

end AdmissionLimiter

end Masterserver
