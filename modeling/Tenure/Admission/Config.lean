import Tenure.Admission.Limiter

/-!
# Limiter configurations

What a limiter is built from. A configuration that would never admit a call, or
whose refill rate makes no sense, is refused, and the first fault is named.
-/

namespace Tenure

/-- How a limiter is to be built. -/
inductive LimiterConfig where
  /-- a bucket of so many tokens, refilled at a rate -/
  | tokenBucket (capacity : UInt32) (refillPerSecond : Float)
  /-- so many calls in each of a row of windows -/
  | fixedWindow (maxRequests : UInt32) (windowMillis : UInt64)
  /-- so many calls in any interval of the length -/
  | slidingWindowLog (maxRequests : UInt32) (windowMillis : UInt64)

/-- What is wrong with a configuration. -/
inductive ConfigFault where
  /-- a bucket that holds no token -/
  | zeroCapacity
  /-- a rate that is negative or no finite number -/
  | refillRate (rate : Float)
  /-- windows that admit no call -/
  | zeroMaxRequests
  /-- windows without length -/
  | zeroWindow

/-- The wording. -/
def ConfigFault.message : ConfigFault → String
  | zeroCapacity => "capacity must be positive"
  | refillRate rate =>
    "refill rate " ++ Decimal.Layout.plain.write rate ++ " is not a non-negative number"
  | zeroMaxRequests => "max_requests must be positive"
  | zeroWindow => "window must be positive"

namespace LimiterConfig

/-- Whether two configurations ask for the same; rates are compared as numbers. -/
def same : LimiterConfig → LimiterConfig → Bool
  | tokenBucket c r, tokenBucket c' r' => c = c' && r == r'
  | fixedWindow m w, fixedWindow m' w' => m = m' && w = w'
  | slidingWindowLog m w, slidingWindowLog m' w' => m = m' && w = w'
  | _, _ => false

/-- The first fault of a windowed limiter. -/
def windowFault? (maxRequests : UInt32) (windowMillis : UInt64) : Option ConfigFault :=
  if maxRequests = 0 then some .zeroMaxRequests
  else if windowMillis = 0 then some .zeroWindow
  else none

/-- The first fault of a configuration. -/
def fault? : LimiterConfig → Option ConfigFault
  | tokenBucket capacity rate =>
    if capacity = 0 then some .zeroCapacity
    else if !rate.isFinite || rate < 0.0 then some (.refillRate rate)
    else none
  | fixedWindow maxRequests windowMillis => windowFault? maxRequests windowMillis
  | slidingWindowLog maxRequests windowMillis => windowFault? maxRequests windowMillis

/-- The limiter asked for, faults or not. -/
def limiter : LimiterConfig → Limiter
  | tokenBucket capacity rate => .tokenBucket (.new capacity rate)
  | fixedWindow maxRequests windowMillis =>
    .fixedWindow (.new maxRequests (windowMillis.toNat * 1000000))
  | slidingWindowLog maxRequests windowMillis =>
    .slidingLog (.new maxRequests (windowMillis.toNat * 1000000))

/-- Builds the limiter of a sound configuration. -/
def build (c : LimiterConfig) : Except ConfigFault Limiter :=
  match c.fault? with
  | some f => .error f
  | none => .ok c.limiter

end LimiterConfig

end Tenure
