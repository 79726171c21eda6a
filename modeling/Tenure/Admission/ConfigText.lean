import Tenure.Admission.Config
import Tenure.Json.Library

/-!
# Limiter configurations as documents

A configuration is written as an object that names its algorithm and has the two fields of that
algorithm. This is what a library is told about it; the library does the rest.
-/

namespace Tenure.LimiterConfig

/-- The fields of a bucket. -/
def bucketFields : List Json.Field := [⟨"capacity", .u32⟩, ⟨"refill_per_sec", .f64⟩]

/-- The fields of a limiter with windows, of either kind. -/
def windowFields : List Json.Field := [⟨"max_requests", .u32⟩, ⟨"window_ms", .u64⟩]

/-- The type as it is in documents. -/
def schema : Json.Tagged LimiterConfig where
  title := "LimiterConfig"
  tag := "algorithm"
  variants := [
    { name := "token_bucket"
      title := "TokenBucket"
      fields := bucketFields
      make := fun (capacity, rate, ()) => .tokenBucket capacity rate
      row? := fun
        | .tokenBucket capacity rate => some (capacity, rate, ())
        | _ => none },
    { name := "fixed_window"
      title := "FixedWindow"
      fields := windowFields
      make := fun (maxRequests, windowMillis, ()) => .fixedWindow maxRequests windowMillis
      row? := fun
        | .fixedWindow maxRequests windowMillis => some (maxRequests, windowMillis, ())
        | _ => none },
    { name := "sliding_window_log"
      title := "SlidingWindowLog"
      fields := windowFields
      make := fun (maxRequests, windowMillis, ()) => .slidingWindowLog maxRequests windowMillis
      row? := fun
        | .slidingWindowLog maxRequests windowMillis => some (maxRequests, windowMillis, ())
        | _ => none }]

/-- Reads a configuration. -/
def ofText (lib : Json.Library) (s : String) : Except ReadFault LimiterConfig := lib.read schema s

/-- The written form. -/
def text (lib : Json.Library) (c : LimiterConfig) : String := lib.write schema c

end Tenure.LimiterConfig
