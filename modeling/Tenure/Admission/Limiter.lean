import Tenure.Admission.FixedWindow
import Tenure.Admission.SlidingLog
import Tenure.Admission.TokenBucket

/-!
# Limiters

A limiter decides for each call of a client whether it is admitted, from nothing
but the client's own earlier calls and the clock.
-/

namespace Tenure

/-- A limiter with the state of its clients. -/
inductive Limiter where
  /-- one that counts tokens, in doubles -/
  | tokenBucket (l : TokenBucket Float)
  /-- one that counts calls per window -/
  | fixedWindow (l : FixedWindow)
  /-- one that keeps the times of calls -/
  | slidingLog (l : SlidingLog)

namespace Limiter

/-- One call of a client at `now`, in nanoseconds. -/
def allow (l : Limiter) (key : String) (now : Nat) : Bool × Limiter :=
  match l with
  | tokenBucket l => let r := l.allow key now; (r.1, tokenBucket r.2)
  | fixedWindow l => let r := l.allow key now; (r.1, fixedWindow r.2)
  | slidingLog l => let r := l.allow key now; (r.1, slidingLog r.2)

/-- Several calls of a client at one moment, with their decisions in order. -/
def allowMany (l : Limiter) (key : String) (now : Nat) : (count : Nat) → List Bool × Limiter
  | 0 => ([], l)
  | n + 1 =>
    let r := l.allow key now
    let rest := r.2.allowMany key now n
    (r.1 :: rest.1, rest.2)

/-- Every call gets a decision. -/
@[simp] theorem length_allowMany (l : Limiter) (key : String) (now n : Nat) :
    (l.allowMany key now n).1.length = n := by
  induction n generalizing l with
  | zero => rfl
  | succ n ih => simp only [allowMany, List.length_cons, ih]

/-- How it is called. -/
def name : Limiter → String
  | tokenBucket l => l.name
  | fixedWindow l => l.name
  | slidingLog l => l.name

/-- What is told of a client. -/
def stats (l : Limiter) (key : String) : String :=
  match l with
  | tokenBucket l => l.stats key
  | fixedWindow l => l.stats key
  | slidingLog l => l.stats key

/-- How many clients it has seen. -/
def clients : Limiter → Nat
  | tokenBucket l => l.buckets.size
  | fixedWindow l => l.windows.size
  | slidingLog l => l.logs.size

/-- The balance of a client of a token bucket. -/
def tokens (l : Limiter) (key : String) : Option Float :=
  match l with
  | tokenBucket l => l.tokens key
  | _ => none

end Limiter

end Tenure
