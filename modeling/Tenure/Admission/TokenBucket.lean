import Tenure.Decimal.Rounded
import Tenure.Table

/-!
# Token buckets

A client has a bucket of tokens. It starts full, fills at a steady rate up to its
capacity, and every admitted call takes one token; fractions of a token are kept.
A call with an earlier clock reading than the last one adds nothing and does not
turn the clock back.

The balance may be of any kind of number with the arithmetic of `Amount`: the
program counts in doubles, and the same bucket over the rationals is what the rate
bound speaks about.
-/

namespace Tenure

/-- The arithmetic of a balance. -/
class Amount (R : Type) extends Add R, Sub R, Mul R where
  /-- a whole number of tokens -/
  ofNat : Nat → R
  /-- a number of nanoseconds in seconds -/
  seconds : Nat → R
  /-- the smaller of two amounts -/
  least : R → R → R
  /-- whether the first amount is at most the second -/
  atMost : R → R → Bool

/-- Doubles. Whole seconds and the rest are turned into doubles apart; what is not a
number is never the smaller amount. -/
instance : Amount Float where
  ofNat n := n.toFloat
  seconds ns := (ns / 1000000000).toFloat + (ns % 1000000000).toFloat / 1000000000.0
  least a b := if a.isNaN then b else if b.isNaN then a else if a ≤ b then a else b
  atMost a b := a ≤ b

/-- The tokens of one client. -/
structure Bucket (R : Type) where
  /-- the balance -/
  tokens : R
  /-- the clock reading up to which it was filled, in nanoseconds -/
  filledAt : Nat

namespace Bucket

variable {R : Type} [Amount R]

/-- A full bucket. -/
def full (capacity : UInt32) (now : Nat) : Bucket R := ⟨Amount.ofNat capacity.toNat, now⟩

/-- The bucket filled up to `now`. -/
def fill (capacity : UInt32) (rate : R) (now : Nat) (b : Bucket R) : Bucket R where
  tokens := Amount.least (b.tokens + Amount.seconds (now - b.filledAt) * rate)
    (Amount.ofNat capacity.toNat)
  filledAt := max b.filledAt now

/-- Takes a token, if there is one. -/
def take (b : Bucket R) : Bool × Bucket R :=
  if Amount.atMost (Amount.ofNat 1) b.tokens then
    (true, { b with tokens := b.tokens - Amount.ofNat 1 })
  else (false, b)

/-- One call at `now`. -/
def call (capacity : UInt32) (rate : R) (now : Nat) (b : Bucket R) : Bool × Bucket R :=
  (b.fill capacity rate now).take

end Bucket

/-- A limiter that keeps a bucket for every client. -/
structure TokenBucket (R : Type) where
  /-- the tokens of a full bucket -/
  capacity : UInt32
  /-- the tokens that come in per second -/
  rate : R
  /-- the bucket of every client seen -/
  buckets : Table String (Bucket R)

namespace TokenBucket

variable {R : Type}

/-- A limiter without clients. -/
def new (capacity : UInt32) (rate : R) : TokenBucket R := ⟨capacity, rate, Table.empty⟩

/-- One call of a client at `now`. -/
def allow [Amount R] (l : TokenBucket R) (key : String) (now : Nat) : Bool × TokenBucket R :=
  let b := (l.buckets.get? key).getD (Bucket.full l.capacity now)
  let r := b.call l.capacity l.rate now
  (r.1, { l with buckets := l.buckets.insert key r.2 })

/-- A call changes the bucket of its own client and of no other. -/
theorem get?_buckets_allow [Amount R] (l : TokenBucket R) (key key' : String) (now : Nat) :
    (l.allow key now).2.buckets.get? key' =
      if key' = key then
        some (((l.buckets.get? key).getD (Bucket.full l.capacity now)).call
          l.capacity l.rate now).2
      else l.buckets.get? key' := by
  simp only [allow, Table.get?_insert]

/-- The balance of a client as of its last call. -/
def tokens (l : TokenBucket R) (key : String) : Option R := (l.buckets.get? key).map Bucket.tokens

/-- How a limiter that counts in doubles is called. -/
def name (l : TokenBucket Float) : String :=
  "TokenBucket(cap=" ++ toString l.capacity.toNat ++ ",rate=" ++
    Decimal.Layout.plain.write l.rate ++ "/s)"

/-- What is told of a client. -/
def stats (l : TokenBucket Float) (key : String) : String :=
  match l.tokens key with
  | none => "no data"
  | some t => "tokens=" ++ Decimal.writeTenths t ++ "/" ++ toString l.capacity.toNat

end TokenBucket

end Tenure
