import Tenure.Id

/-!
# Resources

A resource is one reservable unit: a seat, a locker compartment. It is free, held
for a limited time, or booked, and whoever has it has a `Claim` on it.

The stored status of a hold stays `reserved` after its deadline until somebody
settles it. `Resource.statusAt` is the status that counts: a lapsed hold reads as
available (`statusAt_eq_available_of_lapsed`).
-/

namespace Tenure

/-- Where a resource stands between free and booked. -/
inductive Status where
  /-- nobody has it -/
  | available
  /-- held by somebody, until confirmed or lapsed -/
  | reserved
  /-- booked for good, until cancelled -/
  | booked
  deriving DecidableEq, Repr

namespace Status

/-- The written form. -/
def text : Status → String
  | available => "AVAILABLE"
  | reserved => "RESERVED"
  | booked => "BOOKED"

/-- The steps a status may take. Straight from available to booked is open only
to workflows without a hold step. -/
def allows (holdStep : Bool) : Status → Status → Bool
  | available, reserved => true
  | reserved, booked => true
  | reserved, available => true
  | booked, available => true
  | available, booked => !holdStep
  | _, _ => false

end Status

/-- The size of a compartment or a parcel. -/
inductive Size where
  /-- the smallest -/
  | small
  /-- the one in between -/
  | medium
  /-- the largest -/
  | large
  deriving DecidableEq, Repr

namespace Size

/-- The position in ascending order. -/
def rank : Size → Nat
  | small => 0
  | medium => 1
  | large => 2

/-- The written form. -/
def text : Size → String
  | small => "SMALL"
  | medium => "MEDIUM"
  | large => "LARGE"

instance : LE Size := ⟨fun a b => a.rank ≤ b.rank⟩

instance (a b : Size) : Decidable (a ≤ b) := inferInstanceAs (Decidable (a.rank ≤ b.rank))

end Size

/-- Who has a resource, and on what terms. -/
structure Claim where
  /-- whose it is -/
  holder : String
  /-- what it costs -/
  price : Float
  /-- when the hold lapses; none once it is a booking -/
  deadline : Option Int
  /-- the resource's generation when the claim was made -/
  generation : UInt64
  /-- the group booking that the claim is part of -/
  booking : Option Id

/-- A reservable unit, without its identifier. -/
structure Resource where
  /-- the group it is a member of -/
  group : Option Id
  /-- its display name, such as a seat number -/
  name : Option String
  /-- its size; none for units such as seats -/
  size : Option Size
  /-- the base price -/
  weight : Float
  /-- the stored status -/
  status : Status
  /-- the claim on it -/
  claim : Option Claim
  /-- the number of holds placed on it so far -/
  generation : UInt64

namespace Resource

/-- A fresh unit: available, without a claim, never held. -/
def fresh (weight : Float) (group : Option Id) (name : Option String) (size : Option Size) :
    Resource where
  group := group
  name := name
  size := size
  weight := weight
  status := .available
  claim := none
  generation := 0

/-- Who has it. -/
def holder (r : Resource) : Option String := r.claim.map Claim.holder

/-- A hold whose deadline has come but which nobody has settled yet. -/
def lapsed (r : Resource) (now : Int) : Bool :=
  r.status = .reserved && (r.claim.bind Claim.deadline).any fun t => t ≤ now

/-- The status that counts at `now`: a lapsed hold is available again. -/
def statusAt (r : Resource) (now : Int) : Status :=
  if r.lapsed now then .available else r.status

/-- The resource given up: available and without a claim. -/
def freed (r : Resource) : Resource := { r with status := .available, claim := none }

/-- A lapsed hold reads as available. -/
theorem statusAt_eq_available_of_lapsed {r : Resource} {now : Int} (h : r.lapsed now = true) :
    r.statusAt now = .available := by
  simp [statusAt, h]

/-- Without a lapsed hold, the stored status is the one that counts. -/
theorem statusAt_of_not_lapsed {r : Resource} {now : Int} (h : r.lapsed now = false) :
    r.statusAt now = r.status := by
  simp [statusAt, h]

/-- A hold lapses exactly when its deadline is not after the clock. -/
theorem lapsed_iff {r : Resource} {now : Int} :
    r.lapsed now = true ↔
      r.status = .reserved ∧ ∃ c t, r.claim = some c ∧ c.deadline = some t ∧ t ≤ now := by
  cases hc : r.claim with
  | none => simp [lapsed, hc]
  | some c => cases hd : c.deadline <;> simp [lapsed, hc, hd]

end Resource

/-- What a listing shows of a resource. -/
structure ResourceInfo where
  /-- its name -/
  id : Id
  /-- its group -/
  group : Option Id
  /-- its display name -/
  name : Option String
  /-- its size -/
  size : Option Size
  /-- its base price -/
  weight : Float
  /-- its stored status -/
  status : Status
  /-- who has it -/
  holder : Option String

/-- The listing entry of a resource, with its stored status. -/
def Resource.info (r : Resource) (id : Id) : ResourceInfo where
  id := id
  group := r.group
  name := r.name
  size := r.size
  weight := r.weight
  status := r.status
  holder := r.holder

end Tenure
