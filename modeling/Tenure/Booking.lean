import Tenure.Id

/-!
# Group bookings

The record of an all-or-nothing booking of several members of one group.
-/

namespace Tenure

/-- Whether a group booking stands. -/
inductive BookingStatus where
  /-- it stands -/
  | confirmed
  /-- it was given up -/
  | cancelled
  deriving DecidableEq, Repr

namespace BookingStatus

/-- The written form. -/
def text : BookingStatus → String
  | confirmed => "CONFIRMED"
  | cancelled => "CANCELLED"

end BookingStatus

/-- Several members of one group, booked together. -/
structure Booking where
  /-- its own name -/
  id : Id
  /-- the group whose members it books -/
  group : Id
  /-- who booked -/
  holder : String
  /-- what is booked, in the order asked for -/
  resources : List Id
  /-- the sum of the prices -/
  total : Float
  /-- whether it stands -/
  status : BookingStatus
  /-- when it was made -/
  bookedAt : Int

end Tenure
