import Tenure.Id

/-!
# Events

What subscribers are told. Events of one resource go to those who follow the
resource, events of a group booking to those who follow the group.
-/

namespace Tenure

/-- A change that subscribers are told of. -/
inductive Event where
  /-- a resource was registered -/
  | resourceAdded (id : Id) (group : Option Id)
  /-- a hold was placed -/
  | holdPlaced (id : Id) (holder : String) (price : Float) (deadline : Int)
      (generation : UInt64)
  /-- a hold lapsed and was settled -/
  | holdExpired (id : Id) (holder : String) (generation : UInt64)
  /-- a hold became a booking -/
  | bookingConfirmed (id : Id) (holder : String) (price : Float)
  /-- a hold or a booking was given up -/
  | reservationCancelled (id : Id) (holder : String)
  /-- members of a group were booked together -/
  | groupBooked (booking group : Id) (holder : String) (resources : List Id) (total : Float)
  /-- a group booking was given up -/
  | groupCancelled (booking group : Id) (resources : List Id)

end Tenure
