import Tenure.Resource

/-!
# Outcomes

What a call to reserve, confirm, book or cancel can come to. Losing out to somebody
else is a denial, which is a normal answer; a call that could not have succeeded
whoever else was there ends in a `CallError`.
-/

namespace Tenure

/-! ## Bounds on arguments -/

/-- How long the name of a holder may be, in bytes. -/
def maxHolderLength : Nat := 256

/-- How many resources one group booking may take. -/
def maxBookingSize : Nat := 64

/-- How long a hold may last, in milliseconds: one week. -/
def maxHoldMillis : Nat := 604800000

/-- An argument out of bounds. -/
inductive Limit where
  /-- a holder without a name -/
  | holderEmpty
  /-- a holder whose name is too long -/
  | holderTooLong
  /-- a hold of less than a millisecond -/
  | holdTooShort
  /-- a hold of more than a week -/
  | holdTooLong
  /-- a group booking of nothing -/
  | nothingToBook
  /-- a group booking of too many resources -/
  | tooMuchToBook
  deriving DecidableEq, Repr

/-- The wording. -/
def Limit.message : Limit → String
  | holderEmpty => "holder id is empty"
  | holderTooLong => "holder id too long"
  | holdTooShort => "hold timeout too short"
  | holdTooLong => "hold timeout too long"
  | nothingToBook => "group booking needs at least one resource"
  | tooMuchToBook => "group booking too large"

/-- What is wrong with the name of a holder. -/
def holderFault? (holder : String) : Option Limit :=
  if holder.isEmpty then some .holderEmpty
  else if maxHolderLength < holder.utf8ByteSize then some .holderTooLong
  else none

/-- What is wrong with the length of a hold in milliseconds. -/
def holdFault? (millis : Nat) : Option Limit :=
  if millis < 1 then some .holdTooShort
  else if maxHoldMillis < millis then some .holdTooLong
  else none

/-! ## Answers -/

/-- Why a claim was not granted. -/
inductive Denial where
  /-- somebody has the resource -/
  | notAvailable (id : Id) (status : Status)
  /-- the lock was not obtained in time -/
  | contended (id : Id)
  /-- the holder makes too many calls -/
  | rateLimited (endpoint : String)
  deriving DecidableEq, Repr

/-- The wording. -/
def Denial.message : Denial → String
  | notAvailable id status => "resource " ++ id.text ++ " is " ++ status.text
  | contended id => "lock on " ++ id.text ++ " is contended"
  | rateLimited endpoint => "rate limited on " ++ endpoint

/-- The answer to an attempt to get something. -/
inductive Reservation (α : Type) where
  /-- it was obtained -/
  | granted (a : α)
  /-- it was not, and why -/
  | denied (reason : Denial)

/-- A hold that was placed. -/
structure Hold where
  /-- the resource held -/
  id : Id
  /-- whose hold it is -/
  holder : String
  /-- what it costs -/
  price : Float
  /-- when it lapses -/
  deadline : Int
  /-- the number of the hold among those on the resource -/
  generation : UInt64

/-- What was to be done with a resource. -/
inductive Operation where
  /-- make a booking of a hold -/
  | confirm
  /-- give up a hold or booking -/
  | cancel
  deriving DecidableEq, Repr

/-- The written form. -/
def Operation.text : Operation → String
  | confirm => "confirm"
  | cancel => "cancel"

/-- Why a call failed. -/
inductive CallError where
  /-- no resource or group has this name -/
  | notFound (id : Id)
  /-- no booking has this name -/
  | unknownBooking (id : Id)
  /-- the resource is not a member of the group -/
  | notInGroup (id group : Id)
  /-- the status does not allow the operation -/
  | invalidState (operation : Operation) (id : Id) (status : Status)
  /-- the booking was given up before -/
  | alreadyCancelled (booking : Id)
  /-- the caller is not the holder of the resource or booking -/
  | notHolder (id : Id) (holder : String)
  /-- the resource is to be given up with its whole booking -/
  | groupOwned (id booking : Id)
  /-- the resource is listed twice -/
  | duplicateResource (id : Id)
  /-- the lock was not obtained in time -/
  | lockTimeout (id : Id)
  /-- an argument is out of bounds -/
  | limitExceeded (limit : Limit)
  deriving DecidableEq, Repr

namespace CallError

/-- The wording. -/
def message : CallError → String
  | notFound id => "not found: " ++ id.text
  | unknownBooking id => "unknown booking: " ++ id.text
  | notInGroup id group => "resource " ++ id.text ++ " is not a member of group " ++ group.text
  | invalidState op id status =>
    "cannot " ++ op.text ++ " resource " ++ id.text ++ ": status is " ++ status.text
  | alreadyCancelled booking => "booking " ++ booking.text ++ " is already cancelled"
  | notHolder id holder => holder ++ " does not hold resource " ++ id.text
  | groupOwned id booking => "resource " ++ id.text ++ " belongs to group booking " ++ booking.text
  | duplicateResource id => "resource " ++ id.text ++ " listed more than once"
  | lockTimeout id => "timed out waiting for lock on " ++ id.text
  | limitExceeded limit => "limit exceeded: " ++ limit.message

/-- Whether the state of things stood against the call, rather than its arguments. -/
def isInvalidState : CallError → Bool
  | invalidState .. => true
  | alreadyCancelled _ => true
  | _ => false

end CallError

end Tenure
