import Tenure.Ledger.Holds

/-!
# Decisions on several resources of a group

A group booking takes all of its resources or none. Under the locks of all of them,
lapsed holds are settled in ascending order up to the first resource that somebody
has; only if there is none does anything else change.
-/

namespace Tenure.Ledger

/-- The identifiers in ascending order, in which their locks are taken. -/
def ascending (ids : List Id) : List Id := sortBy Id.le ids

/-- The first identifier that occurs again after itself, in order of its second
occurrence. -/
def firstRepeated : (seen : List Id) → List Id → Option Id
  | _, [] => none
  | seen, id :: ids => if id ∈ seen then some id else firstRepeated (id :: seen) ids

/-- Settles resources one after the other, up to the first that is not available
then; that one is answered. -/
def settleAll (now : Int) : List Id → Ledger → Option (Id × Status) × Ledger
  | [], l => (none, l)
  | id :: ids, l =>
    let l := (l.settle now id).2
    match l.resources.get? id with
    | none => settleAll now ids l
    | some r => if r.status ≠ .available then (some (id, r.status), l) else settleAll now ids l

/-- A resource booked as part of a group booking. -/
def bookedBy (r : Resource) (holder : String) (booking : Id) (price : Float → Float) : Resource :=
  { r with
    status := .booked
    claim := some ⟨holder, price r.weight, none, r.generation, some booking⟩ }

/-- The sum of the prices of resources, in the order given. -/
def totalPrice (l : Ledger) (price : Float → Float) (ids : List Id) : Float :=
  ids.foldl
    (fun total id =>
      match l.resources.get? id with
      | none => total
      | some r => total + price r.weight)
    0.0

/-- Books resources of a group for a holder. -/
def book (l : Ledger) (now : Int) (group : Id) (holder : String) (ids : List Id)
    (price : Float → Float) : Reservation Booking × Ledger :=
  let sorted := ascending ids
  match settleAll now sorted l with
  | (some (id, status), l) => (.denied (.notAvailable id status), l.count (.groupBookings "denied"))
  | (none, l) =>
    -- nothing can go wrong from here on
    let (booking, l) := l.draw .booking now
    let total := l.totalPrice price sorted
    let l := sorted.foldl (fun l id => l.turn id false fun r => bookedBy r holder booking price) l
    let b : Booking := ⟨booking, group, holder, ids, total, .confirmed, now⟩
    let l := { l with bookings := l.bookings.insert booking b }
    let l := l.count (.groupBookings "booked")
    (.granted b, l.send group (.groupBooked booking group holder ids total))

/-- Gives up a resource, if it still belongs to a booking. -/
def giveUp (l : Ledger) (booking id : Id) : Ledger :=
  if (l.resources.get? id).any fun r => r.claim.bind Claim.booking = some booking then
    l.turn id true Resource.freed
  else l

/-- Gives up the resources that still belong to a booking, and the booking. -/
def cancelBooking (l : Ledger) (b : Booking) : Ledger :=
  let l := b.resources.foldl (fun l id => l.giveUp b.id id) l
  let l := { l with bookings := l.bookings.modify b.id fun b => { b with status := .cancelled } }
  l.send b.group (.groupCancelled b.id b.group b.resources)

/-- The bookings of a holder, in the order of their names. -/
def bookingsFor (l : Ledger) (holder : String) : List Booking :=
  sortBy (fun a b => a.id.le b.id) (l.bookings.values.filter fun b => b.holder = holder)

end Tenure.Ledger
