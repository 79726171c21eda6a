import Tenure.Ledger.Basic
import Tenure.Moment

/-!
# Decisions on one resource

What happens to a resource under its lock when somebody wants to hold it, confirm or
cancel a claim, or let a hold lapse. Every decision first settles a hold that has
lapsed by then, so it sees the status that counts.
-/

namespace Tenure.Ledger

/-- Settles the hold on a resource if it has lapsed: whether it had. -/
def settle (l : Ledger) (now : Int) (id : Id) : Bool × Ledger :=
  match l.resources.get? id with
  | none => (false, l)
  | some r =>
    if r.lapsed now then
      match r.claim with
      | none => (false, l)
      | some c =>
        let l := (l.turn id true Resource.freed).count .holdsExpired
        (true, l.send id (.holdExpired id c.holder c.generation))
    else (false, l)

/-- The hold that a holder gets on a resource at `now`. -/
def holdOn (r : Resource) (now : Int) (id : Id) (holder : String) (millis : Nat)
    (price : Float → Float) : Hold where
  id := id
  holder := holder
  price := price r.weight
  deadline := Stamp.later now millis
  generation := r.generation + 1

/-- A resource with a hold on it. -/
def held (r : Resource) (h : Hold) : Resource :=
  { r with
    status := .reserved
    claim := some ⟨h.holder, h.price, some h.deadline, h.generation, none⟩
    generation := h.generation }

/-- Places a hold on a resource that is available. -/
def place (l : Ledger) (now : Int) (id : Id) (holder : String) (millis : Nat)
    (price : Float → Float) : Except CallError (Reservation Hold) × Ledger :=
  let l := (l.settle now id).2
  match l.resources.get? id with
  | none => (.error (.notFound id), l)
  | some r =>
    if r.status ≠ .available then
      (.ok (.denied (.notAvailable id r.status)), l.count (.reservations "denied"))
    else
      let h := holdOn r now id holder millis price
      let l := (l.turn id true fun r => held r h).schedule ⟨h.deadline, id, h.generation⟩
      let l := l.count (.reservations "held")
      (.ok (.granted h), l.send id (.holdPlaced id holder h.price h.deadline h.generation))

/-- Whether somebody may not touch the claim on a resource. -/
def mayNot (policy : HolderPolicy) (r : Resource) (holder : String) : Bool :=
  policy = .strict && r.holder ≠ some holder

/-- A resource whose hold has become a booking. -/
def confirmed (r : Resource) : Resource :=
  { r with status := .booked, claim := r.claim.map fun c => { c with deadline := none } }

/-- Makes a booking of a hold. -/
def confirm (l : Ledger) (policy : HolderPolicy) (now : Int) (id : Id) (holder : String) :
    Except CallError Unit × Ledger :=
  let l := (l.settle now id).2
  match l.resources.get? id with
  | none => (.error (.notFound id), l)
  | some r =>
    if r.status ≠ .reserved then (.error (.invalidState .confirm id r.status), l)
    else if mayNot policy r holder then (.error (.notHolder id holder), l)
    else
      match r.claim with
      | none => (.error (.invalidState .confirm id r.status), l)
      | some c =>
        let l := l.turn id true confirmed
        (.ok (), l.send id (.bookingConfirmed id c.holder c.price))

/-- Gives up a hold or the booking of a single resource. -/
def cancel (l : Ledger) (policy : HolderPolicy) (now : Int) (id : Id) (holder : String) :
    Except CallError Unit × Ledger :=
  let l := (l.settle now id).2
  match l.resources.get? id with
  | none => (.error (.notFound id), l)
  | some r =>
    if r.status = .available then (.error (.invalidState .cancel id r.status), l)
    else if mayNot policy r holder then (.error (.notHolder id holder), l)
    else
      match r.claim.bind Claim.booking with
      | some booking => (.error (.groupOwned id booking), l)
      | none =>
        let l := l.turn id true Resource.freed
        (.ok (), l.send id (.reservationCancelled id (r.holder.getD "")))

/-- Settles the hold of one generation if it has lapsed: whether it had. A hold that
has not lapsed, or another hold, is left alone. -/
def expire (l : Ledger) (now : Int) (id : Id) (generation : UInt64) : Bool × Ledger :=
  match l.resources.get? id with
  | none => (false, l)
  | some r =>
    if r.status = .reserved && r.claim.any fun c => c.generation = generation then l.settle now id
    else (false, l)

end Tenure.Ledger
