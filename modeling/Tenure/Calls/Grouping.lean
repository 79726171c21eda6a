import Tenure.Calls.Holding
import Tenure.Calls.Reading
import Tenure.Ledger.Groups

/-!
# Group bookings

The calls that book several resources of a group together and give such bookings up.
A call takes the lock of the group and then the locks of the resources in ascending
order, so that two of them never wait for each other; one deadline bounds all of
these waits together.
-/

namespace Tenure.Ledger

variable {α : Type}

/-- Runs `body` under the locks of resources, taken one after the other; `check` looks
at each resource once its lock is held, and an unknown resource ends the call. -/
def underLocks (due : Nat) (late : Id → Call Ledger (Except CallError α))
    (check : Id → Resource → Option CallError) (body : Call Ledger (Except CallError α)) :
    List Id → Call Ledger (Except CallError α)
  | [] => body
  | id :: ids => do
    if !(← Call.gets fun l => l.resources.contains id) then return .error (.notFound id)
    underLock id due (late id) do
      match ← Call.gets fun l => (l.resources.get? id).bind (check id) with
      | some e => return .error e
      | none => underLocks due late check body ids

/-- Books resources that are listed as they should be. -/
def bookListed (s : CoordinatorSettings) (group : Id) (holder : String) (ids : List Id)
    (price : Float → Float) : Call Ledger (Except CallError (Reservation Booking)) := do
  if !(← Call.gets fun l => l.groups.contains group) then return .error (.notFound group)
  let due ← lockDue s
  let late (id : Id) : Call Ledger (Except CallError (Reservation Booking)) := do
    Call.modify fun l => l.count (.groupBookings "timeout")
    return .ok (.denied (.contended id))
  let foreign (id : Id) (r : Resource) : Option CallError :=
    if r.group = some group then none else some (.notInGroup id group)
  Call.holdingUntil (.group group) due (late group)
    (underLocks due late foreign
      (Call.update fun now l =>
        let r := l.book now group holder ids price
        (.ok r.1, r.2))
      (ascending ids))

/-- Books resources of a group for a holder, all or none. -/
def bookGroup (s : CoordinatorSettings) (group : Id) (holder : String) (ids : List Id)
    (price : Float → Float) : Call Ledger (Except CallError (Reservation Booking)) := do
  if let some fault := holderFault? holder then return .error (.limitExceeded fault)
  if ids.isEmpty then return .error (.limitExceeded .nothingToBook)
  if maxBookingSize < ids.length then return .error (.limitExceeded .tooMuchToBook)
  if let some id := firstRepeated [] ids then return .error (.duplicateResource id)
  bookListed s group holder ids price

/-- The members of a group that have some names; none if one is missing. -/
def findAll (group : Id) : List String → Call Ledger (Option (List Id))
  | [] => return some []
  | name :: names => do
    match ← find group name with
    | none => return none
    | some id =>
      match ← findAll group names with
      | none => return none
      | some ids => return some (id :: ids)

/-- Books members of a group by their names. -/
def bookByName (s : CoordinatorSettings) (group : Id) (holder : String) (names : List String)
    (price : Float → Float) : Call Ledger (Except CallError (Reservation Booking)) := do
  match ← findAll group names with
  | none => return .error (.notFound group)
  | some ids => bookGroup s group holder ids price

/-- The booking of a given name, if it still stands. -/
def standing (l : Ledger) (booking : Id) : Except CallError Booking :=
  match l.bookings.get? booking with
  | none => .error (.unknownBooking booking)
  | some b => if b.status = .cancelled then .error (.alreadyCancelled booking) else .ok b

/-- Gives up a group booking with all of its resources. Whether it still stands is
looked at again under the lock of the group. -/
def cancelGroup (s : CoordinatorSettings) (booking : Id) (holder : String) :
    Call Ledger (Except CallError Unit) := do
  match ← Call.gets fun l => l.standing booking with
  | .error e => return .error e
  | .ok b =>
    if !(← Call.gets fun l => l.groups.contains b.group) then return .error (.notFound b.group)
    let due ← lockDue s
    let late (id : Id) : Call Ledger (Except CallError Unit) := return .error (.lockTimeout id)
    Call.holdingUntil (.group b.group) due (late b.group) do
      -- somebody else may have given it up during the wait
      match ← Call.gets fun l => l.standing booking with
      | .error e => return .error e
      | .ok c =>
        if s.policy = .strict && c.holder ≠ holder then return .error (.notHolder booking holder)
        underLocks due late (fun _ _ => none)
          (Call.update fun _ l => (.ok (), l.cancelBooking b))
          (ascending b.resources)

end Tenure.Ledger
