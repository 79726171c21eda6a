import Tenure.Call
import Tenure.Ledger.Holds

/-!
# Holding, confirming, cancelling

The calls of one holder on one resource. Each takes the lock of the resource, for
which it waits a bounded time, and decides under it. A call to hold looks at the
resource before it waits, if it can do so at once, and gives up early when somebody
has it; what counts is the look under the lock.
-/

namespace Tenure.Ledger

variable {α : Type}

/-- When a call that starts now stops waiting for locks. -/
def lockDue (s : CoordinatorSettings) : Call Ledger Nat := do
  return (← Call.moment).elapsed + s.lockWait

/-- Runs `body` under the lock of a resource if it can be had until `due`, else
`late`; every attempt is a sample of the waiting times. -/
def underLock (id : Id) (due : Nat) (late body : Call Ledger α) : Call Ledger α :=
  let sampled (c : Call Ledger α) : Call Ledger α := do
    Call.modify fun l => l.count .lockWait
    c
  Call.holdingUntil (.resource id) due (sampled late) (sampled body)

/-- The status that counts now, if the resource can be read at once. -/
def peekStatus (id : Id) : Call Ledger (Option Status) := do
  if ← Call.couldLock (.resource id) .shared then
    Call.look fun m l => .done ((l.resources.get? id).map fun r => r.statusAt m.stamp)
  else return none

/-- Places a hold on terms that are in order. -/
def placeHold (s : CoordinatorSettings) (id : Id) (holder : String) (millis : Nat)
    (price : Float → Float) : Call Ledger (Except CallError (Reservation Hold)) := do
  if !(← Call.gets fun l => l.resources.contains id) then return .error (.notFound id)
  -- a look without waiting, which only spares obvious losers the wait
  match ← peekStatus id with
  | some .reserved =>
    Call.modify fun l => l.count (.reservations "denied")
    return .ok (.denied (.notAvailable id .reserved))
  | some .booked =>
    Call.modify fun l => l.count (.reservations "denied")
    return .ok (.denied (.notAvailable id .booked))
  | _ =>
    underLock id (← lockDue s)
      (do
        Call.modify fun l => l.count (.reservations "timeout")
        return .ok (.denied (.contended id)))
      (Call.update fun now l => l.place now id holder millis price)

/-- Places a hold for a limited time, given in nanoseconds. -/
def reserve (s : CoordinatorSettings) (id : Id) (holder : String) (duration : Nat)
    (price : Float → Float) : Call Ledger (Except CallError (Reservation Hold)) := do
  let millis := duration / 1000000
  if let some fault := holderFault? holder then return .error (.limitExceeded fault)
  if let some fault := holdFault? millis then return .error (.limitExceeded fault)
  placeHold s id holder millis price

/-- Places a hold for the time set as default. -/
def reserveDefault (s : CoordinatorSettings) (id : Id) (holder : String) (price : Float → Float) :
    Call Ledger (Except CallError (Reservation Hold)) :=
  reserve s id holder (s.holdTimeout * 1000000) price

/-- Runs a decision on a known resource under its lock. -/
def decide (s : CoordinatorSettings) (id : Id)
    (decision : Int → Ledger → Except CallError α × Ledger) : Call Ledger (Except CallError α) := do
  if !(← Call.gets fun l => l.resources.contains id) then return .error (.notFound id)
  underLock id (← lockDue s) (return .error (.lockTimeout id)) (Call.update decision)

/-- Makes a booking of a hold. -/
def confirmHold (s : CoordinatorSettings) (id : Id) (holder : String) :
    Call Ledger (Except CallError Unit) :=
  decide s id fun now l => l.confirm s.policy now id holder

/-- Gives up a hold or the booking of a single resource. -/
def cancelHold (s : CoordinatorSettings) (id : Id) (holder : String) :
    Call Ledger (Except CallError Unit) :=
  decide s id fun now l => l.cancel s.policy now id holder

end Tenure.Ledger
