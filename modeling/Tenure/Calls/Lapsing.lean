import Tenure.Calls.Holding
import Tenure.Calls.Reading

/-!
# Lapsing holds

Holds end when their deadline comes. The reaper sleeps until the next deadline in
the queue, and looks up early when a hold with an earlier deadline is placed; a sweep
settles everything that has lapsed so far. Both take the lock of a resource like
anybody else: the reaper waits a bounded time for it and tries again later, a sweep
waits as long as it takes.
-/

namespace Tenure.Ledger

/-- Settles a hold whose deadline has come: whether there was one to settle. If the
lock is not to be had, the deadline goes back into the queue at a later time. -/
def expireHold (s : CoordinatorSettings) (id : Id) (generation : UInt64) :
    Call Ledger (Except CallError Bool) := do
  if !(← Call.gets fun l => l.resources.contains id) then return .error (.notFound id)
  underLock id (← lockDue s)
    (Call.update fun now l =>
      (.error (.lockTimeout id),
        l.schedule ⟨Stamp.later now (wordOfMillis s.lockWait), id, generation⟩))
    (Call.update fun now l =>
      let r := l.expire now id generation
      (.ok r.1, r.2))

/-- Settles the holds of the deadlines in the reaper's hand, one after the other; it
puts a deadline out of its hand when it is done with it. -/
def expireEach (s : CoordinatorSettings) : List Expiry → Call Ledger Unit
  | [] => return ()
  | e :: es => do
    let _ ← expireHold s e.id e.generation
    Call.modify fun l => { l with inHand := es }
    expireEach s es

/-- Settles resources that have lapsed at `now`: how many had. -/
def settleEach (now : Int) : List Id → Call Ledger Nat
  | [] => return 0
  | id :: ids => do
    let settled ← Call.holding (.resource id) .exclusive (Call.update fun _ l => l.settle now id)
    let rest ← settleEach now ids
    return rest + if settled then 1 else 0

/-- Settles every hold that has lapsed when the sweep starts: how many. -/
def sweep : Call Ledger Nat := do
  let now ← Call.now
  let infos ← list fun i => i.status = .reserved
  settleEach now (infos.map ResourceInfo.id)

/-! ## The reaper -/

/-- How long the reaper sleeps: until the next deadline, but not longer than `idle`. -/
def sleepFor (now : Int) (idle : Nat) (q : ExpiryQueue) : Nat :=
  match q.nextDeadline with
  | none => idle
  | some t => if t ≤ now then 0 else min (t - now).toNat idle

/-- The sign that an early deadline came in; taking it is taking notice. -/
def wakeSign (l : Ledger) : Option Ledger :=
  if l.expiries.wake then some { l with expiries := l.expiries.noticed } else none

/-- The sign is there if `wake` is set, and is taken by taking notice. -/
theorem wakeSign_eq_some {l l' : Ledger} :
    wakeSign l = some l' ↔
      l.expiries.wake = true ∧ l' = { l with expiries := l.expiries.noticed } := by
  simp only [wakeSign]
  split
  · next wake => simp [wake, eq_comm]
  · next wake => simp [wake]

/-- Settles what has come due, if the ledger is still in use; whether it is. -/
def reap (s : CoordinatorSettings) : Call Ledger Bool := do
  if ← Call.gets fun l => l.inUse then
    let due ← Call.update fun now l => l.takeDue now
    expireEach s due
    return true
  else return false

/-- One round of the reaper: sleep, then settle what has come due. It goes on as long
as the ledger is in use. -/
def reaperRound (s : CoordinatorSettings) : Call Ledger Bool := do
  let m ← Call.moment
  let sleep ← Call.gets fun l => sleepFor m.stamp s.reaperIdle l.expiries
  if sleep ≠ 0 then Call.wait (some (m.elapsed + sleep)) wakeSign
  reap s

end Tenure.Ledger
