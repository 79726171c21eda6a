import Tenure.House.Basic

/-!
# The gate

Calls that pass the admission controller first. A client is known by the name of its
holder, so one busy holder does not use up what others may do at the same endpoint.
-/

namespace Tenure.House

/-- Decides on one call of a client at an endpoint: whether it is admitted. -/
def judge (h : House) (endpoint key : String) (m : Moment) : Bool × House :=
  let r := h.admission.allow endpoint key m.nanos
  (r.1, ({ h with admission := r.2 } : House).recordDecisions endpoint r.1 1)

/-- One call of a client at an endpoint: whether it is admitted. -/
def allow (endpoint key : String) : Call House Bool :=
  Call.look fun m h =>
    let r := h.judge endpoint key m
    .save r.2 (.done r.1)

/-- Several calls at one moment: how many are admitted and how many turned away. -/
def allowMany (endpoint key : String) (count : Nat) : Call House (Nat × Nat) :=
  Call.look fun m h =>
    let r := h.admission.allowMany endpoint key m.nanos count
    let h : House := { h with admission := r.2 }
    .save ((h.recordDecisions endpoint true r.1.1).recordDecisions endpoint false r.1.2)
      (.done r.1)

/-- Places a hold, if the endpoint admits the holder. -/
def reserveAt (s : CoordinatorSettings) (endpoint : String) (id : Id) (holder : String)
    (duration : Nat) (price : Float → Float) :
    Call House (Except CallError (Reservation Hold)) := do
  if ← allow endpoint holder then onLedger (Ledger.reserve s id holder duration price)
  else return .ok (.denied (.rateLimited endpoint))

end Tenure.House
