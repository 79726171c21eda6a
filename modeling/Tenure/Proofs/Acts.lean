import Tenure.House.Gate
import Tenure.House.Locker
import Tenure.Proofs.Quiet

/-!
# Acts

What may be done in a house, and what would come of it if nobody else were there. An `Act`
is a request to the ledger, a request that passes the gate first, or one of the calls of a
locker bank. `Act.call` is the call itself, `Act.atOnce` does the same without locks, all of
it at one moment.
-/

namespace Tenure

/-- What is read of the members of a group; those that are unknown are left out. -/
def Ledger.readMembers {α : Type} (l : Ledger) (group : Id) (f : Id → Resource → α) : List α :=
  (l.members group).filterMap fun id => (l.resources.get? id).map (f id)

namespace House

/-! ## At once -/

/-- Places a hold, if the endpoint admits the holder. -/
def reserveAtOnce (h : House) (m : Moment) (endpoint : String) (id : Id) (holder : String)
    (duration : Nat) (price : Float → Float) : Except CallError (Reservation Hold) × House :=
  match h.judge endpoint holder m with
  | (false, h) => (.ok (.denied (.rateLimited endpoint)), h)
  | (true, h) =>
    let r := h.ledger.reserveAtOnce m.stamp id holder duration price
    (r.1, { h with ledger := r.2 })

/-- Tries compartments one after the other. -/
def fill (now : Int) (number : Nat) (bank : Bank) (parcel : String) (size : Size) :
    List (Id × Size) → House → Except LockerError Assignment × House
  | [], h => (.error (.noCompartment size), h)
  | (id, own) :: rest, h =>
    let r := h.ledger.reserveAtOnce now id parcel bank.codeLife Pricing.standard.price
    let h : House := { h with ledger := r.2 }
    match r.1 with
    | .error e => (.error (.call e), h)
    | .ok (.denied _) => fill now number bank parcel size rest h
    | .ok (.granted hold) =>
      let r := h.assign now number own hold
      (.ok r.1, r.2)

/-- Places a parcel in the best free compartment of a bank. -/
def depositAtOnce (h : House) (now : Int) (number : Nat) (bank : Bank) (parcel : String)
    (size : Size) : Except LockerError Assignment × House :=
  let read := h.ledger.readMembers bank.group fun id r => (id, r.size, r.statusAt now)
  fill now number bank parcel size (fitting size read) h

/-- Redeems a code. -/
def pickupAtOnce (h : House) (policy : HolderPolicy) (now : Int) (number : Nat) (code : String) :
    Except LockerError Assignment × House :=
  match h.redeem now number code with
  | (.error e, h) => (.error e, h)
  | (.ok a, h) =>
    let r := h.ledger.cancel policy now a.compartment a.parcel
    let h : House := { h with ledger := r.2 }
    match r.1 with
    | .ok () => (.ok a, h)
    | .error e =>
      (.error (if e.isInvalidState then .codeExpired else .call e), h.mark number code false)

/-- Counts the compartments and codes of a bank. -/
def statusAtOnce (h : House) (now : Int) (number : Nat) (bank : Bank) : BankStatus :=
  let members := h.ledger.members bank.group
  let free := (h.ledger.readMembers bank.group fun _ r => r.statusAt now).count .available
  ⟨members.length, free, members.length - free, h.activeCodes now number⟩

/-! ## Acts -/

/-- What may be done in a house. -/
inductive Act where
  /-- a request to the ledger -/
  | ask (r : Request)
  /-- a request for a hold that passes the gate -/
  | enter (endpoint : String) (id : Id) (holder : String) (duration : Nat)
    (price : Float → Float)
  /-- to place a parcel -/
  | deposit (number : Nat) (bank : Bank) (parcel : String) (size : Size)
  /-- to redeem a code -/
  | pickup (number : Nat) (code : String)
  /-- to count compartments and codes -/
  | status (number : Nat) (bank : Bank)

/-- What comes of an act. -/
inductive Result where
  /-- the answer to a request -/
  | answer (a : Answer)
  /-- how it went with a parcel -/
  | parcel (r : Except LockerError Assignment)
  /-- what was counted -/
  | status (s : BankStatus)

namespace Act

/-- The call that does it. -/
def call (s : CoordinatorSettings) : Act → Call House Result
  | ask r => (onLedger (r.call s)).bind fun a => .done (.answer a)
  | enter endpoint id holder duration price =>
    (reserveAt s endpoint id holder duration price).bind fun r => .done (.answer (.hold r))
  | deposit number bank parcel size =>
    (House.deposit s number bank parcel size).bind fun r => .done (.parcel r)
  | pickup number code => (House.pickup s number code).bind fun r => .done (.parcel r)
  | status number bank => (bankStatus number bank).bind fun r => .done (.status r)

/-- What comes of it if nobody else is there, and the house afterwards. -/
def atOnce (s : CoordinatorSettings) (m : Moment) (h : House) : Act → Result × House
  | ask r =>
    let r := r.atOnce s m.stamp h.ledger
    (.answer r.1, { h with ledger := r.2 })
  | enter endpoint id holder duration price =>
    let r := h.reserveAtOnce m endpoint id holder duration price
    (.answer (.hold r.1), r.2)
  | deposit number bank parcel size =>
    let r := h.depositAtOnce m.stamp number bank parcel size
    (.parcel r.1, r.2)
  | pickup number code =>
    let r := h.pickupAtOnce s.policy m.stamp number code
    (.parcel r.1, r.2)
  | status number bank => (.status (h.statusAtOnce m.stamp number bank), h)

end Act

/-! ## Counting -/

/-- The house has changed in what was counted, if at all. -/
structure Quiet (h h' : House) : Prop where
  /-- the ledger has changed in nothing else -/
  ledger : h.ledger.Quiet h'.ledger
  /-- the admission controller is the same -/
  admission : h'.admission = h.admission
  /-- the banks are the same -/
  banks : h'.banks = h.banks

theorem Quiet.refl (h : House) : Quiet h h := ⟨.refl h.ledger, rfl, rfl⟩

/-- Same results, and houses that differ in what was counted. -/
def Quietly {α : Type} (r r' : α × House) : Prop := r.1 = r'.1 ∧ Quiet r.2 r'.2

/-- What was counted has no say in how parcels are assigned. -/
theorem Quiet.assign {h h' : House} (quiet : Quiet h h') (now : Int) (number : Nat) (size : Size)
    (hold : Hold) : Quietly (h.assign now number size hold) (h'.assign now number size hold) := by
  obtain ⟨⟨x, ledger⟩, admission, banks⟩ := quiet
  have assigned : h' = { h with ledger := { h.ledger with metrics := x } } := by
    cases h'
    simp_all
  subst assigned
  exact ⟨rfl, ⟨_, rfl⟩, rfl, rfl⟩

end House

end Tenure
