import Tenure.House.Basic
import Tenure.Pricing

/-!
# Lockers

A bank of compartments is a group of resources with sizes. A deposit is a hold that
lasts as long as its code, with the parcel as holder; a pickup cancels the hold, and a
parcel nobody picks up is released like any other hold.

A parcel goes into the smallest compartment that fits and is free, of several into
the one registered first. A compartment that is lost to somebody else in between is
passed over for the next one.
-/

namespace Tenure

/-- Why a locker refused. -/
inductive LockerError where
  /-- no free compartment takes the size -/
  | noCompartment (size : Size)
  /-- the code was never given out -/
  | invalidCode
  /-- the parcel was picked up before -/
  | codeAlreadyUsed
  /-- the code has stopped working -/
  | codeExpired
  /-- the call on the compartment failed -/
  | call (e : CallError)
  /-- the compartment could not be registered -/
  | registration (e : Ledger.AddError)
  deriving DecidableEq, Repr

/-- The wording. -/
def LockerError.message : LockerError → String
  | noCompartment size => "no compartment available for a " ++ size.text ++ " parcel"
  | invalidCode => "invalid code"
  | codeAlreadyUsed => "code already used"
  | codeExpired => "code expired"
  | call e => e.message
  | registration e => e.message

/-- How long a code works unless set otherwise: two days, in nanoseconds. -/
def standardCodeLife : Nat := 48 * 3600 * 1000000000

namespace Assignment

/-- Whether the code has stopped working without having been used. -/
def expired (a : Assignment) (now : Int) : Bool := !a.pickedUp && a.deadline ≤ now

/-- Whether the code still works. -/
def active (a : Assignment) (now : Int) : Bool := !a.pickedUp && !a.expired now

end Assignment

/-- The state of a bank. -/
structure BankStatus where
  /-- all compartments -/
  compartments : Nat
  /-- those that take a parcel now -/
  free : Nat
  /-- the others -/
  occupied : Nat
  /-- codes that still work -/
  activeCodes : Nat
  deriving DecidableEq, Repr

/-- The line that describes the state of a bank. -/
def BankStatus.text (s : BankStatus) : String :=
  "compartments: " ++ toString s.compartments ++ " (free: " ++ toString s.free ++
    ", occupied: " ++ toString s.occupied ++ "), active codes: " ++ toString s.activeCodes

namespace House

/-! ## Building a bank -/

/-- Opens a bank without compartments: the group of its compartments. -/
def openBank (name : String) (codeLife : Nat) : Call House Id :=
  Call.update fun now h =>
    let (group, l) := h.ledger.addGroup (some name) now
    (group, { h with ledger := l, banks := h.banks ++ [⟨group, codeLife, Table.empty⟩] })

/-- Adds a compartment to a bank, named for its size and its number. -/
def addCompartment (bank : Bank) (size : Size) : Call House (Except LockerError Id) :=
  Call.update fun now h =>
    let (id, l) := h.ledger.draw .resource now
    let n := (l.members bank.group).length + 1
    let name := size.text ++ "-" ++ toString n
    let r := Resource.fresh 0.0 (some bank.group) (some name) (some size)
    match l.add id r with
    | .ok l => (.ok id, { h with ledger := l })
    | .error e => (.error (.registration e), h)

/-! ## Deposits -/

/-- The compartments among those read that are free and take a size, with their own
sizes, the smallest first. -/
def fitting (size : Size) (read : List (Id × Option Size × Status)) : List (Id × Size) :=
  let fits := read.filterMap fun (id, own, status) =>
    match own with
    | some s => if size ≤ s && status = .available then some (id, s) else none
    | none => none
  sortBy (fun a b => decide (a.2 ≤ b.2)) fits

/-- The compartments of a bank that take a size now, the smallest first. -/
def candidates (bank : Bank) (size : Size) : Call House (List (Id × Size)) := do
  let now ← Call.now
  let members ← Call.gets fun h => h.ledger.members bank.group
  let read ← onLedger <| Ledger.readEach (fun id r => (id, r.size, r.statusAt now)) members
  return fitting size read

/-- The codes that a bank has on file. -/
def codes (h : House) (bank : Nat) : List String :=
  (h.banks[bank]?.map fun b => b.assignments.keys).getD []

/-- Hands out a code for a parcel that has a hold: codes are drawn until the bank has none like it
on file. -/
def assign (h : House) (now : Int) (bank : Nat) (size : Size) (hold : Hold) : Assignment × House :=
  let (code, l) := h.ledger.drawCode now (h.codes bank)
  let a : Assignment := ⟨code, hold.holder, hold.id, size, hold.deadline, false⟩
  let h : House := { h with ledger := l.count (.lockerDeposits "assigned") }
  (a, h.changeBank bank fun b => { b with assignments := b.assignments.insert a.code a })

/-- Tries compartments one after the other. -/
def depositInto (s : CoordinatorSettings) (number : Nat) (bank : Bank) (parcel : String)
    (size : Size) : List (Id × Size) → Call House (Except LockerError Assignment)
  | [] => do
    Call.modify fun h => { h with ledger := h.ledger.count (.lockerDeposits "full") }
    return .error (.noCompartment size)
  | (id, own) :: rest => do
    match ← onLedger (Ledger.reserve s id parcel bank.codeLife Pricing.standard.price) with
    | .error e => return .error (.call e)
    -- lost to somebody else in the meantime
    | .ok (.denied _) => depositInto s number bank parcel size rest
    | .ok (.granted hold) => return .ok (← Call.update fun now h => h.assign now number own hold)

/-- Places a parcel in the best free compartment of a bank. -/
def deposit (s : CoordinatorSettings) (number : Nat) (bank : Bank) (parcel : String) (size : Size) :
    Call House (Except LockerError Assignment) := do
  depositInto s number bank parcel size (← candidates bank size)

/-! ## Pickups -/

/-- Marks whether the parcel of a code was picked up. -/
def mark (h : House) (bank : Nat) (code : String) (pickedUp : Bool) : House :=
  h.changeBank bank fun b =>
    { b with assignments := b.assignments.modify code fun a => { a with pickedUp := pickedUp } }

/-- Uses up a code, if it works. -/
def redeem (h : House) (now : Int) (bank : Nat) (code : String) :
    Except LockerError Assignment × House :=
  match h.assignment? bank code with
  | none => (.error .invalidCode, h)
  | some a =>
    if a.pickedUp then (.error .codeAlreadyUsed, h)
    else if a.expired now then (.error .codeExpired, h)
    else (.ok { a with pickedUp := true }, h.mark bank code true)

/-- Frees the compartment of a code that was used up. If it cannot be freed the code is
unused again; that the hold lapsed in between counts as an expired code. -/
def vacate (s : CoordinatorSettings) (bank : Nat) (code : String) (a : Assignment) :
    Call House (Except LockerError Assignment) := do
  match ← onLedger (Ledger.cancelHold s a.compartment a.parcel) with
  | .ok () => return .ok a
  | .error e =>
    Call.modify fun h => h.mark bank code false
    return .error (if e.isInvalidState then .codeExpired else .call e)

/-- Redeems a code: uses it up and frees its compartment. -/
def pickup (s : CoordinatorSettings) (bank : Nat) (code : String) :
    Call House (Except LockerError Assignment) := do
  match ← Call.update fun now h => h.redeem now bank code with
  | .error e => return .error e
  | .ok a => vacate s bank code a

/-! ## Status -/

/-- How many codes of a bank still work. -/
def activeCodes (h : House) (now : Int) (number : Nat) : Nat :=
  ((h.banks[number]?.map fun b => b.assignments.values).getD []).countP fun a => a.active now

/-- Counts the compartments and codes of a bank. -/
def bankStatus (number : Nat) (bank : Bank) : Call House BankStatus := do
  let now ← Call.now
  let members ← Call.gets fun h => h.ledger.members bank.group
  let read ← onLedger <| Ledger.readEach (fun _ r => r.statusAt now) members
  let free := read.count .available
  let active ← Call.gets fun h => h.activeCodes now number
  return ⟨members.length, free, members.length - free, active⟩

end House

end Tenure
