import Tenure.Admission.Controller
import Tenure.Calls.Grouping
import Tenure.Calls.Lapsing

/-!
# The house

The ledger together with what is built on it: the admission controller in front of
it and the locker banks whose compartments it keeps.
-/

namespace Tenure

/-- A parcel in a compartment, to be had for its code. -/
structure Assignment where
  /-- what the parcel is to be had for -/
  code : String
  /-- the name of the parcel, which is also the holder of the hold -/
  parcel : String
  /-- where the parcel is -/
  compartment : Id
  /-- the size of the compartment -/
  size : Size
  /-- when the code stops working -/
  deadline : Int
  /-- the parcel was picked up -/
  pickedUp : Bool
  deriving DecidableEq, Repr

/-- A bank of compartments. -/
structure Bank where
  /-- the group of its compartments -/
  group : Id
  /-- how long a code works, in nanoseconds -/
  codeLife : Nat
  /-- the assignments by code -/
  assignments : Table String Assignment

/-- The ledger and what is built on it. -/
structure House where
  /-- what is known about resources -/
  ledger : Ledger
  /-- who may call -/
  admission : Controller
  /-- the locker banks, by number -/
  banks : List Bank

namespace House

variable {α : Type}

/-- A call on the ledger of a house. -/
def onLedger (c : Call Ledger α) : Call House α :=
  c.within House.ledger fun l h => { h with ledger := l }

/-- Changes a bank. -/
def changeBank (h : House) (bank : Nat) (f : Bank → Bank) : House :=
  { h with banks := h.banks.modify bank f }

/-- The assignment of a code in a bank. -/
def assignment? (h : House) (bank : Nat) (code : String) : Option Assignment :=
  h.banks[bank]?.bind fun b => b.assignments.get? code

/-- Counts decisions of an endpoint. -/
def recordDecisions (h : House) (endpoint : String) (allowed : Bool) (n : Nat) : House :=
  { h with
    ledger :=
      { h.ledger with metrics := h.ledger.metrics.recordDecisions endpoint allowed n } }

end House

end Tenure
