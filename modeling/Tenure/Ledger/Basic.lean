import Tenure.Booking
import Tenure.Expiry
import Tenure.Hub
import Tenure.Metrics
import Tenure.Outcome
import Tenure.Resource
import Tenure.Settings
import Tenure.Supply

/-!
# The ledger

All that is known about resources: the resources themselves, the groups they belong
to, group bookings, the deadlines still to come, and those who want to be told.
-/

namespace Tenure

/-! ## Changes of status -/

/-- One change of the status of a resource. -/
structure Turn where
  /-- the resource -/
  id : Id
  /-- the status it had -/
  source : Status
  /-- the status it took -/
  target : Status
  /-- whether it went through a workflow with a hold step -/
  holdStep : Bool

/-- Whether the workflow has such a step. -/
def Turn.allowed (t : Turn) : Bool := t.source.allows t.holdStep t.target

/-! ## The ledger -/

/-- A group of resources. -/
structure Group where
  /-- its display name -/
  name : Option String
  /-- the members, in order of registration -/
  members : List Id

/-- The state that calls share. -/
structure Ledger where
  /-- the resources, by name -/
  resources : Table Id Resource
  /-- the groups, by name -/
  groups : Table Id Group
  /-- the group bookings, by name -/
  bookings : Table Id Booking
  /-- the deadlines still to come -/
  expiries : ExpiryQueue
  /-- those who want to be told -/
  hub : Hub
  /-- what was counted so far -/
  metrics : Metrics
  /-- the names still to be given out -/
  supply : Supply
  /-- every change of a status so far, the latest first -/
  turns : List Turn
  /-- the deadlines that the reaper has taken out and is not done with -/
  inHand : List Expiry
  /-- whether anybody still uses the ledger; its reaper ends when nobody does -/
  inUse : Bool

namespace Ledger

/-- A ledger without entries. -/
def empty (source : Source) : Ledger where
  resources := Table.empty
  groups := Table.empty
  bookings := Table.empty
  expiries := ExpiryQueue.empty
  hub := Hub.empty
  metrics := Metrics.empty
  supply := ⟨source, []⟩
  turns := []
  inHand := []
  inUse := true

/-- Counts one more of something. -/
def count (l : Ledger) (m : Metric) : Ledger := { l with metrics := l.metrics.count m }

/-- Tells the followers of `key`. -/
def send (l : Ledger) (key : Id) (e : Event) : Ledger := { l with hub := l.hub.send key e }

/-- Gives out a name. -/
def draw (l : Ledger) (kind : Kind) (now : Int) : Id × Ledger :=
  let r := l.supply.draw kind now
  (r.1, { l with supply := r.2 })

/-- Gives out a code that is not among those taken. -/
def drawCode (l : Ledger) (now : Int) (taken : List String) : String × Ledger :=
  let r := l.supply.drawCode now taken
  (r.1, { l with supply := r.2 })

/-- Changes a resource. -/
def change (l : Ledger) (id : Id) (f : Resource → Resource) : Ledger :=
  { l with resources := l.resources.modify id f }

/-- Takes a resource to its next status, as `f` says, and notes the change. -/
def turn (l : Ledger) (id : Id) (holdStep : Bool) (f : Resource → Resource) : Ledger :=
  { l.change id f with
    turns :=
      ((l.resources.get? id).map fun r => ⟨id, r.status, (f r).status, holdStep⟩).toList ++ l.turns }

/-- The members of a group; a group nobody knows has none. -/
def members (l : Ledger) (group : Id) : List Id :=
  ((l.groups.get? group).map Group.members).getD []

/-! ## Registration -/

/-- The groups after a resource has joined one, which need not exist yet. -/
def joined (groups : Table Id Group) (group : Option Id) (id : Id) : Table Id Group :=
  match group with
  | none => groups
  | some g =>
    match groups.get? g with
    | some old => groups.insert g { old with members := old.members ++ [id] }
    | none => groups.insert g ⟨none, [id]⟩

/-- Why a resource was not registered. -/
inductive AddError where
  /-- the name is taken -/
  | duplicate (id : Id)
  deriving DecidableEq, Repr

/-- The wording. -/
def AddError.message : AddError → String
  | duplicate id => "resource " ++ id.text ++ " already registered"

/-- Registers a resource; a name that is taken is refused. -/
def add (l : Ledger) (id : Id) (r : Resource) : Except AddError Ledger :=
  if l.resources.contains id then .error (.duplicate id)
  else
    let resources := l.resources.insert id r
    let l := { l with
      resources := resources
      groups := joined l.groups r.group id
      metrics := l.metrics.level .resources resources.size }
    .ok (l.send id (.resourceAdded id r.group))

/-- Creates a group without members. -/
def addGroup (l : Ledger) (name : Option String) (now : Int) : Id × Ledger :=
  let (id, l) := l.draw .group now
  (id, { l with groups := l.groups.insert id ⟨name, []⟩ })

end Ledger

/-! ## Deadlines -/

/-- Reports the depth of a queue that an entry came into. -/
def Metrics.reportScheduled (m : Metrics) (q : ExpiryQueue) : Metrics := m.level .queueDepth q.size

/-- Reports the depth of a queue that `due` was taken out of; nothing taken is
nothing to report. -/
def Metrics.reportTaken (m : Metrics) (due : List Expiry) (q : ExpiryQueue) : Metrics :=
  if due.isEmpty then m else m.level .queueDepth q.size

namespace Ledger

/-- Enters a deadline. -/
def schedule (l : Ledger) (e : Expiry) : Ledger :=
  let q := l.expiries.schedule e
  { l with expiries := q, metrics := l.metrics.reportScheduled q }

/-- Takes out the deadlines that have come and puts them in the reaper's hand. -/
def takeDue (l : Ledger) (now : Int) : List Expiry × Ledger :=
  let due := l.expiries.due now
  let q := l.expiries.afterDue now
  (due, { l with expiries := q, inHand := due, metrics := l.metrics.reportTaken due q })

end Ledger

end Tenure
