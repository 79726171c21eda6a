import Tenure.Call
import Tenure.Ledger.Basic

/-!
# Reading

Calls that list and look up resources. Each resource is read under its lock, shared
with other readers, and the call waits for it as long as it takes; the resources of
a listing are read one after the other.
-/

namespace Tenure.Ledger

/-- Reads one resource under its lock. -/
def readOne {α : Type} (id : Id) (f : Resource → α) : Call Ledger (Option α) := do
  if ← Call.gets fun l => l.resources.contains id then
    Call.holding (.resource id) .shared (Call.gets fun l => (l.resources.get? id).map f)
  else return none

/-- Reads resources one after the other, leaving out unknown ones. -/
def readEach {α : Type} (f : Id → Resource → α) : List Id → Call Ledger (List α)
  | [] => return []
  | id :: ids => do
    let a ← readOne id (f id)
    let rest ← readEach f ids
    return a.toList ++ rest

/-- What is listed of a resource. -/
def infoOf (id : Id) : Call Ledger (Option ResourceInfo) := readOne id fun r => r.info id

/-- All resources that pass a test, in ascending order. -/
def list (test : ResourceInfo → Bool) : Call Ledger (List ResourceInfo) := do
  let ids ← Call.gets fun l => sortBy Id.le l.resources.keys
  let infos ← readEach (fun id r => r.info id) ids
  return infos.filter test

/-- The first of some resources that has a name. -/
def findAmong (name : String) : List Id → Call Ledger (Option Id)
  | [] => return none
  | id :: ids => do
    match ← readOne id Resource.name with
    | some (some n) => if n = name then return some id else findAmong name ids
    | _ => findAmong name ids

/-- The first member of a group that has a name. -/
def find (group : Id) (name : String) : Call Ledger (Option Id) := do
  findAmong name (← Call.gets fun l => l.members group)

/-- The members of a group whose stored status is available. -/
def available (group : Id) : Call Ledger (List ResourceInfo) := do
  let infos ← readEach (fun id r => r.info id) (← Call.gets fun l => l.members group)
  return infos.filter fun i => i.status = .available

/-- A group and its members. -/
def groupOf (id : Id) : Call Ledger (Option Group) := Call.gets fun l => l.groups.get? id

/-- Changes a resource under its lock, outside of all rules: whether it is known. -/
def overwrite (id : Id) (f : Resource → Resource) : Call Ledger Bool := do
  if ← Call.gets fun l => l.resources.contains id then
    Call.holding (.resource id) .exclusive (Call.modify fun l => l.change id f)
    return true
  else return false

end Tenure.Ledger
