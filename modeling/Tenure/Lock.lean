import Tenure.Id
import Tenure.Table

/-!
# Locks

Every resource and every group has a lock. A lock is held by one party exclusively
or by several that share it, and it is fair: whoever cannot have it at once queues
up, and nobody is served before those who asked earlier. In particular a party that
waits for exclusive use keeps out all who ask to share after it.

Whenever a holder lets go, or somebody leaves the queue, the lock passes to as many
at the front of the queue as can hold it together (`Lock.promote`).
-/

namespace Tenure

/-- What a lock guards. -/
inductive Key where
  /-- one resource -/
  | resource (id : Id)
  /-- bookings in one group -/
  | group (id : Id)
  deriving DecidableEq, Repr

/-- How a lock is held. -/
inductive Mode where
  /-- together with others who only read -/
  | shared
  /-- alone -/
  | exclusive
  deriving DecidableEq, Repr

/-- Who holds a lock or waits for it. -/
abbrev Owner := Nat

/-- One lock. -/
structure Lock where
  /-- who has it: one party exclusively, or any number that share it -/
  holders : List (Owner × Mode)
  /-- who waits for it, in order of asking -/
  queue : List (Owner × Mode)
  deriving DecidableEq, Repr

namespace Lock

/-- A lock nobody holds. -/
def free : Lock := ⟨[], []⟩

/-- Whether one more party could hold the lock beside its holders. -/
def roomFor (holders : List (Owner × Mode)) : Mode → Bool
  | .exclusive => holders.isEmpty
  | .shared => holders.all fun h => h.2 = .shared

/-- Whether a request would be served at once. -/
def ready (l : Lock) (mode : Mode) : Bool := l.queue.isEmpty && roomFor l.holders mode

/-- The lock after it has passed to those at the front of the queue who can hold it
beside `holders`. -/
def promoted : (holders queue : List (Owner × Mode)) → Lock
  | holders, [] => ⟨holders, []⟩
  | holders, w :: queue =>
    if roomFor holders w.2 then promoted (holders ++ [w]) queue else ⟨holders, w :: queue⟩

/-- Passing a lock on loses nobody and lets nobody overtake: the holders followed by
the queue stay the same list. -/
theorem promoted_append (holders queue : List (Owner × Mode)) :
    (promoted holders queue).holders ++ (promoted holders queue).queue = holders ++ queue := by
  induction queue generalizing holders with
  | nil => rfl
  | cons w queue ih =>
    simp only [promoted]
    split
    · rw [ih, List.append_assoc, List.singleton_append]
    · rfl

/-- Whoever is at the front of the queue after a lock was passed on cannot hold it
beside its holders. -/
theorem not_roomFor_of_promoted {holders queue rest : List (Owner × Mode)} {w : Owner × Mode}
    (h : (promoted holders queue).queue = w :: rest) :
    roomFor (promoted holders queue).holders w.2 = false := by
  induction queue generalizing holders with
  | nil => simp [promoted] at h
  | cons v queue ih =>
    simp only [promoted] at h ⊢
    split at h
    · rename_i room
      rw [if_pos room]
      exact ih h
    · rename_i room
      rw [if_neg room]
      obtain ⟨rfl, -⟩ := List.cons.inj h
      simpa using room

/-- Passes the lock on as far as possible. -/
def promote (l : Lock) : Lock := promoted l.holders l.queue

/-- Asks for the lock: whether it was served at once; else it queues. -/
def request (l : Lock) (owner : Owner) (mode : Mode) : Bool × Lock :=
  if l.ready mode then (true, { l with holders := l.holders ++ [(owner, mode)] })
  else (false, { l with queue := l.queue ++ [(owner, mode)] })

/-- Lets go of the lock. -/
def release (l : Lock) (owner : Owner) : Lock :=
  promote { l with holders := l.holders.filter fun h => h.1 ≠ owner }

/-- Leaves the queue. -/
def withdraw (l : Lock) (owner : Owner) : Lock :=
  promote { l with queue := l.queue.filter fun h => h.1 ≠ owner }

/-- Whether a party holds the lock in a mode. -/
def heldBy (l : Lock) (owner : Owner) (mode : Mode) : Bool := (owner, mode) ∈ l.holders

end Lock

/-- All locks; a key without an entry is free. -/
structure Locks where
  /-- the locks that were ever asked for -/
  table : Table Key Lock

namespace Locks

/-- Nothing is locked. -/
protected def empty : Locks := ⟨Table.empty⟩

instance : Inhabited Locks := ⟨Locks.empty⟩

/-- The lock of a key. -/
def get (ls : Locks) (key : Key) : Lock := (ls.table.get? key).getD Lock.free

/-- Replaces the lock of a key. -/
def set (ls : Locks) (key : Key) (l : Lock) : Locks := ⟨ls.table.insert key l⟩

/-- Asks for a lock. -/
def request (ls : Locks) (owner : Owner) (key : Key) (mode : Mode) : Bool × Locks :=
  let r := (ls.get key).request owner mode
  (r.1, ls.set key r.2)

/-- Lets go of a lock. -/
def release (ls : Locks) (owner : Owner) (key : Key) : Locks :=
  ls.set key ((ls.get key).release owner)

/-- Stops waiting for a lock. -/
def withdraw (ls : Locks) (owner : Owner) (key : Key) : Locks :=
  ls.set key ((ls.get key).withdraw owner)

/-- Replacing one lock leaves the others as they are. -/
@[simp] theorem get_set (ls : Locks) (key key' : Key) (l : Lock) :
    (ls.set key l).get key' = if key' = key then l else ls.get key' := by
  simp only [get, set]
  rw [Table.get?_insert]
  split <;> rfl

end Locks

end Tenure
