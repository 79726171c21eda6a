import Tenure.Table

/-!
# Metrics

What the program counts about itself. A counter only grows, a gauge holds the last
level reported, and of a histogram only the number of samples is kept; each is a
number under the metric's name and labels. A metric exists once it was touched.
-/

namespace Tenure

/-- A measured quantity. -/
structure Metric where
  /-- its name -/
  name : String
  /-- its labels, sorted by label name -/
  labels : List (String × String)
  deriving DecidableEq, Repr

namespace Metric

/-- The written form: the name, and the labels in braces if there are any. -/
def text (m : Metric) : String :=
  if m.labels.isEmpty then m.name
  else m.name ++ "\x7b" ++ ",".intercalate (m.labels.map fun l => l.1 ++ "=" ++ l.2) ++ "\x7d"

/-- Attempts to reserve, by how they ended: held, denied or timeout. -/
def reservations (outcome : String) : Metric := ⟨"allot_reservations_total", [("outcome", outcome)]⟩

/-- Times spent waiting for the lock of a resource. -/
def lockWait : Metric := ⟨"allot_lock_wait_seconds", []⟩

/-- Holds that lapsed and were settled. -/
def holdsExpired : Metric := ⟨"allot_holds_expired_total", []⟩

/-- Attempts to book in a group, by how they ended: booked, denied or timeout. -/
def groupBookings (outcome : String) : Metric :=
  ⟨"allot_group_bookings_total", [("outcome", outcome)]⟩

/-- Registered resources. -/
def resources : Metric := ⟨"allot_resources", []⟩

/-- Pending expiries, stale ones included. -/
def queueDepth : Metric := ⟨"allot_expiry_queue_depth", []⟩

/-- Parcels brought to a locker, by how that ended: assigned or full. -/
def lockerDeposits (outcome : String) : Metric :=
  ⟨"allot_locker_deposits_total", [("outcome", outcome)]⟩

/-- Admission decisions of an endpoint. -/
def admissions (endpoint : String) (allowed : Bool) : Metric :=
  ⟨"allot_admissions_total",
    [("decision", if allowed then "allowed" else "denied"), ("endpoint", endpoint)]⟩

/-- Requests routed, by strategy. -/
def routes (strategy : String) : Metric := ⟨"allot_routes_total", [("strategy", strategy)]⟩

/-- Requests that found no healthy server. -/
def routesUnavailable : Metric := ⟨"allot_routes_unavailable_total", []⟩

end Metric

/-- The metrics touched so far. -/
structure Metrics where
  /-- the value of each -/
  values : Table Metric Nat

namespace Metrics

/-- Nothing touched yet. -/
protected def empty : Metrics := ⟨Table.empty⟩

instance : Inhabited Metrics := ⟨Metrics.empty⟩

/-- Adds to a counter. -/
def add (s : Metrics) (m : Metric) (n : Nat) : Metrics :=
  ⟨s.values.insert m ((s.values.get? m).getD 0 + n)⟩

/-- Counts one more. -/
def count (s : Metrics) (m : Metric) : Metrics := s.add m 1

/-- Reports the level of a gauge. -/
def level (s : Metrics) (m : Metric) (n : Nat) : Metrics := ⟨s.values.insert m n⟩

/-- The value of a metric, zero if it was never touched. -/
def value (s : Metrics) (m : Metric) : Nat := (s.values.get? m).getD 0

/-- Adding to one metric leaves the others as they are. -/
@[simp] theorem value_add (s : Metrics) (m m' : Metric) (n : Nat) :
    (s.add m n).value m' = s.value m' + if m' = m then n else 0 := by
  simp only [value, add]
  rw [Table.get?_insert]
  split
  · next h => subst h; rfl
  · rfl

/-- Reporting one level leaves the other metrics as they are. -/
@[simp] theorem value_level (s : Metrics) (m m' : Metric) (n : Nat) :
    (s.level m n).value m' = if m' = m then n else s.value m' := by
  simp only [value, level]
  rw [Table.get?_insert]
  split <;> rfl

end Metrics

end Tenure
