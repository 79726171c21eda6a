import Tenure.Table

/-!
# Sliding logs

For every client the times of its admitted calls are kept as long as they lie
within one window's length of the present. A call is admitted while the log holds
fewer than the permitted number, so no interval of that length ever holds more.

A log is in ascending order: a call with an earlier clock reading than the last
admitted one is entered with the time of that one.
-/

namespace Tenure

/-- The times of a client's admitted calls, in nanoseconds, the oldest first. -/
abbrev CallLog := List Nat

/-- One call at `now`: what has left the window is dropped, then the call is entered
if there is room. -/
def CallLog.call (maxRequests : UInt32) (length now : Nat) (log : CallLog) : Bool × CallLog :=
  let log := log.dropWhile fun t => length ≤ now - t
  if log.length < maxRequests.toNat then
    (true, log ++ [(log.getLast?.map fun last => max now last).getD now])
  else (false, log)

/-- A limiter that keeps a log for every client. -/
structure SlidingLog where
  /-- the calls admitted in any interval of the window's length -/
  maxRequests : UInt32
  /-- the length of the window, in nanoseconds -/
  length : Nat
  /-- the log of every client seen -/
  logs : Table String CallLog

namespace SlidingLog

/-- A limiter without clients. -/
def new (maxRequests : UInt32) (length : Nat) : SlidingLog := ⟨maxRequests, length, Table.empty⟩

/-- One call of a client at `now`. -/
def allow (l : SlidingLog) (key : String) (now : Nat) : Bool × SlidingLog :=
  let log := (l.logs.get? key).getD []
  let r := CallLog.call l.maxRequests l.length now log
  (r.1, { l with logs := l.logs.insert key r.2 })

/-- A call changes the log of its own client and of no other. -/
theorem get?_logs_allow (l : SlidingLog) (key key' : String) (now : Nat) :
    (l.allow key now).2.logs.get? key' =
      if key' = key then
        some (CallLog.call l.maxRequests l.length now ((l.logs.get? key).getD [])).2
      else l.logs.get? key' := by
  simp only [allow, Table.get?_insert]

/-- How the limiter is called. -/
def name (l : SlidingLog) : String :=
  "SlidingWindowLog(max=" ++ toString l.maxRequests.toNat ++ ",window=" ++
    toString (l.length / 1000000) ++ "ms)"

/-- What is told of a client. -/
def stats (l : SlidingLog) (key : String) : String :=
  match l.logs.get? key with
  | none => "no data"
  | some log => "entries=" ++ toString log.length ++ "/" ++ toString l.maxRequests.toNat

end SlidingLog

end Tenure
