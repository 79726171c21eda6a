import Tenure.Table

/-!
# Fixed windows

A client's first call opens a window of fixed length; a call at or after its end
opens the next one. Each window admits so many calls. Across the boundary of two
windows up to twice as many can pass within one window's length.
-/

namespace Tenure

/-- The window a client is in. -/
structure Window where
  /-- when it was opened, in nanoseconds -/
  start : Nat
  /-- the calls admitted in it -/
  count : Nat
  deriving DecidableEq, Repr

/-- One call at `now`; a clock reading before the window's start falls into the
window. -/
def Window.call (maxRequests : UInt32) (length now : Nat) (w : Window) : Bool × Window :=
  let w : Window := if length ≤ now - w.start then ⟨now, 0⟩ else w
  if w.count < maxRequests.toNat then (true, { w with count := w.count + 1 }) else (false, w)

/-- A limiter that keeps a window for every client. -/
structure FixedWindow where
  /-- the calls admitted per window -/
  maxRequests : UInt32
  /-- the length of a window, in nanoseconds -/
  length : Nat
  /-- the window of every client seen -/
  windows : Table String Window

namespace FixedWindow

/-- A limiter without clients. -/
def new (maxRequests : UInt32) (length : Nat) : FixedWindow := ⟨maxRequests, length, Table.empty⟩

/-- One call of a client at `now`. -/
def allow (l : FixedWindow) (key : String) (now : Nat) : Bool × FixedWindow :=
  let w := (l.windows.get? key).getD ⟨now, 0⟩
  let r := w.call l.maxRequests l.length now
  (r.1, { l with windows := l.windows.insert key r.2 })

/-- A call changes the window of its own client and of no other. -/
theorem get?_windows_allow (l : FixedWindow) (key key' : String) (now : Nat) :
    (l.allow key now).2.windows.get? key' =
      if key' = key then
        some (((l.windows.get? key).getD ⟨now, 0⟩).call l.maxRequests l.length now).2
      else l.windows.get? key' := by
  simp only [allow, Table.get?_insert]

/-- How the limiter is called. -/
def name (l : FixedWindow) : String :=
  "FixedWindow(max=" ++ toString l.maxRequests.toNat ++ ",window=" ++
    toString (l.length / 1000000) ++ "ms)"

/-- What is told of a client. -/
def stats (l : FixedWindow) (key : String) : String :=
  match l.windows.get? key with
  | none => "no data"
  | some w => "count=" ++ toString w.count ++ "/" ++ toString l.maxRequests.toNat

end FixedWindow

end Tenure
