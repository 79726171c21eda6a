import Tenure.Call

/-!
# Traffic

Calls in flight, the locks they hold and wait for, the state they share, and the
clock. A call runs until it has to wait, then another one does; time passes only
when every call waits, and then straight to the next moment at which one of them
has something to do. So the clock shows nothing but the time spent waiting.

`Traffic.step` runs one call that need not wait any longer. Of several at one moment it
is the one that began to wait first: **first come, first served**, as with the locks. A
party that goes straight on to another call keeps its turn.
-/

namespace Tenure

variable {σ α : Type}

/-- What a call in flight waits for. -/
inductive Wait (σ α : Type) where
  /-- for its turn -/
  | turn (call : Call σ α)
  /-- for a lock it has asked for -/
  | lock (key : Key) (mode : Mode) (patience : Option Nat) (k : Bool → Call σ α)
  /-- for a time or a sign -/
  | pause (due : Option Nat) (sign : σ → Option σ) (k : Call σ α)

/-- Where a stretch of a call ends. -/
inductive Stop (σ α : Type) where
  /-- the call has answered -/
  | returned (a : α)
  /-- the call has to wait -/
  | waiting (w : Wait σ α)

namespace Wait

/-- What a call waits for when it is the first part of a longer one. -/
protected def bind {β : Type} : Wait σ α → (α → Call σ β) → Wait σ β
  | turn call, f => turn (call.bind f)
  | lock key mode patience k, f => lock key mode patience fun b => (k b).bind f
  | pause due sign k, f => pause due sign (k.bind f)

end Wait

/-- Whether a time has come; a time that is not set never comes. -/
def reached (due : Option Nat) (elapsed : Nat) : Bool := due.any fun t => t ≤ elapsed

/-- Runs a call of `owner` until it answers or has to wait. A lock that is free when
the call asks for it is always obtained, however late it is. -/
def Call.run (owner : Owner) (now : Moment) :
    Call σ α → σ → Locks → Stop σ α × σ × Locks
  | done a, s, ls => (.returned a, s, ls)
  | look k, s, ls => (k now s).run owner now s ls
  | save s k, _, ls => k.run owner now s ls
  | acquire key mode patience k, s, ls =>
    let r := ls.request owner key mode
    if r.1 then (k true).run owner now s r.2
    else if reached patience now.elapsed then (k false).run owner now s (r.2.withdraw owner key)
    else (.waiting (.lock key mode patience k), s, r.2)
  | release key k, s, ls => k.run owner now s (ls.release owner key)
  | probe key mode k, s, ls => (k ((ls.get key).ready mode)).run owner now s ls
  | pause due sign k, s, ls =>
    if reached due now.elapsed then k.run owner now s ls
    else
      match sign s with
      | some s => k.run owner now s ls
      | none => (.waiting (.pause due sign k), s, ls)

/-- **Running in parts.** The first part of a call runs as it would alone; if it waits
the whole call waits for the same, and if it answers the second part runs in the same
stretch. -/
theorem Call.run_bind {β : Type} (c : Call σ α) (f : α → Call σ β) (owner : Owner)
    (now : Moment) (s : σ) (ls : Locks) :
    (c.bind f).run owner now s ls =
      match c.run owner now s ls with
      | (.returned a, s, ls) => (f a).run owner now s ls
      | (.waiting w, s, ls) => (.waiting (w.bind f), s, ls) := by
  induction c generalizing s ls with
  | done a => rfl
  | look k ih => exact ih now s s ls
  | save next k ih => exact ih next ls
  | acquire key mode patience k ih =>
    simp only [Call.bind, Call.run]
    split
    · exact ih true s _
    · split
      · exact ih false s _
      · rfl
  | release key k ih => exact ih s _
  | probe key mode k ih => exact ih _ s ls
  | pause due sign k ih =>
    simp only [Call.bind, Call.run]
    split
    · exact ih s ls
    · cases sign s with
      | none => rfl
      | some s => exact ih s ls

/-- What a waiting call goes on with, if it need not wait any longer. Where the time of a pause has
come and the sign is there as well, it is the sign that counts if the call is `alert`. -/
def Wait.ended (alert : Bool) (owner : Owner) (now : Moment) (s : σ) (ls : Locks) :
    Wait σ α → Option (Call σ α × σ × Locks)
  | turn call => some (call, s, ls)
  | lock key mode patience k =>
    -- a lock that came in the last moment still counts
    if (ls.get key).heldBy owner mode then some (k true, s, ls)
    else if reached patience now.elapsed then some (k false, s, ls.withdraw owner key)
    else none
  | pause due sign k =>
    if reached due now.elapsed && !(alert && (sign s).isSome) then some (k, s, ls)
    else (sign s).map fun s => (k, s, ls)

/-- When a waiting call goes on by itself. -/
def Wait.due : Wait σ α → Option Nat
  | turn _ => none
  | lock _ _ patience _ => patience
  | pause due _ _ => due

/-- A call in flight. -/
structure Flight (σ α : Type) where
  /-- the party that makes it -/
  owner : Owner
  /-- what it waits for -/
  wait : Wait σ α
  /-- what the party does next, once it has the answer; most parties are done then -/
  again : α → Option (Call σ α)

/-- An answer that a call came back with. -/
structure Return (α : Type) where
  /-- the party that made the call -/
  owner : Owner
  /-- the answer -/
  answer : α
  /-- the stopwatch at that moment -/
  time : Nat

/-- Calls in flight. -/
structure Traffic (σ α : Type) where
  /-- both clocks -/
  clock : Moment
  /-- the state they share -/
  shared : σ
  /-- the locks they hold and wait for -/
  locks : Locks
  /-- the calls, in the order in which they began to wait -/
  flights : List (Flight σ α)
  /-- the number of the next party -/
  nextOwner : Owner
  /-- the answers so far, the latest first -/
  returned : List (Return α)

namespace Traffic

/-- No calls yet. -/
def start (origin : Int) (s : σ) : Traffic σ α := ⟨⟨origin, 0⟩, s, Locks.empty, [], 0, []⟩

/-- A party enters that makes one call after another. -/
def enterAgain (t : Traffic σ α) (call : Call σ α) (again : α → Option (Call σ α)) :
    Traffic σ α :=
  { t with
    flights := t.flights ++ [⟨t.nextOwner, .turn call, again⟩]
    nextOwner := t.nextOwner + 1 }

/-- A party enters that makes one call. -/
def enter (t : Traffic σ α) (call : Call σ α) : Traffic σ α := t.enterAgain call fun _ => none

/-- Lets a call go on from where its wait is over; `others` are the other calls. -/
def resume (t : Traffic σ α) (f : Flight σ α) (others : List (Flight σ α))
    (go : Call σ α × σ × Locks) : Traffic σ α :=
  let r := go.1.run f.owner t.clock go.2.1 go.2.2
  let t : Traffic σ α := { t with shared := r.2.1, locks := r.2.2 }
  match r.1 with
  | .waiting w => { t with flights := others ++ [{ f with wait := w }] }
  | .returned a =>
    let next := (f.again a).toList.map fun c => { f with wait := .turn c }
    -- a party with more to do goes on at once, before all others
    { t with
      flights := next ++ others
      returned := ⟨f.owner, a, t.clock.elapsed⟩ :: t.returned }

/-- Runs the first of `later` that need not wait; `earlier` are the calls before
those. -/
def stepFrom (t : Traffic σ α) (earlier : List (Flight σ α)) :
    (later : List (Flight σ α)) → Option (Traffic σ α)
  | [] => none
  | f :: later =>
    match f.wait.ended false f.owner t.clock t.shared t.locks with
    | some go => some (t.resume f (earlier ++ later) go)
    | none => stepFrom t (earlier ++ [f]) later

/-- Runs one call that need not wait, if there is one. -/
def step (t : Traffic σ α) : Option (Traffic σ α) := t.stepFrom [] t.flights

/-- The next moment at which a waiting call goes on by itself. -/
def nextDue (t : Traffic σ α) : Option Nat := (t.flights.filterMap fun f => f.wait.due).min?

/-- Moves the clock on. -/
def elapseTo (t : Traffic σ α) (elapsed : Nat) : Traffic σ α :=
  { t with clock := { t.clock with elapsed := elapsed } }

/-- Runs calls, and lets time pass when all of them wait, until `stop` says so, the
stopwatch is at `limit`, or nothing is left to happen. -/
def run (stop : Traffic σ α → Bool) (limit : Option Nat) : (fuel : Nat) → Traffic σ α → Traffic σ α
  | 0, t => t
  | fuel + 1, t =>
    if stop t then t
    else
      match t.step with
      | some t => run stop limit fuel t
      | none =>
        -- everybody waits: straight to the next moment something falls due
        match t.nextDue, limit with
        | some due, some limit =>
          if due ≤ limit then run stop (some limit) fuel (t.elapseTo due) else t
        | some due, none => run stop none fuel (t.elapseTo due)
        | none, _ => t

/-- Runs what can run at this moment. -/
def settle (fuel : Nat) (t : Traffic σ α) : Traffic σ α :=
  run (fun _ => false) (some t.clock.elapsed) fuel t

/-- Lets time pass until the stopwatch is at `elapsed`, with all that falls due. -/
def passTo (fuel elapsed : Nat) (t : Traffic σ α) : Traffic σ α :=
  (run (fun _ => false) (some elapsed) fuel t).elapseTo elapsed

end Traffic

end Tenure
