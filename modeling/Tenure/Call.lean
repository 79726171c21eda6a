import Tenure.Lock
import Tenure.Moment

/-!
# Calls

A call is what one party does to state that it shares with others. `Call σ α` is
its syntax: a free monad over the effects a call may have.

* `look` reads the clock and the shared state, `save` replaces the shared state.
* `acquire` asks for a lock and may wait for it, as long as its patience lasts; it is
  told whether it has the lock. `release` gives a lock back, `probe` asks whether a
  lock could be had at once.
* `pause` waits for a time, or for a sign in the shared state.

Only `acquire` and `pause` can make a call wait. Between two waits a call runs
without interruption, which is what makes the reading and writing of one stretch
atomic. What happens while it waits is not the business of the syntax; see
`Tenure.Traffic`.
-/

namespace Tenure

/-- A call that shares state `σ` with others and answers with `α`. -/
inductive Call (σ α : Type) where
  /-- answer -/
  | done (a : α)
  /-- read the clock and the shared state -/
  | look (k : Moment → σ → Call σ α)
  /-- replace the shared state -/
  | save (s : σ) (k : Call σ α)
  /-- ask for a lock and wait for it, until the stopwatch reaches `patience` if that
  is given; go on with whether it was obtained -/
  | acquire (key : Key) (mode : Mode) (patience : Option Nat) (k : Bool → Call σ α)
  /-- give a lock back -/
  | release (key : Key) (k : Call σ α)
  /-- ask whether a lock could be had at once -/
  | probe (key : Key) (mode : Mode) (k : Bool → Call σ α)
  /-- wait until the stopwatch reaches `due`, if that is given, or until `sign`
  finds what it waits for in the shared state; `sign` takes it away -/
  | pause (due : Option Nat) (sign : σ → Option σ) (k : Call σ α)

namespace Call

variable {σ τ α β γ : Type}

/-- Goes on with `f` where the call would answer. -/
protected def bind : Call σ α → (α → Call σ β) → Call σ β
  | done a, f => f a
  | look k, f => look fun m s => (k m s).bind f
  | save s k, f => save s (k.bind f)
  | acquire key mode patience k, f => acquire key mode patience fun b => (k b).bind f
  | release key k, f => release key (k.bind f)
  | probe key mode k, f => probe key mode fun b => (k b).bind f
  | pause due sign k, f => pause due sign (k.bind f)

instance : Monad (Call σ) where
  pure := done
  bind := Call.bind

/-- Answering at once, in the notation of monads. -/
@[simp] theorem pure_eq (a : α) : (pure a : Call σ α) = done a := rfl

/-- Going on, in the notation of monads. -/
@[simp] theorem bind_eq (c : Call σ α) (f : α → Call σ β) : c >>= f = c.bind f := rfl

/-- **Left identity**: a call that answers at once goes on with its answer. -/
@[simp] theorem done_bind (a : α) (f : α → Call σ β) : (done a).bind f = f a := rfl

/-- **Right identity**: going on by answering changes nothing. -/
@[simp] theorem bind_done (c : Call σ α) : c.bind done = c := by
  induction c with
  | done a => rfl
  | look k ih => exact congrArg look (funext fun m => funext fun s => ih m s)
  | save s k ih => exact congrArg (save s) ih
  | acquire key mode patience k ih => exact congrArg (acquire key mode patience) (funext ih)
  | release key k ih => exact congrArg (release key) ih
  | probe key mode k ih => exact congrArg (probe key mode) (funext ih)
  | pause due sign k ih => exact congrArg (pause due sign) ih

/-- **Associativity**: how a call is cut into parts does not matter. -/
theorem bind_assoc (c : Call σ α) (f : α → Call σ β) (g : β → Call σ γ) :
    (c.bind f).bind g = c.bind fun a => (f a).bind g := by
  induction c with
  | done a => rfl
  | look k ih => exact congrArg look (funext fun m => funext fun s => ih m s)
  | save s k ih => exact congrArg (save s) ih
  | acquire key mode patience k ih => exact congrArg (acquire key mode patience) (funext ih)
  | release key k ih => exact congrArg (release key) ih
  | probe key mode k ih => exact congrArg (probe key mode) (funext ih)
  | pause due sign k ih => exact congrArg (pause due sign) ih

/-! ## Single effects -/

/-- The clock. -/
def moment : Call σ Moment := look fun m _ => done m

/-- The wall time. -/
def now : Call σ Int := look fun m _ => done m.stamp

/-- Something read off the shared state. -/
def gets (f : σ → α) : Call σ α := look fun _ s => done (f s)

/-- A change of the shared state. -/
def modify (f : σ → σ) : Call σ Unit := look fun _ s => save (f s) (done ())

/-- A change of the shared state that depends on the wall time and has an answer. -/
def update (f : Int → σ → α × σ) : Call σ α :=
  look fun m s =>
    let r := f m.stamp s
    save r.2 (done r.1)

/-- Asks for a lock and waits for it. -/
def lock (key : Key) (mode : Mode) (patience : Option Nat) : Call σ Bool :=
  acquire key mode patience done

/-- Gives a lock back. -/
def unlock (key : Key) : Call σ Unit := release key (done ())

/-- Whether a lock could be had at once. -/
def couldLock (key : Key) (mode : Mode) : Call σ Bool := probe key mode done

/-- Waits for a time or a sign. -/
def wait (due : Option Nat) (sign : σ → Option σ) : Call σ Unit := pause due sign (done ())

/-- Runs `body` under a lock, for which it waits as long as it takes. -/
def holding (key : Key) (mode : Mode) (body : Call σ α) : Call σ α := do
  let _ ← lock key mode none
  let a ← body
  unlock key
  return a

/-- Runs `body` under a lock if that can be had in time, else `late`. -/
def holdingUntil (key : Key) (due : Nat) (late body : Call σ α) : Call σ α := do
  if ← lock key .exclusive (some due) then
    let a ← body
    unlock key
    return a
  else late

/-! ## Calls on a part of the state -/

/-- A call on a part of a larger state. -/
def within (part : τ → σ) (put : σ → τ → τ) : Call σ α → Call τ α
  | done a => done a
  | look k => look fun m t => (k m (part t)).within part put
  | save s k => look fun _ t => save (put s t) (k.within part put)
  | acquire key mode patience k => acquire key mode patience fun b => (k b).within part put
  | release key k => release key (k.within part put)
  | probe key mode k => probe key mode fun b => (k b).within part put
  | pause due sign k =>
    pause due (fun t => (sign (part t)).map fun s => put s t) (k.within part put)

/-- A call in two parts on a part of the state is two calls on it, one after the other. -/
theorem within_bind (part : τ → σ) (put : σ → τ → τ) (c : Call σ α) (f : α → Call σ β) :
    (c.bind f).within part put = (c.within part put).bind fun a => (f a).within part put := by
  induction c with
  | done a => rfl
  | look k ih => exact congrArg look (funext fun m => funext fun t => ih m (part t))
  | save s k ih => exact congrArg look (funext fun _ => funext fun t => congrArg (save (put s t)) ih)
  | acquire key mode patience k ih => exact congrArg (acquire key mode patience) (funext ih)
  | release key k ih => exact congrArg (release key) ih
  | probe key mode k ih => exact congrArg (probe key mode) (funext ih)
  | pause due sign k ih => exact congrArg (pause due _) ih

end Call

end Tenure
