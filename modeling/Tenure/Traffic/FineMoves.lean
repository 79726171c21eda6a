import Tenure.Traffic.Moves

/-!
# Histories in which calls are interrupted

In a move a call goes on until it has to wait or is answered. That is how calls take turns on
one processor. On several of them another call may come in between any two effects, so here a
call may also go on for some effects only and then be left with the rest
(`Traffic.FineMove`). The one thing that is not torn apart is a look at the shared state and
the writing of what comes of it (`Call.mayRest`).

Every history is a fine one (`Traffic.Moves.fine`), so what holds along fine histories holds
along the others too.
-/

namespace Tenure

variable {σ α : Type}

/-- Runs a call of `owner` for `n` effects, as long as it need not wait: the rest of the call,
and what it leaves. -/
def Call.runFor (owner : Owner) (now : Moment) : (n : Nat) → Call σ α → σ → Locks →
    Call σ α × σ × Locks
  | 0, c, s, ls => (c, s, ls)
  | n + 1, look k, s, ls => (k now s).runFor owner now n s ls
  | n + 1, save s k, _, ls => k.runFor owner now n s ls
  | n + 1, acquire key mode patience k, s, ls =>
    let r := ls.request owner key mode
    if r.1 then (k true).runFor owner now n s r.2 else (acquire key mode patience k, s, ls)
  | n + 1, release key k, s, ls => k.runFor owner now n s (ls.release owner key)
  | n + 1, probe key mode k, s, ls => (k ((ls.get key).ready mode)).runFor owner now n s ls
  | _ + 1, pause due sign k, s, ls => (pause due sign k, s, ls)
  | _ + 1, done a, s, ls => (done a, s, ls)

/-- **An interruption by itself changes nothing**: if nobody comes in between, the rest of a call
ends as the call does. -/
theorem Call.run_runFor (owner : Owner) (now : Moment) (n : Nat) (c : Call σ α) (s : σ)
    (ls : Locks) :
    (c.runFor owner now n s ls).1.run owner now (c.runFor owner now n s ls).2.1
      (c.runFor owner now n s ls).2.2 = c.run owner now s ls := by
  induction n generalizing c s ls with
  | zero => rfl
  | succ n ih =>
    cases c with
    | done a => rfl
    | look k => exact ih ..
    | save s' k => exact ih ..
    | acquire key mode patience k =>
      by_cases served : (ls.request owner key mode).1 = true
      · simp only [runFor, run, served, if_true]
        exact ih ..
      · rw [runFor, if_neg served]
    | release key k => exact ih ..
    | probe key mode k => exact ih ..
    | pause due sign k => rfl

/-- Whether a call may be interrupted where it stands: not before it has written what comes of
what it has read. -/
def Call.mayRest : Call σ α → Bool
  | save _ _ => false
  | _ => true

namespace Traffic

/-- Interrupts a call; `others` are the other calls. -/
def suspend (t : Traffic σ α) (f : Flight σ α) (others : List (Flight σ α))
    (rest : Call σ α × σ × Locks) : Traffic σ α :=
  { t with
    shared := rest.2.1
    locks := rest.2.2
    flights := others ++ [{ f with wait := .turn rest.1 }] }

/-- One thing that may happen in traffic where calls are interrupted. -/
inductive FineMove (Entry : Call σ α → (α → Option (Call σ α)) → Prop) (t : Traffic σ α) :
    Traffic σ α → Prop where
  /-- a move -/
  | whole {u : Traffic σ α} (move : Move Entry t u) : FineMove Entry t u
  /-- a call that need not wait any longer goes on for some effects -/
  | part {earlier later : List (Flight σ α)} {f : Flight σ α} {go : Call σ α × σ × Locks}
      (n : Nat) (split : t.flights = earlier ++ f :: later)
      (isOver : f.wait.Over f.owner t.clock t.shared t.locks go)
      (rests : (go.1.runFor f.owner t.clock n go.2.1 go.2.2).1.mayRest = true) :
      FineMove Entry t
        (t.suspend f (earlier ++ later) (go.1.runFor f.owner t.clock n go.2.1 go.2.2))

/-- A row of them. -/
inductive FineMoves (Entry : Call σ α → (α → Option (Call σ α)) → Prop) (t : Traffic σ α) :
    Traffic σ α → Prop where
  /-- nothing has happened -/
  | none : FineMoves Entry t t
  /-- one more -/
  | snoc {u v : Traffic σ α} (before : FineMoves Entry t u) (move : FineMove Entry u v) :
    FineMoves Entry t v

variable {Entry : Call σ α → (α → Option (Call σ α)) → Prop} {t u v : Traffic σ α}

/-- **Every history is a fine one.** -/
theorem Moves.fine (h : Moves Entry t u) : FineMoves Entry t u := by
  induction h with
  | none => exact .none
  | snoc _ move ih => exact ih.snoc (.whole move)

/-- What every fine move keeps holds along every fine history. -/
theorem FineMoves.invariant {P : Traffic σ α → Prop}
    (step : ∀ {t u : Traffic σ α}, FineMove Entry t u → P t → P u) (h : FineMoves Entry t u)
    (start : P t) : P u := by
  induction h with
  | none => exact start
  | snoc _ move ih => exact step move ih

/-! ### Histories by a plan -/

/-- Lets the call at a place go on, if it need not wait: until it waits, or for `n` effects if it
may be interrupted there. -/
def goOnAt (t : Traffic σ α) (place : Nat) (n : Option Nat) : Traffic σ α :=
  match t.flights.drop place with
  | [] => t
  | f :: later =>
    let others := t.flights.take place ++ later
    match f.wait.ended false f.owner t.clock t.shared t.locks, n with
    | none, _ => t
    | some go, none => t.resume f others go
    | some go, some n =>
      let rest := go.1.runFor f.owner t.clock n go.2.1 go.2.2
      if rest.1.mayRest then t.suspend f others rest else t

theorem FineMoves.goOnAt (h : FineMoves Entry t u) (place : Nat) (n : Option Nat) :
    FineMoves Entry t (u.goOnAt place n) := by
  rw [Traffic.goOnAt]
  split
  · exact h
  · next f later here =>
    have split : u.flights = u.flights.take place ++ f :: later :=
      here ▸ (List.take_append_drop place u.flights).symm
    dsimp only
    split
    · exact h
    · next go ended => exact h.snoc (.whole (.goOn split (Wait.over_of_ended ended)))
    · next go n ended =>
      split
      · next rests => exact h.snoc (.part n split (Wait.over_of_ended ended) rests)
      · exact h

end Traffic

end Tenure
