import Tenure.Traffic.Moves

/-!
# Locks that look the same

A lock that was asked for and given back is on record from then on, and yet nobody can tell it
from one that was never asked for. All that counts of locks is who holds each of them and who
queues for it. Locks for which that is the same are *alike* (`Locks.Alike`).

**No call can tell alike locks apart** (`Call.run_alike`). So of two states of traffic that are the
same but for alike locks, each goes through what the other goes through, in every history and in
every run (`Traffic.Alike.twins`).
-/

namespace Tenure

variable {σ α β : Type}

/-! ## Locks -/

namespace Locks

variable {ls ls' ls'' : Locks} {owner : Owner} {key : Key} {mode : Mode}

/-- Every lock has the same holders and the same queue. -/
def Alike (ls ls' : Locks) : Prop := ∀ key, ls'.get key = ls.get key

theorem Alike.refl (ls : Locks) : ls.Alike ls := fun _ => rfl

theorem Alike.symm (h : ls.Alike ls') : ls'.Alike ls := fun key => (h key).symm

theorem Alike.trans (h : ls.Alike ls') (h' : ls'.Alike ls'') : ls.Alike ls'' :=
  fun key => (h' key).trans (h key)

theorem Alike.set (h : ls.Alike ls') (key : Key) (l : Lock) :
    (ls.set key l).Alike (ls'.set key l) := by
  intro key'
  rw [get_set, get_set, h key']

theorem Alike.request_fst (h : ls.Alike ls') :
    (ls'.request owner key mode).1 = (ls.request owner key mode).1 := by
  simp only [request, h key]

theorem Alike.request (h : ls.Alike ls') :
    (ls.request owner key mode).2.Alike (ls'.request owner key mode).2 := by
  simp only [Locks.request, h key]
  exact h.set key _

theorem Alike.release (h : ls.Alike ls') :
    (ls.release owner key).Alike (ls'.release owner key) := by
  rw [Locks.release, Locks.release, h key]
  exact h.set key _

theorem Alike.withdraw (h : ls.Alike ls') :
    (ls.withdraw owner key).Alike (ls'.withdraw owner key) := by
  rw [Locks.withdraw, Locks.withdraw, h key]
  exact h.set key _

/-- Where a stretch begins or ends is the same, up to alike locks. -/
structure Same (r r' : β × σ × Locks) : Prop where
  /-- what is left to do, or what came of it -/
  what : r'.1 = r.1
  /-- the shared state -/
  shared : r'.2.1 = r.2.1
  /-- the locks -/
  locks : r.2.2.Alike r'.2.2

end Locks

/-! ## Calls -/

/-- **No call can tell alike locks apart.** -/
theorem Call.run_alike (c : Call σ α) (owner : Owner) (now : Moment) (s : σ) {ls ls' : Locks}
    (h : ls.Alike ls') : Locks.Same (c.run owner now s ls) (c.run owner now s ls') := by
  induction c generalizing s ls ls' with
  | done a => exact ⟨rfl, rfl, h⟩
  | look k ih => exact ih now s s h
  | save next k ih => exact ih next h
  | acquire key mode patience k ih =>
    simp only [run, h.request_fst]
    split
    · exact ih true s h.request
    · split
      · exact ih false s h.request.withdraw
      · exact ⟨rfl, rfl, h.request⟩
  | release key k ih => exact ih s h.release
  | probe key mode k ih =>
    simp only [run, h key]
    exact ih _ s h
  | pause due sign k ih =>
    simp only [run]
    split
    · exact ih s h
    · cases sign s with
      | none => exact ⟨rfl, rfl, h⟩
      | some s => exact ih s h

/-- The same of a place to go on from. -/
theorem Locks.Same.run {go go' : Call σ α × σ × Locks} (h : Same go go') (owner : Owner)
    (now : Moment) :
    Same (go.1.run owner now go.2.1 go.2.2) (go'.1.run owner now go'.2.1 go'.2.2) := by
  rw [h.what, h.shared]
  exact go.1.run_alike owner now _ h.locks

/-- A wait ends among alike locks if it does so among the others, and in the same way. -/
theorem Wait.ended_alike (w : Wait σ α) (alert : Bool) (owner : Owner) (now : Moment) (s : σ)
    {ls ls' : Locks} (h : ls.Alike ls') :
    Option.Rel Locks.Same (w.ended alert owner now s ls) (w.ended alert owner now s ls') := by
  cases w with
  | turn c => exact .some ⟨rfl, rfl, h⟩
  | lock key mode patience k =>
    simp only [ended, h key]
    split
    · exact .some ⟨rfl, rfl, h⟩
    · split
      · exact .some ⟨rfl, rfl, h.withdraw⟩
      · exact .none
  | pause due sign k =>
    simp only [ended]
    split
    · exact .some ⟨rfl, rfl, h⟩
    · cases sign s with
      | none => exact .none
      | some s => exact .some ⟨rfl, rfl, h⟩

/-! ## Traffic -/

namespace Traffic

variable {t t' u u' : Traffic σ α} {Entry : Call σ α → (α → Option (Call σ α)) → Prop}

/-- The same clock, the same shared state, the same calls in flight and the same answers, among
alike locks. -/
structure Alike (t t' : Traffic σ α) : Prop where
  /-- the clocks show the same -/
  clock : t'.clock = t.clock
  /-- the shared state is the same -/
  shared : t'.shared = t.shared
  /-- the locks are alike -/
  locks : t.locks.Alike t'.locks
  /-- the same calls are in flight, in the same order -/
  flights : t'.flights = t.flights
  /-- the next party has the same number -/
  nextOwner : t'.nextOwner = t.nextOwner
  /-- the answers so far are the same, and came at the same times -/
  returned : t'.returned = t.returned

theorem Alike.symm (h : t.Alike t') : t'.Alike t :=
  ⟨h.clock.symm, h.shared.symm, h.locks.symm, h.flights.symm, h.nextOwner.symm, h.returned.symm⟩

theorem Alike.ended (h : t.Alike t') (alert : Bool) (f : Flight σ α) :
    Option.Rel Locks.Same (f.wait.ended alert f.owner t.clock t.shared t.locks)
      (f.wait.ended alert f.owner t'.clock t'.shared t'.locks) := by
  rw [h.clock, h.shared]
  exact f.wait.ended_alike alert f.owner t.clock t.shared h.locks

theorem Alike.none_ended (h : t.Alike t') {alert : Bool} {f : Flight σ α}
    (waits : f.wait.ended alert f.owner t.clock t.shared t.locks = none) :
    f.wait.ended alert f.owner t'.clock t'.shared t'.locks = none := by
  have same := h.ended alert f
  rw [waits] at same
  generalize f.wait.ended alert f.owner t'.clock t'.shared t'.locks = o at same ⊢
  cases same
  rfl

theorem Alike.some_ended (h : t.Alike t') {alert : Bool} {f : Flight σ α}
    {go : Call σ α × σ × Locks}
    (ended : f.wait.ended alert f.owner t.clock t.shared t.locks = some go) :
    ∃ go', f.wait.ended alert f.owner t'.clock t'.shared t'.locks = some go' ∧
      Locks.Same go go' := by
  have same := h.ended alert f
  rw [ended] at same
  generalize f.wait.ended alert f.owner t'.clock t'.shared t'.locks = o at same ⊢
  cases same with
  | some same => exact ⟨_, rfl, same⟩

/-- **Stretches that end in the same way** lead to alike states, whatever the party was about
before. -/
theorem alike_resume {f f' : Flight σ α} {others : List (Flight σ α)}
    {go go' : Call σ α × σ × Locks} (clock : t'.clock = t.clock)
    (nextOwner : t'.nextOwner = t.nextOwner) (returned : t'.returned = t.returned)
    (owner : f'.owner = f.owner) (again : f'.again = f.again)
    (same : Locks.Same (go.1.run f.owner t.clock go.2.1 go.2.2)
      (go'.1.run f.owner t.clock go'.2.1 go'.2.2)) :
    (t.resume f others go).Alike (t'.resume f' others go') := by
  obtain ⟨what, shared, locks⟩ := same
  simp only [resume, clock, owner, what]
  split
  · exact ⟨rfl, shared, locks, by rw [again], nextOwner, returned⟩
  · exact ⟨rfl, shared, locks, by rw [again], nextOwner, by rw [returned]⟩

theorem Alike.resume (h : t.Alike t') (f : Flight σ α) (others : List (Flight σ α))
    {go go' : Call σ α × σ × Locks} (same : Locks.Same go go') :
    (t.resume f others go).Alike (t'.resume f others go') :=
  alike_resume h.clock h.nextOwner h.returned rfl rfl (same.run f.owner t.clock)

theorem Alike.elapseTo (h : t.Alike t') (elapsed : Nat) :
    (t.elapseTo elapsed).Alike (t'.elapseTo elapsed) :=
  ⟨by rw [Traffic.elapseTo, Traffic.elapseTo, h.clock], h.shared, h.locks, h.flights, h.nextOwner,
    h.returned⟩

/-- **Whatever happens** in one of two alike states happens in the other as well. -/
theorem Alike.move (h : t.Alike t') (move : Move Entry t u) :
    ∃ u', Move Entry t' u' ∧ u.Alike u' := by
  cases move with
  | @goOn earlier later f go split isOver =>
    obtain ⟨alert, ended⟩ := isOver.exists_ended
    obtain ⟨go', ended', same⟩ := h.some_ended ended
    exact ⟨_, .goOn (h.flights.trans split) (Wait.over_of_ended ended'), h.resume f _ same⟩
  | @elapse elapsed later => exact ⟨_, .elapse (h.clock ▸ later), h.elapseTo elapsed⟩
  | @enter call again entry =>
    refine ⟨_, .enter entry, h.clock, h.shared, h.locks, ?_, ?_, h.returned⟩
    · rw [enterAgain, enterAgain, h.flights, h.nextOwner]
    · exact congrArg (· + 1) h.nextOwner

theorem Alike.onTime (h : t.Alike t') (h' : u.Alike u') (onTime : t.OnTime u) : t'.OnTime u' := by
  intro passes
  rw [h.clock, h'.clock] at passes
  obtain ⟨rest, within⟩ := onTime passes
  refine ⟨fun f hf => h.none_ended (rest f (h.flights ▸ hf)), fun f hf due hd => ?_⟩
  rw [h'.clock]
  exact within f (h.flights ▸ hf) due hd

/-- **Every history** of one of two alike states is one of the other. -/
theorem Alike.history (h : t.Alike t') (history : Prompt Entry (fun _ => True) t u) :
    ∃ u', Prompt Entry (fun _ => True) t' u' ∧ u.Alike u' := by
  induction history with
  | none here => exact ⟨t', .none here, h⟩
  | snoc before move onTime here ih =>
    obtain ⟨u', before', same⟩ := ih
    obtain ⟨v', move', same'⟩ := same.move move
    exact ⟨v', before'.snoc move' (same.onTime same' onTime) here, same'⟩

/-! ### Runs -/

theorem Alike.stepFrom (h : t.Alike t') (earlier later : List (Flight σ α)) :
    Option.Rel Alike (t.stepFrom earlier later) (t'.stepFrom earlier later) := by
  induction later generalizing earlier with
  | nil => exact .none
  | cons f later ih =>
    simp only [Traffic.stepFrom]
    cases ended : f.wait.ended false f.owner t.clock t.shared t.locks with
    | none =>
      rw [h.none_ended ended]
      exact ih _
    | some go =>
      obtain ⟨go', ended', same⟩ := h.some_ended ended
      rw [ended']
      exact .some (h.resume f _ same)

theorem Alike.step (h : t.Alike t') : Option.Rel Alike t.step t'.step := by
  rw [Traffic.step, Traffic.step, h.flights]
  exact h.stepFrom [] t.flights

/-- **Runs** of two alike states stay alike. -/
theorem Alike.run (h : t.Alike t') (limit : Option Nat) (fuel : Nat) :
    (t.run (fun _ => false) limit fuel).Alike (t'.run (fun _ => false) limit fuel) := by
  induction fuel generalizing t t' with
  | zero => exact h
  | succ fuel ih =>
    have next : t'.nextDue = t.nextDue := by rw [nextDue, nextDue, h.flights]
    have stepped := h.step
    simp only [Traffic.run, Bool.false_eq_true, if_false, next]
    cases step : t.step with
    | some u =>
      rw [step] at stepped
      generalize t'.step = o at stepped ⊢
      cases stepped with
      | some same => exact ih same
    | none =>
      rw [step] at stepped
      generalize t'.step = o at stepped ⊢
      cases stepped
      dsimp only
      split
      · split
        · exact ih (h.elapseTo _)
        · exact h
      · exact ih (h.elapseTo _)
      · exact h

/-- Two states from which the same happens: they are alike, and stay so in every history in which
nobody is late, whoever enters, and in every run. -/
structure Twins (Entry : Call σ α → (α → Option (Call σ α)) → Prop) (t t' : Traffic σ α) :
    Prop where
  /-- they are alike -/
  alike : t.Alike t'
  /-- what happens in the one happens in the other -/
  there : ∀ u, Prompt Entry (fun _ => True) t u →
    ∃ u', Prompt Entry (fun _ => True) t' u' ∧ u.Alike u'
  /-- and the other way round -/
  back : ∀ u', Prompt Entry (fun _ => True) t' u' →
    ∃ u, Prompt Entry (fun _ => True) t u ∧ u.Alike u'
  /-- and so it is if the calls go on in turn -/
  runs : ∀ limit fuel,
    (t.run (fun _ => false) limit fuel).Alike (t'.run (fun _ => false) limit fuel)

/-- **Alike states are twins.** -/
theorem Alike.twins (h : t.Alike t') : Twins Entry t t' := by
  refine ⟨h, fun u history => h.history history, fun u' history => ?_, fun limit => h.run limit⟩
  obtain ⟨u, history', same⟩ := h.symm.history history
  exact ⟨u, history', same.symm⟩

end Traffic

end Tenure
