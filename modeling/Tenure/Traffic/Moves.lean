import Tenure.Traffic

/-!
# Histories of traffic

`Traffic.run` lets the calls that can go on at one moment go on in the order in which
they began to wait, and lets time pass only when there is none; and a call that waited for
a time and for a sign goes on for the time, if it has both. All of this is one choice among
many. Here the choice is left open: a **move** lets *some* call go on that need not wait, in
any way its wait may be over (`Wait.Over`), lets *some* time pass, or lets another party
enter, and a **history** is any row of moves.

What holds along every history therefore holds of every run (`run_moves`), and of every
other way to order what happens at one moment. In a run time does not go backwards
either: while no call can go on, each of them is due strictly later
(`elapsed_lt_of_nextDue`).
-/

namespace Tenure

variable {σ α : Type}

/-! ### How waits end -/

namespace Wait

/-- A wait is over, and the call goes on. -/
inductive Over (owner : Owner) (now : Moment) (s : σ) (ls : Locks) :
    Wait σ α → Call σ α × σ × Locks → Prop where
  /-- its turn has come -/
  | turn (c : Call σ α) : Over owner now s ls (.turn c) (c, s, ls)
  /-- it has the lock -/
  | granted {key : Key} {mode : Mode} (patience : Option Nat) (k : Bool → Call σ α)
    (has : (owner, mode) ∈ (ls.get key).holders) :
    Over owner now s ls (.lock key mode patience k) (k true, s, ls)
  /-- it has no patience left, and gives up -/
  | gaveUp {key : Key} {mode : Mode} {patience : Option Nat} (k : Bool → Call σ α)
    (not : (owner, mode) ∉ (ls.get key).holders) (passed : reached patience now.elapsed = true) :
    Over owner now s ls (.lock key mode patience k) (k false, s, ls.withdraw owner key)
  /-- the time has come -/
  | come {due : Option Nat} (sign : σ → Option σ) (k : Call σ α)
    (passed : reached due now.elapsed = true) : Over owner now s ls (.pause due sign k) (k, s, ls)
  /-- it has found a sign, and has taken it away -/
  | signed {due : Option Nat} {sign : σ → Option σ} {s' : σ} (k : Call σ α)
    (found : sign s = some s') : Over owner now s ls (.pause due sign k) (k, s', ls)

variable {owner : Owner} {now : Moment} {s : σ} {ls : Locks} {w : Wait σ α}
  {go : Call σ α × σ × Locks}

/-- There is no other way to go on than these. -/
theorem over_of_ended {alert : Bool} (ended : w.ended alert owner now s ls = some go) :
    w.Over owner now s ls go := by
  cases w with
  | turn c =>
    obtain rfl := Option.some.inj ended
    exact .turn c
  | lock key mode patience k =>
    simp only [Wait.ended, Lock.heldBy, decide_eq_true_eq] at ended
    split at ended
    · next has =>
      obtain rfl := Option.some.inj ended
      exact .granted patience k has
    · next not =>
      split at ended
      · next passed =>
        obtain rfl := Option.some.inj ended
        exact .gaveUp k not passed
      · cases ended
  | pause due sign k =>
    simp only [Wait.ended] at ended
    split at ended
    · next passed =>
      obtain rfl := Option.some.inj ended
      exact .come sign k (Bool.and_eq_true_iff.1 passed).1
    · obtain ⟨s', found, rfl⟩ := Option.map_eq_some_iff.1 ended
      exact .signed k found

/-- Every way is that of a call which is alert or of one which is not. -/
theorem Over.exists_ended (isOver : w.Over owner now s ls go) :
    ∃ alert, w.ended alert owner now s ls = some go := by
  cases isOver with
  | turn c => exact ⟨false, rfl⟩
  | granted patience k has => exact ⟨false, if_pos (decide_eq_true has)⟩
  | gaveUp k not passed =>
    refine ⟨false, ?_⟩
    rw [Wait.ended, if_neg (by simpa [Lock.heldBy] using not), if_pos passed]
  | come sign k passed => exact ⟨false, by simp [Wait.ended, passed]⟩
  | signed k found => exact ⟨true, by simp [Wait.ended, found]⟩

/-- A call that has to wait cannot go on in any of them. -/
theorem not_over_of_ended (ended : w.ended false owner now s ls = none) :
    ¬ w.Over owner now s ls go := by
  intro isOver
  cases isOver with
  | turn c => cases ended
  | granted patience k has => simp [Wait.ended, Lock.heldBy, has] at ended
  | gaveUp k not passed => simp [Wait.ended, Lock.heldBy, not, passed] at ended
  | come sign k passed => simp [Wait.ended, passed] at ended
  | signed k found =>
    simp only [Wait.ended, found] at ended
    split at ended <;> cases ended

end Wait

/-! ### Where stretches end -/

/-- Where a party is in flight when a stretch of it has ended. -/
def Flight.after (f : Flight σ α) : Stop σ α → List (Flight σ α)
  | .waiting w => [{ f with wait := w }]
  | .returned a => (f.again a).toList.map fun c => { f with wait := .turn c }

namespace Flight

variable {f g : Flight σ α} {stop : Stop σ α} {rest : List (Flight σ α)}

theorem owner_of_after (mem : g ∈ f.after stop) : g.owner = f.owner := by
  cases stop with
  | waiting w => rw [List.mem_singleton.1 mem]
  | returned a =>
    obtain ⟨c, -, rfl⟩ := List.mem_map.1 mem
    rfl

theorem again_of_after (mem : g ∈ f.after stop) : g.again = f.again := by
  cases stop with
  | waiting w => rw [List.mem_singleton.1 mem]
  | returned a =>
    obtain ⟨c, -, rfl⟩ := List.mem_map.1 mem
    rfl

/-- The party is not in flight twice. -/
theorem nodup_after (apart : ((f :: rest).map owner).Nodup) (stop : Stop σ α) :
    ((f.after stop ++ rest).map owner).Nodup := by
  cases stop with
  | waiting w => exact apart
  | returned a =>
    rw [after]
    cases f.again a with
    | none => exact (List.nodup_cons.1 apart).2
    | some c => exact apart

end Flight

namespace Traffic

/-- Taking one party out of the row. -/
theorem perm_of_split {flights earlier later : List (Flight σ α)} {f : Flight σ α}
    (split : flights = earlier ++ f :: later) : flights.Perm (f :: (earlier ++ later)) :=
  split ▸ List.perm_middle

/-- The others are other parties. -/
theorem owner_ne_of_perm {flights rest : List (Flight σ α)} {f g : Flight σ α}
    (perm : flights.Perm (f :: rest)) (owners : (flights.map Flight.owner).Nodup) (hg : g ∈ rest) :
    g.owner ≠ f.owner := by
  have apart : ((f :: rest).map Flight.owner).Nodup := ((perm.map _).nodup_iff).1 owners
  exact fun same => (List.nodup_cons.1 apart).1 (same ▸ List.mem_map_of_mem hg)

section Resume

variable (t : Traffic σ α) (f : Flight σ α) (others : List (Flight σ α)) (go : Call σ α × σ × Locks)

theorem clock_resume : (t.resume f others go).clock = t.clock := by
  simp only [resume]
  split <;> rfl

theorem shared_resume :
    (t.resume f others go).shared = (go.1.run f.owner t.clock go.2.1 go.2.2).2.1 := by
  simp only [resume]
  split <;> rfl

theorem locks_resume :
    (t.resume f others go).locks = (go.1.run f.owner t.clock go.2.1 go.2.2).2.2 := by
  simp only [resume]
  split <;> rfl

theorem nextOwner_resume : (t.resume f others go).nextOwner = t.nextOwner := by
  simp only [resume]
  split <;> rfl

theorem returned_resume : (t.resume f others go).returned =
    match (go.1.run f.owner t.clock go.2.1 go.2.2).1 with
    | .returned a => ⟨f.owner, a, t.clock.elapsed⟩ :: t.returned
    | .waiting _ => t.returned := by
  simp only [resume]
  split <;> next stop => rw [stop]

/-- **In flight** are then the others, and the party as the end of its stretch says. -/
theorem flights_resume : (t.resume f others go).flights.Perm
    (f.after (go.1.run f.owner t.clock go.2.1 go.2.2).1 ++ others) := by
  simp only [resume]
  split
  · next ran =>
    rw [ran]
    exact List.perm_append_comm
  · next ran =>
    rw [ran]
    exact .refl _

variable {t f others go} {g : Flight σ α}

theorem mem_resume : g ∈ (t.resume f others go).flights ↔
    g ∈ f.after (go.1.run f.owner t.clock go.2.1 go.2.2).1 ∨ g ∈ others :=
  (t.flights_resume f others go).mem_iff.trans List.mem_append

/-- Whoever is in flight was so before. -/
theorem exists_of_mem_resume (mem : g ∈ (t.resume f others go).flights) :
    ∃ f' ∈ f :: others, f'.owner = g.owner ∧ f'.again = g.again := by
  rcases mem_resume.1 mem with own | other
  · exact ⟨f, List.mem_cons_self, (Flight.owner_of_after own).symm, (Flight.again_of_after own).symm⟩
  · exact ⟨g, List.mem_cons_of_mem _ other, rfl, rfl⟩

/-- Nobody is in flight twice. -/
theorem nodup_resume {flights : List (Flight σ α)} (perm : flights.Perm (f :: others))
    (owners : (flights.map Flight.owner).Nodup) :
    ((t.resume f others go).flights.map Flight.owner).Nodup :=
  ((t.flights_resume f others go).map _).nodup_iff.2
    (Flight.nodup_after (((perm.map _).nodup_iff).1 owners) _)

/-- Whoever enters next is somebody else. -/
theorem owner_lt_resume (perm : t.flights.Perm (f :: others))
    (known : ∀ g ∈ t.flights, g.owner < t.nextOwner) :
    ∀ g ∈ (t.resume f others go).flights, g.owner < (t.resume f others go).nextOwner := by
  intro g hg
  obtain ⟨g', mem, same, -⟩ := exists_of_mem_resume hg
  rw [nextOwner_resume, ← same]
  exact known g' (perm.mem_iff.2 mem)

end Resume

section Enter

variable {t : Traffic σ α} (call : Call σ α) (again : α → Option (Call σ α))

theorem nodup_enterAgain (known : ∀ f ∈ t.flights, f.owner < t.nextOwner)
    (owners : (t.flights.map Flight.owner).Nodup) :
    ((t.enterAgain call again).flights.map Flight.owner).Nodup := by
  have new : t.nextOwner ∉ t.flights.map Flight.owner := by
    intro old
    obtain ⟨f, hf, same⟩ := List.mem_map.1 old
    exact Nat.ne_of_lt (known f hf) same
  have back := List.perm_append_singleton (⟨t.nextOwner, .turn call, again⟩ : Flight σ α) t.flights
  exact ((back.map _).nodup_iff).2 (List.nodup_cons.2 ⟨new, owners⟩)

theorem owner_lt_enterAgain (known : ∀ f ∈ t.flights, f.owner < t.nextOwner) :
    ∀ f ∈ (t.enterAgain call again).flights, f.owner < (t.enterAgain call again).nextOwner := by
  intro f hf
  rcases List.mem_append.1 hf with hf | hf
  · exact Nat.lt_succ_of_lt (known f hf)
  · obtain rfl := List.mem_singleton.1 hf
    exact Nat.lt_succ_self _

end Enter

/-! ### Moves -/


/-- One thing that may happen in traffic which parties of the kind `Entry` enter. -/
inductive Move (Entry : Call σ α → (α → Option (Call σ α)) → Prop) :
    Traffic σ α → Traffic σ α → Prop where
  /-- a call that need not wait any longer goes on -/
  | goOn {t : Traffic σ α} {earlier later : List (Flight σ α)} {f : Flight σ α}
      {go : Call σ α × σ × Locks} (split : t.flights = earlier ++ f :: later)
      (isOver : f.wait.Over f.owner t.clock t.shared t.locks go) :
      Move Entry t (t.resume f (earlier ++ later) go)
  /-- time passes -/
  | elapse {t : Traffic σ α} {elapsed : Nat} (later : t.clock.elapsed ≤ elapsed) :
      Move Entry t (t.elapseTo elapsed)
  /-- a party enters -/
  | enter {t : Traffic σ α} {call : Call σ α} {again : α → Option (Call σ α)}
      (entry : Entry call again) : Move Entry t (t.enterAgain call again)

/-- A row of moves. -/
inductive Moves (Entry : Call σ α → (α → Option (Call σ α)) → Prop) (t : Traffic σ α) :
    Traffic σ α → Prop where
  /-- nothing has happened -/
  | none : Moves Entry t t
  /-- one more move -/
  | snoc {u v : Traffic σ α} (before : Moves Entry t u) (move : Move Entry u v) : Moves Entry t v

variable {Entry : Call σ α → (α → Option (Call σ α)) → Prop} {t u v : Traffic σ α}

/-- One move is a history. -/
theorem Move.moves (h : Move Entry t u) : Moves Entry t u := .snoc .none h

/-- One history after another is a history. -/
theorem Moves.trans (h₁ : Moves Entry t u) (h₂ : Moves Entry u v) : Moves Entry t v := by
  induction h₂ with
  | none => exact h₁
  | snoc _ move ih => exact ih.snoc move

/-- Where more parties may enter, no less may happen. -/
theorem Move.mono {Entry' : Call σ α → (α → Option (Call σ α)) → Prop}
    (more : ∀ {call again}, Entry call again → Entry' call again) (h : Move Entry t u) :
    Move Entry' t u := by
  cases h with
  | goOn split isOver => exact .goOn split isOver
  | elapse later => exact .elapse later
  | enter entry => exact .enter (more entry)

theorem Moves.mono {Entry' : Call σ α → (α → Option (Call σ α)) → Prop}
    (more : ∀ {call again}, Entry call again → Entry' call again) (h : Moves Entry t u) :
    Moves Entry' t u := by
  induction h with
  | none => exact .none
  | snoc _ move ih => exact ih.snoc (move.mono more)

/-- **Invariants.** What every move keeps holds along every history. -/
theorem Moves.invariant {P : Traffic σ α → Prop}
    (step : ∀ {t u : Traffic σ α}, Move Entry t u → P t → P u) (h : Moves Entry t u)
    (start : P t) : P u := by
  induction h with
  | none => exact start
  | snoc _ move ih => exact step move ih

/-! ### Histories through states of one kind -/

/-- A row of moves, all of whose states pass a test. -/
inductive Passes (Entry : Call σ α → (α → Option (Call σ α)) → Prop) (P : Traffic σ α → Prop)
    (t : Traffic σ α) : Traffic σ α → Prop where
  /-- nothing has happened -/
  | none (here : P t) : Passes Entry P t t
  /-- one more move -/
  | snoc {u v : Traffic σ α} (before : Passes Entry P t u) (move : Move Entry u v) (here : P v) :
    Passes Entry P t v

variable {P : Traffic σ α → Prop}

theorem Passes.moves (h : Passes Entry P t u) : Moves Entry t u := by
  induction h with
  | none => exact .none
  | snoc _ move _ ih => exact ih.snoc move

theorem Passes.here (h : Passes Entry P t u) : P u := by
  cases h with
  | none here => exact here
  | snoc _ _ here => exact here

/-! ### Histories in which nobody is late -/

/-- Everybody has to wait. -/
def AtRest (t : Traffic σ α) : Prop :=
  ∀ f ∈ t.flights, f.wait.ended false f.owner t.clock t.shared t.locks = none

/-- Time passes only while everybody has to wait, and not beyond a time that somebody waits for. -/
def OnTime (t u : Traffic σ α) : Prop :=
  t.clock.elapsed < u.clock.elapsed →
    t.AtRest ∧ ∀ f ∈ t.flights, ∀ due, f.wait.due = some due → u.clock.elapsed ≤ due

/-- A row of moves in which nobody is late, all of whose states pass a test. -/
inductive Prompt (Entry : Call σ α → (α → Option (Call σ α)) → Prop) (P : Traffic σ α → Prop)
    (t : Traffic σ α) : Traffic σ α → Prop where
  /-- nothing has happened -/
  | none (here : P t) : Prompt Entry P t t
  /-- one more move -/
  | snoc {u v : Traffic σ α} (before : Prompt Entry P t u) (move : Move Entry u v)
    (onTime : u.OnTime v) (here : P v) : Prompt Entry P t v

theorem Prompt.moves (h : Prompt Entry P t u) : Moves Entry t u := by
  induction h with
  | none => exact .none
  | snoc _ move _ _ ih => exact ih.snoc move

theorem Prompt.here (h : Prompt Entry P t u) : P u := by
  cases h with
  | none here => exact here
  | snoc _ _ _ here => exact here

theorem Prompt.trans (h₁ : Prompt Entry P t u) (h₂ : Prompt Entry P u v) : Prompt Entry P t v := by
  induction h₂ with
  | none => exact h₁
  | snoc _ move onTime here ih => exact ih.snoc move onTime here

/-- While the clock stands still nobody is late. -/
theorem OnTime.of_clock (same : u.clock = t.clock) : t.OnTime u :=
  fun later => absurd later (by rw [same]; exact Nat.lt_irrefl _)

/-! ### Runs are histories -/

/-- If a call is found that need not wait, letting it go on is a move. -/
theorem stepFrom_move {earlier later : List (Flight σ α)} (split : t.flights = earlier ++ later)
    (h : t.stepFrom earlier later = some u) : Move Entry t u := by
  induction later generalizing earlier with
  | nil => cases h
  | cons f later ih =>
    rw [stepFrom] at h
    split at h
    · next go ended =>
      cases h
      exact .goOn split (Wait.over_of_ended ended)
    · exact ih (by rw [split, List.append_assoc]; rfl) h

theorem clock_stepFrom {earlier later : List (Flight σ α)}
    (h : t.stepFrom earlier later = some u) : u.clock = t.clock := by
  induction later generalizing earlier with
  | nil => cases h
  | cons f later ih =>
    rw [stepFrom] at h
    split at h
    · cases h
      exact clock_resume ..
    · exact ih h

/-- If none is found, every call has to wait. -/
theorem ended_eq_none_of_stepFrom {earlier later : List (Flight σ α)}
    (h : t.stepFrom earlier later = none) :
    ∀ f ∈ later, f.wait.ended false f.owner t.clock t.shared t.locks = none := by
  induction later generalizing earlier with
  | nil => intro f hf; cases hf
  | cons g later ih =>
    rw [stepFrom] at h
    split at h
    · cases h
    · next hg =>
      intro f hf
      rcases List.mem_cons.1 hf with rfl | hf
      · exact hg
      · exact ih h f hf

/-- A call that has to wait is due after the present. -/
theorem elapsed_lt_of_ended_eq_none {owner : Owner} {now : Moment} {s : σ} {ls : Locks}
    {w : Wait σ α} {due : Nat} (h : w.ended false owner now s ls = none) (hd : w.due = some due) :
    now.elapsed < due := by
  cases w with
  | turn call => cases h
  | lock key mode patience k =>
    cases hd
    simp only [Wait.ended] at h
    split at h
    · cases h
    · split at h
      · cases h
      · next hr => simpa [reached] using hr
  | pause due' sign k =>
    cases hd
    simp only [Wait.ended] at h
    split at h
    · cases h
    · next hr => simpa [reached] using hr

/-- While no call can go on, the next of them is due after the present. -/
theorem elapsed_lt_of_nextDue {due : Nat} (h : t.step = none) (hd : t.nextDue = some due) :
    t.clock.elapsed < due := by
  have hm : due ∈ t.flights.filterMap fun f => f.wait.due := List.min?_mem hd
  obtain ⟨f, hf, hfd⟩ := List.mem_filterMap.1 hm
  exact elapsed_lt_of_ended_eq_none (ended_eq_none_of_stepFrom h f hf) hfd

/-- **In a run nobody is late.** -/
theorem run_prompt (stop : Traffic σ α → Bool) (limit : Option Nat) (fuel : Nat)
    (here : ∀ n ≤ fuel, P (t.run stop limit n)) : Prompt Entry P t (t.run stop limit fuel) := by
  induction fuel generalizing t with
  | zero => exact .none (here 0 (Nat.le_refl _))
  | succ fuel ih =>
    have first : Prompt Entry P t t := .none (here 0 (Nat.zero_le _))
    have later : ∀ {u : Traffic σ α}, (∀ n, t.run stop limit (n + 1) = u.run stop limit n) →
        Move Entry t u → t.OnTime u → Prompt Entry P t (t.run stop limit (fuel + 1)) := by
      intro u goesOn move onTime
      have here' : ∀ n ≤ fuel, P (u.run stop limit n) := by
        intro n le
        rw [← goesOn]
        exact here (n + 1) (Nat.succ_le_succ le)
      rw [goesOn]
      exact (first.snoc move onTime (here' 0 (Nat.zero_le _))).trans (ih here')
    cases stopped : stop t with
    | true =>
      simp only [run, stopped, if_true]
      exact first
    | false =>
      cases step : t.step with
      | some u =>
        refine later (fun n => by simp [run, stopped, step]) (stepFrom_move rfl step) ?_
        exact .of_clock (clock_stepFrom step)
      | none =>
        have rest : t.AtRest := ended_eq_none_of_stepFrom step
        cases next : t.nextDue with
        | none =>
          simp only [run, stopped, step, next]
          exact first
        | some due =>
          have move : Move Entry t (t.elapseTo due) :=
            .elapse (Nat.le_of_lt (elapsed_lt_of_nextDue step next))
          have onTime : t.OnTime (t.elapseTo due) := by
            refine fun _ => ⟨rest, fun f hf due' hd => ?_⟩
            exact (List.min?_eq_some_iff.1 next).2 due' (List.mem_filterMap.2 ⟨f, hf, hd⟩)
          cases limit with
          | none => exact later (fun n => by simp [run, stopped, step, next]) move onTime
          | some limit =>
            by_cases le : due ≤ limit
            · exact later (fun n => by simp [run, stopped, step, next, le]) move onTime
            · simp only [run, stopped, step, next, le, if_false]
              exact first

/-- **Every run is a history**, in which no party enters. -/
theorem run_moves (stop : Traffic σ α → Bool) (limit : Option Nat) (fuel : Nat) :
    Moves Entry t (t.run stop limit fuel) :=
  (run_prompt (P := fun _ => True) stop limit fuel fun _ _ => trivial).moves

end Traffic

end Tenure
