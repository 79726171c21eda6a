import Mathlib.Logic.Relation
import Tenure.Proofs.Reaping
import Tenure.Traffic.FineMoves

/-!
# The reaper does not oversleep

Before the reaper sleeps it reads the clock and the earliest deadline in the queue. What comes
into the queue after that, while it falls asleep or sleeps or does something else, wakes it only
if it comes before everything else there. That is enough: the timer of a reaper that nobody has
left a sign for goes off no later than the wall clock shows the earliest deadline
(`ExpiryQueue.Timely`).

This is said of a reaper among parties of which nothing is known but that they do not take
anything out of the queue (`Vigil.Next`). They may enter deadlines between any two of its
effects.
-/

namespace Tenure

/-! ## Timers -/

/-- A time that is too large for a word is read as an earlier one. -/
theorem bmod_le_self {x : Int} (h : Stamp.earliest ≤ x) : x.bmod UInt64.size ≤ x := by
  simp only [Stamp.earliest, Int.bmod_def, UInt64.size] at *
  split <;> omega

/-- **The wall clock is no faster than the stopwatch.** -/
theorem Moment.stamp_le_add {m m' : Moment} (h : m.Before m') :
    m'.stamp ≤ m.stamp + (m'.elapsed - m.elapsed) := by
  obtain ⟨origin, later⟩ := h
  have word : ∀ x : Int, Stamp.earliest ≤ x.bmod UInt64.size := by
    intro x
    have low := Int.le_bmod (x := x) (m := UInt64.size) (by decide)
    simp only [Stamp.earliest]
    unfold UInt64.size at low ⊢
    omega
  -- what was read before is the same word as the time that has passed since then
  have sum : (m'.origin + m'.elapsed).bmod UInt64.size =
      ((m.origin + m.elapsed).bmod UInt64.size + (m'.elapsed - m.elapsed)).bmod UInt64.size := by
    rw [Int.bmod_add_bmod, origin]
    congr 1
    omega
  simp only [stamp]
  split <;> split
  · omega
  · have := word (m.origin + m.elapsed)
    omega
  · have := bmod_le_self (x := m'.origin + m'.elapsed) (by simp only [Stamp.earliest]; omega)
    omega
  · have low := word (m.origin + m.elapsed)
    rw [sum]
    exact bmod_le_self (by omega)

namespace ExpiryQueue

variable {q : ExpiryQueue} {m m' : Moment} {due : Option Nat} {e : Expiry} {t : Int}

/-- A timer is set in time: from the moment `m` on, the wall clock does not pass the earliest
deadline before the timer goes off, and as soon as it shows that deadline the timer has gone
off. -/
def Timely (q : ExpiryQueue) (m : Moment) (due : Option Nat) : Prop :=
  ∃ d, due = some d ∧ ∀ t, q.nextDeadline = some t → ∀ m', m.Before m' →
    (m'.elapsed ≤ d → m'.stamp ≤ t) ∧ (t ≤ m'.stamp → d ≤ m'.elapsed)

theorem Timely.later (h : q.Timely m due) (time : m.Before m') : q.Timely m' due := by
  obtain ⟨d, rfl, h⟩ := h
  exact ⟨d, rfl, fun t next m'' time' => h t next m'' (time.trans time')⟩

/-- A timer that is set in time is so for every deadline. -/
theorem Timely.entry {d : Nat} (h : q.Timely m (some d)) (he : e ∈ q.entries)
    (time : m.Before m') :
    (m'.elapsed ≤ d → m'.stamp ≤ e.fireAt) ∧ (e.fireAt ≤ m'.stamp → d ≤ m'.elapsed) := by
  obtain ⟨_, set, h⟩ := h
  obtain rfl := Option.some.inj set
  obtain ⟨t, next, le⟩ := nextDeadline_le he
  obtain ⟨before, after⟩ := h t next m' time
  exact ⟨fun early => Int.le_trans (before early) le, fun come => after (Int.le_trans le come)⟩

/-- **Falling asleep**: the timer is set to the earliest deadline, or earlier. -/
theorem timely_sleepFor (q : ExpiryQueue) (m : Moment) (idle : Nat)
    (sleeps : Ledger.sleepFor m.stamp idle q ≠ 0) :
    q.Timely m (some (m.elapsed + Ledger.sleepFor m.stamp idle q)) := by
  refine ⟨_, rfl, fun t next m' time => ?_⟩
  have slow := Moment.stamp_le_add time
  simp only [Ledger.sleepFor, next] at sleeps ⊢
  split at sleeps
  · exact absurd rfl sleeps
  · next ahead =>
    rw [if_neg ahead]
    omega

/-- Where all deadlines are still to come it does not sleep only if it never does. -/
theorem eq_zero_of_sleepFor {idle : Nat} {now : Int} (ahead : ∀ e ∈ q.entries, now < e.fireAt)
    (zero : Ledger.sleepFor now idle q = 0) : idle = 0 := by
  obtain ⟨entries, wake, sorted⟩ := q
  cases entries with
  | nil => exact zero
  | cons x xs =>
    have first := ahead x List.mem_cons_self
    simp only [Ledger.sleepFor, nextDeadline, List.head?_cons, Option.map_some] at zero
    split at zero <;> omega

/-- The earliest deadline after one more was entered that is not the earliest. -/
theorem nextDeadline_schedule (not : (q.schedule e).wake = false) :
    (q.schedule e).nextDeadline = q.nextDeadline := by
  obtain ⟨entries, wake, sorted⟩ := q
  cases entries with
  | nil => simp [schedule, nextDeadline] at not
  | cons x xs =>
    simp only [schedule, nextDeadline, List.head?_cons, Option.map_some, Option.all_some,
      Bool.or_eq_false_iff, decide_eq_false_iff_not] at not ⊢
    rw [insertBy]
    split
    · next before =>
      -- it comes at the same time
      rw [Expiry.le_iff] at before
      simp only [List.head?_cons, Option.map_some, Option.some.injEq]
      omega
    · rfl

/-- **Whatever is entered** leaves a sign, or leaves the timer set in time. -/
theorem timely_schedule (h : q.wake = true ∨ q.Timely m due) (e : Expiry) :
    (q.schedule e).wake = true ∨ (q.schedule e).Timely m due := by
  cases not : (q.schedule e).wake with
  | true => exact .inl rfl
  | false =>
    have before : q.wake = false := (Bool.or_eq_false_iff.1 not).1
    obtain ⟨d, set, h⟩ := h.resolve_left (by simp [before])
    refine .inr ⟨d, set, fun t next => h t ?_⟩
    rw [← next, nextDeadline_schedule not]

end ExpiryQueue

/-! ## Calls that heed their timers -/

variable {α β : Type}

/-- Whenever the call sleeps its timer is set in time, or somebody has left a sign. `m` is the
time at which it goes on, and `q` what is in the queue then. -/
def Call.Heeds : Call Ledger α → Moment → ExpiryQueue → Prop
  | done _, _, _ => True
  | look k, m, _ => ∀ l, (k m l).Heeds m l.expiries
  | save l k, m, _ => k.Heeds m l.expiries
  | acquire _ _ _ k, _, _ => ∀ got m q, (k got).Heeds m q
  | release _ k, m, _ => ∀ q, k.Heeds m q
  | probe _ _ k, m, _ => ∀ free q, (k free).Heeds m q
  | pause due _ k, m, q => (q.wake = true ∨ q.Timely m due) ∧ ∀ m q, k.Heeds m q

/-- The same of a call that waits. -/
def Wait.Heeds : Wait Ledger α → Moment → ExpiryQueue → Prop
  | turn c, m, q => c.mayRest = true ∧ c.Heeds m q
  | lock _ _ _ k, _, _ => ∀ got m q, (k got).Heeds m q
  | pause due _ k, m, q => (q.wake = true ∨ q.Timely m due) ∧ ∀ m q, k.Heeds m q

variable {c : Call Ledger α} {w : Wait Ledger α} {m m' : Moment} {q : ExpiryQueue} {l l' : Ledger}
  {owner : Owner} {ls : Locks}

theorem Call.Heeds.schedule (h : c.Heeds m q) (rests : c.mayRest = true) (e : Expiry) :
    c.Heeds m (q.schedule e) := by
  cases c with
  | save l k => cases rests
  | pause due sign k => exact ⟨ExpiryQueue.timely_schedule h.1 e, h.2⟩
  | done a => trivial
  | look k => exact h
  | acquire key mode patience k => exact h
  | release key k => exact h
  | probe key mode k => exact h

theorem Wait.Heeds.schedule (h : w.Heeds m q) (e : Expiry) : w.Heeds m (q.schedule e) := by
  cases w with
  | turn c => exact ⟨h.1, h.2.schedule h.1 e⟩
  | lock key mode patience k => exact h
  | pause due sign k => exact ⟨ExpiryQueue.timely_schedule h.1 e, h.2⟩

/-- While it waits time may pass. -/
theorem Wait.Heeds.later (h : w.Heeds m q) (waits : ∀ c, w ≠ .turn c) (time : m.Before m') :
    w.Heeds m' q := by
  cases w with
  | turn c => exact absurd rfl (waits c)
  | lock key mode patience k => exact h
  | pause due sign k => exact ⟨h.1.imp_right fun h => h.later time, h.2⟩

/-- It goes on, whatever has become of the ledger. -/
theorem Wait.Heeds.isOver (h : w.Heeds m l.expiries) {go : Call Ledger α × Ledger × Locks}
    (isOver : w.Over owner m l ls go) : go.1.Heeds m go.2.1.expiries := by
  cases isOver with
  | turn c => exact h.2
  | granted patience k has => exact h true m _
  | gaveUp k not passed => exact h false m _
  | come sign k passed => exact h.2 m _
  | signed k found => exact h.2 m _

/-- **Stretches.** A call that goes on until it waits waits as it should. -/
theorem Call.Heeds.run (h : c.Heeds m l.expiries)
    (run : c.run owner m l ls = (.waiting w, l', ls')) : w.Heeds m l'.expiries := by
  induction c generalizing l ls with
  | done a => cases run
  | look k ih => exact ih m l (h l) run
  | save l k ih => exact ih h run
  | acquire key mode patience k ih =>
    simp only [Call.run] at run
    split at run
    · exact ih true (h true m _) run
    · split at run
      · exact ih false (h false m _) run
      · cases run
        exact h
  | release key k ih => exact ih (h _) run
  | probe key mode k ih => exact ih _ (h _ _) run
  | pause due sign k ih =>
    simp only [Call.run] at run
    split at run
    · exact ih (h.2 m _) run
    · split at run
      · exact ih (h.2 m _) run
      · cases run
        exact h

/-- **Parts of stretches.** What is left of a call that was interrupted heeds its timers too. -/
theorem Call.Heeds.runFor (h : c.Heeds m l.expiries) (n : Nat) :
    (c.runFor owner m n l ls).1.Heeds m (c.runFor owner m n l ls).2.1.expiries := by
  induction n generalizing c l ls with
  | zero => exact h
  | succ n ih =>
    cases c with
    | done a => exact h
    | look k => exact ih (h l)
    | save l k => exact ih h
    | acquire key mode patience k =>
      simp only [Call.runFor]
      split
      · exact ih (h true m _)
      · exact h
    | release key k => exact ih (h _)
    | probe key mode k => exact ih (h _ _)
    | pause due sign k => exact h

/-! ## The reaper heeds its timers -/

namespace Reaper

variable {s : CoordinatorSettings}

theorem heeds_handle (es : List Expiry) (m : Moment) (q : ExpiryQueue) :
    (handle s es).Heeds m q := by
  induction es generalizing m q with
  | nil => trivial
  | cons e es ih =>
    have proceeds : ∀ m q, (proceed s es).Heeds m q := fun m q l => ih m _
    rw [handle_cons]
    intro l
    dsimp only
    split
    · intro l got m q l'
      cases got with
      | true => exact fun _ q => proceeds m q
      | false => exact fun _ => proceeds m q
    · exact proceeds _ q

theorem heeds_awake (m : Moment) (q : ExpiryQueue) : (awake s).Heeds m q := by
  rw [awake_eq]
  intro l
  dsimp only
  split
  · exact fun l => heeds_handle _ _ _
  · trivial

/-- **A round.** It reads the clock and the queue, and sets its timer by them. -/
theorem heeds_round (m : Moment) (q : ExpiryQueue) : (round s).Heeds m q := by
  rw [round_eq]
  intro _ l
  dsimp only
  split
  · next sleeps =>
    exact ⟨.inr (l.expiries.timely_sleepFor m s.reaperIdle sleeps), fun m q => heeds_awake m q⟩
  · exact heeds_awake m _

theorem heeds_again {a : Reply} {c : Call Ledger Reply} (next : again s a = some c) (m : Moment)
    (q : ExpiryQueue) : (Wait.turn c).Heeds m q := by
  cases a with
  | round go =>
    cases go with
    | true =>
      obtain rfl := Option.some.inj next
      exact ⟨rfl, heeds_round m q⟩
    | false => cases next
  | _ => cases next

end Reaper

/-! ## The reaper among anybody -/

/-- The reaper, and what it shares with others. -/
structure Vigil where
  /-- both clocks -/
  clock : Moment
  /-- what it shares with others -/
  ledger : Ledger
  /-- what it waits for -/
  wait : Wait Ledger Reply

namespace Vigil

/-- One thing that may happen to a reaper. Nothing is known of the locks, and of the others only
that they use the queue to enter deadlines. -/
inductive Next (s : CoordinatorSettings) (owner : Owner) (v : Vigil) : Vigil → Prop where
  /-- it goes on until it has to wait -/
  | waits (ls : Locks) {ls' : Locks} {go : Call Ledger Reply × Ledger × Locks}
      {w : Wait Ledger Reply} {l : Ledger}
      (isOver : v.wait.Over owner v.clock v.ledger ls go)
      (run : go.1.run owner v.clock go.2.1 go.2.2 = (.waiting w, l, ls')) :
      Next s owner v { v with ledger := l, wait := w }
  /-- it goes on until a round is over, and begins another one -/
  | returns (ls : Locks) {ls' : Locks} {go : Call Ledger Reply × Ledger × Locks} {a : Reply}
      {l : Ledger} {c : Call Ledger Reply}
      (isOver : v.wait.Over owner v.clock v.ledger ls go)
      (run : go.1.run owner v.clock go.2.1 go.2.2 = (.returned a, l, ls'))
      (next : Reaper.again s a = some c) :
      Next s owner v { v with ledger := l, wait := .turn c }
  /-- it goes on for some effects, and is interrupted -/
  | part (ls : Locks) {go : Call Ledger Reply × Ledger × Locks} (n : Nat)
      (isOver : v.wait.Over owner v.clock v.ledger ls go)
      (rests : (go.1.runFor owner v.clock n go.2.1 go.2.2).1.mayRest = true) :
      Next s owner v { v with
        ledger := (go.1.runFor owner v.clock n go.2.1 go.2.2).2.1
        wait := .turn (go.1.runFor owner v.clock n go.2.1 go.2.2).1 }
  /-- somebody else does something that is not about the queue -/
  | others {l : Ledger} (queue : l.expiries = v.ledger.expiries) :
      Next s owner v { v with ledger := l }
  /-- somebody else enters a deadline -/
  | schedule {l : Ledger} (e : Expiry) (queue : l.expiries = v.ledger.expiries.schedule e) :
      Next s owner v { v with ledger := l }
  /-- while it waits, time passes -/
  | elapse {m : Moment} (later : v.clock.Before m) (waits : ∀ c, v.wait ≠ .turn c) :
      Next s owner v { v with clock := m }

variable {s : CoordinatorSettings} {v v' : Vigil}

/-- **One step** leaves a reaper that heeds its timers as one that does. -/
theorem Next.heeds (h : Next s owner v v') (heeds : v.wait.Heeds v.clock v.ledger.expiries) :
    v'.wait.Heeds v'.clock v'.ledger.expiries := by
  cases h with
  | waits ls isOver run => exact (heeds.isOver isOver).run run
  | returns ls isOver run next => exact Reaper.heeds_again next _ _
  | part ls n isOver rests => exact ⟨rests, (heeds.isOver isOver).runFor n⟩
  | others queue => exact queue ▸ heeds
  | schedule e queue => exact queue ▸ heeds.schedule e
  | elapse later waits => exact heeds.later waits later

/-- **Every run of the reaper.** Whenever it sleeps, and nobody has left a sign for it, its timer
is set in time. -/
theorem timely_of_asleep {due : Option Nat} {sign : Ledger → Option Ledger}
    {k : Call Ledger Reply}
    (h : Relation.ReflTransGen (Next s owner) ⟨m, l, .turn (Reaper.round s)⟩ v)
    (asleep : v.wait = .pause due sign k) (calm : v.ledger.expiries.wake = false) :
    v.ledger.expiries.Timely v.clock due := by
  have heeds : v.wait.Heeds v.clock v.ledger.expiries := by
    clear asleep calm
    induction h with
    | refl => exact ⟨rfl, Reaper.heeds_round m _⟩
    | tail _ next ih => exact next.heeds ih
  rw [asleep] at heeds
  exact heeds.1.resolve_left (by simp [calm])

end Vigil

end Tenure
