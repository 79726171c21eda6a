import Tenure.Proofs.Endings
import Tenure.Proofs.Rounds
import Tenure.Proofs.Waiting

/-!
# Holds lapse on time

On a clock that shows nothing but the time spent waiting the reaper is never late. When
everybody has to wait it sleeps, and its timer is set in time, so the clock cannot pass a
deadline without waking it. If nobody else has the lock that it needs then, it settles the hold
in that instant (`Traffic.Punctual.move`).

So in no state is a resource held beyond the deadline, and a hold that nobody confirms or gives
up ends at exactly its deadline (`Traffic.reaper_never_oversleeps`).
-/

namespace Tenure

open Ledger

namespace Traffic

variable {s : CoordinatorSettings} {reaper owner : Owner} {t u v : Traffic Ledger Reply}
  {go : Call Ledger Reply × Ledger × Locks} {origin : Int} {l₀ : Ledger}
  {wait : Moment → Ledger → Ledger → Prop} {ret : Moment → Ledger → Ledger → Reply → Prop}

/-- Nobody but the reaper has the lock of a resource at a time at which a deadline in the queue
has it look at that resource. -/
def Uncontended (reaper : Owner) (t : Traffic Ledger Reply) : Prop :=
  ∀ e ∈ t.shared.expiries.entries, e.fireAt = t.clock.stamp →
    ∀ h ∈ (t.locks.get (.resource e.id)).holders, h.1 = reaper

instance : Decidable (t.Uncontended reaper) :=
  inferInstanceAs (Decidable (∀ e ∈ t.shared.expiries.entries, e.fireAt = t.clock.stamp →
    ∀ h ∈ (t.locks.get (.resource e.id)).holders, h.1 = reaper))

/-! ## The invariant -/

/-- The reaper is up to date, it heeds its timers, and it is at no lock. -/
structure Wakeful (reaper : Owner) (t : Traffic Ledger Reply) : Prop where
  /-- it is in flight -/
  present : ∃ f ∈ t.flights, f.owner = reaper
  /-- it heeds its timers -/
  heeds : ∀ f ∈ t.flights, f.owner = reaper → f.wait.Heeds t.clock t.shared.expiries
  /-- it is up to date -/
  current : t.shared.Current t.clock.stamp
  /-- nobody waits for a lock that nobody has -/
  served : t.locks.Served
  /-- it has no lock, and waits for none -/
  apart : ∀ key mode, (reaper, mode) ∉ (t.locks.get key).row

/-- The reaper is punctual, at its place, while everybody else goes by elementary steps. -/
structure Punctual (s : CoordinatorSettings) (reaper : Owner) (t : Traffic Ledger Reply) : Prop
    extends Wakeful reaper t where
  /-- the reaper is at its place -/
  reaping : t.Reaping s reaper
  /-- nobody else does anything but elementary steps -/
  stepping : t.Stepping reaper
  /-- nobody who enters is taken for the reaper -/
  known : reaper < t.nextOwner

/-- What is due can be had. -/
theorem Wakeful.free (h : t.Wakeful reaper) (uncontended : t.Uncontended reaper) :
    ∀ e ∈ t.shared.expiries.entries, e.fireAt ≤ t.clock.stamp →
      t.locks.get (.resource e.id) = Lock.free := by
  intro e he come
  have now : e.fireAt = t.clock.stamp := Int.le_antisymm come (h.current.ahead e he)
  have holders : (t.locks.get (.resource e.id)).holders = [] := by
    apply List.eq_nil_iff_forall_not_mem.2
    rintro ⟨owner, mode⟩ here
    obtain rfl := uncontended e he now _ here
    exact h.apart _ mode (List.mem_append_left _ here)
  have queue := h.served _ holders
  rcases lock : t.locks.get (.resource e.id) with ⟨_, _⟩
  rw [lock] at holders queue
  obtain rfl : _ = [] := holders
  obtain rfl : _ = [] := queue
  rfl

/-- A party has to wait. -/
def Rests (owner : Owner) (t : Traffic Ledger Reply) : Prop :=
  ∀ f ∈ t.flights, f.owner = owner →
    f.wait.ended false f.owner t.clock t.shared t.locks = none

instance : Decidable (t.Rests owner) :=
  inferInstanceAs (Decidable (∀ f ∈ t.flights, f.owner = owner →
    f.wait.ended false f.owner t.clock t.shared t.locks = none))

/-- The reaper is about to begin a round, and nothing is due. -/
def Idles (s : CoordinatorSettings) (reaper : Owner) (t : Traffic Ledger Reply) : Prop :=
  ∀ f ∈ t.flights, f.owner = reaper → Reaper.Idle s t.clock t.shared f.wait

/-! ## Stretches -/

/-- What a stretch of the reaper leads to. -/
structure Advances (s : CoordinatorSettings) (reaper : Owner) (t u : Traffic Ledger Reply) :
    Prop extends Wakeful reaper u where
  /-- nobody keeps a lock from it -/
  uncontended : u.Uncontended reaper
  /-- it has to wait, or is done with all that was due -/
  comes : u.Rests reaper ∨
    u.Idles s reaper ∧ (t.Idles s reaper → 0 < s.reaperIdle →
      t.shared.expiries.wake = true ∧ u.shared.expiries.wake = false)

/-- After a stretch of its own the reaper waits for `w`, and all locks are as they were. -/
theorem Wakeful.own (h : t.Wakeful reaper) {f : Flight Ledger Reply} {w : Wait Ledger Reply}
    (own : f.owner = reaper)
    (after : ∀ g : Flight Ledger Reply, g.owner = reaper →
      (g ∈ u.flights ↔ g ∈ [{ f with wait := w }]))
    (heeds : w.Heeds u.clock u.shared.expiries) (current : u.shared.Current u.clock.stamp)
    (same : ∀ key, u.locks.get key = t.locks.get key) :
    u.Wakeful reaper ∧ ∀ g ∈ u.flights, g.owner = reaper → g.wait = w := by
  have waits : ∀ g ∈ u.flights, g.owner = reaper → g.wait = w := by
    intro g hg mine
    rw [List.mem_singleton.1 ((after g mine).1 hg)]
  have present := (after { f with wait := w } own).2 (List.mem_singleton_self _)
  refine ⟨⟨⟨_, present, own⟩, ?_, current, ?_, ?_⟩, waits⟩
  · intro g hg mine
    rw [waits g hg mine]
    exact heeds
  · intro key
    rw [same]
    exact h.served key
  · intro key mode
    rw [same]
    exact h.apart key mode

/-- **The reaper goes on.** It falls asleep, or clears what is due. -/
theorem Punctual.own (h : t.Punctual s reaper) (kept : t.Kept conduct wait ret)
    (agreement : t.shared.Agreement) (uncontended : t.Uncontended reaper)
    (stretch : t.Stretch reaper go u) : t.Advances s reaper u := by
  obtain ⟨f, hf, own, isOver, after⟩ := stretch.own kept.owners
  obtain ⟨place, again⟩ := h.reaping f hf own
  have heeds := (h.heeds f hf own).isOver isOver
  have unhindered := place.unhindered (h.free uncontended) h.current.used h.current.free isOver
  have clock := stretch.clock
  have shared := stretch.shared
  have locks := stretch.locks
  generalize run : go.1.run reaper t.clock go.2.1 go.2.2 = r at unhindered after shared locks
  cases unhindered with
  | sleeps due early calm =>
    simp only at shared locks
    have asleep := heeds.run run
    rw [← clock, ← shared] at asleep
    have current : u.shared.Current u.clock.stamp := by
      rw [clock, shared]
      exact h.current
    obtain ⟨wakeful, waits⟩ := h.toWakeful.own own (w := .pause due wakeSign (Reaper.awake s))
      after asleep current fun key => by rw [locks]
    refine ⟨wakeful, ?_, .inl fun g hg mine => ?_⟩
    · rw [Uncontended, clock, shared, locks]
      exact uncontended
    · rw [waits g hg mine, clock, shared]
      simp [Wait.ended, early, wakeSign, calm]
  | clears clearing same called =>
    have again : f.again (.round true) = some (Reaper.round s) := by rw [again]; rfl
    simp only [Flight.after, again, Option.toList_some, List.map_singleton] at after
    have ahead : ∀ e ∈ u.shared.expiries.entries, u.clock.stamp < e.fireAt := by
      rw [clock, shared]
      exact clearing.ahead
    have current : u.shared.Current u.clock.stamp := by
      rw [clock, shared]
      exact h.current.clearing clearing agreement
    obtain ⟨wakeful, waits⟩ := h.toWakeful.own own after ⟨rfl, Reaper.heeds_round _ _⟩ current
      fun key => by rw [locks, same]
    refine ⟨wakeful, fun e he now => absurd now (Int.ne_of_gt (ahead e he)), ?_⟩
    refine .inr ⟨fun g hg mine => ⟨waits g hg mine, ahead⟩, fun idles positive => ?_⟩
    rw [shared]
    exact called (idles f hf own) positive

/-- **Somebody else goes on.** The reaper takes notice when it has to. -/
theorem Wakeful.others (h : t.Wakeful reaper) (ne : owner ≠ reaper)
    (stretch : t.Stretch owner go u) (did : Steps t.clock t.shared u.shared) :
    u.Wakeful reaper := by
  have mine : ∀ f : Flight Ledger Reply, f.owner = reaper → (f ∈ u.flights ↔ f ∈ t.flights) :=
    fun f own => stretch.others fun e => ne (e.symm.trans own)
  refine ⟨?_, ?_, ?_, ?_, ?_⟩
  · obtain ⟨f, hf, own⟩ := h.present
    exact ⟨f, (mine f own).2 hf, own⟩
  · intro f hf own
    rw [stretch.clock]
    apply did.keeps (P := fun l => f.wait.Heeds t.clock l.expiries)
    · rintro l l' step heeds
      rcases step.scheduled with same | ⟨e, -, queue⟩
      · exact same ▸ heeds
      · exact queue ▸ heeds.schedule e
    · exact h.heeds f ((mine f own).1 hf) own
  · rw [stretch.clock]
    exact h.current.steps did
  · obtain ⟨f, -, -, isOver⟩ := stretch.flight
    rw [stretch.locks]
    exact h.served.stretch isOver
  · intro key mode here
    obtain ⟨f, -, -, isOver⟩ := stretch.flight
    rw [stretch.locks] at here
    exact h.apart key mode ((Locks.spares_stretch isOver).row _ key mode ne.symm here)

/-! ## Time -/

/-- A reaper that has to wait sleeps, and its timer is set in time. -/
theorem Punctual.asleep (h : t.Punctual s reaper) {f : Flight Ledger Reply} (hf : f ∈ t.flights)
    (own : f.owner = reaper)
    (rest : f.wait.ended false f.owner t.clock t.shared t.locks = none) :
    ∃ d, f.wait.due = some d ∧ t.clock.elapsed < d ∧
      t.shared.expiries.Timely t.clock (some d) := by
  have place := (h.reaping f hf own).1
  have heeds := h.heeds f hf own
  rw [h.current.free] at place
  generalize f.wait = w at place heeds rest
  cases place with
  | turn => cases rest
  | asleep due =>
    simp only [Wait.ended] at rest
    split at rest
    · cases rest
    · next early =>
      -- nobody has left a sign
      have calm : t.shared.expiries.wake ≠ true := by
        intro wake
        simp [wakeSign, wake] at rest
      obtain ⟨d, rfl, timely⟩ := heeds.1.resolve_left calm
      exact ⟨d, rfl, by simpa [reached] using early, d, rfl, timely⟩

/-- **Time passes**, and no deadline is passed. -/
theorem Punctual.elapse (h : t.Punctual s reaper) {elapsed : Nat}
    (later : t.clock.elapsed ≤ elapsed) (onTime : t.OnTime (t.elapseTo elapsed)) :
    (t.elapseTo elapsed).Wakeful reaper := by
  rcases Nat.eq_or_lt_of_le later with rfl | passes
  · exact h.toWakeful
  · obtain ⟨rest, due⟩ := onTime passes
    have time : t.clock.Before (t.elapseTo elapsed).clock := ⟨rfl, later⟩
    refine ⟨h.present, ?_, ⟨h.current.free, h.current.used, h.current.noted, ?_⟩, h.served,
      h.apart⟩
    · intro f hf own
      refine (h.heeds f hf own).later (fun c turn => ?_) time
      have waits := rest f hf
      rw [turn] at waits
      cases waits
    · intro e he
      obtain ⟨f, hf, own⟩ := h.present
      obtain ⟨d, set, -, timely⟩ := h.asleep hf own (rest f hf)
      exact (timely.entry he time).1 (due f hf d set)

/-- **Moves** leave the reaper punctual. -/
theorem Punctual.move (h : t.Punctual s reaper) (kept : t.Kept conduct wait ret)
    (agreement : t.shared.Agreement) (uncontended : t.Uncontended reaper)
    (move : Move (Helper s) t u) (onTime : t.OnTime u) :
    u.Punctual s reaper ∧
      (Steps u.clock t.shared u.shared ∨ Reaps s u.clock t.shared u.shared) := by
  obtain ⟨reaping, stepping, did⟩ := h.reaping.move kept h.stepping h.known move
  have known : reaper < u.nextOwner := Nat.lt_of_lt_of_le h.known move.nextOwner_le
  suffices wakeful : u.Wakeful reaper from ⟨⟨wakeful, reaping, stepping, known⟩, did⟩
  cases move with
  | @goOn earlier later f go split isOver =>
    have stretch : t.Stretch f.owner go (t.resume f (earlier ++ later) go) := .of split rfl isOver
    by_cases own : f.owner = reaper
    · exact (h.own kept agreement uncontended (own ▸ stretch)).toWakeful
    · apply h.others own stretch
      cases (h.stepping.stretch kept stretch).2 own with
      | waits did => exact did
      | answers a did => exact did
  | elapse later => exact h.elapse later onTime
  | enter entry =>
    obtain ⟨f, hf, own⟩ := h.present
    refine ⟨⟨f, List.mem_append_left _ hf, own⟩, ?_, h.current, h.served, h.apart⟩
    intro g hg same
    rcases List.mem_append.1 hg with hg | hg
    · exact h.heeds g hg same
    · -- whoever enters is not the reaper
      obtain rfl := List.mem_singleton.1 hg
      exact absurd same (Nat.ne_of_gt h.known)

/-! ## Every history -/

/-- Histories beside a reaper in which nobody is late, and nobody keeps a lock from the reaper. -/
abbrev Smooth (s : CoordinatorSettings) : Traffic Ledger Reply → Traffic Ledger Reply → Prop :=
  Prompt (Helper s) (Uncontended 0)

theorem punctual_attended (start : l₀.Pristine) (used : l₀.inUse = true) :
    (attended s origin l₀).Punctual s 0 := by
  have guarded : (attended s origin l₀).Guarded s l₀.counted := guarded_attended start
  obtain ⟨queue, hand⟩ := List.append_eq_nil_iff.1 start.idle
  refine ⟨⟨⟨_, List.mem_singleton_self _, rfl⟩, ?_, ⟨hand, used, ?_, ?_⟩, ?_, ?_⟩,
    guarded.reaping, guarded.stepping, guarded.known⟩
  · intro f hf _
    obtain rfl := List.mem_singleton.1 hf
    exact ⟨rfl, Reaper.heeds_round _ _⟩
  · intro id r deadline hr held
    exact nomatch (start.resources id r hr).1.symm.trans held.1
  · intro e he
    change e ∈ l₀.expiries.entries at he
    rw [queue] at he
    cases he
  · exact Locks.served_empty
  · exact fun key mode here => nomatch here

/-- **Histories** leave the reaper punctual. -/
theorem Prompt.punctual (h : Smooth s (attended s origin l₀) t) (start : l₀.Pristine)
    (used : l₀.inUse = true) : t.Punctual s 0 := by
  induction h with
  | none => exact punctual_attended start used
  | snoc before move onTime _ ih =>
    have ⟨kept, agreement⟩ := before.moves.beside_reaper.agreement start.toUntouched
    exact (ih.move kept agreement before.here move onTime).1

/-- For a while nobody but the reaper goes on, and no time passes. -/
structure Alone (s : CoordinatorSettings) (t u : Traffic Ledger Reply) : Prop where
  /-- it is a history -/
  smooth : Smooth s t u
  /-- the clock stands still -/
  clock : u.clock = t.clock
  /-- the others stay in flight as they are -/
  others : ∀ f : Flight Ledger Reply, f.owner ≠ 0 → (f ∈ u.flights ↔ f ∈ t.flights)

theorem Alone.trans (h : Alone s t u) (h' : Alone s u v) : Alone s t v :=
  ⟨h.smooth.trans h'.smooth, h'.clock.trans h.clock,
    fun f other => (h'.others f other).trans (h.others f other)⟩

/-- The reaper has to wait, or goes on. -/
theorem Prompt.advance (h : Smooth s (attended s origin l₀) t) (start : l₀.Pristine)
    (used : l₀.inUse = true) (positive : 0 < s.reaperIdle) :
    t.Rests 0 ∨ ∃ u, Alone s t u ∧ (u.Rests 0 ∨ u.Idles s 0 ∧
      (t.Idles s 0 → t.shared.expiries.wake = true ∧ u.shared.expiries.wake = false)) := by
  by_cases rests : t.Rests 0
  · exact .inl rests
  · simp only [Rests, not_forall] at rests
    obtain ⟨f, hf, own, goes⟩ := rests
    obtain ⟨go, ended⟩ := Option.ne_none_iff_exists'.1 goes
    have isOver := Wait.over_of_ended ended
    obtain ⟨earlier, later, split⟩ := List.append_of_mem hf
    have stretch : t.Stretch 0 go (t.resume f (earlier ++ later) go) := .of split own (own ▸ isOver)
    have ⟨kept, agreement⟩ := h.moves.beside_reaper.agreement start.toUntouched
    have advances := (h.punctual start used).own kept agreement h.here stretch
    have smooth : Smooth s t (t.resume f (earlier ++ later) go) :=
      (Prompt.none h.here).snoc stretch.move (.of_clock stretch.clock) advances.uncontended
    refine .inr ⟨_, ⟨smooth, stretch.clock, fun g other => stretch.others other⟩, ?_⟩
    exact advances.comes.imp_right fun ⟨idles, called⟩ => ⟨idles, fun h => called h positive⟩

/-- **The reaper comes to rest**, at every moment and by itself: it clears what is due, it answers
a sign that it was left, and it falls asleep. -/
theorem Prompt.comes_to_rest (h : Smooth s (attended s origin l₀) t) (start : l₀.Pristine)
    (used : l₀.inUse = true) (positive : 0 < s.reaperIdle) : ∃ u, Alone s t u ∧ u.Rests 0 := by
  have stays : Alone s t t := ⟨.none h.here, rfl, fun _ _ => .rfl⟩
  rcases h.advance start used positive with rests | ⟨u, first, rests | ⟨idles, -⟩⟩
  · exact ⟨t, stays, rests⟩
  · exact ⟨u, first, rests⟩
  rcases (h.trans first.smooth).advance start used positive with
    rests | ⟨v, second, rests | ⟨idles', called⟩⟩
  · exact ⟨u, first, rests⟩
  · exact ⟨v, first.trans second, rests⟩
  have both := first.trans second
  rcases (h.trans both.smooth).advance start used positive with
    rests | ⟨w, third, rests | ⟨-, called'⟩⟩
  · exact ⟨v, both, rests⟩
  · exact ⟨w, both.trans third, rests⟩
  · -- there is no sign any more
    have calm := (called idles).2
    rw [(called' idles').1] at calm
    cases calm

/-! ## How holds end -/

/-- A hold is never kept beyond its deadline. -/
theorem Punctual.le_deadline (h : t.Punctual s reaper) {id : Id} {c : Claim} {deadline : Int}
    (held : t.shared.HeldUnder id c) (hd : c.deadline = some deadline) :
    t.clock.stamp ≤ deadline := by
  obtain ⟨r, hr, reserved, hc⟩ := held
  exact (h.current.le_deadline hr (Resource.heldUntil_of_claim reserved hc hd)).2

/-- **While the reaper has to wait** no hold has come to its deadline. -/
theorem Punctual.lt_deadline (h : t.Punctual s reaper) (rests : t.Rests reaper) {id : Id}
    {r : Resource} {deadline : Int} (hr : t.shared.resources.get? id = some r)
    (held : r.HeldUntil deadline) : t.clock.stamp < deadline := by
  obtain ⟨f, hf, own⟩ := h.present
  obtain ⟨d, -, early, timely⟩ := h.asleep hf own (rests f hf own)
  obtain ⟨queued, -⟩ := h.current.le_deadline hr held
  refine Int.not_le.1 fun come => ?_
  have late : d ≤ t.clock.elapsed := (timely.entry queued (.refl _)).2 come
  omega

/-- In one move a hold ends: it lapses, at exactly its deadline, or it is closed before that. -/
structure Ends (id : Id) (c : Claim) (deadline : Int) (t u : Traffic Ledger Reply) : Prop where
  /-- it is there before the move -/
  held : t.shared.HeldUnder id c
  /-- it is not after it -/
  gone : ¬u.shared.HeldUnder id c
  /-- it has lapsed, or was closed -/
  how : (u.clock.stamp = deadline ∧ Lapses id c t.shared u.shared) ∨
    (u.clock.stamp < deadline ∧ Closes id t.shared u.shared)

/-- **Each move** leaves a hold as it is, or ends it in time. -/
theorem Punctual.ends (h : t.Punctual s reaper) (kept : t.Kept conduct wait ret)
    (agreement : t.shared.Agreement) (uncontended : t.Uncontended reaper)
    (move : Move (Helper s) t u) (onTime : t.OnTime u) (steady : u.clock.Steady) {id : Id}
    {c : Claim} {deadline : Int} (held : t.shared.HeldUnder id c)
    (hd : c.deadline = some deadline) :
    u.shared.HeldUnder id c ∨ Ends id c deadline t u := by
  by_cases lasts : u.shared.HeldUnder id c
  · exact .inl lasts
  -- the state has changed, so no time has passed
  have clock : u.clock = t.clock := by
    cases move with
    | goOn split isOver => exact clock_resume ..
    | elapse later => exact absurd held lasts
    | enter entry => rfl
  have late : u.clock.stamp ≤ deadline := clock ▸ h.le_deadline held hd
  have fate : Fate u.clock id c deadline t.shared u.shared := by
    rcases (h.move kept agreement uncontended move onTime).2 with steps | reaps
    · exact steps.fate steady agreement kept.inv held hd
    · exact reaps.fate held hd
  refine .inr ⟨held, lasts, ?_⟩
  cases fate with
  | lasts held => exact absurd held lasts
  | lapses come lapses => exact .inl ⟨Int.le_antisymm late come, lapses⟩
  | closes early closes => exact .inr ⟨early, closes⟩

/-- **Along every history** a hold lasts, or ends in time in one of the moves. -/
theorem Prompt.ends (before : Smooth s (attended s origin l₀) t) (start : l₀.Pristine)
    (used : l₀.inUse = true) (h : Smooth s t v) (steady : v.clock.Steady) {id : Id} {c : Claim}
    {deadline : Int} (held : t.shared.HeldUnder id c) (hd : c.deadline = some deadline) :
    v.shared.HeldUnder id c ∨ ∃ a b, Smooth s t a ∧ Move (Helper s) a b ∧ a.OnTime b ∧
      Smooth s b v ∧ Ends id c deadline a b := by
  induction h with
  | none => exact .inl held
  | @snoc u v between move onTime here ih =>
    rcases ih (steady.before move.before) with lasts | ⟨a, b, first, ending, passes, last, ends⟩
    · have here' := before.trans between
      have ⟨kept, agreement⟩ := here'.moves.beside_reaper.agreement start.toUntouched
      refine ((here'.punctual start used).ends kept agreement here'.here move onTime steady lasts
        hd).imp_right fun ends => ?_
      exact ⟨u, v, between, move, onTime, .none here, ends⟩
    · exact .inr ⟨a, b, first, ending, passes, last.snoc move onTime here, ends⟩

/-- **The reaper never oversleeps.** Whatever comes into the queue, and whenever it does, a reaper
that sleeps without a sign has a timer that is set in time.

So on a clock that shows nothing but the time spent waiting, where nobody has a lock of which the
reaper is in need at that time, no hold is kept beyond its deadline. Once the reaper has to wait,
which it comes to by itself, none is left whose deadline has come. And a hold that is there at
one time and whose deadline has come at another has lapsed at exactly its deadline, or was closed
before it, unless the wall clock has gone backwards. -/
theorem reaper_never_oversleeps (s : CoordinatorSettings) :
    (∀ owner m l v due sign k,
      Relation.ReflTransGen (Vigil.Next s owner) ⟨m, l, .turn (Reaper.round s)⟩ v →
      v.wait = .pause due sign k → v.ledger.expiries.wake = false →
      v.ledger.expiries.Timely v.clock due) ∧
    ∀ origin l₀, l₀.Pristine → l₀.inUse = true →
      ∀ t, Smooth s (attended s origin l₀) t →
        (0 < s.reaperIdle → ∃ u, Alone s t u ∧ u.Rests 0) ∧
        (t.Rests 0 → ∀ id r, t.shared.resources.get? id = some r → r.status = .reserved →
          ∃ deadline, r.claim.bind Claim.deadline = some deadline ∧ t.clock.stamp < deadline) ∧
        ∀ id c deadline, t.shared.HeldUnder id c → c.deadline = some deadline →
          t.clock.stamp ≤ deadline ∧
          ∀ v, Smooth s t v → v.clock.Steady → v.Rests 0 → deadline ≤ v.clock.stamp →
            ∃ a b, Smooth s t a ∧ Move (Helper s) a b ∧ a.OnTime b ∧ Smooth s b v ∧
              Ends id c deadline a b := by
  refine ⟨fun owner m l v due sign k h asleep calm => Vigil.timely_of_asleep h asleep calm, ?_⟩
  intro origin l₀ start used t h
  have punctual := h.punctual start used
  refine ⟨h.comes_to_rest start used, fun rests id r hr reserved => ?_,
    fun id c deadline held hd => ⟨punctual.le_deadline held hd, ?_⟩⟩
  · have ⟨_, agreement⟩ := h.moves.beside_reaper.agreement start.toUntouched
    obtain ⟨c, deadline, hc, hd, -⟩ := (agreement.resources id r hr).reserved reserved
    have held := Resource.heldUntil_of_claim reserved hc hd
    exact ⟨deadline, held.2, punctual.lt_deadline rests hr held⟩
  · intro v after steady rests come
    apply (h.ends start used after steady held hd).resolve_left
    rintro ⟨r, hr, reserved, hc⟩
    have early := ((h.trans after).punctual start used).lt_deadline rests hr
      (Resource.heldUntil_of_claim reserved hc hd)
    omega

/-- Half a second before the epoch Bob is granted a hold for a second. -/
def bobHoldsEarly : Traffic Ledger Reply :=
  ((attended .standard (-500) Ledger.hallOfTwo).enter (Request.bobReserves.errand .standard)).settle
    8

/-- When the wall clock shows a second nobody has confirmed it. -/
def bobLapsedEarly : Traffic Ledger Reply := bobHoldsEarly.run (fun _ => false) (some 1500) 8

/-- So it is when a deadline is entered after the reaper has looked at the queue and before it
falls asleep, and when Bob lets his hold lapse. The reaper wakes up after a second, when the wall
clock shows half a second only, and sleeps for another half. -/
theorem reaper_never_oversleeps_bob :
    (∃ v due sign k, Relation.ReflTransGen (Vigil.Next .standard 0)
        ⟨⟨-500, 0⟩, Ledger.hallOfTwo, .turn (Reaper.round .standard)⟩ v ∧
      v.wait = .pause due sign k ∧ v.ledger.expiries.wake = false ∧
      v.ledger.expiries.nextDeadline = some 1000 ∧ v.ledger.expiries.Timely v.clock due) ∧
    Ledger.hallOfTwo.Pristine ∧ Ledger.hallOfTwo.inUse = true ∧
    0 < CoordinatorSettings.standard.reaperIdle ∧
    Smooth .standard (attended .standard (-500) Ledger.hallOfTwo) bobHoldsEarly ∧
    (∃ u, Alone .standard bobHoldsEarly u ∧ u.Rests 0) ∧ bobHoldsEarly.Rests 0 ∧
    (∀ id r, bobHoldsEarly.shared.resources.get? id = some r → r.status = .reserved →
      ∃ deadline, r.claim.bind Claim.deadline = some deadline ∧
        bobHoldsEarly.clock.stamp < deadline) ∧
    Smooth .standard bobHoldsEarly bobLapsedEarly ∧ bobLapsedEarly.clock.Steady ∧
    bobLapsedEarly.Rests 0 ∧ 1000 ≤ bobLapsedEarly.clock.stamp ∧
    ∃ c, bobHoldsEarly.shared.HeldUnder ⟨0, 1⟩ c ∧ c.deadline = some 1000 ∧
      bobHoldsEarly.clock.stamp ≤ 1000 ∧
      ∃ a b, Smooth .standard bobHoldsEarly a ∧ Move (Helper .standard) a b ∧ a.OnTime b ∧
        Smooth .standard b bobLapsedEarly ∧ Ends ⟨0, 1⟩ c 1000 a b := by
  have ⟨timely, beside⟩ := reaper_never_oversleeps .standard
  obtain ⟨v, due, sign, k, run, asleep, calm, next⟩ : ∃ v due sign k,
      Relation.ReflTransGen (Vigil.Next .standard 0)
        ⟨⟨-500, 0⟩, Ledger.hallOfTwo, .turn (Reaper.round .standard)⟩ v ∧
      v.wait = .pause due sign k ∧ v.ledger.expiries.wake = false ∧
      v.ledger.expiries.nextDeadline = some 1000 := by
    have looks : Relation.ReflTransGen (Vigil.Next .standard 0)
        ⟨⟨-500, 0⟩, Ledger.hallOfTwo, .turn (Reaper.round .standard)⟩ _ :=
      .tail .refl (.part Locks.empty 2 (.turn _) rfl)
    have hears := looks.tail
      (.schedule (l := Ledger.hallOfTwo.schedule ⟨1000, ⟨0, 1⟩, 1⟩) ⟨1000, ⟨0, 1⟩, 1⟩ rfl)
    exact ⟨_, _, _, _, (hears.tail (.returns Locks.empty (.turn _) rfl rfl)).tail
      (.waits Locks.empty (.turn _) rfl), rfl, rfl, rfl⟩
  have start : Ledger.hallOfTwo.Pristine := ⟨Ledger.untouched_hallOfTwo, rfl, fun _ => rfl⟩
  have positive : 0 < CoordinatorSettings.standard.reaperIdle := by decide
  have enters : Smooth .standard (attended .standard (-500) Ledger.hallOfTwo)
      ((attended .standard (-500) Ledger.hallOfTwo).enter
        (Request.bobReserves.errand .standard)) :=
    (Prompt.none (by decide +kernel)).snoc (.enter (Client.once .standard .bobReserves).helper)
      (.of_clock rfl) (by decide +kernel)
  have first : Smooth .standard (attended .standard (-500) Ledger.hallOfTwo) bobHoldsEarly :=
    enters.trans (run_prompt _ _ _ (by decide +kernel))
  have waits : Smooth .standard bobHoldsEarly bobLapsedEarly :=
    run_prompt _ _ _ (by decide +kernel)
  have steady : bobLapsedEarly.clock.Steady := Moment.steady_of_le (by decide +kernel)
  have early : bobHoldsEarly.Rests 0 := by decide +kernel
  have rests : bobLapsedEarly.Rests 0 := by decide +kernel
  have come : 1000 ≤ bobLapsedEarly.clock.stamp := by decide +kernel
  have held : (bobHoldsEarly.shared.resources.get? ⟨0, 1⟩).map
      (fun r => (r.status, r.claim.bind Claim.deadline)) = some (.reserved, some 1000) := by
    decide +kernel
  obtain ⟨r, hr, e⟩ := Option.map_eq_some_iff.1 held
  obtain ⟨reserved, held'⟩ := Prod.mk.inj e
  obtain ⟨c, hc, hd⟩ := Option.bind_eq_some_iff.1 held'
  obtain ⟨settles, overdue, ends⟩ := beside (-500) _ start rfl bobHoldsEarly first
  have under : bobHoldsEarly.shared.HeldUnder ⟨0, 1⟩ c := ⟨r, hr, reserved, hc⟩
  obtain ⟨le, ending⟩ := ends ⟨0, 1⟩ c 1000 under hd
  exact ⟨⟨v, due, sign, k, run, asleep, calm, next, timely 0 _ _ v due sign k run asleep calm⟩,
    start, rfl, positive, first, settles positive, early, overdue early, waits, steady, rests, come,
    c, under, hd, le, ending bobLapsedEarly waits steady rests come⟩

end Traffic

end Tenure
