import Tenure.Traffic.Moves
import Tenure.Proofs.Conduct

/-!
# Histories under a conduct

If every party that enters makes calls that meet a conduct, then along every history
everybody keeps to it (`Traffic.Kept`), and each single move does one of three things
(`Traffic.Effect`): nothing to the shared state, what `wait` allows, or what `ret` says of
the answer that comes back in this very move (`Traffic.Move.effect`).

So whatever is to be shown of histories is shown of the three kinds of moves.
-/

namespace Tenure

variable {σ α : Type} (C : Conduct σ) (wait : Moment → σ → σ → Prop)
  (ret : Moment → σ → σ → α → Prop)

/-- A call that keeps to the rules from any state that satisfies the invariant. -/
def Call.Keeps (c : Call σ α) : Prop := ∀ m s, C.inv s → c.Meets C wait (fun _ => ret) [] m s s

/-- A party whose calls all keep to the rules. -/
structure KeepsTo (call : Call σ α) (again : α → Option (Call σ α)) : Prop where
  /-- its first call does -/
  first : call.Keeps C wait ret
  /-- so does whatever it goes on with -/
  next : ∀ a c, again a = some c → c.Keeps C wait ret

/-- A party in flight that keeps to the rules, among these locks, at this moment. -/
structure Flight.Kept (f : Flight σ α) (m : Moment) (s : σ) (ls : Locks) : Prop where
  /-- its call does -/
  waits : ∃ held, ls.Grants f.owner held ∧ f.wait.Meets C wait (fun _ => ret) held m s
  /-- so does whatever it goes on with -/
  next : ∀ a c, f.again a = some c → c.Keeps C wait ret

namespace Traffic

/-- Everybody keeps to the rules. -/
structure Kept (t : Traffic σ α) : Prop where
  /-- the invariant holds -/
  inv : C.inv t.shared
  /-- exclusive holders are alone -/
  proper : t.locks.Proper
  /-- nobody is in flight twice -/
  owners : (t.flights.map Flight.owner).Nodup
  /-- whoever enters next is somebody else -/
  known : ∀ f ∈ t.flights, f.owner < t.nextOwner
  /-- every party in flight does -/
  flights : ∀ f ∈ t.flights, f.Kept C wait ret t.clock t.shared t.locks

/-- What one move may do. -/
inductive Effect (t u : Traffic σ α) : Prop where
  /-- nothing to the shared state -/
  | still (time : t.clock.Before u.clock) (shared : u.shared = t.shared)
      (returned : u.returned = t.returned)
  /-- a call goes on and has to wait again -/
  | waits (clock : u.clock = t.clock) (did : wait t.clock t.shared u.shared)
      (returned : u.returned = t.returned)
  /-- a call comes back with its answer -/
  | answers (owner : Owner) (a : α) (clock : u.clock = t.clock)
      (did : ret t.clock t.shared u.shared a)
      (returned : u.returned = ⟨owner, a, t.clock.elapsed⟩ :: t.returned)

variable {C wait ret} {t u : Traffic σ α}

theorem Effect.before (h : Effect wait ret t u) : t.clock.Before u.clock := by
  cases h with
  | still time => exact time
  | waits clock => exact clock ▸ .refl _
  | answers owner a clock => exact clock ▸ .refl _

theorem kept_start {origin : Int} {s : σ} (h : C.inv s) :
    (start origin s : Traffic σ α).Kept C wait ret :=
  ⟨h, Locks.proper_empty, List.nodup_nil, fun _ hf => absurd hf List.not_mem_nil,
    fun _ hf => absurd hf List.not_mem_nil⟩

end Traffic

/-- What a call goes on with when its wait is over. -/
structure GoesOn (C : Conduct σ) (wait : Moment → σ → σ → Prop)
    (ret : Moment → σ → σ → α → Prop) (owner : Owner) (m : Moment) (s : σ) (ls : Locks)
    (go : Call σ α × σ × Locks) : Prop where
  /-- it keeps to the rules -/
  meets : ∃ held, go.2.2.Grants owner held ∧ go.1.Meets C wait (fun _ => ret) held m s go.2.1
  /-- the invariant holds -/
  inv : C.inv go.2.1
  /-- exclusive holders are alone -/
  proper : go.2.2.Proper
  /-- the others see nothing that they do not reckon with -/
  others : Undisturbed C owner s ls go.2.1 go.2.2

variable {C wait ret} {t u : Traffic σ α} {owner : Owner} {m : Moment} {s : σ} {ls : Locks}
  {held : List Key}

theorem Wait.Meets.isOver {w : Wait σ α} {go : Call σ α × σ × Locks}
    (h : w.Meets C wait (fun _ => ret) held m s) (inv : C.inv s) (proper : ls.Proper)
    (grants : ls.Grants owner held) (isOver : w.Over owner m s ls go) :
    GoesOn C wait ret owner m s ls go := by
  have h := h m s (.refl m) (C.rely_refl held s) inv
  cases isOver with
  | turn c => exact ⟨⟨held, grants, h⟩, inv, proper, .refl⟩
  | granted patience k has => exact ⟨⟨_, grants.gained has, h.1⟩, inv, proper, .refl⟩
  | gaveUp k not passed =>
    exact ⟨⟨held, grants.withdraw owner _, h.2 (isSome_of_reached passed)⟩, inv,
      proper.withdraw owner _, .ofLocks fun other held _ hg => hg.withdraw owner _⟩
  | come sign k passed => exact ⟨⟨held, grants, h.1⟩, inv, proper, .refl⟩
  | signed k found =>
    obtain ⟨permitted, onward⟩ := h.2 _ found
    exact ⟨⟨held, grants, onward⟩, permitted.1, proper, .ofPermits proper grants permitted⟩

/-- A stretch of a call that keeps to the rules leaves things as promised. -/
theorem Wait.Meets.leaves {w : Wait σ α} {go : Call σ α × σ × Locks}
    (h : w.Meets C wait (fun _ => ret) held m s) (inv : C.inv s) (proper : ls.Proper)
    (grants : ls.Grants owner held) (isOver : w.Over owner m s ls go) :
    Leaves C wait (fun _ => ret) owner m s s ls (go.1.run owner m go.2.1 go.2.2) := by
  have on := h.isOver inv proper grants isOver
  obtain ⟨held', grants', meets'⟩ := on.meets
  exact (meets'.run on.inv on.proper grants').after on.others

/-- So does a stretch of a party that does. -/
theorem Flight.Kept.leaves {f : Flight σ α} {go : Call σ α × σ × Locks}
    (h : f.Kept C wait ret m s ls) (inv : C.inv s) (proper : ls.Proper)
    (isOver : f.wait.Over f.owner m s ls go) :
    Leaves C wait (fun _ => ret) f.owner m s s ls (go.1.run f.owner m go.2.1 go.2.2) := by
  obtain ⟨⟨held, grants, meets⟩, -⟩ := h
  exact meets.leaves inv proper grants isOver

/-- After its stretch the party still keeps to the rules, wherever it is in flight. -/
theorem Flight.Kept.after {f g : Flight σ α} {s' : σ} {ls' : Locks} {r : Stop σ α × σ × Locks}
    (h : f.Kept C wait ret m s ls)
    (leaves : Leaves C wait (fun _ => ret) f.owner m s s' ls' r) (mem : g ∈ f.after r.1) :
    g.Kept C wait ret m r.2.1 r.2.2 := by
  obtain ⟨stop, s', ls'⟩ := r
  cases stop with
  | waiting w =>
    obtain rfl := List.mem_singleton.1 mem
    exact ⟨leaves.ends.2, h.next⟩
  | returned a =>
    -- it goes straight on to another call
    obtain ⟨c, hc, rfl⟩ := List.mem_map.1 mem
    have keeps := h.next a c (Option.mem_toList.1 hc)
    exact ⟨⟨[], Locks.grants_nil, fun m' s' _ _ hi => keeps m' s' hi⟩, h.next⟩

/-- Whoever waits while somebody else goes on keeps to the rules. -/
theorem Flight.Kept.later {f : Flight σ α} {s' : σ} {ls' : Locks}
    (h : f.Kept C wait ret m s ls) (ne : f.owner ≠ owner)
    (others : Undisturbed C owner s ls s' ls') : f.Kept C wait ret m s' ls' := by
  obtain ⟨⟨held, grants, meets⟩, next⟩ := h
  obtain ⟨grants', rely⟩ := others f.owner held ne grants
  exact ⟨⟨held, grants', meets.later (.refl m) rely⟩, next⟩

namespace Traffic

/-- While one party goes on the others keep to the rules. -/
theorem Kept.others {f : Flight σ α} {rest : List (Flight σ α)} {s' : σ} {ls' : Locks}
    (h : t.Kept C wait ret) (perm : t.flights.Perm (f :: rest))
    (others : Undisturbed C f.owner t.shared t.locks s' ls') :
    ∀ g ∈ rest, g.Kept C wait ret t.clock s' ls' := fun g hg =>
  (h.flights g (perm.mem_iff.2 (List.mem_cons_of_mem _ hg))).later (owner_ne_of_perm perm h.owners hg)
    others

/-- **Going on.** Where a party goes on that keeps to the rules everybody keeps to them,
and its stretch ends as promised. -/
theorem Kept.goOn {earlier later : List (Flight σ α)} {f : Flight σ α}
    {go : Call σ α × σ × Locks} (h : t.Kept C wait ret) (split : t.flights = earlier ++ f :: later)
    (isOver : f.wait.Over f.owner t.clock t.shared t.locks go) :
    (t.resume f (earlier ++ later) go).Kept C wait ret ∧
      Effect wait ret t (t.resume f (earlier ++ later) go) := by
  have perm := perm_of_split split
  have kept := h.flights f (perm.mem_iff.2 List.mem_cons_self)
  have leaves := kept.leaves h.inv h.proper isOver
  have clock := clock_resume t f (earlier ++ later) go
  have shared := shared_resume t f (earlier ++ later) go
  have locks := locks_resume t f (earlier ++ later) go
  constructor
  · refine ⟨shared ▸ leaves.inv, locks ▸ leaves.proper, nodup_resume perm h.owners,
      owner_lt_resume perm h.known, fun g hg => ?_⟩
    rw [clock, shared, locks]
    rcases mem_resume.1 hg with own | other
    · exact kept.after leaves own
    · exact h.others perm leaves.others g other
  · have ends := leaves.ends
    have returned := returned_resume t f (earlier ++ later) go
    cases ran : (go.1.run f.owner t.clock go.2.1 go.2.2).1 with
    | waiting w =>
      simp only [ran] at ends returned
      exact .waits clock (shared ▸ ends.1) returned
    | returned a =>
      simp only [ran] at ends returned
      obtain ⟨-, did⟩ := ends
      exact .answers f.owner a clock (shared ▸ did) returned

variable {Entry : Call σ α → (α → Option (Call σ α)) → Prop}

/-- **Moves.** If whoever enters keeps to the rules, then after a move everybody does, and
the move did one of three things. -/
theorem Move.effect (entry : ∀ {call again}, Entry call again → KeepsTo C wait ret call again)
    (move : Move Entry t u) (h : t.Kept C wait ret) : u.Kept C wait ret ∧ Effect wait ret t u := by
  cases move with
  | goOn split isOver => exact h.goOn split isOver
  | @elapse elapsed later =>
    have time : t.clock.Before { t.clock with elapsed := elapsed } := ⟨rfl, later⟩
    refine ⟨⟨h.inv, h.proper, h.owners, h.known, fun f hf => ?_⟩, .still time rfl rfl⟩
    obtain ⟨⟨held, grants, meets⟩, next⟩ := h.flights f hf
    exact ⟨⟨held, grants, meets.later time (C.rely_refl held t.shared)⟩, next⟩
  | @enter call again he =>
    have keeps := entry he
    refine ⟨⟨h.inv, h.proper, nodup_enterAgain call again h.known h.owners,
      owner_lt_enterAgain call again h.known, fun f hf => ?_⟩, .still (.refl _) rfl rfl⟩
    rcases List.mem_append.1 hf with hf | hf
    · exact h.flights f hf
    · obtain rfl := List.mem_singleton.1 hf
      exact ⟨⟨[], Locks.grants_nil, fun m' s' _ _ hi => keeps.first m' s' hi⟩, keeps.next⟩

/-- **Histories.** What every kind of move keeps holds along every history. -/
theorem Moves.kept {P : Traffic σ α → Prop}
    (entry : ∀ {call again}, Entry call again → KeepsTo C wait ret call again)
    (step : ∀ {t u : Traffic σ α}, t.Kept C wait ret → Effect wait ret t u → P t → P u)
    (h : Moves Entry t u) (kept : t.Kept C wait ret) (start : P t) : u.Kept C wait ret ∧ P u :=
  h.invariant (P := fun t => t.Kept C wait ret ∧ P t)
    (fun move ⟨kept, hP⟩ =>
      have ⟨kept', effect⟩ := move.effect entry kept
      ⟨kept', step kept effect hP⟩)
    ⟨kept, start⟩

end Traffic

end Tenure
