import Tenure.Proofs.Deadlines.Basic
import Tenure.Proofs.Deadlines.Rest

/-!
# Parties with a deadline

A party enters whose call hastens, among others that keep to the rules of some conduct. At any
time later, as long as nobody is late (`Traffic.Prompt`), either it has still to begin, and then no
time has passed, or it waits for one of its locks, and the deadline has not passed, or it has got
its answer (`Traffic.Bound`). Every stretch of it is as `Flight.Timely` says, and a run comes to
its answer if no party goes on to another call (`Traffic.Prompt.answered`).
-/

namespace Tenure

variable {σ α : Type} {C : Conduct σ} {wait : Moment → σ → σ → Prop}
  {ret : Moment → σ → σ → α → Prop}

/-! ## Traffic under a conduct -/

namespace Traffic

variable {t u : Traffic σ α} {owner : Owner} {go : Call σ α × σ × Locks}
  {Entry : Call σ α → (α → Option (Call σ α)) → Prop}

/-- Everybody keeps to the rules, and whoever enters next is new. -/
structure Sound (C : Conduct σ) (wait : Moment → σ → σ → Prop) (ret : Moment → σ → σ → α → Prop)
    (t : Traffic σ α) : Prop where
  /-- everybody keeps to the rules -/
  kept : t.Kept C wait ret
  /-- nobody waits for a lock that nobody has -/
  served : t.locks.Served
  /-- whoever enters next is in no row yet -/
  rows : ∀ owner key mode, (owner, mode) ∈ (t.locks.get key).row → owner < t.nextOwner
  /-- and has no answer yet -/
  returned : ∀ x ∈ t.returned, x.owner < t.nextOwner

theorem sound_start {origin : Int} {s : σ} (h : C.inv s) :
    Sound C wait ret (start origin s : Traffic σ α) :=
  ⟨kept_start h, Locks.served_empty, fun _ _ _ h => absurd h List.not_mem_nil,
    fun _ h => absurd h List.not_mem_nil⟩

/-- A party is in flight once. -/
theorem Sound.flight_eq (h : t.Sound C wait ret) {f g : Flight σ α} (hf : f ∈ t.flights)
    (hg : g ∈ t.flights) (same : f.owner = g.owner) : f = g :=
  List.inj_on_of_nodup_map h.kept.owners hf hg same

theorem Sound.stretch (h : t.Sound C wait ret) (stretch : t.Stretch owner go u)
    (kept : u.Kept C wait ret) : u.Sound C wait ret := by
  obtain ⟨f, hf, rfl, isOver⟩ := stretch.flight
  have known := h.kept.known f hf
  refine ⟨kept, ?_, fun o key mode here => ?_, fun x hx => ?_⟩
  · rw [stretch.locks]
    exact h.served.stretch isOver
  · rw [stretch.nextOwner]
    rw [stretch.locks] at here
    by_cases own : o = f.owner
    · exact own ▸ known
    · exact h.rows o key mode ((Locks.spares_stretch isOver).row o key mode own here)
  · rw [stretch.nextOwner]
    rw [stretch.returned] at hx
    split at hx
    · rcases List.mem_cons.1 hx with rfl | hx
      · exact known
      · exact h.returned x hx
    · exact h.returned x hx

theorem Move.sound (entry : ∀ {call again}, Entry call again → KeepsTo C wait ret call again)
    (move : Move Entry t u) (h : t.Sound C wait ret) : u.Sound C wait ret := by
  have kept := (move.effect entry h.kept).1
  cases move with
  | goOn split isOver => exact h.stretch (.of split rfl isOver) kept
  | elapse later => exact ⟨kept, h.served, h.rows, h.returned⟩
  | enter entry =>
    exact ⟨kept, h.served, fun o key mode here => Nat.lt_succ_of_lt (h.rows o key mode here),
      fun x hx => Nat.lt_succ_of_lt (h.returned x hx)⟩

end Traffic

/-! ## A call that hastens -/

/-- The name of what a lock guards. -/
def Key.id : Key → Id
  | resource id => id
  | group id => id

/-- The answer names the lock that was missed, if one was. -/
def Stage.Named (late? : α → Option Id) (stage : Stage) (_ : Moment) (_ : σ) (a : α) : Prop :=
  late? a = stage.missed.map Key.id

/-- A call that is made at a certain time hastens. Which locks it wants may depend on what it finds
then, and is not changed by others. -/
structure Call.BoundBy (c : Call σ α) (C : Conduct σ) (Wanted : List Key → σ → Prop)
    (time due : Nat) (late? : α → Option Id) : Prop where
  /-- the deadline has not passed at that time -/
  soon : time ≤ due
  /-- the call hastens -/
  hastens : ∀ m s, C.inv s → m.elapsed = time →
    ∃ wants, Wanted wants s ∧ c.Hastens due wants (Stage.Named late?) (.taking []) m s
  /-- what is wanted stays so -/
  stays : ∀ wants s s', Wanted wants s → C.rely [] s s' → Wanted wants s'

/-- What comes of the locks that a party asks for, from when it goes on until it waits again or is
answered. -/
def Flight.attempts (f : Flight σ α) (t : Traffic σ α) (go : Call σ α × σ × Locks) : List Attempt :=
  f.wait.attempts f.owner t.locks ++ go.1.attempts f.owner t.clock go.2.1 go.2.2

/-- What is to be said of a stretch of a party that wants some locks until `due`; `late?` is the
lock that an answer names as missed. -/
structure Flight.Timely (late? : α → Option Id) (due : Nat) (wants : List Key) (f : Flight σ α)
    (t : Traffic σ α) (go : Call σ α × σ × Locks) : Prop where
  /-- what is to be said of each attempt -/
  fair : ∀ x ∈ f.attempts t go, x.Fair due wants f.owner t.clock
  /-- at the deadline the party is answered -/
  last : t.clock.elapsed = due → ∃ a, (go.1.run f.owner t.clock go.2.1 go.2.2).1 = .returned a
  /-- an answer names what was missed -/
  names : ∀ a, (go.1.run f.owner t.clock go.2.1 go.2.2).1 = .returned a →
    ∀ id, late? a = some id ↔ ∃ x ∈ f.attempts t go, x.got = false ∧ x.key.id = id

/-- An answer is there by the deadline, and names a lock as missed at the deadline only. -/
def Return.InTime (late? : α → Option Id) (due : Nat) (x : Return α) : Prop :=
  x.time ≤ due ∧ ((late? x.answer).isSome = true → x.time = due)

variable {due : Nat} {wants : List Key} {Wanted : List Key → σ → Prop} {late? : α → Option Id}

/-- A stretch that hastens is timely. -/
theorem Hastened.timely {f : Flight σ α} {t : Traffic σ α} {go : Call σ α × σ × Locks}
    (h : Hastened due wants (Stage.Named late?) f.owner t.clock (.taking [])
      (go.1.run f.owner t.clock go.2.1 go.2.2) (f.attempts t go)) :
    f.Timely late? due wants t go := by
  refine ⟨h.fair, fun last => ?_, fun a answered id => ?_⟩
  · have ends := h.ends
    split at ends
    · next a answered => exact ⟨a, answered⟩
    · exact absurd last (Nat.ne_of_lt ends.1)
  · have ends := h.ends
    rw [answered] at ends
    obtain ⟨stage, misses, named⟩ := ends
    rw [named, Option.map_eq_some_iff]
    constructor
    · rintro ⟨key, missed, rfl⟩
      rcases (misses key).1 missed with e | ⟨x, hx, lost, rfl⟩
      · cases e
      · exact ⟨x, hx, lost, rfl⟩
    · rintro ⟨x, hx, lost, rfl⟩
      exact ⟨x.key, (misses x.key).2 (.inr ⟨x, hx, lost, rfl⟩), rfl⟩

/-- A stretch of somebody else does not concern a party that waits. -/
theorem Wait.Hastens.stretch {ret : Stage → Moment → σ → α → Prop} {owner other : Owner}
    {w w' : Wait σ α} {ls : Locks} {m : Moment} {s : σ} {go : Call σ α × σ × Locks}
    (h : w.Hastens due wants ret owner ls) (ne : owner ≠ other)
    (isOver : w'.Over other m s ls go) :
    w.Hastens due wants ret owner (go.1.run other m go.2.1 go.2.2).2.2 := by
  cases h with
  | lock next has on => exact .lock next (has.stretch ne isOver) on

/-! ## The party that makes it -/

namespace Traffic

/-- How far the party has come that has entered at `t₀` with the call `c`. -/
inductive Bound (t₀ : Traffic σ α) (c : Call σ α) (due : Nat) (Wanted : List Key → σ → Prop)
    (late? : α → Option Id) (t : Traffic σ α) : Prop where
  /-- it has not begun -/
  | entered (here : ⟨t₀.nextOwner, .turn c, fun _ => none⟩ ∈ t.flights)
    (new : ∀ key mode, (t₀.nextOwner, mode) ∉ (t.locks.get key).row)
    (clock : t.clock.elapsed = t₀.clock.elapsed)
  /-- it waits for a lock -/
  | waits {wants : List Key} {w : Wait σ α} (wanted : Wanted wants t.shared)
    (here : ⟨t₀.nextOwner, w, fun _ => none⟩ ∈ t.flights)
    (hastens : w.Hastens due wants (Stage.Named late?) t₀.nextOwner t.locks)
    (soon : t.clock.elapsed ≤ due)
  /-- it is answered -/
  | answered (gone : ∀ f ∈ t.flights, f.owner ≠ t₀.nextOwner)
    (told : ∃ x ∈ t.returned, x.owner = t₀.nextOwner)

variable {Entry : Call σ α → (α → Option (Call σ α)) → Prop} {P : Traffic σ α → Prop}
  {t₀ t u : Traffic σ α} {c : Call σ α} {go : Call σ α × σ × Locks} {f : Flight σ α}

/-- While the party is in flight the deadline has not passed. -/
theorem Bound.soon (h : Bound t₀ c due Wanted late? t) (soon : t₀.clock.elapsed ≤ due)
    (hf : f ∈ t.flights) (own : f.owner = t₀.nextOwner) : t.clock.elapsed ≤ due := by
  cases h with
  | entered here new clock => exact clock ▸ soon
  | waits wanted here hastens soon => exact soon
  | answered gone => exact absurd own (gone f hf)

/-- The party is in flight, or it has its answer. -/
theorem Bound.there (h : Bound t₀ c due Wanted late? t) :
    (∃ f ∈ t.flights, f.owner = t₀.nextOwner) ∨ ∃ x ∈ t.returned, x.owner = t₀.nextOwner := by
  cases h with
  | entered here new clock => exact .inl ⟨_, here, rfl⟩
  | waits wanted here hastens soon => exact .inl ⟨_, here, rfl⟩
  | answered gone told => exact .inr told

/-- At the deadline the party need not wait. -/
theorem Bound.goesOn (h : Bound t₀ c due Wanted late? t) (sound : t.Sound C wait ret)
    (hf : f ∈ t.flights) (own : f.owner = t₀.nextOwner) (last : t.clock.elapsed = due) :
    ∃ go, f.wait.Over f.owner t.clock t.shared t.locks go := by
  cases ended : f.wait.ended false f.owner t.clock t.shared t.locks with
  | some go => exact ⟨go, Wait.over_of_ended ended⟩
  | none =>
    cases h with
    | entered here new clock =>
      obtain rfl := sound.flight_eq hf here own
      cases ended
    | waits wanted here hastens soon =>
      obtain rfl := sound.flight_eq hf here own
      cases hastens with
      | lock next has on =>
        exact absurd last (Nat.ne_of_lt (elapsed_lt_of_ended_eq_none ended rfl))
    | answered gone => exact absurd own (gone f hf)

/-- It makes a single call. -/
theorem Bound.again (h : Bound t₀ c due Wanted late? t) (sound : t.Sound C wait ret)
    (hf : f ∈ t.flights) (own : f.owner = t₀.nextOwner) : f.again = fun _ => none := by
  cases h with
  | entered here new clock => rw [sound.flight_eq hf here own]
  | waits wanted here hastens soon => rw [sound.flight_eq hf here own]
  | answered gone => exact absurd own (gone f hf)

/-- **A stretch of the party** hastens. -/
theorem Bound.hastened (h : Bound t₀ c due Wanted late? t) (sound : t.Sound C wait ret)
    (ask : c.BoundBy C Wanted t₀.clock.elapsed due late?) (hf : f ∈ t.flights)
    (own : f.owner = t₀.nextOwner)
    (isOver : f.wait.Over f.owner t.clock t.shared t.locks go) :
    ∃ wants, Wanted wants t.shared ∧
      Hastened due wants (Stage.Named late?) f.owner t.clock (.taking [])
        (go.1.run f.owner t.clock go.2.1 go.2.2) (f.attempts t go) := by
  have soon := h.soon ask.soon hf own
  cases h with
  | entered here new clock =>
    obtain rfl := sound.flight_eq hf here own
    cases isOver
    obtain ⟨wants, wanted, hastens⟩ := ask.hastens t.clock t.shared sound.kept.inv clock
    exact ⟨wants, wanted, hastens.run soon sound.served (Locks.has_nil new)⟩
  | waits wanted here hastens =>
    obtain rfl := sound.flight_eq hf here own
    exact ⟨_, wanted, (hastens.isOver soon sound.served isOver).run soon⟩
  | answered gone => exact absurd own (gone f hf)

/-- It leads to a wait before the deadline, or to the answer. -/
theorem Bound.own (h : Bound t₀ c due Wanted late? t) (sound : t.Sound C wait ret)
    (ask : c.BoundBy C Wanted t₀.clock.elapsed due late?)
    (stretch : t.Stretch t₀.nextOwner go u) (rely : C.rely [] t.shared u.shared) :
    Bound t₀ c due Wanted late? u := by
  obtain ⟨f, hf, own, isOver, after⟩ := stretch.own sound.kept.owners
  have last := h.again sound hf own
  have soon := h.soon ask.soon hf own
  obtain ⟨wants, wanted, hastened⟩ := h.hastened sound ask hf own (own ▸ isOver)
  rw [own] at hastened
  have ends := hastened.ends
  split at ends
  · next a answered =>
    rw [answered] at after
    refine .answered (fun g hg mine => ?_) ⟨⟨t₀.nextOwner, a, t.clock.elapsed⟩, ?_, rfl⟩
    · have none := (after g mine).1 hg
      simp [Flight.after, last] at none
    · rw [stretch.returned, answered]
      exact List.mem_cons_self
  · next w waits =>
    rw [waits] at after
    have stays : (⟨t₀.nextOwner, w, fun _ => none⟩ : Flight σ α) ∈ u.flights := by
      rw [after _ rfl, ← own, ← last]
      exact List.mem_singleton.2 rfl
    refine .waits (ask.stays _ _ _ wanted rely) stays ?_ (stretch.clock ▸ soon)
    rw [stretch.locks]
    exact ends.2

/-- **A stretch of somebody else** leaves the party where it is. -/
theorem Bound.other {other : Owner} (h : Bound t₀ c due Wanted late? t)
    (ask : c.BoundBy C Wanted t₀.clock.elapsed due late?) (stretch : t.Stretch other go u)
    (ne : t₀.nextOwner ≠ other) (rely : C.rely [] t.shared u.shared) :
    Bound t₀ c due Wanted late? u := by
  obtain ⟨f, -, -, isOver⟩ := stretch.flight
  cases h with
  | entered here new clock =>
    refine .entered ((stretch.others ne).2 here) (fun key mode inRow => ?_)
      (stretch.clock ▸ clock)
    rw [stretch.locks] at inRow
    exact new key mode ((Locks.spares_stretch isOver).row _ key mode ne inRow)
  | waits wanted here hastens soon =>
    refine .waits (ask.stays _ _ _ wanted rely) ((stretch.others ne).2 here) ?_
      (stretch.clock ▸ soon)
    rw [stretch.locks]
    exact hastens.stretch ne isOver
  | answered gone told =>
    obtain ⟨x, hx, mine⟩ := told
    refine .answered (fun g hg own => gone g ((stretch.others (own ▸ ne)).1 hg) own) ⟨x, ?_, mine⟩
    rw [stretch.returned]
    split
    · exact List.mem_cons_of_mem _ hx
    · exact hx

/-- **Moves**, if nobody is late. -/
theorem Bound.move (h : Bound t₀ c due Wanted late? t) (sound : t.Sound C wait ret)
    (ask : c.BoundBy C Wanted t₀.clock.elapsed due late?) (move : Move Entry t u)
    (onTime : t.OnTime u) : Bound t₀ c due Wanted late? u := by
  have rely := move.rely sound.kept
  cases move with
  | @goOn earlier later f go split isOver =>
    have stretch := Stretch.of split rfl isOver
    by_cases own : t₀.nextOwner = f.owner
    · exact h.own sound ask (own ▸ stretch) rely
    · exact h.other ask stretch own rely
  | @elapse elapsed later =>
    cases h with
    | entered here new clock =>
      refine .entered here new ((Nat.le_antisymm later ?_).symm.trans clock)
      -- time does not pass while somebody need not wait
      refine Nat.le_of_not_lt fun passes => ?_
      cases (onTime passes).1 _ here
    | waits wanted here hastens soon =>
      refine .waits wanted here hastens ?_
      rcases Nat.eq_or_lt_of_le later with same | passes
      · exact same ▸ soon
      · cases hastens with
        | lock next has on => exact (onTime passes).2 _ here due rfl
    | answered gone told => exact .answered gone told
  | @enter call again entry =>
    cases h with
    | entered here new clock => exact .entered (List.mem_append_left _ here) new clock
    | waits wanted here hastens soon =>
      exact .waits wanted (List.mem_append_left _ here) hastens soon
    | answered gone told =>
      refine .answered (fun g hg own => ?_) told
      rcases List.mem_append.1 hg with hg | hg
      · exact gone g hg own
      · -- whoever enters now is somebody else
        obtain rfl := List.mem_singleton.1 hg
        obtain ⟨x, hx, mine⟩ := told
        exact Nat.ne_of_lt (sound.returned x hx) (mine.trans own.symm)

/-- **Answers of the party are in time.** -/
theorem Bound.inTime (h : Bound t₀ c due Wanted late? t) (sound : t.Sound C wait ret)
    (ask : c.BoundBy C Wanted t₀.clock.elapsed due late?) (move : Move Entry t u)
    (before : ∀ x ∈ t.returned, x.owner = t₀.nextOwner → x.InTime late? due) :
    ∀ x ∈ u.returned, x.owner = t₀.nextOwner → x.InTime late? due := by
  cases move with
  | @goOn earlier later f go split isOver =>
    rw [(Stretch.of split rfl isOver).returned]
    split
    · next a answered =>
      refine List.forall_mem_cons.2 ⟨fun own => ?_, before⟩
      have hf : f ∈ t.flights := (perm_of_split split).mem_iff.2 List.mem_cons_self
      obtain ⟨wants, -, hastened⟩ := h.hastened sound ask hf own isOver
      refine ⟨h.soon ask.soon hf own, fun late => ?_⟩
      obtain ⟨id, named⟩ := Option.isSome_iff_exists.1 late
      obtain ⟨x, hx, missed, -⟩ := (hastened.timely.names a answered id).1 named
      exact (hastened.fair x hx).last missed
    · exact before
  | elapse later => exact before
  | enter entry => exact before

/-- **Along every history** in which nobody is late the party is where it should be, and its
answers are in time. -/
theorem Prompt.bound (entry : ∀ {call again}, Entry call again → KeepsTo C wait ret call again)
    (sound : t₀.Sound C wait ret) (enters : Entry c fun _ => Option.none)
    (ask : c.BoundBy C Wanted t₀.clock.elapsed due late?) (h : Prompt Entry P (t₀.enter c) u) :
    u.Sound C wait ret ∧ Bound t₀ c due Wanted late? u ∧
      ∀ x ∈ u.returned, x.owner = t₀.nextOwner → x.InTime late? due := by
  induction h with
  | none here =>
    refine ⟨(Move.enter enters).sound entry sound,
      .entered (List.mem_append_right _ (List.mem_singleton.2 rfl)) ?_ rfl, ?_⟩
    · intro key mode inRow
      exact Nat.lt_irrefl _ (sound.rows _ key mode inRow)
    · intro x hx own
      exact absurd own (Nat.ne_of_lt (sound.returned x hx))
  | snoc before move onTime here ih =>
    obtain ⟨sound, bound, inTime⟩ := ih
    exact ⟨move.sound entry sound, bound.move sound ask move onTime,
      bound.inTime sound ask move inTime⟩

/-- **Runs come to the answer**, if nobody goes on to another call. -/
theorem Prompt.answered (entry : ∀ {call again}, Entry call again → KeepsTo C wait ret call again)
    (sound : t₀.Sound C wait ret) (enters : Entry c fun _ => Option.none)
    (ask : c.BoundBy C Wanted t₀.clock.elapsed due late?)
    (h : Prompt Entry (fun _ => True) (t₀.enter c) u) (last : u.LastCalls) :
    ∃ n, ∃ x ∈ (u.run (fun _ => false) (some due) n).returned, x.owner = t₀.nextOwner := by
  obtain ⟨n, rest, beyond⟩ := u.run_rests due last
  obtain ⟨-, bound, -⟩ := (h.trans (run_prompt (fun _ => false) (some due) n
    fun _ _ => trivial)).bound entry sound enters ask
  refine ⟨n, ?_⟩
  cases bound with
  | entered here new clock => cases rest _ here
  | waits wanted here hastens soon =>
    cases hastens with
    | @lock key held k next has on =>
      -- whoever is due next is not due later than this party
      obtain ⟨due', next⟩ : ∃ due', (u.run (fun _ => false) (some due) n).nextDue = some due' :=
        Option.isSome_iff_exists.1 (List.isSome_min?_of_mem
          (List.mem_filterMap.2 ⟨_, here, rfl⟩))
      have le := (List.min?_eq_some_iff.1 next).2 due (List.mem_filterMap.2 ⟨_, here, rfl⟩)
      exact absurd (beyond due' next) (Nat.not_lt.2 le)
  | answered gone told => exact told

end Traffic

end Tenure
