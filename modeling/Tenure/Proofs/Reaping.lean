import Tenure.Proofs.Steps
import Tenure.Proofs.Tracking

/-!
# The reaper at work

The reaper alone takes deadlines out of the queue. What it has in hand then is what it still
has to see to in the round that it is in, so the place at which it waits says which deadlines
these are (`Reaper.At`). Whatever it does from one wait to the next is a row of small steps
(`Ledger.Reaps`): to take out what has come due, and to be done with the first deadline in its
hand, in one of three ways (`Reaper.At.reaped`).

Nobody else touches what it has in hand, so it stays at its place while it waits
(`Traffic.Reaping.move`).
-/

namespace Tenure

namespace Ledger

variable {l l' l'' : Ledger} {m : Moment}

/-! ## Steps of the reaper -/

/-- One thing that the reaper does to a ledger at the moment `m`. -/
inductive Reap (s : CoordinatorSettings) (m : Moment) : Ledger → Ledger → Prop where
  /-- to count -/
  | count {l l' : Ledger} (quiet : Quiet l l') : Reap s m l l'
  /-- to take notice of an early deadline -/
  | notice (l : Ledger) : Reap s m l { l with expiries := l.expiries.noticed }
  /-- to take out what has come due -/
  | take {l : Ledger} (free : l.inHand = []) : Reap s m l (l.takeDue m.stamp).2
  /-- to be done with a deadline of a resource that is unknown -/
  | unknown {l : Ledger} {e : Expiry} {es : List Expiry} (hand : l.inHand = e :: es)
    (unknown : l.resources.get? e.id = none) : Reap s m l { l with inHand := es }
  /-- to settle the hold of a deadline if it has lapsed -/
  | expire {l : Ledger} {e : Expiry} {es : List Expiry} (hand : l.inHand = e :: es) :
    Reap s m l { (l.expire m.stamp e.id e.generation).2 with inHand := es }
  /-- to put a deadline off that comes in between -/
  | retry {l : Ledger} {e : Expiry} {es : List Expiry} (hand : l.inHand = e :: es) :
    Reap s m l
      { l.schedule ⟨Stamp.later m.stamp (wordOfMillis s.lockWait), e.id, e.generation⟩ with
        inHand := es }

/-- A row of such steps. -/
inductive Reaps (s : CoordinatorSettings) (m : Moment) (l : Ledger) : Ledger → Prop where
  /-- nothing so far -/
  | none : Reaps s m l l
  /-- one more step -/
  | snoc {l' l'' : Ledger} (before : Reaps s m l l') (reap : Reap s m l' l'') : Reaps s m l l''

variable {s : CoordinatorSettings}

theorem Reaps.trans (h : Reaps s m l l') (h' : Reaps s m l' l'') : Reaps s m l l'' := by
  induction h' with
  | none => exact h
  | snoc _ reap ih => exact ih.snoc reap

theorem Reap.reaps (h : Reap s m l l') : Reaps s m l l' := .snoc .none h

/-- What no step changes, a row of steps does not change either. -/
theorem Reaps.keeps {P : Ledger → Prop} (one : ∀ {l l'}, Reap s m l l' → P l → P l')
    (h : Reaps s m l l') (start : P l) : P l' := by
  induction h with
  | none => exact start
  | snoc _ reap ih => exact one reap ih

/-! ## An attempt to settle a hold -/

variable {id : Id} {generation : UInt64}

/-- **A lock that is free** is had at once and is free again afterwards. -/
theorem run_underLock {α : Type} (owner : Owner) (due : Nat) (late : Call Ledger α) {ls : Locks}
    (f : Int → Ledger → α × Ledger) (free : ls.get (.resource id) = Lock.free) :
    ∃ ls', (underLock id due late (Call.update f)).run owner m l ls =
        (.returned (f m.stamp (l.count .lockWait)).1, (f m.stamp (l.count .lockWait)).2, ls') ∧
      ∀ key, ls'.get key = ls.get key := by
  have served : (ls.get (.resource id)).request owner .exclusive =
      (true, ⟨[(owner, .exclusive)], []⟩) := by rw [free]; rfl
  refine ⟨(ls.request owner (.resource id) .exclusive).2.release owner (.resource id), ?_, ?_⟩
  · simp only [underLock, Call.holdingUntil, Call.lock, Call.bind_eq, Call.bind, Call.run,
      Locks.request, served]
    rfl
  · intro key
    simp only [Locks.release, Locks.request, served, Locks.get_set]
    split
    · next same =>
      rw [same, free]
      simp [Lock.release, Lock.promote, Lock.promoted, Lock.free]
    · rfl

/-- An attempt on a resource that nobody knows. -/
theorem run_expireHold_of_unknown {owner : Owner} {ls : Locks}
    (unknown : l.resources.get? id = none) :
    (expireHold s id generation).run owner m l ls = (.returned (.error (.notFound id)), l, ls) := by
  have no : l.resources.contains id = false := by rw [Table.contains_eq_isSome, unknown]; rfl
  simp [expireHold, Call.gets, Call.bind, Call.run, no]

/-- An attempt on a resource whose lock is free. -/
theorem run_expireHold (s : CoordinatorSettings) (generation : UInt64) (owner : Owner) (m : Moment)
    {ls : Locks} {r : Resource} (known : l.resources.get? id = some r)
    (free : ls.get (.resource id) = Lock.free) :
    ∃ ls', (expireHold s id generation).run owner m l ls =
        (.returned (.ok ((l.count .lockWait).expire m.stamp id generation).1),
          ((l.count .lockWait).expire m.stamp id generation).2, ls') ∧
      ∀ key, ls'.get key = ls.get key := by
  have yes : l.resources.contains id = true := by rw [Table.contains_eq_isSome, known]; rfl
  obtain ⟨ls', run, same⟩ := run_underLock (l := l) (m := m) owner (m.elapsed + s.lockWait)
    (Call.update fun now l => (.error (.lockTimeout id),
      l.schedule ⟨Stamp.later now (wordOfMillis s.lockWait), id, generation⟩))
    (fun now l => ((.ok (l.expire now id generation).1 : Except CallError Bool),
      (l.expire now id generation).2)) free
  refine ⟨ls', ?_, same⟩
  rw [← run]
  simp [expireHold, Call.gets, Call.bind, Call.run, yes, lockDue, Call.moment]

end Ledger

open Ledger

variable {s : CoordinatorSettings} {m : Moment} {l l' : Ledger} {owner : Owner} {ls : Locks}

/-! ## A round, place by place -/

namespace Reaper

/-- A round of the reaper. -/
def round (s : CoordinatorSettings) : Call Ledger Reply :=
  (reaperRound s).bind fun go => .done (.round go)

/-- What follows its sleep. -/
def awake (s : CoordinatorSettings) : Call Ledger Reply :=
  (reap s).bind fun go => .done (.round go)

/-- What follows while it still has deadlines to see to. -/
def handle (s : CoordinatorSettings) (es : List Expiry) : Call Ledger Reply :=
  ((expireEach s es).bind fun _ => .done true).bind fun go => .done (.round go)

/-- It puts a deadline out of its hand, and goes on with the others. -/
def proceed (s : CoordinatorSettings) (es : List Expiry) : Call Ledger Reply :=
  .look fun _ l => .save { l with inHand := es } (handle s es)

/-- It sees to a deadline once it is clear whether it has the lock. -/
def tend (s : CoordinatorSettings) (e : Expiry) (es : List Expiry) (got : Bool) :
    Call Ledger Reply :=
  .look fun _ l => .save (l.count .lockWait) <|
    if got then
      .look fun m l => .save (l.expire m.stamp e.id e.generation).2 <|
        .release (.resource e.id) (proceed s es)
    else
      .look fun m l =>
        .save (l.schedule ⟨Stamp.later m.stamp (wordOfMillis s.lockWait), e.id, e.generation⟩)
          (proceed s es)

/-- What the reaper does next, as long as the ledger is in use: another round. -/
def again (s : CoordinatorSettings) : Reply → Option (Call Ledger Reply)
  | .round true => some (round s)
  | _ => none

theorem round_eq (s : CoordinatorSettings) :
    round s = .look fun m _ => .look fun _ l =>
      if sleepFor m.stamp s.reaperIdle l.expiries ≠ 0 then
        .pause (some (m.elapsed + sleepFor m.stamp s.reaperIdle l.expiries)) wakeSign (awake s)
      else awake s := by
  refine congrArg Call.look (funext fun m => funext fun _ => congrArg Call.look ?_)
  refine funext fun _ => funext fun l => ?_
  change Call.bind (if sleepFor m.stamp s.reaperIdle l.expiries ≠ 0 then _ else _) _ = _
  split <;> rfl

theorem awake_eq (s : CoordinatorSettings) :
    awake s = .look fun _ l =>
      if l.inUse then .look fun m l => .save (l.takeDue m.stamp).2 (handle s (l.takeDue m.stamp).1)
      else .done (.round false) := by
  refine congrArg Call.look (funext fun _ => funext fun l => ?_)
  change Call.bind (if l.inUse then _ else _) _ = _
  split <;> rfl

theorem handle_cons (s : CoordinatorSettings) (e : Expiry) (es : List Expiry) :
    handle s (e :: es) = .look fun _ l =>
      if l.resources.contains e.id then
        .look fun m _ =>
          .acquire (.resource e.id) .exclusive (some (m.elapsed + s.lockWait)) (tend s e es)
      else proceed s es := by
  refine congrArg Call.look (funext fun _ => funext fun l => ?_)
  change Call.bind (Call.bind (Call.bind (Call.bind (.done (l.resources.contains e.id)) _) _) _) _ =
    _
  cases l.resources.contains e.id with
  | false => rfl
  | true =>
    refine congrArg Call.look (funext fun m => funext fun _ => ?_)
    refine congrArg (Call.acquire _ _ _) (funext fun got => ?_)
    cases got <;> rfl

/-- What the reaper waits for, and which deadlines it has in hand meanwhile. -/
inductive At (s : CoordinatorSettings) : Wait Ledger Reply → List Expiry → Prop where
  /-- it is about to begin a round -/
  | turn : At s (.turn (round s)) []
  /-- it sleeps -/
  | asleep (due : Option Nat) : At s (.pause due wakeSign (awake s)) []
  /-- it waits for the lock of the first resource that it has to see to -/
  | locking (e : Expiry) (es : List Expiry) (due : Option Nat) :
    At s (.lock (.resource e.id) .exclusive due (tend s e es)) (e :: es)

/-- How a stretch of the reaper ends that began with `l`. -/
structure Reaped (s : CoordinatorSettings) (m : Moment) (l : Ledger)
    (r : Stop Ledger Reply × Ledger × Locks) : Prop where
  /-- it was a row of its steps -/
  did : Reaps s m l r.2.1
  /-- it waits again, or its round is over and its hand empty -/
  ends :
    match r.1 with
    | .returned _ => r.2.1.inHand = []
    | .waiting w => At s w r.2.1.inHand

theorem Reaped.after {r : Stop Ledger Reply × Ledger × Locks} (h : Reaped s m l' r)
    (first : Reaps s m l l') : Reaped s m l r := ⟨first.trans h.did, h.ends⟩

/-! ## Stretches -/

/-- Once it is clear whether it has the lock the reaper is done with a deadline, one way or the
other, and goes on to the next one. -/
theorem reaped_tend {e : Expiry} {es : List Expiry}
    (rest : ∀ l ls, l.inHand = es → Reaped s m l ((handle s es).run owner m l ls)) (got : Bool)
    (hand : l.inHand = e :: es) : Reaped s m l ((tend s e es got).run owner m l ls) := by
  have counted : Reaps s m l (l.count .lockWait) := (Reap.count (quiet_count l .lockWait)).reaps
  cases got with
  | true => exact (rest _ _ rfl).after (counted.snoc (.expire hand))
  | false => exact (rest _ _ rfl).after (counted.snoc (.retry hand))

/-- **The deadlines in its hand** are seen to one after the other, and when it waits in between
it has in hand what it has not seen to. -/
theorem reaped_handle {es : List Expiry} (hand : l.inHand = es) :
    Reaped s m l ((handle s es).run owner m l ls) := by
  induction es generalizing l ls with
  | nil => exact ⟨.none, hand⟩
  | cons e es ih =>
    have rest : ∀ l ls, l.inHand = es → Reaped s m l ((handle s es).run owner m l ls) :=
      fun l ls hand => ih hand
    rw [handle_cons]
    simp only [Call.run]
    split
    · simp only [Call.run]
      split
      · exact reaped_tend rest true hand
      · split
        · exact reaped_tend rest false hand
        · exact ⟨.none, hand ▸ .locking e es _⟩
    · next unknown =>
      rw [Table.contains_eq_isSome] at unknown
      exact (rest _ _ rfl).after (Reap.unknown hand (by simpa using unknown)).reaps

theorem reaped_awake (free : l.inHand = []) :
    Reaped s m l ((awake s).run owner m l ls) := by
  rw [awake_eq]
  simp only [Call.run]
  split
  · exact (reaped_handle rfl).after (Reap.take free).reaps
  · exact ⟨.none, free⟩

theorem reaped_signed (found : wakeSign l = some l') (free : l.inHand = []) :
    Reaped s m l ((awake s).run owner m l' ls) := by
  obtain ⟨-, rfl⟩ := wakeSign_eq_some.1 found
  have noticed : Reaps s m l { l with expiries := l.expiries.noticed } := (Reap.notice l).reaps
  exact Reaped.after (reaped_awake free) noticed

theorem reaped_round (free : l.inHand = []) : Reaped s m l ((round s).run owner m l ls) := by
  rw [round_eq]
  simp only [Call.run]
  split
  · simp only [Call.run]
    split
    · exact reaped_awake free
    · cases sign : wakeSign l with
      | none => exact ⟨.none, by rw [free]; exact .asleep _⟩
      | some l' => exact reaped_signed sign free
  · exact reaped_awake free

/-- **From place to place.** Wherever the reaper goes on, it makes a row of its steps and comes
to another such place. -/
theorem At.reaped {w : Wait Ledger Reply} {go : Call Ledger Reply × Ledger × Locks}
    (h : At s w l.inHand) (isOver : w.Over owner m l ls go) :
    Reaped s m l (go.1.run owner m go.2.1 go.2.2) := by
  generalize hand : l.inHand = es at h
  cases h with
  | turn =>
    obtain ⟨⟩ := isOver
    exact reaped_round hand
  | asleep due =>
    cases isOver with
    | come sign k passed => exact reaped_awake hand
    | signed k found => exact reaped_signed found hand
  | locking e es due =>
    have rest : ∀ l ls, l.inHand = es → Reaped s m l ((handle s es).run owner m l ls) :=
      fun l ls hand => reaped_handle hand
    cases isOver with
    | granted patience k has => exact reaped_tend rest true hand
    | gaveUp k not passed => exact reaped_tend rest false hand

end Reaper

/-! ## The reaper among others -/

/-- No step of anybody else touches what the reaper has in hand. -/
theorem Ledger.Step.inHand (h : Step m l l') : l'.inHand = l.inHand := by
  cases h with
  | count quiet =>
    obtain ⟨x, rfl⟩ := quiet
    rfl
  | lapse => rfl
  | hold => rfl
  | confirm => rfl
  | cancel => rfl
  | book books => exact books.inHand
  | @giveUp booking b =>
    exact giveUpAll_keeps (f := Ledger.inHand) (fun _ _ => rfl) b.id b.resources l

theorem Ledger.Steps.inHand (h : Steps m l l') : l'.inHand = l.inHand :=
  h.keeps (P := fun l' => l'.inHand = l.inHand) (fun step e => step.inHand.trans e) rfl

/-- Neither does any of them stop using the ledger. -/
theorem Ledger.Step.inUse (h : Step m l l') : l'.inUse = l.inUse := by
  cases h with
  | count quiet =>
    obtain ⟨x, rfl⟩ := quiet
    rfl
  | lapse => rfl
  | hold => rfl
  | confirm => rfl
  | cancel => rfl
  | book books => exact books.inUse
  | @giveUp booking b =>
    exact giveUpAll_keeps (f := Ledger.inUse) (fun _ _ => rfl) b.id b.resources l

namespace Traffic

variable {t u : Traffic Ledger Reply}

/-- One party is a reaper, at its place. -/
def Reaping (s : CoordinatorSettings) (reaper : Owner) (t : Traffic Ledger Reply) : Prop :=
  ∀ f ∈ t.flights, f.owner = reaper → Reaper.At s f.wait t.shared.inHand ∧ f.again = Reaper.again s

variable {reaper owner : Owner} {go : Call Ledger Reply × Ledger × Locks}
  {wait : Moment → Ledger → Ledger → Prop} {ret : Moment → Ledger → Ledger → Reply → Prop}

/-- **A stretch of the reaper** is a row of its steps, and leads to another of its places. -/
theorem Reaping.own (h : t.Reaping s reaper) (kept : t.Kept conduct wait ret)
    (stretch : t.Stretch reaper go u) :
    u.Reaping s reaper ∧ Reaps s t.clock t.shared u.shared := by
  obtain ⟨f, hf, own, isOver, after⟩ := stretch.own kept.owners
  obtain ⟨place, again⟩ := h f hf own
  obtain ⟨did, ends⟩ := place.reaped isOver
  rw [stretch.shared]
  refine ⟨fun g hg same => ?_, did⟩
  rw [stretch.shared]
  have hg := (after g same).1 hg
  cases stop : (go.1.run reaper t.clock go.2.1 go.2.2).1 with
  | waiting w =>
    rw [stop] at hg ends
    obtain rfl := List.mem_singleton.1 hg
    exact ⟨ends, again⟩
  | returned a =>
    -- its hand is empty, so it is where a round begins
    rw [stop] at hg ends
    obtain ⟨c, hc, rfl⟩ := List.mem_map.1 hg
    rw [again, Option.mem_toList] at hc
    have hand : (go.1.run reaper t.clock go.2.1 go.2.2).2.1.inHand = [] := ends
    refine ⟨?_, again⟩
    cases a with
    | round go =>
      cases go with
      | true =>
        obtain rfl := Option.some.inj hc
        exact hand ▸ .turn
      | false => cases hc
    | _ => cases hc

/-- Whoever else goes on leaves the reaper where it is. -/
theorem Reaping.others (h : t.Reaping s reaper) (ne : owner ≠ reaper)
    (stretch : t.Stretch owner go u) (hand : u.shared.inHand = t.shared.inHand) :
    u.Reaping s reaper := by
  intro g hg same
  rw [hand]
  exact h g ((stretch.others fun e => ne (e.symm.trans same)).1 hg) same

/-- Everybody but the reaper goes by elementary steps. -/
abbrev Stepping (reaper : Owner) (t : Traffic Ledger Reply) : Prop :=
  t.Tracks conduct Steps (fun m l l' _ => Steps m l l') fun o => o ≠ reaper

/-- **Moves beside a reaper.** Each is a row of elementary steps or of steps of the reaper. -/
theorem Reaping.move (h : t.Reaping s reaper) (kept : t.Kept conduct wait ret)
    (stepping : t.Stepping reaper) (known : reaper < t.nextOwner) (move : Move (Helper s) t u) :
    u.Reaping s reaper ∧ u.Stepping reaper ∧
      (Steps u.clock t.shared u.shared ∨ Reaps s u.clock t.shared u.shared) := by
  have stepping' := stepping.move kept (fun entry _ => entry.keepsTo) move
  cases move with
  | @goOn earlier later f go split isOver =>
    have stretch : t.Stretch f.owner go (t.resume f (earlier ++ later) go) := .of split rfl isOver
    rw [stretch.clock]
    by_cases own : f.owner = reaper
    · obtain ⟨reaping, reaps⟩ := h.own kept (own ▸ stretch)
      exact ⟨reaping, stepping', .inr reaps⟩
    · have did : Steps t.clock t.shared (t.resume f (earlier ++ later) go).shared := by
        cases (stepping.stretch kept stretch).2 own with
        | waits did => exact did
        | answers a did => exact did
      exact ⟨h.others own stretch did.inHand, stepping', .inl did⟩
  | elapse later => exact ⟨h, stepping', .inl .none⟩
  | enter entry =>
    refine ⟨fun f hf e => ?_, stepping', .inl .none⟩
    rcases List.mem_append.1 hf with hf | hf
    · exact h f hf e
    · -- whoever enters is not the reaper
      obtain rfl := List.mem_singleton.1 hf
      exact absurd e (Nat.ne_of_gt known)

end Traffic

end Tenure
