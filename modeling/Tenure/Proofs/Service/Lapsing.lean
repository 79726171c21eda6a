import Tenure.Proofs.Service.Basic

/-!
# Chores

What sweeps, the reaper and attempts on single holds do to a ledger: they settle holds that
had lapsed at a time gone by, and look after the queue (`Ledger.Upkeep`). A sweep goes by
the time at which it started, so the time of a settlement need not be that of the stretch
in which it happens.
-/

namespace Tenure.Ledger

/-- What chores do until the moment `m`. -/
inductive Upkeep (m : Moment) (l : Ledger) : Ledger → Prop where
  /-- nothing so far -/
  | none : Upkeep m l l
  /-- settle a hold, going by a time that has come -/
  | settle {l' : Ledger} (before : Upkeep m l l') {m' : Moment} (time : m'.Before m) (id : Id) :
    Upkeep m l (l'.settle m'.stamp id).2
  /-- look after the queue, and count -/
  | tidy {l' : Ledger} (before : Upkeep m l l') (queue : ExpiryQueue) (inHand : List Expiry)
    (metrics : Metrics) :
    Upkeep m l { l' with expiries := queue, inHand := inHand, metrics := metrics }

variable {l l' l₀ : Ledger} {held : List Key} {m m' : Moment}

/-- Counting is no more than upkeep. -/
theorem Upkeep.count (h : Upkeep m l l') (x : Metric) : Upkeep m l (l'.count x) :=
  h.tidy l'.expiries l'.inHand _

/-- Nor is entering a deadline. -/
theorem Upkeep.schedule (h : Upkeep m l l') (e : Expiry) : Upkeep m l (l'.schedule e) :=
  h.tidy _ l'.inHand _

/-- Where nothing but counts changes there is nothing but upkeep. -/
theorem Quiet.upkeep (h : Quiet l l') : Upkeep m l l' := by
  obtain ⟨x, rfl⟩ := h
  exact Upkeep.none.tidy l.expiries l.inHand x

/-- Chores leave the books alone. -/
theorem Upkeep.sameBooks (h : Upkeep m l l') : SameBooks l l' := by
  induction h with
  | none => exact .refl l
  | settle _ _ id ih => exact ih.trans (sameBooks_settle _ _ id)
  | tidy _ _ _ _ ih => exact ⟨ih.toAkin.trans ⟨rfl, fun _ => rfl⟩, ih.bookings, ih.supply⟩

theorem tolerant_upkeep : Tolerant Upkeep := ⟨fun _ _ => .none, fun h x => h.count x⟩

/-- A stretch of a chore that has come so far. -/
abbrev Busy (m : Moment) (l₀ l : Ledger) : Prop := Underway Upkeep (fun _ => True) m l₀ l

/-- How far a chore has come when a part of it is done. -/
abbrev Onward {α : Type} (m : Moment) (_ : List Key) (m' : Moment) (l₀ l : Ledger) (_ : α) : Prop :=
  m.Before m' ∧ Busy m' l₀ l

theorem permits_of_sameBooks (h : Busy m l₀ l) (same : SameBooks l l') :
    conduct.Permits held l l' := same.permits h.ord

/-- One more thing done. -/
theorem Underway.then (h : Busy m l₀ l) (did : Upkeep m l₀ l' ) (same : SameBooks l l') :
    Busy m l₀ l' := ⟨did, same.orderly h.ord, trivial⟩

/-! ## Sweeps -/

/-- Reading a resource changes nothing. -/
theorem idle_readOne {α : Type} (id : Id) (f : Resource → α) : (readOne id f).Idle := by
  intro m l
  change Call.Idle (if l.resources.contains id then _ else _)
  split
  · exact fun _ _ _ => trivial
  · trivial

/-- Nor does reading several. -/
theorem idle_readEach {α : Type} (f : Id → Resource → α) (ids : List Id) :
    (readEach f ids).Idle := by
  induction ids with
  | nil => trivial
  | cons id ids ih => exact (idle_readOne id (f id)).bind fun a => ih.bind fun rest => trivial

theorem idle_list (test : ResourceInfo → Bool) : (list test).Idle :=
  fun _ _ => (idle_readEach _ _).bind fun _ => trivial

/-- What covers everything that a sweep does. -/
structure Sweeping (W : Moment → Ledger → Ledger → Prop) : Prop extends Tolerant W where
  /-- settling, going by a time that has come, may come on top -/
  settle : ∀ {m l₀ l}, W m l₀ l → ∀ {m' : Moment}, m'.Before m → ∀ id,
    W m l₀ (l.settle m'.stamp id).2

theorem sweeping_upkeep : Sweeping Upkeep :=
  { tolerant_upkeep with settle := fun h _ time id => h.settle time id }

variable {W : Moment → Ledger → Ledger → Prop}

/-- Settling one resource after the other, going by a time that has come. -/
theorem meets_settleEach (sweeping : Sweeping W) (ids : List Id) (time : m'.Before m)
    (h : Underway W (fun _ => True) m l₀ l) :
    (settleEach m'.stamp ids).Meets conduct W (fun _ m l₀ l _ => W m l₀ l) held m l₀ l := by
  induction ids generalizing held m l₀ l with
  | nil => exact h.did
  | cons id ids ih =>
    refine Call.meets_bind.2 (Call.meets_holding h.did fun m₁ l₀' l' hr => ?_)
    have h' := h.resumed sweeping.toTolerant stable_true hr
    have before := time.trans hr.before
    have same := l'.sameBooks_settle m'.stamp id
    refine Call.meets_update.2 ⟨same.permits h'.ord, ?_⟩
    exact Call.meets_bind.2 (ih before
      ⟨sweeping.settle h'.did before id, same.orderly h'.ord, trivial⟩)

/-- **A sweep** settles what has lapsed, one resource after the other, each under its lock. -/
theorem meets_sweep (sweeping : Sweeping W) (ord : Orderly l) :
    sweep.Meets conduct W (fun _ m l₀ l _ => W m l₀ l) held m l l := by
  refine Call.meets_bind.2 (Call.meets_now.2 ?_)
  refine Call.meets_bind.2 ((idle_list _).meets (fun m l => sweeping.refl m l) ?_ ord)
  intro held' m' l' infos time ord
  exact meets_settleEach sweeping _ time ⟨sweeping.refl m' l', ord, trivial⟩

/-! ## Single holds and the reaper -/

/-- **Settling a hold** whose deadline has come either settles it, or enters a later deadline because
the lock was not to be had. -/
theorem meets_expireHold (s : CoordinatorSettings) (id : Id) (generation : UInt64)
    (h : Busy m l₀ l) :
    (expireHold s id generation).Meets conduct Upkeep (Onward m) held m l₀ l := by
  refine meets_known (fun _ => ⟨.refl m, h⟩) fun r _ => meets_lockDue ?_
  refine meets_underLock tolerant_upkeep stable_true h ?_ ?_
  · intro m' l₀' l' time h'
    -- the lock was had in time
    have did : Upkeep m' l₀' (l'.expire m'.stamp id generation).2 ∧
        SameBooks l' (l'.expire m'.stamp id generation).2 := by
      rcases l'.expire_cases m'.stamp id generation with e | e <;> rw [e]
      · exact ⟨h'.did, .refl l'⟩
      · exact ⟨h'.did.settle (.refl m') id, l'.sameBooks_settle m'.stamp id⟩
    exact Call.meets_update.2 ⟨permits_of_sameBooks h' did.2, time, h'.then did.1 did.2⟩
  · intro m' l₀' l' time h'
    have same : SameBooks l'
        (l'.schedule ⟨Stamp.later m'.stamp (wordOfMillis s.lockWait), id, generation⟩) :=
      ⟨⟨rfl, fun _ => rfl⟩, rfl, rfl⟩
    exact Call.meets_update.2 ⟨permits_of_sameBooks h' same, time, h'.then (h'.did.schedule _) same⟩

/-- So does settling one after the other, which empties the hand of the reaper. -/
theorem meets_expireEach (s : CoordinatorSettings) (es : List Expiry) (h : Busy m l₀ l) :
    (expireEach s es).Meets conduct Upkeep (Onward m) held m l₀ l := by
  induction es generalizing held m l₀ l with
  | nil => exact ⟨.refl m, h⟩
  | cons e es ih =>
    refine Call.meets_bind.2 ((meets_expireHold s e.id e.generation h).mono (fun _ _ _ w => w) ?_)
    rintro held' m' l₀' l' - ⟨time, h'⟩
    have same : SameBooks l' { l' with inHand := es } := ⟨⟨rfl, fun _ => rfl⟩, rfl, rfl⟩
    refine Call.meets_bind.2 (Call.meets_modify.2 ⟨permits_of_sameBooks h' same, ?_⟩)
    refine (ih (h'.then (h'.did.tidy _ es _) same)).mono (fun _ _ _ w => w) ?_
    rintro held'' m'' l₀'' l'' - ⟨later, busy⟩
    exact ⟨time.trans later, busy⟩

/-- **Reaping** takes what is due into the hand, and settles it. -/
theorem meets_reap (s : CoordinatorSettings) (h : Busy m l₀ l) :
    (reap s).Meets conduct Upkeep (Onward m) held m l₀ l := by
  change Call.Meets conduct Upkeep (Onward m) (if l.inUse then _ else .done false) held m l₀ l
  split
  · have same : SameBooks l (l.takeDue m.stamp).2 := ⟨⟨rfl, fun _ => rfl⟩, rfl, rfl⟩
    refine Call.meets_bind.2 (Call.meets_update.2 ⟨permits_of_sameBooks h same, ?_⟩)
    refine Call.meets_bind.2 ((meets_expireEach s _ (h.then (h.did.tidy _ _ _) same)).mono
      (fun _ _ _ w => w) ?_)
    exact fun _ _ _ _ _ onward => onward
  · exact ⟨.refl m, h⟩

/-- **A round of the reaper** sleeps before, which changes nothing but the sign that it has seen. -/
theorem meets_reaperRound (s : CoordinatorSettings) (h : Busy m l₀ l) :
    (reaperRound s).Meets conduct Upkeep (Onward m) held m l₀ l := by
  change Call.Meets conduct Upkeep (Onward m)
    (if sleepFor m.stamp s.reaperIdle l.expiries ≠ 0 then
      (Call.wait _ wakeSign).bind fun _ => reap s else reap s) held m l₀ l
  split
  · refine ⟨h.did, fun m' l₀' l' hr => ?_⟩
    have h' := h.resumed tolerant_upkeep stable_true hr
    have onward : ∀ {l''}, Busy m' l₀' l'' →
        (reap s).Meets conduct Upkeep (Onward m) held m' l₀' l'' := by
      intro l'' h''
      refine (meets_reap s h'').mono (fun _ _ _ w => w) ?_
      rintro held'' m'' l₀'' l'' - ⟨later, busy⟩
      exact ⟨hr.before.trans later, busy⟩
    refine ⟨onward h', fun l'' sign => ?_⟩
    -- taking notice of the sign changes nothing but the queue
    simp only [wakeSign] at sign
    split at sign
    · obtain rfl := Option.some.inj sign
      have same : SameBooks l' { l' with expiries := l'.expiries.noticed } :=
        ⟨⟨rfl, fun _ => rfl⟩, rfl, rfl⟩
      exact ⟨permits_of_sameBooks h' same, onward (h'.then (h'.did.tidy _ _ _) same)⟩
    · cases sign
  · exact meets_reap s h

end Tenure.Ledger
