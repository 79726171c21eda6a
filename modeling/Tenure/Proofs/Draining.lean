import Tenure.Proofs.Membership
import Tenure.Proofs.Refusals
import Tenure.Proofs.Rounds
import Tenure.Proofs.Settlement

/-!
# Sweeps and deadlines come to the same

There are two ways to settle what has lapsed. A sweep looks at all resources that are held, and
whoever takes out the deadlines that have come tries the hold of each of them, though many of
these holds ended long ago. Both do nothing but settle (`Ledger.Drains`), and what is left of a
ledger in which nothing has lapsed any more is what it was, with every resource settled
(`Ledger.Drains.get?`). So it is enough that neither way misses a hold.

A sweep misses none, as it looks at the stored status. The other way misses none as long as
every hold has its very deadline in the queue (`Ledger.Noted`). A deadline that comes while the
lock is taken is put off, and then this is so no longer; where no lock is ever contended, it
stays so (`Ledger.Calm.undelayed`).
-/

namespace Tenure

namespace Ledger

variable {s : CoordinatorSettings} {l l' l'' l₁ l₂ : Ledger} {m m' : Moment} {now : Int}
  {gone gone' : List (Id × Claim)} {seen : Id → Resource → Prop} {id : Id} {α : Type}

/-! ## Settling and nothing else -/

/-- Lapsed holds were settled, those of `gone`, and nothing else has happened. None that was
looked at, as `seen` says, has lapsed any more. -/
structure Drains (now : Int) (seen : Id → Resource → Prop) (gone : List (Id × Claim))
    (l l' : Ledger) : Prop extends OnlySettles now gone l l' where
  /-- the resources are the same, and stay in order -/
  ahead : Ahead now l l'
  /-- what was looked at is settled -/
  clean : ∀ id r, seen id r → l'.resources.get? id = some r → r.lapsed now = false

/-- Nothing is left that has lapsed. -/
abbrev Drained (now : Int) (gone : List (Id × Claim)) (l l' : Ledger) : Prop :=
  Drains now (fun _ _ => True) gone l l'

theorem Drains.refl (now : Int) (l : Ledger) : Drains now (fun _ _ => False) [] l l :=
  ⟨.refl now l, .refl now l, fun _ _ seen => seen.elim⟩

theorem Drains.quiet (h : Drains now seen gone l l') (quiet : Quiet l' l'') :
    Drains now seen gone l l'' := by
  refine ⟨h.toOnlySettles.quiet quiet, h.ahead.quiet (.refl l) quiet, fun id r saw hr => ?_⟩
  obtain ⟨x, rfl⟩ := quiet
  exact h.clean id r saw hr

/-- **To settle** is to look at whatever is there. -/
theorem Drains.settle (h : Drains now seen gone l l') (id : Id) :
    ∃ gone', Drains now (fun id' r => seen id' r ∨ id' = id) gone' l (l'.settle now id).2 ∧
      gone'.length = gone.length + if (l'.settle now id).1 then 1 else 0 := by
  obtain ⟨gone', only, more⟩ := h.toOnlySettles.settle id
  have ahead := h.ahead.trans (ahead_settle l' now id)
  refine ⟨gone', { only with ahead := ahead, clean := fun id' r saw hr => ?_ }, more⟩
  rw [get?_settle] at hr
  split at hr
  · obtain ⟨r', -, rfl⟩ := Option.map_eq_some_iff.1 hr
    exact r'.lapsed_settled now
  · next other => exact h.clean id' r (saw.resolve_right other) hr

/-- **To try the hold of one generation** is to look at that. -/
theorem Drains.expire (h : Drains now seen gone l l') (id : Id) (generation : UInt64) :
    ∃ gone', Drains now
        (fun id' r => seen id' r ∨ id' = id ∧ r.claim.any fun c => c.generation = generation)
        gone' l (l'.expire now id generation).2 ∧
      gone'.length = gone.length + if (l'.expire now id generation).1 then 1 else 0 := by
  by_cases hit : ∃ r, l'.resources.get? id = some r ∧ r.status = .reserved ∧
      r.claim.any fun c => c.generation = generation
  · obtain ⟨r, hr, reserved, same⟩ := hit
    have settles : l'.expire now id generation = l'.settle now id := by
      simp only [Ledger.expire, hr, reserved, same, decide_true, Bool.and_true, if_true]
    rw [settles]
    obtain ⟨gone', drains, more⟩ := h.settle id
    exact ⟨gone', { drains with clean := fun id' r saw => drains.clean id' r (saw.imp_right (·.1)) },
      more⟩
  · have misses : l'.expire now id generation = (false, l') := by
      simp only [Ledger.expire]
      cases hr : l'.resources.get? id with
      | none => rfl
      | some r =>
        refine if_neg fun both => hit ⟨r, hr, ?_⟩
        simpa only [Bool.and_eq_true, decide_eq_true_eq] using both
    rw [misses]
    refine ⟨gone, { h with clean := fun id' r saw hr => ?_ }, rfl⟩
    rcases saw with saw | ⟨rfl, same⟩
    · exact h.clean id' r saw hr
    · -- a hold of that generation there is not
      refine Bool.eq_false_iff.2 fun lapsed => hit ⟨r, hr, ?_, same⟩
      exact (Resource.lapsed_iff.1 lapsed).1

/-- Where all that had lapsed was looked at, nothing is left. -/
theorem Drains.drained (h : Drains now seen gone l l')
    (all : ∀ id r, l.resources.get? id = some r → r.lapsed now = true → seen id r) :
    Drained now gone l l' := by
  refine { h with clean := fun id r _ hr => Bool.eq_false_iff.2 fun lapsed => ?_ }
  have before : l.resources.get? id = some r := by
    rcases h.toOnlySettles.cases id with same | ⟨r', -, -, freed⟩
    · rw [← same, hr]
    · rw [freed] at hr
      obtain rfl := Option.some.inj hr
      exact absurd lapsed (by rw [Resource.lapsed_freed]; exact Bool.false_ne_true)
  exact Bool.false_ne_true ((h.clean id r (all id r before lapsed) hr).symm.trans lapsed)

/-- **What is left** is what was there, settled. -/
theorem Drains.get? (h : Drained now gone l l') (id : Id) :
    l'.resources.get? id = (l.resources.get? id).map fun r => r.settled now := by
  rcases h.toOnlySettles.cases id with same | ⟨r, hr, lapsed, freed⟩
  · rw [same]
    cases hr : l.resources.get? id with
    | none => rfl
    | some r =>
      have live := h.clean id r trivial (same.trans hr)
      rw [Option.map_some, Resource.settled_of_not_lapsed live]
  · rw [freed, hr, Option.map_some, Resource.settled_of_lapsed lapsed]

/-- **What is gone** is what had lapsed. -/
theorem Drains.mem_gone_iff (h : Drained now gone l l') (id : Id) :
    id ∈ gone.map Prod.fst ↔ ∃ r, l.resources.get? id = some r ∧ r.lapsed now = true := by
  constructor
  · intro hid
    obtain ⟨p, hp, rfl⟩ := List.mem_map.1 hid
    obtain ⟨r, hr, lapsed, -⟩ := h.lapsed p hp
    exact ⟨r, hr, lapsed⟩
  · rintro ⟨r, hr, lapsed⟩
    refine Decidable.byContradiction fun other => ?_
    have live := h.clean id r trivial ((h.others id other).trans hr)
    exact Bool.false_ne_true (live.symm.trans lapsed)

/-- **However it is drained**, the same resources are left and the same number of holds is
settled. -/
theorem Drains.same (h : Drained now gone l l₁) (h' : Drained now gone' l' l₂)
    (resources : l'.resources = l.resources) :
    l₂.resources = l₁.resources ∧ gone'.length = gone.length := by
  constructor
  · refine Table.ext_get? ?_ fun id => ?_
    · rw [h'.ahead.keys, h.ahead.keys, resources]
    · rw [h'.get?, h.get?, resources]
  · have mem : ∀ id, id ∈ gone'.map Prod.fst ↔ id ∈ gone.map Prod.fst := by
      intro id
      rw [h'.mem_gone_iff, h.mem_gone_iff, resources]
    simpa using ((List.perm_ext_iff_of_nodup h'.apart h.apart).2 mem).length_eq

/-- Once it is drained, there is nothing more to settle. -/
theorem Drains.again (h : Drained now gone l l₁) (h' : Drained now gone' l₁ l₂) : gone' = [] := by
  refine List.eq_nil_iff_forall_not_mem.2 fun p hp => ?_
  obtain ⟨r, hr, lapsed, -⟩ := h'.lapsed p hp
  exact Bool.false_ne_true ((h.clean _ r trivial hr).symm.trans lapsed)

/-! ## Sweeps -/

/-- **A sweep over some resources** looks at all of them. If none of them had lapsed, it has done
nothing at all. -/
theorem freely_settleEach {held : List Key} (h : Drains now seen gone l l') (ids : List Id)
    (new : ∀ id ∈ ids, Key.resource id ∉ held) :
    (settleEach now ids).Freely held m l' fun l'' n =>
      (∃ gone', Drains now (fun id r => seen id r ∨ id ∈ ids) gone' l l'' ∧
        gone'.length = gone.length + n) ∧ (n = 0 → l'' = l') := by
  induction ids generalizing seen gone l' with
  | nil =>
    refine Call.freely_done ⟨⟨gone, { h with clean := fun id r saw => ?_ }, rfl⟩, fun _ => rfl⟩
    exact h.clean id r (saw.resolve_right List.not_mem_nil)
  | cons id ids ih =>
    obtain ⟨gone₁, first, more⟩ := h.settle id
    have none : (l'.settle now id).1 = false → (l'.settle now id).2 = l' := by
      rcases l'.settle_cases now id with ⟨r, c, -, -, -, e⟩ | ⟨-, e⟩ <;> rw [e]
      · exact nofun
      · exact fun _ => rfl
    have settles : (Call.holding (.resource id) .exclusive
        (Call.update fun _ l => l.settle now id)).Freely held m l' fun l'' settled =>
        (settled, l'') = l'.settle now id :=
      Call.freely_holding .exclusive (new id List.mem_cons_self) (Call.freely_update rfl)
    refine settles.bind fun l₁ settled same => ?_
    rw [← same] at first more none
    refine (ih first fun id hid => new id (List.mem_cons_of_mem _ hid)).bind fun l₂ n rest => ?_
    obtain ⟨⟨gone₂, second, more'⟩, none'⟩ := rest
    refine Call.freely_done ⟨⟨gone₂, { second with clean := fun id' r saw => ?_ }, ?_⟩, fun zero => ?_⟩
    · exact second.clean id' r (by rwa [List.mem_cons, ← or_assoc] at saw)
    · rw [more', more, Nat.add_assoc, Nat.add_comm n]
    · cases settled with
      | false => exact (none' (by simpa using zero)).trans (none rfl)
      | true => exact absurd zero (by simp)

/-- **A sweep** settles all that has lapsed, and answers how many that were. -/
theorem freely_sweep (m : Moment) (l : Ledger) :
    sweep.Freely [] m l fun l' n =>
      (∃ gone, Drained m.stamp gone l l' ∧ gone.length = n) ∧ (n = 0 → l' = l) := by
  change (Call.bind (list fun i => i.status = .reserved) fun infos =>
    settleEach m.stamp (infos.map ResourceInfo.id)).Freely [] m l _
  have lists : (list fun i => i.status = .reserved).Freely [] m l fun l' infos => l' = l ∧
      ∀ id r, l.resources.get? id = some r → r.status = .reserved →
        id ∈ infos.map ResourceInfo.id := by
    refine (freely_readEach (fun id r => r.info id) (sortBy Id.le l.resources.keys)).bind
      fun l' infos hread => Call.freely_done ⟨hread.1, fun id r hr reserved => ?_⟩
    have known : id ∈ l.resources.keys := by
      rw [← Table.contains_iff, Table.contains_eq_isSome, hr]
      rfl
    have info : r.info id ∈ infos := by
      rw [hread.2]
      exact List.mem_filterMap.2 ⟨id, mem_sortBy.2 known, by rw [hr]; rfl⟩
    exact List.mem_map.2 ⟨r.info id, List.mem_filter.2 ⟨info, decide_eq_true reserved⟩, rfl⟩
  refine lists.bind fun l' infos listing => ?_
  obtain ⟨rfl, listed⟩ := listing
  refine (freely_settleEach (Drains.refl m.stamp l') _ fun _ _ => List.not_mem_nil).mono ?_
  rintro l'' n ⟨⟨gone, drains, number⟩, none⟩
  refine ⟨⟨gone, drains.drained fun id r hr lapsed => .inr ?_, by simpa using number⟩, none⟩
  exact listed id r hr (Resource.lapsed_iff.1 lapsed).1

/-! ## Deadlines -/

/-- Tries the hold of each of some deadlines, one after the other, and notes what comes of it. -/
def expireAll (s : CoordinatorSettings) : List Expiry → Call Ledger (List (Except CallError Bool))
  | [] => return []
  | e :: es => do
    let first ← expireHold s e.id e.generation
    let rest ← expireAll s es
    return first :: rest

/-- Whether an attempt has settled a hold. -/
def struck : Except CallError Bool → Bool
  | .ok settled => settled
  | .error _ => false

/-- **An attempt** on one hold. -/
theorem freely_expireHold (s : CoordinatorSettings) (h : Drains m.stamp seen gone l l') (id : Id)
    (generation : UInt64) :
    (expireHold s id generation).Freely [] m l' fun l'' a =>
      ∃ gone', Drains m.stamp
          (fun id' r => seen id' r ∨ id' = id ∧ r.claim.any fun c => c.generation = generation)
          gone' l l'' ∧ gone'.length = gone.length + if struck a then 1 else 0 := by
  refine freely_known (fun unknown => ?_) fun r _ => freely_lockDue ?_
  · refine Call.freely_done ⟨gone, { h with clean := fun id' r saw hr => ?_ }, rfl⟩
    rcases saw with saw | ⟨rfl, -⟩
    · exact h.clean id' r saw hr
    · rw [unknown] at hr
      cases hr
  · refine freely_underLock List.not_mem_nil (Call.freely_update ?_)
    exact (h.quiet (quiet_count l' .lockWait)).expire id generation

/-- **Attempts on the holds of deadlines** look at those holds that have one of the deadlines. -/
theorem freely_expireAll (s : CoordinatorSettings) (h : Drains m.stamp seen gone l l')
    (es : List Expiry) :
    (expireAll s es).Freely [] m l' fun l'' answers =>
      ∃ gone', Drains m.stamp
          (fun id r => seen id r ∨ ∃ e ∈ es, id = e.id ∧ r.claim.any fun c =>
            c.generation = e.generation) gone' l l'' ∧
        gone'.length = gone.length + answers.countP struck := by
  induction es generalizing seen gone l' with
  | nil =>
    refine Call.freely_done ⟨gone, { h with clean := fun id r saw => ?_ }, rfl⟩
    exact h.clean id r (saw.resolve_right fun ⟨_, he, _⟩ => absurd he List.not_mem_nil)
  | cons e es ih =>
    refine (freely_expireHold s h e.id e.generation).bind fun l₁ first came => ?_
    obtain ⟨gone₁, drains, more⟩ := came
    refine (ih drains).bind fun l₂ rest came => ?_
    obtain ⟨gone₂, drains', more'⟩ := came
    refine Call.freely_done ⟨gone₂, { drains' with clean := fun id r saw => ?_ }, ?_⟩
    · refine drains'.clean id r ?_
      rcases saw with saw | ⟨e', he, same⟩
      · exact .inl (.inl saw)
      · rcases List.mem_cons.1 he with rfl | he
        · exact .inl (.inr same)
        · exact .inr ⟨e', he, same⟩
    · rw [more', more, List.countP_cons]
      omega

/-! ## Where no lock is contended -/

/-- Resources are registered as available, and groups are founded. -/
def Registration.Plain : Registration → Prop
  | .resource _ r => r.status = .available ∧ r.claim = none
  | .group _ => True

/-- What a ledger comes to when one thing is done after the other while all locks are free, up to
the moment `m`. -/
inductive Calm (s : CoordinatorSettings) : Moment → Ledger → Prop where
  /-- nobody has had any of the resources yet -/
  | opens (m : Moment) {l : Ledger} (start : l.Untouched) (idle : l.pending = [])
    (used : l.inUse = true) : Calm s m l
  /-- a registration -/
  | registers {m : Moment} {l : Ledger} (before : Calm s m l) (a : Registration) (plain : a.Plain) :
    Calm s m (l.register m.stamp a).2
  /-- a request, or a look -/
  | errand {m m' : Moment} {l l' : Ledger} {c : Call Ledger Reply} (before : Calm s m l)
    (time : m.Before m') (errand : Errand s c) (owner : Owner) {ls : Locks} (free : ls.Free)
    (ran : (c.run owner m' l ls).2.1 = l') : Calm s m' l'
  /-- a stretch of a chore -/
  | chore {m m' : Moment} {l l' : Ledger} (before : Calm s m l) (time : m.Before m')
    (stretch : l.Stretch s m' l') : Calm s m' l'

/-- The books are in order, and no deadline was put off. -/
structure Undelayed (l : Ledger) : Prop where
  /-- the records of the bookings are in order -/
  orderly : l.Orderly
  /-- claims and records agree -/
  agreement : l.Agreement
  /-- the reaper has nothing in hand -/
  free : l.inHand = []
  /-- the ledger is in use -/
  used : l.inUse = true
  /-- every hold has its very deadline pending -/
  noted : l.Noted

theorem Undelayed.steps (h : Undelayed l) (steps : Steps m l l') : Undelayed l' := by
  refine steps.keeps (fun step h => ?_) h
  exact ⟨step.orderly h.orderly, step.agreement h.agreement h.orderly, step.inHand.trans h.free,
    step.inUse.trans h.used, h.noted.step step⟩

/-- Errands and sweeps put nothing off. -/
theorem Undelayed.task (h : Undelayed l) {c : Call Ledger Reply} (task : Task s c) {ls : Locks}
    (free : ls.Free) (owner : Owner) : Undelayed (c.run owner m l ls).2.1 :=
  h.steps (did_run (task.keeps m l h.orderly) (fun _ _ _ did => did) h.orderly free owner)

/-- A reaper that clears what is due puts nothing off. -/
theorem Undelayed.clearing (h : Undelayed l) (clearing : Clearing m l l')
    (upkeep : Upkeep m l l') : Undelayed l' := by
  obtain ⟨noted, hand, used⟩ := h.noted.clearing clearing h.agreement h.free
  exact ⟨upkeep.sameBooks.orderly h.orderly, h.agreement.upkeep upkeep, hand, used.trans h.used,
    noted⟩

/-- What a call makes of its answer is of no account to the state. -/
theorem run_map {β : Type} (c : Call Ledger α) (f : α → β) (owner : Owner) (ls : Locks) :
    ((c.bind fun a => .done (f a)).run owner m l ls).2.1 = (c.run owner m l ls).2.1 := by
  rw [Call.run_bind]
  rcases c.run owner m l ls with ⟨_ | _, l', ls'⟩ <;> rfl

/-- **A stretch of a chore** that finds all locks free puts nothing off. -/
theorem Undelayed.stretch (h : Undelayed l) (stretch : l.Stretch s m l') : Undelayed l' := by
  have upkeep := stretch.upkeep h.orderly
  cases stretch with
  | begins c chore owner ls free ran =>
    cases chore with
    | sweep => exact ran ▸ h.task (Task.sweep (s := s)) free owner
    | expiry id generation =>
      rw [run_map] at ran
      cases hr : l.resources.get? id with
      | none =>
        rw [run_expireHold_of_unknown hr] at ran
        exact ran ▸ h
      | some r =>
        obtain ⟨ls', run, -⟩ := run_expireHold s generation owner m hr (free _)
        rw [run] at ran
        subst ran
        have counted : Undelayed (l.count .lockWait) := h.steps (m := m) (quiet_count l _).steps
        rcases (l.count .lockWait).expire_cases m.stamp id generation with e | e <;> rw [e]
        · exact counted
        · exact counted.steps (steps_settle _ m id)
    | reaper =>
      have round : Reaper.Unhindered s m l ls (.turn (Reaper.round s))
          ((Reaper.round s).run owner m l ls) :=
        Reaper.unhindered_round (fun e _ _ => free (.resource e.id)) h.used
      change ((Reaper.round s).run owner m l ls).2.1 = l' at ran
      generalize (Reaper.round s).run owner m l ls = r at round ran
      cases round with
      | sleeps due early calm => exact ran ▸ h
      | clears clearing same called => exact h.clearing (ran ▸ clearing) upkeep
  | wakes due owner ls free go isOver ran =>
    -- it may have taken notice of an early deadline
    have woken : ∃ q, (q = l.expiries ∨ q = l.expiries.noticed) ∧
        go = (reap s, { l with expiries := q }, ls) := by
      cases isOver with
      | come sign k passed => exact ⟨l.expiries, .inl rfl, rfl⟩
      | signed k found =>
        obtain ⟨-, rfl⟩ := wakeSign_eq_some.1 found
        exact ⟨_, .inr rfl, rfl⟩
    obtain ⟨q, queue, rfl⟩ := woken
    obtain ⟨l₁, ls₁, run, clears, -⟩ := Reaper.run_awake (m := m) (l := { l with expiries := q })
      s owner h.used fun e _ _ => free (.resource e.id)
    have awake : ((Reaper.awake s).run owner m { l with expiries := q } ls).2.1 = l' :=
      (run_map (reap s) Reply.round owner ls).trans ran
    rw [run] at awake
    obtain rfl : l₁ = l' := awake
    refine h.clearing ⟨_, ?_, clears⟩ upkeep
    rcases queue with rfl | rfl
    · exact .inl rfl
    · exact .inr rfl

/-- **Registering** puts nothing off. -/
theorem Undelayed.register (h : Undelayed l) {a : Registration} (plain : a.Plain) :
    Undelayed (l.register now a).2 := by
  cases a with
  | group name =>
    refine ⟨⟨h.orderly.filed, fun id b hb => ?_, h.orderly.once⟩, h.agreement.congr rfl rfl rfl,
      h.free, h.used, h.noted⟩
    exact (h.orderly.fresh id b hb).draw .group now
  | resource id r =>
    obtain ⟨free, none⟩ := plain
    simp only [Ledger.register, add]
    split
    · next added =>
      split at added
      · cases added
      · next new =>
        obtain rfl := Except.ok.inj added
        have unknown : l.resources.get? id = Option.none := by
          simpa [Table.contains_eq_isSome] using new
        have found : ∀ id', (l.resources.insert id r).get? id' =
            if id' = id then some r else l.resources.get? id' := fun id' => Table.get?_insert ..
        refine ⟨⟨h.orderly.filed, h.orderly.fresh, h.orderly.once⟩,
          { resources := fun id' r' hr' => ?_, carried := fun id' r' booking hr' hb => ?_,
            listed := fun booking b hb stands id' hid => ?_, turns := h.agreement.turns },
          h.free, h.used, fun id' r' deadline hr' held => ?_⟩
        · replace hr' := (found id').symm.trans hr'
          split at hr'
          · cases hr'
            exact ⟨⟨fun _ => none, fun _ => free⟩,
              fun held => absurd (free.symm.trans held) (by decide),
              fun booked => absurd (free.symm.trans booked) (by decide)⟩
          · exact h.agreement.resources id' r' hr'
        · replace hr' := (found id').symm.trans hr'
          split at hr'
          · cases hr'
            rw [none] at hb
            cases hb
          · exact h.agreement.carried id' r' booking hr' hb
        · obtain ⟨r', hr', belongs⟩ := h.agreement.listed booking b hb stands id' hid
          refine ⟨r', (found id').trans ((if_neg ?_).trans hr'), belongs⟩
          rintro rfl
          rw [unknown] at hr'
          cases hr'
        · replace hr' := (found id').symm.trans hr'
          split at hr'
          · cases hr'
            exact absurd (free.symm.trans held.1) (by decide)
          · exact h.noted id' r' deadline hr' held
    · exact h

/-- **Where no lock is contended** no deadline is put off. -/
theorem Calm.undelayed (h : Calm s m l) : Undelayed l := by
  induction h with
  | opens m start idle used =>
    refine ⟨orderly_of_none start.bookings, start.agreement, (List.append_eq_nil_iff.1 idle).2, used,
      fun id r deadline hr held => ?_⟩
    exact nomatch (start.resources id r hr).1.symm.trans held.1
  | registers _ a plain ih => exact ih.register plain
  | errand _ _ errand owner free ran ih => exact ran ▸ ih.task (.errand errand) free owner
  | chore _ _ stretch ih => exact ih.stretch stretch

/-! ## The two ways -/

/-- Every hold that has lapsed has one of the deadlines that have come. -/
theorem Undelayed.mem_due (h : Undelayed l) {r : Resource} (hr : l.resources.get? id = some r)
    (lapsed : r.lapsed now = true) :
    ∃ e ∈ (l.takeDue now).1, id = e.id ∧ r.claim.any fun c => c.generation = e.generation := by
  obtain ⟨reserved, -, -, -, -, -⟩ := Resource.lapsed_iff.1 lapsed
  obtain ⟨c, deadline, hc, hd, -, current⟩ := (h.agreement.resources id r hr).reserved reserved
  have held := Resource.heldUntil_of_claim reserved hc hd
  have noted := h.noted id r deadline hr held
  rw [pending, h.free, List.append_nil] at noted
  refine ⟨⟨deadline, id, r.generation⟩, ?_, rfl, by simp [hc, current]⟩
  exact ExpiryQueue.mem_due_iff.2 ⟨noted, held.lapsed_iff.1 lapsed⟩

/-- **Attempts on the deadlines that have come**, in any order, settle all that has lapsed. -/
theorem Undelayed.freely_expireAll (h : Undelayed l) (s : CoordinatorSettings) {es : List Expiry}
    (order : es.Perm (l.takeDue m.stamp).1) :
    (expireAll s es).Freely [] m (l.takeDue m.stamp).2 fun l' answers =>
      ∃ gone, Drained m.stamp gone (l.takeDue m.stamp).2 l' ∧
        gone.length = answers.countP struck := by
  refine (Ledger.freely_expireAll s (Drains.refl m.stamp _) es).mono ?_
  rintro l' answers ⟨gone, drains, number⟩
  refine ⟨gone, drains.drained fun id r hr lapsed => .inr ?_, by simpa using number⟩
  obtain ⟨e, he, same⟩ := h.mem_due hr lapsed
  exact ⟨e, order.mem_iff.2 he, same⟩

/-- A hold that has lapsed is one whose deadline has come. -/
theorem lapsed_iff_heldUntil {r : Resource} :
    r.lapsed now = true ↔ ∃ deadline, r.HeldUntil deadline ∧ deadline ≤ now := by
  constructor
  · intro lapsed
    obtain ⟨reserved, c, deadline, hc, hd, come⟩ := Resource.lapsed_iff.1 lapsed
    exact ⟨deadline, Resource.heldUntil_of_claim reserved hc hd, come⟩
  · rintro ⟨deadline, held, come⟩
    exact held.lapsed_iff.2 come

/-- **Sweeps and deadlines come to the same.** Where no lock is contended, a sweep settles exactly
the holds whose deadlines have come and says how many these are. Nothing else happens, what is left
of each resource is what settling it alone would have left, and another sweep at that moment finds
nothing to do.

Whoever takes out the deadlines that have come and tries each of them, in any order, is left with
the same resources, and settles as many holds. -/
theorem sweeps_like_deadlines (calm : l.Calm s m) (m' : Moment) {ls : Locks} (free : ls.Free)
    (owner : Owner) :
    ∃ n l₁ ls₁ gone, sweep.run owner m' l ls = (.returned n, l₁, ls₁) ∧ ls₁.Free ∧
      OnlySettles m'.stamp gone l l₁ ∧ Ahead m'.stamp l l₁ ∧ gone.length = n ∧
      (∀ id, id ∈ gone.map Prod.fst ↔ ∃ r deadline, l.resources.get? id = some r ∧
        r.HeldUntil deadline ∧ deadline ≤ m'.stamp) ∧
      (∀ id, l₁.resources.get? id = (l.settle m'.stamp id).2.resources.get? id) ∧
      (∃ ls₂, sweep.run owner m' l₁ ls₁ = (.returned 0, l₁, ls₂)) ∧
      ∀ es, es.Perm (l.takeDue m'.stamp).1 →
        ∃ answers l₂ ls₂,
          (expireAll s es).run owner m' (l.takeDue m'.stamp).2 ls = (.returned answers, l₂, ls₂) ∧
          l₂.resources = l₁.resources ∧ answers.countP struck = n := by
  obtain ⟨n, l₁, ls₁, ran, free₁, ⟨gone, drained, number⟩, -⟩ := (freely_sweep m' l).run free owner
  refine ⟨n, l₁, ls₁, gone, ran, free₁, drained.toOnlySettles, drained.ahead, number, ?_, ?_, ?_, ?_⟩
  · intro id
    simp only [drained.mem_gone_iff, lapsed_iff_heldUntil, exists_and_left]
  · intro id
    rw [drained.get?, get?_settle_self]
  · obtain ⟨n', l₂, ls₂, ran', -, ⟨gone', drained', number'⟩, none⟩ :=
      (freely_sweep m' l₁).run free₁ owner
    obtain rfl : n' = 0 := by rw [← number', drained.again drained']; rfl
    rw [ran', none rfl]
    exact ⟨ls₂, rfl⟩
  · intro es order
    obtain ⟨answers, l₂, ls₂, ran', -, gone', drained', number'⟩ :=
      (calm.undelayed.freely_expireAll s order).run free owner
    obtain ⟨resources, same⟩ := drained.same drained' rfl
    exact ⟨answers, l₂, ls₂, ran', resources, by rw [← number', same, number]⟩

/-- Bob gives up the hold that he has, and asks for another one. -/
def bobTwice : Ledger :=
  let after (r : Request) (l : Ledger) : Ledger :=
    ((r.errand .standard).run 0 ⟨0, 0⟩ l Locks.empty).2.1
  after .bobReserves (after (.cancel ⟨0, 1⟩ "Bob") (after .bobReserves hallOfTwo))

/-- So it is when Bob has let his second hold lapse. Two deadlines have come, and whichever is tried
first, one of them settles a hold. -/
theorem sweeps_like_deadlines_for_bob :
    bobTwice.Calm .standard ⟨0, 0⟩ ∧ Locks.empty.Free ∧
    (bobTwice.takeDue 1000).1.map Expiry.generation = [1, 2] ∧
    ∃ l₁ ls₁ gone, sweep.run 0 ⟨0, 1000⟩ bobTwice Locks.empty = (.returned 1, l₁, ls₁) ∧
      gone.map Prod.fst = [⟨0, 1⟩] ∧ OnlySettles 1000 gone bobTwice l₁ ∧
      ∃ answers l₂ ls₂,
        (expireAll .standard (bobTwice.takeDue 1000).1.reverse).run 0 ⟨0, 1000⟩
          (bobTwice.takeDue 1000).2 Locks.empty = (.returned answers, l₂, ls₂) ∧
        l₂.resources = l₁.resources ∧ answers.countP struck = 1 := by
  have opens : hallOfTwo.Calm .standard ⟨0, 0⟩ := .opens _ untouched_hallOfTwo rfl rfl
  have calm : bobTwice.Calm .standard ⟨0, 0⟩ :=
    ((opens.errand (.refl _) (.request _) 0 Locks.free_empty rfl).errand (.refl _) (.request _) 0
      Locks.free_empty rfl).errand (.refl _) (.request _) 0 Locks.free_empty rfl
  have stamp : (⟨0, 1000⟩ : Moment).stamp = 1000 := by decide
  obtain ⟨n, l₁, ls₁, gone, ran, -, only, -, number, which, -, -, deadlines⟩ :=
    sweeps_like_deadlines calm ⟨0, 1000⟩ Locks.free_empty 0
  have one : (match (sweep.run 0 ⟨0, 1000⟩ bobTwice Locks.empty).1 with
      | .returned n => n
      | .waiting _ => 0) = 1 := by decide +kernel
  obtain rfl : n = 1 := by rwa [ran] at one
  obtain ⟨p, rfl⟩ := List.length_eq_one_iff.1 number
  have held : (bobTwice.resources.get? ⟨0, 1⟩).map
      (fun r => (r.status, r.claim.bind Claim.deadline)) = some (.reserved, some 1000) := by
    decide +kernel
  obtain ⟨r, hr, e⟩ := Option.map_eq_some_iff.1 held
  obtain ⟨reserved, deadline⟩ := Prod.mk.inj e
  have seat : ⟨0, 1⟩ = p.1 := by
    simpa using (which ⟨0, 1⟩).2 ⟨r, 1000, hr, ⟨reserved, deadline⟩, Int.le_of_eq stamp.symm⟩
  rw [stamp] at only deadlines
  exact ⟨calm, Locks.free_empty, by decide +kernel, l₁, ls₁, [p], ran, by rw [seat]; rfl, only,
    deadlines _ (List.reverse_perm _)⟩

end Ledger

end Tenure
