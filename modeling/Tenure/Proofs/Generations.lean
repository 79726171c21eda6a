import Tenure.Proofs.Expiries
import Tenure.Proofs.Telling

/-!
# Generations identify holds

Deadlines are never taken out of the queue when a hold is confirmed or cancelled, so deadlines of
earlier holds come while a later hold is on the resource, or a group booking that bears the
generation of the last hold. What tells them apart is the generation.

The holds granted on a resource have generations that increase strictly (`Counted.grants`), and
nothing else changes the generation of a resource. An attempt on one generation frees the
resource only from the hold that was granted with it, after its deadline, and never again after
that, since the generation has passed (`Passed`). Both is said of histories in which no counter
reaches its last value (`Countable`), from where it would start anew.
-/

namespace Tenure

/-! ## Holds granted, and holds told of -/

/-- The hold that an event tells of. -/
def Event.hold? : Event → Option Hold
  | holdPlaced id holder price deadline generation =>
    some ⟨id, holder, price, deadline, generation⟩
  | _ => none

/-- The hold that a request was granted. -/
def Answer.hold? : Answer → Option Hold
  | hold (.ok (.granted h)) => some h
  | _ => none

/-- The hold that a party was granted. -/
def Reply.hold? : Reply → Option Hold
  | answered _ a => a.hold?
  | _ => none

/-- The holds granted so far, the latest first. -/
def Traffic.granted (t : Traffic Ledger Reply) : List Hold :=
  t.returned.filterMap fun r => r.answer.hold?

/-- The news of a hold come from the event that told of it. -/
theorem exists_hold_of_newsOf {history : List (Id × Event)} {id : Id} {holder : String}
    {deadline : Int} {generation : UInt64}
    (known : newsOf history id = .held holder deadline generation) :
    ∃ h ∈ history.filterMap fun x => x.2.hold?,
      h.id = id ∧ h.holder = holder ∧ h.deadline = deadline ∧ h.generation = generation := by
  induction history with
  | nil => cases known
  | cons x history ih =>
    have older : newsOf history id = .held holder deadline generation →
        ∃ h ∈ (x :: history).filterMap fun x => x.2.hold?,
          h.id = id ∧ h.holder = holder ∧ h.deadline = deadline ∧ h.generation = generation := by
      intro known
      obtain ⟨h, hh, about⟩ := ih known
      refine ⟨h, ?_, about⟩
      rw [List.filterMap_cons]
      split
      · exact hh
      · exact List.mem_cons_of_mem _ hh
    obtain ⟨key, e⟩ := x
    change (newsOf history id).hear id e = _ at known
    cases e with
    | holdPlaced id' holder' price deadline' generation' =>
      simp only [News.hear] at known
      split at known
      · next same =>
        cases known
        exact ⟨⟨id', holder, price, deadline, generation⟩, List.mem_cons_self, same.symm, rfl, rfl,
          rfl⟩
      · exact older known
    | resourceAdded _ _ => exact older known
    | _ =>
      simp only [News.hear] at known
      split at known
      · cases known
      · exact older known

namespace Ledger

variable {l l' l'' : Ledger} {m : Moment} {now : Int} {id : Id} {generation : UInt64}
  {s : CoordinatorSettings}

/-- The holds that were told of, the latest first. -/
def holds (l : Ledger) : List Hold := l.hub.history.filterMap fun x => x.2.hold?

/-- Telling of something else than a hold. -/
theorem holds_of_silent {key : Id} {e : Event} (hub : l'.hub = l.hub.send key e)
    (silent : e.hold? = none) : l'.holds = l.holds := by
  rw [holds, hub]
  exact List.filterMap_cons_none silent

/-- Telling of a hold. -/
theorem holds_of_told {key : Id} {e : Event} {h : Hold} (hub : l'.hub = l.hub.send key e)
    (tells : e.hold? = some h) : l'.holds = h :: l.holds := by
  rw [holds, hub]
  exact List.filterMap_cons_some tells

theorem holds_settle (l : Ledger) (now : Int) (id : Id) :
    (l.settle now id).2.holds = l.holds := by
  rcases l.settle_cases now id with ⟨r, c, -, -, -, e⟩ | ⟨-, e⟩ <;> rw [e]
  exact holds_of_silent (l := l) rfl rfl

theorem Settles.holds (h : Settles now l l') : l'.holds = l.holds := by
  induction h with
  | none => rfl
  | snoc _ id ih => rw [holds_settle, ih]

theorem Quiet.holds (h : Quiet l l') : l'.holds = l.holds := by
  obtain ⟨x, rfl⟩ := h
  rfl

theorem Upkeep.holds (h : Upkeep m l l') : l'.holds = l.holds := by
  induction h with
  | none => rfl
  | settle _ _ id ih => rw [holds_settle, ih]
  | tidy _ _ _ _ ih => exact ih

/-- A hold was granted: it is the next on its resource, and it is on it now. -/
structure Grants (l : Ledger) (h : Hold) (l' : Ledger) : Prop where
  /-- it is told of -/
  told : l'.holds = h :: l.holds
  /-- it has the next generation, and it is on its resource -/
  placed : ∃ r, l.resources.get? h.id = some r ∧ h.generation = r.generation + 1 ∧
    l'.resources.get? h.id = some (held r h)
  /-- the other resources are the same -/
  others : ∀ id, id ≠ h.id → l'.resources.get? id = l.resources.get? id

/-- Settling leaves no trace on a resource that is held afterwards. -/
@[simp] theorem held_settled (r : Resource) (now : Int) (h : Hold) :
    held (r.settled now) h = held r h := by
  simp only [Resource.settled]
  split <;> rfl

/-- **Placing a hold**: it is granted, or none is told of. -/
theorem grants_of_place (l : Ledger) (now : Int) (id : Id) (holder : String) (millis : Nat)
    (price : Float → Float) :
    (∀ h, (l.place now id holder millis price).1 = .ok (.granted h) →
      Grants l h (l.place now id holder millis price).2) ∧
    ((∀ h, (l.place now id holder millis price).1 ≠ .ok (.granted h)) →
      (l.place now id holder millis price).2.holds = l.holds) := by
  rcases l.place_cases now id holder millis price with
    ⟨-, e⟩ | ⟨r, -, -, -, e⟩ | ⟨r, hr, free, e⟩ <;> rw [e]
  · exact ⟨fun h => (nomatch ·), fun _ => rfl⟩
  · exact ⟨fun h => (nomatch ·), fun _ => rfl⟩
  · refine ⟨?_, fun none => absurd rfl (none _)⟩
    rintro h ⟨⟩
    refine ⟨?_, ⟨r, hr, ?_, ?_⟩, fun id' other => ?_⟩
    · refine (holds_of_told (l := (l.settle now id).2) rfl rfl).trans ?_
      rw [holds_settle]
      rfl
    · rw [holdOn, Resource.generation_settled]
    · refine (get?_turn _ id id true _).trans ?_
      rw [if_pos rfl, get?_settle_self, hr, Option.map_some, Option.map_some, held_settled]
    · change id' ≠ id at other
      refine (get?_turn _ id id' true _).trans ?_
      rw [if_neg other, get?_settle, if_neg other]

theorem holds_confirm (l : Ledger) (policy : HolderPolicy) (now : Int) (id : Id)
    (holder : String) : (l.confirm policy now id holder).2.holds = l.holds := by
  rcases l.confirm_cases policy now id holder with
    ⟨err, -, e⟩ | ⟨r, c, -, -, -, -, -, e⟩ <;> rw [e]
  · exact holds_settle l now id
  · exact holds_of_silent (l := l) rfl rfl

theorem holds_cancel (l : Ledger) (policy : HolderPolicy) (now : Int) (id : Id)
    (holder : String) : (l.cancel policy now id holder).2.holds = l.holds := by
  rcases l.cancel_cases policy now id holder with ⟨err, -, e⟩ | ⟨r, -, -, -, -, -, e⟩ <;> rw [e]
  · exact holds_settle l now id
  · exact holds_of_silent (l := l) rfl rfl

theorem holds_bookAtOnce (l : Ledger) (now : Int) (group : Id) (holder : String) (ids : List Id)
    (price : Float → Float) : (l.bookAtOnce now group holder ids price).2.holds = l.holds := by
  obtain ⟨err, refused⟩ | ⟨-, -, decided⟩ := l.bookAtOnce_cases now group holder ids price
  · rw [refused]
  · rw [decided]
    have settled : Settles now l (settleAll now (ascending ids) l).2 := Settles.none.settleAll _
    rcases l.book_cases now group holder ids price with
      ⟨id, status, l', hs, e⟩ | ⟨l', l'', hs, e, -⟩ <;> rw [hs] at settled
    · rw [e]
      exact settled.holds
    · exact (holds_of_silent (hub_book hs) rfl).trans settled.holds

theorem holds_cancelGroupAtOnce (l : Ledger) (policy : HolderPolicy) (booking : Id)
    (holder : String) : (l.cancelGroupAtOnce policy booking holder).2.holds = l.holds := by
  obtain ⟨err, -, refused⟩ | ⟨b, -, -, done⟩ := l.cancelGroupAtOnce_cases policy booking holder
  · rw [refused]
  · rw [done]
    exact holds_of_silent (l.hub_cancelBooking b) rfl

/-- **Every request** is granted a hold, or none is told of. -/
theorem grants_of_atOnce (l : Ledger) (s : CoordinatorSettings) (now : Int) (r : Request) :
    (∀ h, (r.atOnce s now l).1.hold? = some h → Grants l h (r.atOnce s now l).2) ∧
      ((r.atOnce s now l).1.hold? = none → (r.atOnce s now l).2.holds = l.holds) := by
  have reserved : ∀ id holder duration price,
      (∀ h, (Answer.hold (l.reserveAtOnce now id holder duration price).1).hold? = some h →
        Grants l h (l.reserveAtOnce now id holder duration price).2) ∧
      ((Answer.hold (l.reserveAtOnce now id holder duration price).1).hold? = none →
        (l.reserveAtOnce now id holder duration price).2.holds = l.holds) := by
    intro id holder duration price
    obtain ⟨err, refused⟩ | placed := l.reserveAtOnce_cases now id holder duration price
    · rw [refused]
      exact ⟨fun h => (nomatch ·), fun _ => rfl⟩
    · rw [placed]
      obtain ⟨granted, denied⟩ := l.grants_of_place now id holder (duration / 1000000) price
      refine ⟨fun h hh => granted h ?_, fun none => denied fun h e => ?_⟩
      · simp only [Answer.hold?] at hh
        split at hh
        · next e => cases hh; simpa using e
        · cases hh
      · rw [e] at none
        cases none
  cases r with
  | reserve id holder duration price => exact reserved id holder duration price
  | reserveDefault id holder price => exact reserved id holder _ price
  | confirm id holder =>
    exact ⟨fun h => (nomatch ·), fun _ => l.holds_confirm s.policy now id holder⟩
  | cancel id holder =>
    exact ⟨fun h => (nomatch ·), fun _ => l.holds_cancel s.policy now id holder⟩
  | book group holder ids price =>
    exact ⟨fun h => (nomatch ·), fun _ => l.holds_bookAtOnce now group holder ids price⟩
  | bookByName group holder names price =>
    refine ⟨fun h => (nomatch ·), fun _ => ?_⟩
    change (l.bookByNameAtOnce now group holder names price).2.holds = l.holds
    obtain missing | ⟨ids, found⟩ := l.bookByNameAtOnce_cases now group holder names price
    · rw [missing]
    · rw [found]
      exact l.holds_bookAtOnce now group holder ids price
  | cancelGroup booking holder =>
    exact ⟨fun h => (nomatch ·), fun _ => l.holds_cancelGroupAtOnce s.policy booking holder⟩

/-! ## What one move does to holds -/

/-- Holds are counted by those that were told of. -/
theorem grants_eq_countP (l : Ledger) (id : Id) :
    l.grants id = l.holds.countP fun h => h.id = id := by
  rw [grants, holds, List.countP_filterMap]
  congr 1
  funext x
  cases x.2 with
  | _ => simp [Event.places, Event.hold?]

/-- Holds that were granted stay granted. -/
theorem Steps.grants_le (h : Steps m l l') (id : Id) : l.grants id ≤ l'.grants id := by
  induction h with
  | none => exact Nat.le_refl _
  | @snoc l₁ l₂ _ step ih =>
    refine Nat.le_trans ih ?_
    rcases step.fades_or_places with ⟨fades, -⟩ | ⟨id', r, hold, placed⟩
    · exact Nat.le_of_eq (fades.grants id).symm
    · rw [placed.grants]
      exact Nat.le_add_right _ _

/-- No hold was granted, and holds have ended at most. -/
structure NoGrant (l l' : Ledger) : Prop extends Fades l l' where
  /-- no hold was told of -/
  told : l'.holds = l.holds

theorem NoGrant.trans (h : NoGrant l l') (h' : NoGrant l' l'') : NoGrant l l'' :=
  ⟨h.toFades.trans h'.toFades, h'.told.trans h.told⟩

/-- Where no hold is told of, none was placed. -/
theorem Steps.noGrant (h : Steps m l l') (same : l'.holds = l.holds) : NoGrant l l' := by
  refine ⟨?_, same⟩
  have few : ∀ id, l'.grants id ≤ l.grants id := by
    intro id
    exact Nat.le_of_eq (by rw [grants_eq_countP, grants_eq_countP, same])
  clear same
  induction h with
  | none => exact .of_eq rfl rfl
  | @snoc l₁ l₂ before step ih =>
    rcases step.fades_or_places with ⟨fades, -⟩ | ⟨id, r, hold, placed⟩
    · refine (ih fun id => ?_).trans fades
      rw [← fades.grants id]
      exact few id
    · -- it would be counted
      have more := placed.grants id
      rw [if_pos rfl] at more
      have le := before.grants_le id
      have := few id
      omega

theorem Quiet.noGrant (h : Quiet l l') : NoGrant l l' :=
  ⟨by obtain ⟨x, rfl⟩ := h; exact .of_eq rfl rfl, h.holds⟩

theorem Upkeep.noGrant (h : Upkeep m l l') : NoGrant l l' := by
  refine ⟨?_, h.holds⟩
  induction h with
  | none => exact .of_eq rfl rfl
  | @settle l₁ _ m' time id ih =>
    have settled := ((Steps.none.settle time id : Steps m l₁ _).noGrant (holds_settle l₁ _ id))
    exact ih.trans settled.toFades
  | tidy _ _ _ _ ih => exact ih.congr rfl rfl

theorem Grants.quiet {h : Hold} (grants : Grants l h l') (quiet : Quiet l' l'') :
    Grants l h l'' := by
  obtain ⟨x, rfl⟩ := quiet
  exact ⟨grants.told, grants.placed, grants.others⟩

theorem hold_eq_none_of_late {a : Answer} (h : a.late = true) : a.hold? = none := by
  unfold Answer.late at h
  split at h <;> first | rfl | cases h

/-! ## Counters -/

/-- No counter of holds has reached its last value. -/
def Countable (l : Ledger) : Prop :=
  ∀ id r, l.resources.get? id = some r → r.generation ≠ 0xffffffffffffffff

/-- A counter that has not reached its last value counts on. -/
theorem lt_add_one_of_ne {g : UInt64} (h : g ≠ 0xffffffffffffffff) : g < g + 1 := by
  have bound := g.toNat_lt
  have ne : g.toNat ≠ 0xffffffffffffffff := fun e => h (UInt64.toNat_inj.1 e)
  rw [UInt64.lt_iff_toNat_lt, UInt64.toNat_add]
  simp only [UInt64.reduceToNat] at ne ⊢
  omega

/-- Holds are numbered as the counters count. -/
structure Counted (l : Ledger) : Prop where
  /-- later holds on a resource have higher generations -/
  rising : l.holds.Pairwise fun later earlier =>
    later.id = earlier.id → earlier.generation < later.generation
  /-- the counter of a resource has come to the latest of them -/
  reached : ∀ h ∈ l.holds, ∀ r, l.resources.get? h.id = some r → h.generation ≤ r.generation

theorem Counted.noGrant (h : Counted l) (none : NoGrant l l') : Counted l' := by
  refine ⟨none.told ▸ h.rising, fun hold mem r' hr' => ?_⟩
  obtain ⟨r, hr, same, -⟩ := none.known hold.id r' hr'
  rw [same]
  exact h.reached hold (none.told ▸ mem) r hr

/-- **The next hold has a higher generation** than all before. -/
theorem Counted.grants {hold : Hold} (h : Counted l) (countable : Countable l)
    (grants : Grants l hold l') : Counted l' := by
  obtain ⟨r, hr, next, placed⟩ := grants.placed
  have higher : ∀ earlier ∈ l.holds, hold.id = earlier.id →
      earlier.generation < hold.generation := by
    intro earlier mem same
    have reached := h.reached earlier mem r (same ▸ hr)
    rw [next]
    exact UInt64.lt_of_le_of_lt reached (lt_add_one_of_ne (countable hold.id r hr))
  refine ⟨?_, fun earlier mem r' hr' => ?_⟩
  · rw [grants.told]
    exact List.pairwise_cons.2 ⟨higher, h.rising⟩
  · rw [grants.told] at mem
    by_cases same : earlier.id = hold.id
    · rw [same, placed] at hr'
      cases hr'
      rcases List.mem_cons.1 mem with rfl | mem
      · exact UInt64.le_refl _
      · exact UInt64.le_of_lt (higher earlier mem same.symm)
    · rcases List.mem_cons.1 mem with rfl | mem
      · exact absurd rfl same
      · rw [grants.others _ same] at hr'
        exact h.reached earlier mem r' hr'

/-- The hold of one generation on a resource is over, and there will be no other one. -/
def Passed (id : Id) (generation : UInt64) (l : Ledger) : Prop :=
  ∀ r, l.resources.get? id = some r →
    generation ≤ r.generation ∧ ∀ deadline, r.generation = generation → ¬r.HeldUntil deadline

theorem Passed.noGrant (h : Passed id generation l) (none : NoGrant l l') :
    Passed id generation l' := by
  intro r' hr'
  obtain ⟨r, hr, same, before⟩ := none.known id r' hr'
  obtain ⟨reached, lapses⟩ := h r hr
  rw [same]
  exact ⟨reached, fun deadline current held => lapses deadline current (before deadline held)⟩

theorem Passed.grants {hold : Hold} (h : Passed id generation l) (countable : Countable l)
    (grants : Grants l hold l') : Passed id generation l' := by
  intro r' hr'
  by_cases same : id = hold.id
  · obtain ⟨r, hr, next, placed⟩ := grants.placed
    rw [← same] at hr placed
    rw [placed] at hr'
    cases hr'
    -- it is a later hold that is on the resource now
    have later : generation < hold.generation := by
      rw [next]
      exact UInt64.lt_of_le_of_lt (h r hr).1 (lt_add_one_of_ne (countable id r hr))
    refine ⟨UInt64.le_of_lt later, fun deadline current => ?_⟩
    exact absurd current.symm (UInt64.ne_of_lt later)
  · rw [grants.others id same] at hr'
    exact h r' hr'

/-! ## An attempt on one generation -/

/-- **An attempt on one generation** does nothing, or settles a hold of that generation whose
deadline has come. -/
theorem expire_spec (l : Ledger) (now : Int) (id : Id) (generation : UInt64) :
    l.expire now id generation = (false, l) ∨
    ∃ r c, l.resources.get? id = some r ∧ r.lapsed now = true ∧ r.claim = some c ∧
      c.generation = generation ∧ (l.expire now id generation).1 = true ∧
      ∀ id', (l.expire now id generation).2.resources.get? id' =
        if id' = id then some r.freed else l.resources.get? id' := by
  simp only [expire]
  cases hr : l.resources.get? id with
  | none => exact .inl rfl
  | some r =>
    dsimp only
    split
    · next live =>
      rcases l.settle_cases now id with ⟨r', c, hr', gone, hc, e⟩ | ⟨-, e⟩
      · rw [hr] at hr'
        cases hr'
        have same := (Bool.and_eq_true_iff.1 live).2
        refine .inr ⟨r, c, rfl, gone, hc, by simpa [hc] using same, by rw [e], fun id' => ?_⟩
        rw [get?_settle, hr, Option.map_some, Resource.settled_of_lapsed gone]
      · exact .inl e
    · exact .inl rfl

end Ledger

open Ledger

variable {s : CoordinatorSettings} {m : Moment} {l l' : Ledger}

/-- **A hold is granted exactly if the answer says so**, and else none is placed. -/
theorem Reply.DoesApart.grants {a : Reply} (h : a.DoesApart s m l l') :
    (∃ hold, a.hold? = some hold ∧ Grants l hold l') ∨ (a.hold? = none ∧ NoGrant l l') := by
  rcases h with tells | ⟨chore, upkeep⟩
  · cases a with
    | answered r a =>
      rcases tells with ⟨late, quiet⟩ | ⟨rfl, quiet⟩
      · exact .inr ⟨hold_eq_none_of_late late, quiet.noGrant⟩
      · obtain ⟨granted, none⟩ := l.grants_of_atOnce s m.stamp r
        cases hh : (r.atOnce s m.stamp l).1.hold? with
        | some hold => exact .inl ⟨hold, hh, (granted hold hh).quiet quiet⟩
        | none => exact .inr ⟨hh, ((r.steps s m l).noGrant (none hh)).trans quiet.noGrant⟩
    | looked =>
      have quiet : l.Quiet l' := tells
      exact .inr ⟨rfl, quiet.noGrant⟩
    | swept _ => exact tells.elim
    | expired _ => exact tells.elim
    | round _ => exact tells.elim
  · refine .inr ⟨?_, upkeep.noGrant⟩
    cases a with
    | answered r a => exact chore.elim
    | _ => rfl

namespace Traffic

variable {origin : Int} {l₀ : Ledger} {t u v w : Traffic Ledger Reply} {owner owner' : Owner}
  {id : Id} {generation : UInt64}

/-- A party begins an attempt on the hold of one generation, and its first stretch leads to `u`. -/
def Attempts (s : CoordinatorSettings) (t : Traffic Ledger Reply) (owner : Owner) (id : Id)
    (generation : UInt64) (u : Traffic Ledger Reply) : Prop :=
  t.Stretch owner
    ((expireHold s id generation).bind fun r => .done (.expired r), t.shared, t.locks) u

/-- Whoever enters to make an attempt begins it in its first stretch. -/
theorem exists_attempts (s : CoordinatorSettings) (t : Traffic Ledger Reply) (id : Id)
    (generation : UInt64) :
    ∃ u, (t.enter ((expireHold s id generation).bind fun r => .done (.expired r))).Attempts s
      t.nextOwner id generation u :=
  ⟨_, .of (show _ = t.flights ++ [_] from rfl) rfl (.turn _)⟩

/-- In the move from `t` to `u` a party gets an answer. -/
def Answers (t : Traffic Ledger Reply) (owner : Owner) (a : Reply) (u : Traffic Ledger Reply) :
    Prop :=
  u.returned = ⟨owner, a, t.clock.elapsed⟩ :: t.returned

theorem Stretch.answers {go : Call Ledger Reply × Ledger × Locks} {a : Reply} {l' : Ledger}
    {ls' : Locks} (h : t.Stretch owner go u)
    (run : go.1.run owner t.clock go.2.1 go.2.2 = (.returned a, l', ls')) :
    t.Answers owner a u ∧ u.shared = l' := by
  have returned := h.returned
  rw [run] at returned
  exact ⟨returned, h.shared.trans (by rw [run])⟩

/-- An attempt on a known resource while its lock is free. -/
theorem Attempts.of_known (h : t.Attempts s owner id generation u) {r : Resource}
    (known : t.shared.resources.get? id = some r) (free : t.locks.get (.resource id) = Lock.free) :
    t.Answers owner
        (.expired (.ok ((t.shared.count .lockWait).expire t.clock.stamp id generation).1)) u ∧
      u.shared = ((t.shared.count .lockWait).expire t.clock.stamp id generation).2 := by
  obtain ⟨ls', run, -⟩ := run_expireHold s generation owner t.clock known free
  exact Stretch.answers h (by rw [Call.run_bind, run]; rfl)

/-- **An attempt while the lock is free** answers at once: the resource is unknown, or nothing
is done, or a hold of that generation is settled. -/
theorem Attempts.outcome (h : t.Attempts s owner id generation u)
    (free : t.locks.get (.resource id) = Lock.free) :
    (t.shared.resources.get? id = none ∧ t.Answers owner (.expired (.error (.notFound id))) u ∧
      u.shared = t.shared) ∨
    (t.Answers owner (.expired (.ok false)) u ∧ t.shared.Quiet u.shared) ∨
    ∃ r c, t.shared.resources.get? id = some r ∧ r.lapsed t.clock.stamp = true ∧
      r.claim = some c ∧ c.generation = generation ∧ t.Answers owner (.expired (.ok true)) u ∧
      ∀ id', u.shared.resources.get? id' =
        if id' = id then some r.freed else t.shared.resources.get? id' := by
  cases hr : t.shared.resources.get? id with
  | none =>
    obtain ⟨answers, same⟩ := Stretch.answers h (by
      rw [Call.run_bind, run_expireHold_of_unknown hr]
      rfl)
    exact .inl ⟨rfl, answers, same⟩
  | some r =>
    obtain ⟨answers, same⟩ := h.of_known hr free
    refine .inr ?_
    rcases (t.shared.count .lockWait).expire_spec t.clock.stamp id generation with
      none | ⟨r', c, hr', gone, hc, current, settled, found⟩
    · rw [none] at answers same
      exact .inl ⟨answers, same ▸ quiet_count _ _⟩
    · rw [settled] at answers
      rw [← same] at found
      exact .inr ⟨r', c, hr.symm.trans hr', gone, hc, current, answers, found⟩

/-! ## Along histories -/

/-- The rules that every party keeps to, the replies to errands and to chores told apart. -/
abbrev KeptApart (s : CoordinatorSettings) (t : Traffic Ledger Reply) : Prop :=
  t.Kept conduct Upkeep fun m l l' a => a.DoesApart s m l l'

/-- **Each move** grants a hold, which is what the answer says, or none. -/
theorem Move.grants (move : Move (Party s) t u) (kept : t.KeptApart s) :
    u.KeptApart s ∧
      ((∃ h, Grants t.shared h u.shared ∧ u.granted = h :: t.granted) ∨
        (NoGrant t.shared u.shared ∧ u.granted = t.granted)) := by
  obtain ⟨kept', effect⟩ := move.effect Party.keepsToApart kept
  refine ⟨kept', ?_⟩
  cases effect with
  | still _ same returned =>
    refine .inr ⟨?_, by rw [granted, returned]; rfl⟩
    rw [same]
    exact (Quiet.refl _).noGrant
  | waits _ did returned => exact .inr ⟨did.noGrant, by rw [granted, returned]; rfl⟩
  | answers owner a _ did returned =>
    rcases did.grants with ⟨h, told, grants⟩ | ⟨silent, none⟩
    · refine .inl ⟨h, grants, ?_⟩
      rw [granted, returned]
      exact List.filterMap_cons_some told
    · refine .inr ⟨none, ?_⟩
      rw [granted, returned]
      exact List.filterMap_cons_none silent

/-- A history in which no counter of holds reaches its last value. -/
abbrev Counting (s : CoordinatorSettings) : Traffic Ledger Reply → Traffic Ledger Reply → Prop :=
  Passes (Party s) fun t => t.shared.Countable

theorem Moves.keptApart (h : Moves (Party s) t u) (kept : t.KeptApart s) : u.KeptApart s := by
  induction h with
  | none => exact kept
  | snoc _ move ih => exact (move.grants ih).1

/-- Holds granted are told of. -/
theorem Moves.told (h : Moves (Party s) t u) (kept : t.KeptApart s)
    (told : t.shared.holds = t.granted) : u.shared.holds = u.granted := by
  induction h with
  | none => exact told
  | snoc before move ih =>
    rcases (move.grants (before.keptApart kept)).2 with ⟨h, grants, granted⟩ | ⟨none, granted⟩
    · rw [grants.told, granted, ih]
    · rw [none.told, granted, ih]

/-- Holds are numbered as the counters count. -/
theorem Passes.counted (h : Counting s t u) (kept : t.KeptApart s) (counted : t.shared.Counted) :
    u.shared.Counted := by
  induction h with
  | none => exact counted
  | snoc before move _ ih =>
    rcases (move.grants (before.moves.keptApart kept)).2 with ⟨h, grants, -⟩ | ⟨none, -⟩
    · exact ih.grants before.here grants
    · exact ih.noGrant none

/-- **Few holds.** With fewer than 2^64 - 1 holds on resources that were registered fresh, no
counter reaches its last value. -/
theorem Moves.counting (h : Moves (Party s) t u) (kept : t.KeptApart s)
    (low : ∀ id r, t.shared.resources.get? id = some r → r.generation.toNat ≤ t.granted.length)
    (few : u.granted.length < 0xffffffffffffffff) :
    Counting s t u ∧
      ∀ id r, u.shared.resources.get? id = some r → r.generation.toNat ≤ u.granted.length := by
  have countable : ∀ {v : Traffic Ledger Reply}, v.granted.length < 0xffffffffffffffff →
      (∀ id r, v.shared.resources.get? id = some r → r.generation.toNat ≤ v.granted.length) →
      v.shared.Countable := by
    intro v few low id r hr last
    have := low id r hr
    rw [last] at this
    simp only [UInt64.reduceToNat] at this
    omega
  induction h with
  | none => exact ⟨.none (countable few low), low⟩
  | @snoc v w before move ih =>
    rcases (move.grants (before.keptApart kept)).2 with ⟨hold, grants, granted⟩ | ⟨none, granted⟩
    · obtain ⟨passes, below⟩ := ih (by rw [granted, List.length_cons] at few; omega)
      have below' : ∀ id r, w.shared.resources.get? id = some r →
          r.generation.toNat ≤ w.granted.length := by
        intro id r' hr'
        rw [granted, List.length_cons]
        by_cases same : id = hold.id
        · obtain ⟨r, hr, next, placed⟩ := grants.placed
          rw [same, placed] at hr'
          cases hr'
          have le := below hold.id r hr
          change hold.generation.toNat ≤ _
          rw [next, UInt64.toNat_add]
          simp only [UInt64.reduceToNat]
          omega
        · rw [grants.others id same] at hr'
          exact Nat.le_succ_of_le (below id r' hr')
      exact ⟨passes.snoc move (countable few below'), below'⟩
    · obtain ⟨passes, below⟩ := ih (granted ▸ few)
      have below' : ∀ id r, w.shared.resources.get? id = some r →
          r.generation.toNat ≤ w.granted.length := by
        intro id r' hr'
        obtain ⟨r, hr, same, -⟩ := none.known id r' hr'
        rw [granted, same]
        exact below id r hr
      exact ⟨passes.snoc move (countable few below'), below'⟩

/-- What has passed has passed for good. -/
theorem Passes.passed (h : Counting s t u) (kept : t.KeptApart s)
    (passed : Passed id generation t.shared) : Passed id generation u.shared := by
  induction h with
  | none => exact passed
  | snoc before move _ ih =>
    rcases (move.grants (before.moves.keptApart kept)).2 with ⟨h, grants, -⟩ | ⟨none, -⟩
    · exact ih.grants before.here grants
    · exact ih.noGrant none

theorem holds_of_announced (start : l₀.Announced) : l₀.holds = [] := by
  refine List.filterMap_eq_nil_iff.2 fun x hx => ?_
  obtain ⟨id, group, e⟩ := start.history x hx
  rw [e]
  rfl

theorem counted_of_announced (start : l₀.Announced) : l₀.Counted := by
  refine ⟨?_, fun h mem => ?_⟩
  · rw [holds_of_announced start]
    exact .nil
  · rw [holds_of_announced start] at mem
    cases mem

theorem keptApart_start (start : l₀.Announced) :
    (Traffic.start origin l₀ : Traffic Ledger Reply).KeptApart s :=
  kept_start (orderly_of_none start.bookings)

/-- What is settled is a hold that was granted, and it is the last of its generation. -/
theorem granted_of_lapsed (heard : t.shared.Heard) (told : t.shared.holds = t.granted)
    {r : Resource} {c : Claim} (hr : t.shared.resources.get? id = some r)
    (gone : r.lapsed t.clock.stamp = true) (hc : r.claim = some c) :
    ∃ hold ∈ t.granted, hold.id = id ∧ hold.generation = c.generation ∧
      r.holder = some hold.holder ∧ r.HeldUntil hold.deadline ∧ hold.deadline ≤ t.clock.stamp := by
  obtain ⟨reserved, -⟩ := Resource.lapsed_iff.1 gone
  have stored := heard.stored id r hr
  obtain ⟨deadline, known⟩ := stored.eq_held reserved hc
  have come := stored.deadline
  rw [known] at come
  obtain ⟨hold, mem, about, own, same, number⟩ := exists_hold_of_newsOf known
  have held : r.HeldUntil hold.deadline := ⟨reserved, by rw [same]; exact come⟩
  refine ⟨hold, told ▸ mem, about, number, ?_, held, held.lapsed_iff.1 gone⟩
  rw [Resource.holder, hc, Option.map_some, own]

/-- Once a hold was settled its generation has passed. -/
theorem passed_of_freed (heard : t.shared.Heard) {r : Resource} {c : Claim}
    (hr : t.shared.resources.get? id = some r) (reserved : r.status = .reserved)
    (hc : r.claim = some c) (current : c.generation = generation)
    (freed : u.shared.resources.get? id = some r.freed) : Passed id generation u.shared := by
  intro r' hr'
  rw [freed] at hr'
  cases hr'
  obtain ⟨c', -, hc', -, -, latest⟩ := (heard.resources id r hr).reserved reserved
  rw [hc] at hc'
  cases hc'
  refine ⟨UInt64.le_of_eq (current.symm.trans latest), fun deadline _ held => ?_⟩
  exact not_heldUntil_freed r deadline held

/-- **What has passed is not settled again.** -/
theorem Attempts.not_settles (h : t.Attempts s owner id generation u)
    (free : t.locks.get (.resource id) = Lock.free) (heard : t.shared.Heard)
    (passed : Passed id generation t.shared) : ¬t.Answers owner (.expired (.ok true)) u := by
  intro settled
  rcases h.outcome free with
    ⟨-, answers, -⟩ | ⟨answers, -⟩ | ⟨r, c, hr, gone, hc, current, -, -⟩
  · rw [Answers, answers] at settled
    cases settled
  · rw [Answers, answers] at settled
    cases settled
  · obtain ⟨reserved, -⟩ := Resource.lapsed_iff.1 gone
    obtain ⟨c', deadline, hc', hd, -, latest⟩ := (heard.resources id r hr).reserved reserved
    rw [hc] at hc'
    cases hc'
    exact (passed r hr).2 deadline (latest.symm.trans current)
      ⟨reserved, by rw [hc, Option.bind_some, hd]⟩

/-- **Generations identify holds.** In every reachable state the holds granted are the ones that
were told of. If no counter of holds has reached its last value on the way, the generations of
the holds granted on one resource increase strictly, so that no resource and generation were
granted twice. And the generation of a resource changes only in a move in which a hold is granted
on it, which gets the next one.

An attempt on a generation that is made while the lock of the resource is free answers at once.
The resource is unknown; or the answer is `false`, and nothing is done; or it is `true`, and a hold
is settled that was granted with this very generation and whose deadline has come, and nothing
becomes of any other resource. After that, while no counter reaches its last value, no attempt on
this generation is answered `true` again. -/
theorem generations_identify_holds (start : l₀.Announced)
    (h : Moves (Party s) (Traffic.start origin l₀) t) :
    t.shared.holds = t.granted ∧
    (Counting s (Traffic.start origin l₀) t →
      (t.granted.Pairwise fun later earlier =>
        later.id = earlier.id → earlier.generation < later.generation) ∧
      (t.granted.map fun h => (h.id, h.generation)).Nodup) ∧
    (∀ u, Move (Party s) t u → ∀ id r', u.shared.resources.get? id = some r' →
      ∃ r, t.shared.resources.get? id = some r ∧ (r'.generation = r.generation ∨
        ∃ hold, u.granted = hold :: t.granted ∧ hold.id = id ∧
          hold.generation = r.generation + 1 ∧ r'.generation = hold.generation)) ∧
    ∀ owner id generation u, t.Attempts s owner id generation u →
      t.locks.get (.resource id) = Lock.free →
      (t.shared.resources.get? id = none ∧ t.Answers owner (.expired (.error (.notFound id))) u ∧
        u.shared = t.shared) ∨
      (t.Answers owner (.expired (.ok false)) u ∧ t.shared.Quiet u.shared) ∨
      (t.Answers owner (.expired (.ok true)) u ∧
        (∃ r, ∃ hold ∈ t.granted, hold.id = id ∧ hold.generation = generation ∧
          hold.deadline ≤ t.clock.stamp ∧ t.shared.resources.get? id = some r ∧
          r.holder = some hold.holder ∧ r.HeldUntil hold.deadline ∧
          ∀ id', u.shared.resources.get? id' =
            if id' = id then some r.freed else t.shared.resources.get? id') ∧
        ∀ v w owner', Counting s u v → v.Attempts s owner' id generation w →
          v.locks.get (.resource id) = Lock.free → ¬v.Answers owner' (.expired (.ok true)) w) := by
  have heard := h.heard start
  have kept := h.keptApart (keptApart_start start)
  have told := h.told (keptApart_start start) (holds_of_announced start)
  refine ⟨told, fun counting => ?_, ?_, ?_⟩
  · have counted := counting.counted (keptApart_start start) (counted_of_announced start)
    have rising := told ▸ counted.rising
    refine ⟨rising, ?_⟩
    rw [List.nodup_iff_pairwise_ne, List.pairwise_map]
    refine rising.imp fun {later earlier} increases same => ?_
    obtain ⟨id, generation⟩ := Prod.mk.inj same
    exact absurd generation.symm (UInt64.ne_of_lt (increases id))
  · intro u move id r' hr'
    rcases (move.grants kept).2 with ⟨hold, grants, granted⟩ | ⟨none, -⟩
    · by_cases same : id = hold.id
      · obtain ⟨r, hr, next, placed⟩ := grants.placed
        rw [← same] at hr placed
        rw [placed] at hr'
        cases hr'
        exact ⟨r, hr, .inr ⟨hold, granted, same.symm, next, rfl⟩⟩
      · exact ⟨r', (grants.others id same).symm.trans hr', .inl rfl⟩
    · obtain ⟨r, hr, same, -⟩ := none.known id r' hr'
      exact ⟨r, hr, .inl same⟩
  · intro owner id generation u attempts free
    have move : Move (Party s) t u := Stretch.move attempts
    rcases attempts.outcome free with
      unknown | none | ⟨r, c, hr, gone, hc, current, answers, found⟩
    · exact .inl unknown
    · exact .inr (.inl none)
    · obtain ⟨hold, mem, about, number, own, held, come⟩ := granted_of_lapsed heard told hr gone hc
      refine .inr (.inr ⟨answers, ⟨r, hold, mem, about, number.trans current, come, hr, own, held,
        found⟩, fun v w owner' later again free' settled => ?_⟩)
      have passed := later.passed (move.grants kept).1
        (passed_of_freed heard hr held.1 hc current (by rw [found, if_pos rfl]))
      have heard' := ((h.snoc move).trans later.moves).heard start
      exact again.not_settles free' heard' passed settled

/-- Bob was granted a hold for a second, and that is over now. -/
def bobLapsed : Traffic Ledger Reply :=
  (((Traffic.start 0 Ledger.hallOfTwo).enter (Request.bobReserves.errand .standard)).run
    (fun _ => false) none 5).elapseTo 1000

/-- Somebody is about to make an attempt on Bob's hold. -/
def bobExpiring : Traffic Ledger Reply :=
  bobLapsed.enter ((expireHold .standard ⟨0, 1⟩ 1).bind fun r => .done (.expired r))

/-- So it is then: the attempt settles the hold that Bob was granted. -/
theorem generations_identify_bob :
    Ledger.hallOfTwo.Announced ∧
    Moves (Party .standard) (Traffic.start 0 Ledger.hallOfTwo) bobExpiring ∧
    Counting .standard (Traffic.start 0 Ledger.hallOfTwo) bobExpiring ∧
    (bobExpiring.granted.map fun h => (h.id, h.generation)).Nodup ∧
    ∃ u, bobExpiring.Attempts .standard 1 ⟨0, 1⟩ 1 u ∧
      bobExpiring.locks.get (.resource ⟨0, 1⟩) = Lock.free ∧
      bobExpiring.Answers 1 (.expired (.ok true)) u ∧
      ∃ hold ∈ bobExpiring.granted, hold.id = ⟨0, 1⟩ ∧ hold.generation = 1 ∧
        hold.deadline ≤ bobExpiring.clock.stamp := by
  have start : Ledger.hallOfTwo.Announced :=
    ⟨Ledger.untouched_hallOfTwo, fun x hx => absurd hx List.not_mem_nil⟩
  have attempt : Party .standard
      ((expireHold .standard ⟨0, 1⟩ 1).bind fun r => .done (.expired r)) fun _ => none :=
    ⟨.inr (.expiry ⟨0, 1⟩ 1), fun _ _ h => nomatch h⟩
  have moves : Moves (Party .standard) (Traffic.start 0 Ledger.hallOfTwo) bobExpiring :=
    (((Moves.none.snoc (.enter (Client.once .standard .bobReserves).party)).trans
      (run_moves ..)).snoc (.elapse (by decide +kernel))).snoc (.enter attempt)
  have fresh : ∀ id r, Ledger.hallOfTwo.resources.get? id = some r → r.generation.toNat ≤ 0 := by
    intro id r hr
    rw [Ledger.hallOfTwo, Table.get?_insert, Table.get?_insert] at hr
    split at hr
    · cases hr; decide
    · split at hr
      · cases hr; decide
      · cases hr
  obtain ⟨counting, -⟩ := moves.counting (keptApart_start start) fresh (by decide +kernel)
  obtain ⟨-, rising, -, attempts⟩ := generations_identify_holds start moves
  have free : bobExpiring.locks.get (.resource ⟨0, 1⟩) = Lock.free := by decide +kernel
  have second : bobLapsed.nextOwner = 1 := by decide +kernel
  obtain ⟨u, begins⟩ := exists_attempts .standard bobLapsed ⟨0, 1⟩ 1
  rw [second] at begins
  have begins : bobExpiring.Attempts .standard 1 ⟨0, 1⟩ 1 u := begins
  obtain ⟨r, known⟩ : ∃ r, bobExpiring.shared.resources.get? ⟨0, 1⟩ = some r :=
    Option.isSome_iff_exists.1 (by decide +kernel)
  have settles : ((bobExpiring.shared.count .lockWait).expire bobExpiring.clock.stamp
      ⟨0, 1⟩ 1).1 = true := by decide +kernel
  have yes := (Attempts.of_known begins known free).1
  rw [settles] at yes
  refine ⟨start, moves, counting, (rising counting).2, u, begins, free, yes, ?_⟩
  rcases attempts 1 ⟨0, 1⟩ 1 u begins free with ⟨-, no, -⟩ | ⟨no, -⟩ |
    ⟨-, ⟨r, hold, mem, about, number, come, -⟩, -⟩
  · rw [Answers, no] at yes
    cases yes
  · rw [Answers, no] at yes
    cases yes
  · exact ⟨hold, mem, about, number, come⟩

end Traffic

end Tenure
