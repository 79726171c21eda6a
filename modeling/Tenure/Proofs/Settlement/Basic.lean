import Tenure.Proofs.Ownership

/-!
# Ledgers ahead in settling

A hold that has lapsed is settled sooner or later: by a sweep, by the reaper, or by the next
decision about its resource. A ledger is `Ahead` of another one if the only difference is that
more of the holds that have lapsed are settled in it already, and what goes with that: the
queue of deadlines, what was counted, the note of the changes of status, and the news of lapsed
holds.

**Decisions do not see the difference.** Each of them settles what it looks at, and once that
is done both ledgers say the same about it (`Ahead.settled`). So it is answered the same on
both, and the one ledger stays ahead of the other.
-/

namespace Tenure

/-! ## News of lapsed holds -/

/-- Whether an event tells of anything else than a hold that has lapsed. -/
def Event.Other : Event → Bool
  | .holdExpired .. => false
  | _ => true

namespace Hub

/-- The same events were sent, apart from the news of lapsed holds, and the same subscribers
follow them. -/
structure Alike (h h' : Hub) : Prop where
  /-- the same events -/
  history : h'.history.filter (fun e => e.2.Other) = h.history.filter (fun e => e.2.Other)
  /-- the same subscribers at each key -/
  readers : ∀ key, (h'.channels.get? key).map (fun c => c.readers.keys) =
    (h.channels.get? key).map fun c => c.readers.keys
  /-- the same number for the next one -/
  nextReader : h'.nextReader = h.nextReader

variable {h h' h'' : Hub}

theorem Alike.refl (h : Hub) : Alike h h := ⟨rfl, fun _ => rfl, rfl⟩

theorem Alike.symm (a : Alike h h') : Alike h' h :=
  ⟨a.history.symm, fun key => (a.readers key).symm, a.nextReader.symm⟩

theorem Alike.trans (a : Alike h h') (a' : Alike h' h'') : Alike h h'' :=
  ⟨a'.history.trans a.history, fun key => (a'.readers key).trans (a.readers key),
    a'.nextReader.trans a.nextReader⟩

theorem Alike.send (a : Alike h h') (key : Id) (e : Event) : Alike (h.send key e) (h'.send key e) := by
  refine ⟨?_, ?_, a.nextReader⟩
  · simp only [Hub.send, List.filter_cons, a.history]
  · intro key'
    rw [readers_send, readers_send, a.readers]

/-- News of a lapsed hold makes no difference. -/
theorem alike_send_expired (h : Hub) (key id : Id) (holder : String) (generation : UInt64) :
    Alike h (h.send key (.holdExpired id holder generation)) :=
  ⟨rfl, h.readers_send key _, rfl⟩

end Hub

namespace Ledger

/-! ## Being ahead -/

/-- The second ledger is the first one with some holds settled that have lapsed at `now`. -/
structure Ahead (now : Int) (l l' : Ledger) : Prop where
  /-- the same resources, in the same order -/
  keys : l'.resources.keys = l.resources.keys
  /-- each as it was, or with a lapsed hold settled -/
  found : ∀ id, l'.resources.get? id = l.resources.get? id ∨
    ∃ r, l.resources.get? id = some r ∧ r.lapsed now = true ∧ l'.resources.get? id = some r.freed
  /-- the same groups -/
  groups : l'.groups = l.groups
  /-- the same group bookings -/
  bookings : l'.bookings = l.bookings
  /-- the same names still to be given out -/
  supply : l'.supply = l.supply
  /-- both are in use, or neither is -/
  inUse : l'.inUse = l.inUse
  /-- the same was told, apart from news of lapsed holds -/
  hub : l.hub.Alike l'.hub

variable {l l' l'' l₁ l₁' : Ledger} {now now' : Int} {id : Id}

theorem Ahead.refl (now : Int) (l : Ledger) : Ahead now l l :=
  ⟨rfl, fun _ => .inl rfl, rfl, rfl, rfl, rfl, .refl l.hub⟩

/-- Settling more gets further ahead. -/
theorem Ahead.trans (h : Ahead now l l') (h' : Ahead now l' l'') : Ahead now l l'' := by
  refine ⟨h'.keys.trans h.keys, fun id => ?_, h'.groups.trans h.groups,
    h'.bookings.trans h.bookings, h'.supply.trans h.supply, h'.inUse.trans h.inUse,
    h.hub.trans h'.hub⟩
  obtain e' | ⟨r', hr', lapsed', e'⟩ := h'.found id
  · rw [e']
    exact h.found id
  · obtain e | ⟨r, hr, lapsed, e⟩ := h.found id
    · exact .inr ⟨r', e.symm.trans hr', lapsed', e'⟩
    · -- a settled hold does not lapse again
      obtain rfl : r.freed = r' := Option.some.inj (e.symm.trans hr')
      rw [Resource.lapsed_freed] at lapsed'
      cases lapsed'

/-- What has lapsed has lapsed later on, too. -/
theorem Ahead.mono (h : Ahead now l l') (le : now ≤ now') : Ahead now' l l' := by
  refine ⟨h.keys, fun id => ?_, h.groups, h.bookings, h.supply, h.inUse, h.hub⟩
  obtain e | ⟨r, hr, lapsed, e⟩ := h.found id
  · exact .inl e
  · exact .inr ⟨r, hr, lapsed_mono lapsed le, e⟩

/-- What was counted does not matter. -/
theorem Ahead.quiet (h : Ahead now l l') (quiet : Quiet l l₁) (quiet' : Quiet l' l₁') :
    Ahead now l₁ l₁' := by
  obtain ⟨x, rfl⟩ := quiet
  obtain ⟨x', rfl⟩ := quiet'
  exact ⟨h.keys, h.found, h.groups, h.bookings, h.supply, h.inUse, h.hub⟩

theorem Ahead.count (h : Ahead now l l') (x : Metric) : Ahead now (l.count x) (l'.count x) :=
  h.quiet (quiet_count l x) (quiet_count l' x)

theorem Ahead.send (h : Ahead now l l') (key : Id) (e : Event) :
    Ahead now (l.send key e) (l'.send key e) :=
  ⟨h.keys, h.found, h.groups, h.bookings, h.supply, h.inUse, h.hub.send key e⟩

/-- **Once it is settled, both ledgers say the same about a resource.** -/
theorem Ahead.settled (h : Ahead now l l') (le : now ≤ now') (id : Id) :
    (l'.resources.get? id).map (fun r => r.settled now') =
      (l.resources.get? id).map fun r => r.settled now' := by
  obtain e | ⟨r, hr, lapsed, e⟩ := h.found id
  · rw [e]
  · rw [e, hr, Option.map_some, Option.map_some, Resource.settled_of_lapsed (lapsed_mono lapsed le),
      Resource.settled_of_not_lapsed (r.lapsed_freed now')]

/-- The resources are the same, but for who has them. -/
theorem Ahead.akin (h : Ahead now l l') : Akin l l' := by
  refine ⟨h.groups, fun id => ?_⟩
  obtain e | ⟨r, hr, -, e⟩ := h.found id
  · rw [e]
  · rw [e, hr]
    rfl

theorem Ahead.orderly (h : Ahead now l l') (ord : Orderly l) : Orderly l' := by
  refine ⟨fun id b hb => ord.filed id b (h.bookings ▸ hb), fun id b hb => ?_, fun id b hb =>
    ord.once id b (h.bookings ▸ hb)⟩
  rw [h.supply]
  exact ord.fresh id b (h.bookings ▸ hb)

/-! ## Settling -/

/-- What settling leaves alone. -/
theorem settle_keeps (l : Ledger) (now : Int) (id : Id) :
    (l.settle now id).2.resources.keys = l.resources.keys ∧
      (l.settle now id).2.inUse = l.inUse ∧ l.hub.Alike (l.settle now id).2.hub := by
  obtain ⟨r, c, -, -, -, e⟩ | ⟨-, e⟩ := l.settle_cases now id
  · rw [e]
    exact ⟨Table.keys_modify .., rfl, Hub.alike_send_expired ..⟩
  · rw [e]
    exact ⟨rfl, rfl, .refl l.hub⟩

/-- A ledger in which one more lapsed hold is settled is ahead. -/
theorem ahead_settle (l : Ledger) (now : Int) (id : Id) : Ahead now l (l.settle now id).2 := by
  obtain ⟨keys, inUse, hub⟩ := l.settle_keeps now id
  have books := l.sameBooks_settle now id
  refine ⟨keys, fun id' => ?_, books.groups, books.bookings, books.supply, inUse, hub⟩
  rw [get?_settle]
  split
  · next same =>
    subst same
    cases hr : l.resources.get? id' with
    | none => exact .inl rfl
    | some r =>
      rw [Option.map_some]
      cases lapsed : r.lapsed now with
      | false => exact .inl (by rw [Resource.settled_of_not_lapsed lapsed])
      | true => exact .inr ⟨r, rfl, lapsed, by rw [Resource.settled_of_lapsed lapsed]⟩
  · exact .inl rfl

/-- A resource that was settled is the same in both ledgers. -/
theorem Ahead.get?_settle (h : Ahead now l l') (le : now ≤ now') (id : Id) :
    (l'.settle now' id).2.resources.get? id = (l.settle now' id).2.resources.get? id := by
  simp only [Ledger.get?_settle, if_true, h.settled le]

/-- Settling in both ledgers leaves the one ahead of the other. -/
theorem Ahead.settle (h : Ahead now l l') (le : now ≤ now') (id : Id) :
    Ahead now (l.settle now' id).2 (l'.settle now' id).2 := by
  obtain ⟨keys, inUse, hub⟩ := l.settle_keeps now' id
  obtain ⟨keys', inUse', hub'⟩ := l'.settle_keeps now' id
  have books := l.sameBooks_settle now' id
  have books' := l'.sameBooks_settle now' id
  refine ⟨keys'.trans (h.keys.trans keys.symm), fun id' => ?_,
    books'.groups.trans (h.groups.trans books.groups.symm),
    books'.bookings.trans (h.bookings.trans books.bookings.symm),
    books'.supply.trans (h.supply.trans books.supply.symm),
    inUse'.trans (h.inUse.trans inUse.symm), hub.symm.trans (h.hub.trans hub')⟩
  by_cases same : id' = id
  · subst same
    exact .inl (h.get?_settle le id')
  · simp only [Ledger.get?_settle, if_neg same]
    exact h.found id'

/-- What a sweep or the reaper does gets a ledger ahead. -/
theorem Upkeep.ahead {m : Moment} (upkeep : Upkeep m l l') (steady : m.Steady) :
    Ahead m.stamp l l' := by
  induction upkeep with
  | none => exact .refl m.stamp l
  | settle _ time id ih => exact ih.trans ((ahead_settle _ _ id).mono (steady _ m time (.refl m)))
  | tidy _ _ _ _ ih => exact ⟨ih.keys, ih.found, ih.groups, ih.bookings, ih.supply, ih.inUse, ih.hub⟩

end Ledger

end Tenure
