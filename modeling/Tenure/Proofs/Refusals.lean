import Tenure.Proofs.Discipline

/-!
# Refusals leave things as they are

A request that comes to nothing, because of an argument, of what it finds or of a lock that it
did not get in time, has no effect but one: on its way it may settle holds that have lapsed
(`Ledger.OnlySettles`). Nobody can tell from what counts, since a lapsed hold counts for nothing
before either (`Ledger.OnlySettles.spares`).

This is so however many locks the request had taken and however long it had waited: until it is
answered it only counts, and the hold that it settles is on a resource that it has locked at
that moment (`Traffic.refusals_spare`).
-/

namespace Tenure

/-- Whether the request has come to nothing. -/
def Answer.refused : Answer → Bool
  | hold (.error _) => true
  | hold (.ok (.denied _)) => true
  | done (.error _) => true
  | booking (.error _) => true
  | booking (.ok (.denied _)) => true
  | _ => false

/-- Whether the reply says so. -/
def Reply.refused : Reply → Bool
  | answered _ a => a.refused
  | _ => false

namespace Ledger

variable {l l' l'' : Ledger} {now : Int} {gone : List (Id × Claim)}

/-! ## What a refusal may do -/

/-- Nothing has changed that counts at `now`. -/
structure Spares (now : Int) (l l' : Ledger) : Prop where
  /-- every resource has the status that it had -/
  status : ∀ id, (l'.resources.get? id).map (fun r => r.statusAt now) =
    (l.resources.get? id).map fun r => r.statusAt now
  /-- and the generation -/
  generation : ∀ id, (l'.resources.get? id).map Resource.generation =
    (l.resources.get? id).map Resource.generation
  /-- a resource whose hold has not lapsed is the same, with the claim on it -/
  claim : ∀ id r, l.resources.get? id = some r → r.lapsed now = false →
    l'.resources.get? id = some r
  /-- the group bookings are the same -/
  bookings : l'.bookings = l.bookings
  /-- the pending deadlines are the same -/
  expiries : l'.expiries = l.expiries

/-- Nothing has happened but that some lapsed holds were settled, and that each time those who
follow the resource were told so. -/
structure OnlySettles (now : Int) (gone : List (Id × Claim)) (l l' : Ledger) : Prop where
  /-- none of them twice -/
  apart : (gone.map Prod.fst).Nodup
  /-- they had lapsed, and the resource was given up -/
  lapsed : ∀ p ∈ gone, ∃ r, l.resources.get? p.1 = some r ∧ r.lapsed now = true ∧
    r.claim = some p.2 ∧ l'.resources.get? p.1 = some r.freed
  /-- the other resources are the same -/
  others : ∀ id, id ∉ gone.map Prod.fst → l'.resources.get? id = l.resources.get? id
  /-- one event was sent for each hold, and no other event -/
  told : l'.hub = gone.foldr (fun p hub =>
    hub.send p.1 (.holdExpired p.1 p.2.holder p.2.generation)) l.hub
  /-- the groups are the same -/
  groups : l'.groups = l.groups
  /-- the group bookings are the same -/
  bookings : l'.bookings = l.bookings
  /-- the pending deadlines are the same -/
  expiries : l'.expiries = l.expiries
  /-- the reaper has the same in its hand -/
  inHand : l'.inHand = l.inHand
  /-- no name was used up -/
  supply : l'.supply = l.supply

theorem OnlySettles.refl (now : Int) (l : Ledger) : OnlySettles now [] l l where
  apart := List.nodup_nil
  lapsed := fun _ hp => absurd hp List.not_mem_nil
  others := fun _ _ => rfl
  told := rfl
  groups := rfl
  bookings := rfl
  expiries := rfl
  inHand := rfl
  supply := rfl

theorem OnlySettles.quiet (h : OnlySettles now gone l l') (quiet : Quiet l' l'') :
    OnlySettles now gone l l'' := by
  obtain ⟨x, rfl⟩ := quiet
  exact { h with }

/-- One more hold that had lapsed is settled. -/
theorem OnlySettles.lapse (h : OnlySettles now gone l l') {id : Id} {r : Resource} {c : Claim}
    (hr : l'.resources.get? id = some r) (hl : r.lapsed now = true) (hc : r.claim = some c) :
    OnlySettles now ((id, c) :: gone) l (((l'.turn id true Resource.freed).count .holdsExpired).send
      id (.holdExpired id c.holder c.generation)) := by
  -- it is not one of those that were settled before
  have new : id ∉ gone.map Prod.fst := by
    intro hid
    obtain ⟨p, hp, rfl⟩ := List.mem_map.1 hid
    obtain ⟨r', -, -, -, freed⟩ := h.lapsed p hp
    rw [freed] at hr
    obtain rfl := Option.some.inj hr
    cases hl
  have turned : ∀ id', (l'.turn id true Resource.freed).resources.get? id' =
      if id' = id then some r.freed else l'.resources.get? id' := by
    intro id'
    rw [get?_turn, hr, Option.map_some]
  refine { h with apart := ?_, lapsed := ?_, others := ?_, told := ?_ }
  · exact List.nodup_cons.2 ⟨new, h.apart⟩
  · intro p hp
    rcases List.mem_cons.1 hp with rfl | hp
    · exact ⟨r, (h.others _ new).symm.trans hr, hl, hc, (turned _).trans (if_pos rfl)⟩
    · obtain ⟨r', hr', hl', hc', freed⟩ := h.lapsed p hp
      refine ⟨r', hr', hl', hc', (turned _).trans ((if_neg ?_).trans freed)⟩
      exact fun same => new (same ▸ List.mem_map_of_mem hp)
  · intro id' hid
    obtain ⟨other, hid⟩ := not_or.1 (fun h => hid (List.mem_cons.2 h))
    exact (turned id').trans ((if_neg other).trans (h.others id' hid))
  · exact congrArg (fun hub : Hub => hub.send id (.holdExpired id c.holder c.generation)) h.told

/-- **Settling** what has lapsed is all that it is. -/
theorem OnlySettles.settle (h : OnlySettles now gone l l') (id : Id) :
    ∃ gone', OnlySettles now gone' l (l'.settle now id).2 ∧
      gone'.length = gone.length + if (l'.settle now id).1 then 1 else 0 := by
  rcases l'.settle_cases now id with ⟨r, c, hr, hl, hc, e⟩ | ⟨-, e⟩ <;> rw [e]
  · exact ⟨(id, c) :: gone, h.lapse hr hl hc, rfl⟩
  · exact ⟨gone, h, rfl⟩

theorem Settles.onlySettles (h : Settles now l l') : ∃ gone, OnlySettles now gone l l' := by
  induction h with
  | none => exact ⟨[], .refl now l⟩
  | snoc _ id ih =>
    obtain ⟨gone, ih⟩ := ih
    obtain ⟨gone', ih, -⟩ := ih.settle id
    exact ⟨gone', ih⟩

theorem onlySettles_settle (l : Ledger) (now : Int) (id : Id) :
    ∃ gone, OnlySettles now gone l (l.settle now id).2 := by
  obtain ⟨gone, only, -⟩ := (OnlySettles.refl now l).settle id
  exact ⟨gone, only⟩

/-- What was settled or not was settled if it had lapsed. -/
theorem OnlySettles.cases (h : OnlySettles now gone l l') (id : Id) :
    l'.resources.get? id = l.resources.get? id ∨
      ∃ r, l.resources.get? id = some r ∧ r.lapsed now = true ∧
        l'.resources.get? id = some r.freed := by
  by_cases hid : id ∈ gone.map Prod.fst
  · obtain ⟨p, hp, rfl⟩ := List.mem_map.1 hid
    obtain ⟨r, hr, hl, -, freed⟩ := h.lapsed p hp
    exact .inr ⟨r, hr, hl, freed⟩
  · exact .inl (h.others id hid)

/-- **Settling changes nothing that counts.** -/
theorem OnlySettles.spares (h : OnlySettles now gone l l') : Spares now l l' where
  status id := by
    rcases h.cases id with e | ⟨r, hr, hl, e⟩
    · rw [e]
    · rw [e, hr, Option.map_some, Option.map_some, Resource.statusAt_eq_available_of_lapsed hl]
      rfl
  generation id := by
    rcases h.cases id with e | ⟨r, hr, -, e⟩
    · rw [e]
    · rw [e, hr]
      rfl
  claim id r hr live := by
    rcases h.cases id with e | ⟨r', hr', hl, -⟩
    · exact e.trans hr
    · rw [hr] at hr'
      obtain rfl := Option.some.inj hr'
      rw [live] at hl
      cases hl
  bookings := h.bookings
  expiries := h.expiries

/-! ## Requests that are refused -/

theorem refused_reserveAtOnce (l : Ledger) (now : Int) (id : Id) (holder : String) (duration : Nat)
    (price : Float → Float)
    (refused : (Answer.hold (l.reserveAtOnce now id holder duration price).1).refused = true) :
    ∃ gone, OnlySettles now gone l (l.reserveAtOnce now id holder duration price).2 := by
  obtain ⟨e, turned⟩ | placed := l.reserveAtOnce_cases now id holder duration price
  · rw [turned]
    exact ⟨[], .refl now l⟩
  · rw [placed] at refused ⊢
    rcases l.place_cases now id holder (duration / 1000000) price with
      ⟨-, e⟩ | ⟨r, -, -, -, e⟩ | ⟨r, -, -, e⟩ <;> rw [e] at refused ⊢
    · exact ⟨[], .refl now l⟩
    · exact ⟨[], (OnlySettles.refl now l).quiet (quiet_count l _)⟩
    · cases refused

theorem refused_bookAtOnce (l : Ledger) (now : Int) (group : Id) (holder : String) (ids : List Id)
    (price : Float → Float)
    (refused : (Answer.booking (l.bookAtOnce now group holder ids price).1).refused = true) :
    ∃ gone, OnlySettles now gone l (l.bookAtOnce now group holder ids price).2 := by
  obtain ⟨e, turned⟩ | ⟨-, -, decided⟩ := l.bookAtOnce_cases now group holder ids price
  · rw [turned]
    exact ⟨[], .refl now l⟩
  · rw [decided] at refused ⊢
    rcases l.book_cases now group holder ids price with
      ⟨id, status, l', hs, e⟩ | ⟨l', l'', -, e, -⟩ <;> rw [e] at refused ⊢
    · have settled : Settles now l (settleAll now (ascending ids) l).2 := Settles.none.settleAll _
      rw [hs] at settled
      obtain ⟨gone, only⟩ := settled.onlySettles
      exact ⟨gone, only.quiet (quiet_count l' _)⟩
    · cases refused

/-- **A refusal only settles**, when the request is decided at once. -/
theorem refused_atOnce (s : CoordinatorSettings) (now : Int) (l : Ledger) (r : Request)
    (refused : (r.atOnce s now l).1.refused = true) :
    ∃ gone, OnlySettles now gone l (r.atOnce s now l).2 := by
  cases r with
  | reserve id holder duration price => exact refused_reserveAtOnce l now id holder _ price refused
  | reserveDefault id holder price => exact refused_reserveAtOnce l now id holder _ price refused
  | confirm id holder =>
    simp only [Request.atOnce] at refused ⊢
    obtain ⟨err, -, e⟩ | ⟨r, c, -, -, -, -, -, e⟩ := l.confirm_cases s.policy now id holder <;>
      rw [e] at refused ⊢
    · exact onlySettles_settle l now id
    · cases refused
  | cancel id holder =>
    simp only [Request.atOnce] at refused ⊢
    obtain ⟨err, -, e⟩ | ⟨r, -, -, -, -, -, e⟩ := l.cancel_cases s.policy now id holder <;>
      rw [e] at refused ⊢
    · exact onlySettles_settle l now id
    · cases refused
  | book group holder ids price => exact refused_bookAtOnce l now group holder ids price refused
  | bookByName group holder names price =>
    simp only [Request.atOnce] at refused ⊢
    obtain missing | ⟨ids, found⟩ := l.bookByNameAtOnce_cases now group holder names price
    · rw [missing]
      exact ⟨[], .refl now l⟩
    · rw [found] at refused ⊢
      exact refused_bookAtOnce l now group holder ids price refused
  | cancelGroup booking holder =>
    simp only [Request.atOnce] at refused ⊢
    obtain ⟨err, -, e⟩ | ⟨b, -, -, e⟩ := l.cancelGroupAtOnce_cases s.policy booking holder <;>
      rw [e] at refused ⊢
    · exact ⟨[], .refl now l⟩
    · cases refused

end Ledger

/-- **A refusal only settles**, whatever the request had to wait for. -/
theorem Request.Serves.onlySettles {s : CoordinatorSettings} {r : Request} {now : Int}
    {l l' : Ledger} {a : Answer} (h : r.Serves s now l l' a) (refused : a.refused = true) :
    ∃ gone, Ledger.OnlySettles now gone l l' := by
  rcases h with ⟨-, quiet⟩ | ⟨rfl, quiet⟩
  · exact ⟨[], (Ledger.OnlySettles.refl now l).quiet quiet⟩
  · obtain ⟨gone, only⟩ := Ledger.refused_atOnce s now l r refused
    exact ⟨gone, only.quiet quiet⟩

/-! ## Every reachable state -/

namespace Traffic

variable {s : CoordinatorSettings} {origin : Int} {l₀ : Ledger} {t₀ t u : Traffic Ledger Reply}
  {call : Call Ledger Reply} {again : Reply → Option (Call Ledger Reply)}
  {go : Call Ledger Reply × Ledger × Locks}

/-- **Refusals leave things as they are.** A client enters in any reachable state, and goes on
whenever it need not wait. When it has to wait again, it has done nothing but count. When it is
answered, and the answer is that its request has come to nothing, then nothing has changed that
counts: it has settled some holds that had lapsed, if any, each of them on a resource that it
had locked, and one event was sent for each. -/
theorem refusals_spare (ord : l₀.Orderly) (h : Moves (Party s) (Traffic.start origin l₀) t₀)
    (client : Client s call again) (h' : Moves (Party s) (t₀.enterAgain call again) t)
    (stretch : t.Stretch t₀.nextOwner go u) :
    (u.returned = t.returned ∧ t.shared.Quiet u.shared) ∨
    ∃ a, u.returned = ⟨t₀.nextOwner, a, t.clock.elapsed⟩ :: t.returned ∧
      ∀ request x, a = .answered request x → x.refused = true →
        t.shared.Spares t.clock.stamp u.shared ∧
        ∃ gone, t.shared.OnlySettles t.clock.stamp gone u.shared ∧
          ∀ p ∈ gone, ∃ c ∈ t.changes t₀.nextOwner go,
            (c.locks.get (.resource p.1)).heldBy t₀.nextOwner .exclusive = true := by
  have ⟨kept₀, _⟩ := h.kept (P := fun _ => True) Party.keepsTo (fun _ _ _ => trivial)
    (kept_start ord) trivial
  obtain ⟨kept, tracks⟩ := Moves.comes Party.keepsTo kept₀ client.party client.keepsTo h'
  have whole : Moves (Party s) (Traffic.start origin l₀) t :=
    (h.snoc (.enter client.party)).trans h'
  cases (tracks.stretch kept stretch).2 rfl with
  | waits did returned => exact .inl ⟨returned, did⟩
  | answers a did returned =>
    refine .inr ⟨a, returned, ?_⟩
    rintro request x rfl refused
    obtain ⟨gone, only⟩ := Request.Serves.onlySettles did refused
    refine ⟨only.spares, gone, only, fun p hp => ?_⟩
    -- what was settled is different now, so it was changed under its lock
    obtain ⟨r, hr, hl, -, freed⟩ := only.lapsed p hp
    have differs : u.shared.resources.get? p.1 ≠ t.shared.resources.get? p.1 := by
      rw [freed, hr]
      intro same
      rw [← Option.some.inj same] at hl
      cases hl
    obtain ⟨c, hc, changed⟩ := stretch.changed (f := fun l => l.resources.get? p.1) differs
    exact ⟨c, hc, locked_of_changed whole stretch c hc p.1 changed⟩

/-- Bob has had a hold, and a second later it has lapsed. -/
def bobWaits : Traffic Ledger Reply :=
  (((Traffic.start 0 Ledger.hallOfTwo).enter (Request.bobReserves.errand .standard)).run
    (fun _ => false) none 5).elapseTo 1000

/-- So it is when Bob comes too late to make a booking of his hold. He is refused, and his hold
is settled, which nobody can tell from what counts. -/
theorem refusals_spare_when_bob_is_late :
    Ledger.hallOfTwo.Orderly ∧ Moves (Party .standard) (Traffic.start 0 Ledger.hallOfTwo) bobWaits ∧
    Client .standard (Request.bobConfirms.errand .standard) (fun _ => none) ∧
    ∃ t u go, Moves (Party .standard) (bobWaits.enter (Request.bobConfirms.errand .standard)) t ∧
      t.Stretch bobWaits.nextOwner go u ∧
      (t.shared.resources.get? ⟨0, 1⟩).map Resource.status = some .reserved ∧
      (u.shared.resources.get? ⟨0, 1⟩).map Resource.status = some .available ∧
      t.shared.Spares t.clock.stamp u.shared := by
  have ord : Ledger.hallOfTwo.Orderly := Ledger.orderly_of_none fun _ => rfl
  have client := Client.once .standard .bobConfirms
  have before : Moves (Party .standard) (Traffic.start 0 Ledger.hallOfTwo) bobWaits :=
    ((Moves.none.snoc (.enter (Client.once .standard .bobReserves).party)).trans
      (run_moves ..)).snoc (.elapse (by decide +kernel))
  let t := bobWaits.enter (Request.bobConfirms.errand .standard)
  obtain ⟨u, hu⟩ : ∃ u, t.step = some u := Option.isSome_iff_exists.1 (by decide +kernel)
  have after : t.step.map (fun u => ((u.shared.resources.get? ⟨0, 1⟩).map Resource.status,
      u.returned.length, u.returned.head?.map fun r => r.answer.refused)) =
      some (some .available, 2, some true) := by decide +kernel
  rw [hu] at after
  obtain ⟨status, after⟩ := Prod.mk.inj (Option.some.inj after)
  obtain ⟨answers, late⟩ := Prod.mk.inj after
  obtain ⟨f, hf, go, stretch⟩ := stepFrom_stretch rfl hu
  have own : f.owner = bobWaits.nextOwner :=
    (by decide +kernel : ∀ o ∈ t.flights.map Flight.owner, o = bobWaits.nextOwner) _
      (List.mem_map_of_mem hf)
  rw [own] at stretch
  refine ⟨ord, before, client, t, u, go, .none, stretch, by decide +kernel, status, ?_⟩
  obtain ⟨same, -⟩ | ⟨a, answered, spares⟩ := refusals_spare ord before client .none stretch
  · rw [same] at answers
    exact absurd answers (by decide +kernel)
  · rw [answered] at late
    cases a with
    | answered request x => exact (spares request x rfl (Option.some.inj late)).1
    | _ => exact nomatch Option.some.inj late

end Traffic

end Tenure
