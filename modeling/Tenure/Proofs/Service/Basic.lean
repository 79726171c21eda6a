import Tenure.Proofs.Histories
import Tenure.Proofs.Quiet

/-!
# What calls on a ledger may count on

All calls on a ledger keep to one conduct (`Ledger.conduct`). Nothing that a call goes by
while it waits can be undone by the others: groups and members stay, a recorded booking
keeps everything but whether it stands, and that it keeps as long as somebody holds the
lock of its group. What others do to claims it need not count on, since it decides on them
in one stretch, after its last wait (`Ledger.Decided`).

What a call knows of the ledger goes along with it from wait to wait (`Ledger.Underway`),
in particular from one lock of a row of locks to the next (`Ledger.meets_underLocks`).
-/

namespace Tenure

namespace Ledger

variable {l l' l'' l₀ : Ledger} {held held' : List Key} {m : Moment}

/-! ## What calls may count on -/

/-- The records are in order. -/
structure Orderly (l : Ledger) : Prop where
  /-- every booking is recorded under its own name -/
  filed : ∀ id b, l.bookings.get? id = some b → b.id = id
  /-- names still to be given out are new -/
  fresh : ∀ id b, l.bookings.get? id = some b → l.supply.Spent id
  /-- no booking lists a resource twice -/
  once : ∀ id b, l.bookings.get? id = some b → b.resources.Nodup

/-- What others may do while a party waits that holds `held`. -/
structure Rely (held : List Key) (l l' : Ledger) : Prop extends Akin l l' where
  /-- a booking stays on record, and stands or not as before while its group is locked -/
  bookings : ∀ id b, l.bookings.get? id = some b →
    ∃ status, l'.bookings.get? id = some { b with status := status } ∧
      (Key.group b.group ∈ held → status = b.status)

theorem Rely.refl (held : List Key) (l : Ledger) : Rely held l l :=
  ⟨.refl l, fun _ b hb => ⟨b.status, hb, fun _ => rfl⟩⟩

theorem Rely.trans (h : Rely held l l') (h' : Rely held l' l'') : Rely held l l'' := by
  refine ⟨h.toAkin.trans h'.toAkin, fun id b hb => ?_⟩
  obtain ⟨status, hb', same⟩ := h.bookings id b hb
  obtain ⟨status', hb'', same'⟩ := h'.bookings id _ hb'
  exact ⟨status', hb'', fun hg => (same' hg).trans (same hg)⟩

/-- Who holds more may count on more. -/
theorem Rely.mono (h : Rely held' l l') (more : held ⊆ held') : Rely held l l' := by
  refine ⟨h.toAkin, fun id b hb => ?_⟩
  obtain ⟨status, hb', same⟩ := h.bookings id b hb
  exact ⟨status, hb', fun hg => same (more hg)⟩

/-- The rules for all calls on a ledger. -/
def conduct : Conduct Ledger where
  inv := Orderly
  rely := Rely
  rely_refl := Rely.refl
  rely_trans := Rely.trans

/-- A ledger that knows of no group booking is in order. -/
theorem orderly_of_none (h : ∀ id, l.bookings.get? id = none) : Orderly l :=
  ⟨fun id _ hb => (nomatch (h id).symm.trans hb), fun id _ hb => (nomatch (h id).symm.trans hb),
    fun id _ hb => (nomatch (h id).symm.trans hb)⟩

/-- Where the books stay the same a ledger stays in order. -/
theorem SameBooks.orderly (h : SameBooks l l') (ord : Orderly l) : Orderly l' :=
  ⟨fun id b hb => ord.filed id b (h.bookings ▸ hb), fun id b hb =>
    h.supply ▸ ord.fresh id b (h.bookings ▸ hb), fun id b hb => ord.once id b (h.bookings ▸ hb)⟩

/-- Where the books stay the same, nobody who relies on the others is let down. -/
theorem SameBooks.rely (h : SameBooks l l') (held : List Key) : Rely held l l' :=
  ⟨h.toAkin, fun _ b hb => ⟨b.status, h.bookings.symm ▸ hb, fun _ => rfl⟩⟩

/-- Whatever leaves the group bookings alone is permitted. -/
theorem SameBooks.permits (h : SameBooks l l') (ord : Orderly l) :
    conduct.Permits held l l' := ⟨h.orderly ord, fun held' _ => h.rely held'⟩

/-- Counting is no change of the books. -/
theorem Quiet.sameBooks (h : Quiet l l') : SameBooks l l' := by
  obtain ⟨x, rfl⟩ := h
  exact ⟨⟨rfl, fun _ => rfl⟩, rfl, rfl⟩

/-- A name that is drawn is not on record. -/
theorem Orderly.ne_of_drawn (ord : Orderly l) {kind : Kind} {now : Int} {id new : Id} {b : Booking}
    (hb : l.bookings.get? id = some b) (drawn : new = (l.supply.draw kind now).1) : id ≠ new :=
  drawn ▸ (ord.fresh id b hb).ne_draw

/-- A group booking gets a name of its own, so entering it is permitted. -/
theorem Enters.permits {b : Booking} {price : Float → Float} (h : l.Enters b price l')
    (name : b.id = (l.supply.draw .booking b.bookedAt).1) (apart : b.resources.Nodup)
    (ord : Orderly l) : conduct.Permits held l l' := by
  have bookings : ∀ id, l'.bookings.get? id = if id = b.id then some b else l.bookings.get? id := by
    intro id
    rw [h.bookings, Table.get?_insert]
  refine ⟨⟨?_, ?_, ?_⟩, fun held' _ => ⟨h.akin, ?_⟩⟩
  · intro id b' hb'
    rw [bookings] at hb'
    split at hb'
    · next same => cases hb'; exact same.symm
    · exact ord.filed id b' hb'
  · intro id b' hb'
    rw [bookings] at hb'
    rw [h.supply]
    split at hb'
    · next same =>
      rw [same, name]
      exact l.supply.spent_draw .booking b.bookedAt
    · exact (ord.fresh id b' hb').draw .booking b.bookedAt
  · intro id b' hb'
    rw [bookings] at hb'
    split at hb'
    · cases hb'; exact apart
    · exact ord.once id b' hb'
  · intro id b' hb'
    refine ⟨b'.status, ?_, fun _ => rfl⟩
    rw [bookings, if_neg (ord.ne_of_drawn hb' name)]
    exact hb'

/-- The booking that stands is the one on record. -/
theorem get?_of_standing {booking : Id} {b : Booking} (h : l.standing booking = .ok b) :
    l.bookings.get? booking = some b ∧ b.status = .confirmed := by
  simp only [standing] at h
  split at h
  · cases h
  · next b' hb =>
    split at h
    · cases h
    · next stands =>
      cases h
      refine ⟨hb, ?_⟩
      cases hs : b.status with
      | confirmed => rfl
      | cancelled => exact absurd hs stands

/-- A booking stands as long as its group is locked. -/
theorem Rely.standing (h : Rely held l l') {booking : Id} {b : Booking}
    (stands : l.standing booking = .ok b) (locked : Key.group b.group ∈ held) :
    l'.standing booking = .ok b := by
  obtain ⟨hb, confirmed⟩ := get?_of_standing stands
  obtain ⟨status, hb', same⟩ := h.bookings booking b hb
  have unchanged : l'.bookings.get? booking = some b := by rw [hb', same locked]
  simp only [Ledger.standing]
  simp [unchanged, confirmed]

/-- To give a booking up is to mark it, and to free what it has on the resources; no other part of the
books is touched. -/
theorem bookings_cancelBooking (l : Ledger) (b : Booking) :
    (l.cancelBooking b).bookings = l.bookings.modify b.id (fun b => { b with status := .cancelled }) ∧
      (l.cancelBooking b).supply = l.supply := by
  have bookings := giveUpAll_keeps (f := Ledger.bookings) (fun _ _ => rfl) b.id b.resources l
  have supply := giveUpAll_keeps (f := Ledger.supply) (fun _ _ => rfl) b.id b.resources l
  exact ⟨congrArg (fun t : Table Id Booking =>
    t.modify b.id fun b => { b with status := .cancelled }) bookings, supply⟩

/-- A booking that stands is recorded as given up then, and the others are the same. -/
theorem get?_bookings_cancelBooking {booking : Id} {b : Booking} (ord : Orderly l)
    (stands : l.standing booking = .ok b) (id : Id) : (l.cancelBooking b).bookings.get? id =
      if id = booking then some { b with status := .cancelled } else l.bookings.get? id := by
  obtain ⟨hb, -⟩ := get?_of_standing stands
  obtain rfl := ord.filed booking b hb
  rw [(l.bookings_cancelBooking b).1, Table.get?_modify, hb]
  rfl

/-- Whoever holds the lock of a group may give up a booking in it. -/
theorem permits_cancelBooking {booking : Id} {b : Booking} (ord : Orderly l)
    (stands : l.standing booking = .ok b) (locked : Key.group b.group ∈ held) :
    conduct.Permits held l (l.cancelBooking b) := by
  have bookings := get?_bookings_cancelBooking ord stands
  obtain ⟨hb, -⟩ := get?_of_standing stands
  obtain rfl := ord.filed booking b hb
  have supply := (l.bookings_cancelBooking b).2
  refine ⟨⟨?_, ?_, ?_⟩, fun held' apart =>
    ⟨l.akin_cancelBooking b, ?_⟩⟩
  · intro id b' hb'
    rw [bookings] at hb'
    split at hb'
    · next same => cases hb'; exact same.symm
    · exact ord.filed id b' hb'
  · intro id b' hb'
    rw [supply]
    rw [bookings] at hb'
    split at hb'
    · next same => rw [same]; exact ord.fresh b.id b hb
    · exact ord.fresh id b' hb'
  · intro id b' hb'
    rw [bookings] at hb'
    split at hb'
    · cases hb'; exact ord.once b.id b hb
    · exact ord.once id b' hb'
  · intro id b' hb'
    by_cases same : id = b.id
    · -- it is the booking itself, and nobody else has locked its group
      obtain rfl : b = b' := by
        rw [same, hb] at hb'
        exact Option.some.inj hb'
      refine ⟨.cancelled, by rw [bookings, if_pos same], fun hg => ?_⟩
      exact absurd hg (apart _ locked)
    · exact ⟨b'.status, by rw [bookings, if_neg same]; exact hb', fun _ => rfl⟩

/-! ## Waiting for locks -/

section Waiting

variable {α : Type} {W : Moment → Ledger → Ledger → Prop} {ret : Moment → Ledger → Ledger → α → Prop}
  {J : Ledger → Prop} {due : Nat}

/-- What may be done in a stretch that ends in a wait: nothing, at least, and counting. -/
structure Tolerant (W : Moment → Ledger → Ledger → Prop) : Prop where
  /-- nothing need be done -/
  refl : ∀ m l, W m l l
  /-- counting may come on top -/
  count : ∀ {m l₀ l}, W m l₀ l → ∀ x, W m l₀ (l.count x)

theorem tolerant_quiet : Tolerant fun _ => Quiet := ⟨fun _ => Quiet.refl, fun h x => h.count x⟩

/-- What a party that holds `held` knows and the others cannot undo. -/
def Stable (held : List Key) (J : Ledger → Prop) : Prop := ∀ l l', J l → Rely held l l' → J l'

theorem Stable.mono (h : Stable held J) (more : held ⊆ held') : Stable held' J :=
  fun l l' hJ rely => h l l' hJ (rely.mono more)

theorem Stable.and {K : Ledger → Prop} (h : Stable held J) (h' : Stable held K) :
    Stable held fun l => J l ∧ K l := fun l l' hJ rely => ⟨h l l' hJ.1 rely, h' l l' hJ.2 rely⟩

/-- The state of things in a stretch of a call that has not decided yet. -/
structure Underway (W : Moment → Ledger → Ledger → Prop) (J : Ledger → Prop) (m : Moment)
    (l₀ l : Ledger) : Prop where
  /-- what was done in this stretch -/
  did : W m l₀ l
  /-- the records are in order -/
  ord : Orderly l
  /-- what the call knows -/
  knows : J l

/-- To count something is still to be underway. -/
theorem Underway.count (h : Underway W J m l₀ l) (tol : Tolerant W) (stable : Stable held J)
    (x : Metric) : Underway W J m l₀ (l.count x) := by
  have same := (quiet_count l x).sameBooks
  exact ⟨tol.count h.did x, same.orderly h.ord, stable _ _ h.knows (same.rely held)⟩

/-- A call that resumes after a wait is as far as it was. -/
theorem Underway.resumed (h : Underway W J m l₀ l) (tol : Tolerant W) (stable : Stable held J)
    {m' : Moment} {l₀' l' : Ledger} (hr : conduct.Resumes held m l₀ l m' l₀' l') :
    Underway W J m' l₀' l' := by
  cases hr with
  | atOnce => exact h
  | later _ others inv => exact ⟨tol.refl _ _, inv, stable _ _ h.knows others⟩

/-- Counting is permitted. -/
theorem meets_count {ret : List Key → Moment → Ledger → Ledger → α → Prop} {c : Call Ledger α}
    (ord : Orderly l) (x : Metric) (h : c.Meets conduct W ret held m l₀ (l.count x)) :
    ((Call.modify fun l => l.count x).bind fun _ => c).Meets conduct W ret held m l₀ l :=
  ⟨(quiet_count l x).sameBooks.permits ord, h⟩

/-- A call that goes on with what it reads off the ledger. -/
theorem meets_gets {β : Type} {ret : List Key → Moment → Ledger → Ledger → α → Prop}
    {f : Ledger → β} {b : β} {k : β → Call Ledger α} (read : f l = b)
    (h : (k b).Meets conduct W ret held m l₀ l) :
    ((Call.gets f).bind k).Meets conduct W ret held m l₀ l := by
  subst read
  exact h

/-- A call that goes on only if a test of the ledger says so. -/
theorem meets_unless {ret : List Key → Moment → Ledger → Ledger → α → Prop} {test : Ledger → Bool}
    {c d : Call Ledger α} (no : test l = false → c.Meets conduct W ret held m l₀ l)
    (yes : test l = true → d.Meets conduct W ret held m l₀ l) :
    ((Call.gets test).bind fun b => if !b then c else d).Meets conduct W ret held m l₀ l := by
  cases ht : test l with
  | false => exact meets_gets ht (no ht)
  | true => exact meets_gets ht (yes ht)

/-- A call that goes on only if a resource is known. -/
theorem meets_known {ret : List Key → Moment → Ledger → Ledger → α → Prop} {id : Id}
    {c d : Call Ledger α}
    (unknown : l.resources.get? id = none → c.Meets conduct W ret held m l₀ l)
    (known : ∀ r, l.resources.get? id = some r → d.Meets conduct W ret held m l₀ l) :
    ((Call.gets fun l => l.resources.contains id).bind fun b => if !b then c else d).Meets
      conduct W ret held m l₀ l := by
  refine meets_unless (fun no => unknown ?_) ?_
  · rw [Table.contains_eq_isSome] at no
    simpa using no
  · intro yes
    rw [Table.contains_eq_isSome] at yes
    obtain ⟨r, hr⟩ := Option.isSome_iff_exists.1 yes
    exact known r hr

/-- The deadline for locks is read off the clock. -/
theorem meets_lockDue {ret : List Key → Moment → Ledger → Ledger → α → Prop}
    {s : CoordinatorSettings} {f : Nat → Call Ledger α}
    (h : (f (m.elapsed + s.lockWait)).Meets conduct W ret held m l₀ l) :
    ((lockDue s).bind f).Meets conduct W ret held m l₀ l := h

/-- Work under the lock of a resource. -/
theorem meets_underLock {id : Id} {late body : Call Ledger α} (tol : Tolerant W)
    (stable : Stable held J) (h : Underway W J m l₀ l)
    (hbody : ∀ m' l₀' l', m.Before m' → Underway W J m' l₀' l' →
      body.Meets conduct W (fun _ => ret) (.resource id :: held) m' l₀' l')
    (hlate : ∀ m' l₀' l', m.Before m' → Underway W J m' l₀' l' →
      late.Meets conduct W (fun _ => ret) held m' l₀' l') :
    (underLock id due late body).Meets conduct W (fun _ => ret) held m l₀ l := by
  refine Call.meets_holdingUntil h.did ?_ ?_
  · intro m' l₀' l' hr
    have h' := h.resumed tol stable hr
    exact meets_count h'.ord _ (hbody _ _ _ hr.before (h'.count tol stable _))
  · intro m' l₀' l' hr
    have h' := h.resumed tol stable hr
    exact meets_count h'.ord _ (hlate _ _ _ hr.before (h'.count tol stable _))

/-- A test that does not look at who has a resource. -/
def Lasting (check : Id → Resource → Option CallError) : Prop :=
  ∀ id r, check id r.blank = check id r

/-- What is wrong with a resource stays wrong, and what is right stays right. -/
theorem Akin.fault? (h : Akin l l') {check : Id → Resource → Option CallError}
    (lasting : Lasting check) (id : Id) : l'.fault? check id = l.fault? check id := by
  have blanks := h.blanks id
  simp only [Ledger.fault?]
  cases hr : l.resources.get? id with
  | none =>
    rw [hr, Option.map_none, Option.map_eq_none_iff] at blanks
    rw [blanks]
  | some r =>
    rw [hr, Option.map_some] at blanks
    obtain ⟨r', hr', e⟩ := Option.map_eq_some_iff.1 blanks
    rw [hr']
    dsimp only
    rw [← lasting id r', e, lasting id r]

/-- Work under the locks of several resources: it begins if there is nothing wrong with any
of them, and else the first fault is what the call comes back with. -/
theorem meets_underLocks {late : Id → Call Ledger (Except CallError α)}
    {check : Id → Resource → Option CallError} {body : Call Ledger (Except CallError α)}
    {ret : Moment → Ledger → Ledger → Except CallError α → Prop} {ids : List Id}
    (tol : Tolerant W) (stable : Stable held J) (lasting : Lasting check)
    (h : Underway W J m l₀ l)
    (hbody : ∀ held' m' l₀' l', held ⊆ held' → Underway W J m' l₀' l' →
      l'.firstFault? check ids = none →
      body.Meets conduct W (fun _ => ret) held' m' l₀' l')
    (hfault : ∀ m' l₀' l' e, Underway W J m' l₀' l' → l'.firstFault? check ids = some e →
      ret m' l₀' l' (.error e))
    (hlate : ∀ id held' m' l₀' l', Underway W J m' l₀' l' →
      (late id).Meets conduct W (fun _ => ret) held' m' l₀' l') :
    (underLocks due late check body ids).Meets conduct W (fun _ => ret) held m l₀ l := by
  induction ids generalizing J held m l₀ l with
  | nil => exact hbody held m l₀ l (List.Subset.refl held) h rfl
  | cons id ids ih =>
    refine meets_known ?_ ?_
    · intro hr
      exact hfault m l₀ l _ h (firstFault_cons_of_some (by rw [fault?, hr]))
    · intro r hr
      -- it stays the same resource during the wait
      have same : Stable held fun l => J l ∧
          (l.resources.get? id).map Resource.blank = some r.blank :=
        stable.and fun l l' hb rely => (rely.blanks id).trans hb
      refine meets_underLock tol same ⟨h.did, h.ord, h.knows, by rw [hr]; rfl⟩ ?_ ?_
      · rintro m' l₀' l' - ⟨did, ord, hJ, hb⟩
        obtain ⟨r', hr', -⟩ := Option.map_eq_some_iff.1 hb
        have fault : l'.fault? check id = check id r' := by rw [fault?, hr']
        have checked : (l'.resources.get? id).bind (check id) = check id r' := by
          rw [hr', Option.bind_some]
        cases he : check id r' with
        | some e =>
          exact meets_gets (checked.trans he)
            (hfault m' l₀' l' e ⟨did, ord, hJ⟩ (firstFault_cons_of_some (fault.trans he)))
        | none =>
          refine meets_gets (checked.trans he) ?_
          -- nothing is wrong with this one, and nothing will be
          have more : held ⊆ Key.resource id :: held := List.subset_cons_self _ _
          have passed : Stable (Key.resource id :: held) fun l => J l ∧ l.fault? check id = none :=
            (stable.mono more).and fun l l' hx rely => (rely.toAkin.fault? lasting id).trans hx
          refine ih passed ⟨did, ord, hJ, fault.trans he⟩ ?_ ?_ ?_
          · rintro held' m'' l₀'' l'' sub ⟨did, ord, hJ, hx⟩ none
            exact hbody held' m'' l₀'' l'' (List.Subset.trans more sub) ⟨did, ord, hJ⟩
              ((firstFault_cons_of_none hx).trans none)
          · rintro m'' l₀'' l'' e ⟨did, ord, hJ, hx⟩ some
            exact hfault m'' l₀'' l'' e ⟨did, ord, hJ⟩ ((firstFault_cons_of_none hx).trans some)
          · rintro id' held' m'' l₀'' l'' ⟨did, ord, hJ, -⟩
            exact hlate id' held' m'' l₀'' l'' ⟨did, ord, hJ⟩
      · rintro m' l₀' l' - ⟨did, ord, hJ, -⟩
        exact hlate id held m' l₀' l' ⟨did, ord, hJ⟩

end Waiting

/-! ## Decisions -/

section Deciding

variable {α : Type}

/-- How a stretch ends in which a call returns: too late for a lock and with nothing done, or
decided by `f` on the ledger as the stretch found it. -/
def Decided (answer : α → Answer) (f : Int → Ledger → α × Ledger) (m : Moment)
    (l l' : Ledger) (a : α) : Prop :=
  ((answer a).late = true ∧ Quiet l l') ∨ Quietly (f m.stamp l) (a, l')

/-- A call that has done nothing yet in a stretch. -/
abbrev Waited (m : Moment) (l₀ l : Ledger) : Prop := Underway (fun _ => Quiet) (fun _ => True) m l₀ l

theorem stable_true : Stable held fun _ => True := fun _ _ _ _ => trivial

variable {answer : α → Answer} {f : Int → Ledger → α × Ledger}

/-- Counting that came first makes no difference to a decision. -/
theorem Decided.ofQuiet {a : α} (quiet : Quiet l₀ l)
    (blind : ∀ now {l l'}, Quiet l l' → Quietly (f now l) (f now l'))
    (h : Quietly (f m.stamp l) (a, l')) : Decided answer f m l₀ l' a :=
  .inr ((blind m.stamp quiet).trans h)

/-- A request that is answered without doing anything. -/
theorem meets_done {a : α} (quiet : Quiet l₀ l)
    (blind : ∀ now {l l'}, Quiet l l' → Quietly (f now l) (f now l'))
    (h : Quietly (f m.stamp l) (a, l)) :
    (Call.done a).Meets conduct (fun _ => Quiet) (fun _ => Decided answer f) held m l₀ l :=
  .ofQuiet quiet blind h

/-- A decision made in one stretch. -/
theorem meets_decision (h : Waited m l₀ l)
    (blind : ∀ now {l l'}, Quiet l l' → Quietly (f now l) (f now l'))
    (permitted : conduct.Permits held l (f m.stamp l).2) :
    (Call.update f).Meets conduct (fun _ => Quiet) (fun _ => Decided answer f) held m l₀ l :=
  Call.meets_update.2 ⟨permitted, .ofQuiet h.did blind ⟨rfl, .refl _⟩⟩

end Deciding

end Ledger

end Tenure
