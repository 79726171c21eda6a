import Tenure.Calls.Grouping

/-!
# What decisions come to

Everything that a decision on the ledger can do, said once. A decision on one resource is
an answer and at most one change of that resource, after the hold on it was settled if it
has lapsed (`settle_cases`, `place_cases`, `confirm_cases`, `cancel_cases`). A decision on
several resources is a row of such changes (`settleAll_spec`, `book_cases`,
`get?_cancelBooking`).

No decision changes what a resource is or which groups there are: the ledgers before and
after are `Akin`. A decision on one resource leaves the group bookings and the supply of
names alone as well (`SameBooks`).
-/

namespace Tenure

namespace Resource

/-- The resource once its hold was settled, if it has lapsed. -/
def settled (r : Resource) (now : Int) : Resource := if r.lapsed now then r.freed else r

/-- What the resource is, apart from who has it. -/
def blank (r : Resource) : Resource :=
  { r with status := .available, claim := none, generation := 0 }

theorem settled_of_lapsed {r : Resource} {now : Int} (h : r.lapsed now = true) :
    r.settled now = r.freed := if_pos h

theorem settled_of_not_lapsed {r : Resource} {now : Int} (h : r.lapsed now = false) :
    r.settled now = r := by simp [settled, h]

/-- The stored status after settling is the one that counts. -/
@[simp] theorem status_settled (r : Resource) (now : Int) :
    (r.settled now).status = r.statusAt now := by
  simp only [settled, statusAt]
  split <;> rfl

/-- Settling does not count as a new grant. -/
@[simp] theorem generation_settled (r : Resource) (now : Int) :
    (r.settled now).generation = r.generation := by
  simp only [settled]
  split <;> rfl

/-- There is nothing to settle about a free resource. -/
theorem lapsed_freed (r : Resource) (now : Int) : r.freed.lapsed now = false := rfl

/-- Once it is settled, nothing has lapsed. -/
theorem lapsed_settled (r : Resource) (now : Int) : (r.settled now).lapsed now = false := by
  cases h : r.lapsed now with
  | true => rw [settled_of_lapsed h, lapsed_freed]
  | false => rw [settled_of_not_lapsed h, h]

/-- A resource that somebody has is not one whose hold has lapsed. -/
theorem not_lapsed_of_taken {r : Resource} {now : Int} (h : r.statusAt now ≠ .available) :
    r.lapsed now = false := by
  rw [← Bool.not_eq_true]
  exact fun hl => h (statusAt_eq_available_of_lapsed hl)

@[simp] theorem settled_settled (r : Resource) (now : Int) :
    (r.settled now).settled now = r.settled now := by
  cases h : r.lapsed now with
  | true => rw [settled_of_lapsed h, settled_of_not_lapsed (lapsed_freed r now)]
  | false => rw [settled_of_not_lapsed h, settled_of_not_lapsed h]

/-- Settling does not change the status that counts. -/
@[simp] theorem statusAt_settled (r : Resource) (now : Int) :
    (r.settled now).statusAt now = r.statusAt now := by
  rw [← status_settled, settled_settled, status_settled]

@[simp] theorem blank_freed (r : Resource) : r.freed.blank = r.blank := rfl

@[simp] theorem blank_settled (r : Resource) (now : Int) : (r.settled now).blank = r.blank := by
  simp only [settled]
  split <;> rfl

/-- The resource given up, if it still belongs to a booking. -/
def givenUp (r : Resource) (booking : Id) : Resource :=
  if r.claim.bind Claim.booking = some booking then r.freed else r

@[simp] theorem givenUp_givenUp (r : Resource) (booking : Id) :
    (r.givenUp booking).givenUp booking = r.givenUp booking := by
  simp only [givenUp]
  split
  · simp [freed]
  · rfl

@[simp] theorem blank_givenUp (r : Resource) (booking : Id) :
    (r.givenUp booking).blank = r.blank := by
  simp only [givenUp]
  split <;> rfl

end Resource

namespace Ledger

variable {l l' l'' : Ledger} {now : Int} {id id' : Id}

@[simp] theorem blank_held (r : Resource) (h : Hold) : (held r h).blank = r.blank := rfl

@[simp] theorem blank_confirmed (r : Resource) : (confirmed r).blank = r.blank := rfl

@[simp] theorem blank_bookedBy (r : Resource) (holder : String) (booking : Id)
    (price : Float → Float) : (bookedBy r holder booking price).blank = r.blank := rfl

/-! ## One resource -/

/-- A change of one resource shows there and nowhere else. -/
theorem get?_turn (l : Ledger) (id id' : Id) (holdStep : Bool) (f : Resource → Resource) :
    (l.turn id holdStep f).resources.get? id' =
      if id' = id then (l.resources.get? id).map f else l.resources.get? id' :=
  Table.get?_modify ..

/-- **Settling** frees a resource whose hold has lapsed, or does nothing. -/
theorem settle_cases (l : Ledger) (now : Int) (id : Id) :
    (∃ r c, l.resources.get? id = some r ∧ r.lapsed now = true ∧ r.claim = some c ∧
      l.settle now id =
        (true, ((l.turn id true Resource.freed).count .holdsExpired).send id
          (.holdExpired id c.holder c.generation))) ∨
    ((∀ r, l.resources.get? id = some r → r.lapsed now = false) ∧
      l.settle now id = (false, l)) := by
  simp only [settle]
  cases hr : l.resources.get? id with
  | none => exact .inr ⟨by simp, rfl⟩
  | some r =>
    cases hl : r.lapsed now with
    | false => exact .inr ⟨fun r' h => by cases h; exact hl, by simp [hl]⟩
    | true =>
      obtain ⟨-, c, t, hc, -⟩ := Resource.lapsed_iff.1 hl
      exact .inl ⟨r, c, rfl, hl, hc, by simp [hl, hc]⟩

/-- A resource whose hold has not lapsed is left alone. -/
theorem settle_of_not_lapsed {r : Resource} (hr : l.resources.get? id = some r)
    (h : r.lapsed now = false) : l.settle now id = (false, l) := by
  rcases l.settle_cases now id with ⟨r', c, hr', hl, -⟩ | ⟨-, e⟩
  · rw [hr] at hr'
    obtain rfl := Option.some.inj hr'
    rw [h] at hl
    cases hl
  · exact e

/-- A resource that nobody knows is left alone. -/
theorem settle_of_unknown (h : l.resources.get? id = none) : l.settle now id = (false, l) := by
  rcases l.settle_cases now id with ⟨r, c, hr, -⟩ | ⟨-, e⟩
  · rw [h] at hr
    cases hr
  · exact e

/-- What is found under each name after settling. -/
theorem get?_settle (l : Ledger) (now : Int) (id id' : Id) :
    (l.settle now id).2.resources.get? id' =
      if id' = id then (l.resources.get? id).map fun r => r.settled now
      else l.resources.get? id' := by
  rcases l.settle_cases now id with ⟨r, c, hr, hl, -, e⟩ | ⟨hl, e⟩
  · rw [e]
    refine (get?_turn l id id' true Resource.freed).trans ?_
    rw [hr, Option.map_some, Option.map_some, Resource.settled_of_lapsed hl]
  · rw [e]
    split
    · next same =>
      subst same
      cases hr : l.resources.get? id' with
      | none => rfl
      | some r => rw [Option.map_some, Resource.settled_of_not_lapsed (hl r hr)]
    · rfl

theorem get?_settle_self (l : Ledger) (now : Int) (id : Id) :
    (l.settle now id).2.resources.get? id =
      (l.resources.get? id).map fun r => r.settled now := by
  rw [get?_settle, if_pos rfl]

/-- Settling does not change which status counts. -/
theorem map_statusAt_settle (l : Ledger) (now : Int) (id id' : Id) :
    ((l.settle now id).2.resources.get? id').map (fun r => r.statusAt now) =
      (l.resources.get? id').map fun r => r.statusAt now := by
  rw [get?_settle]
  split
  · next same => simp [same, Function.comp_def]
  · rfl

/-- **Placing a hold** fails on an unknown resource, is denied on one that somebody has,
and else succeeds. -/
theorem place_cases (l : Ledger) (now : Int) (id : Id) (holder : String) (millis : Nat)
    (price : Float → Float) :
    (l.resources.get? id = none ∧ l.place now id holder millis price = (.error (.notFound id), l)) ∨
    (∃ r, l.resources.get? id = some r ∧ r.statusAt now = r.status ∧ r.status ≠ .available ∧
      l.place now id holder millis price =
        (.ok (.denied (.notAvailable id r.status)), l.count (.reservations "denied"))) ∨
    (∃ r, l.resources.get? id = some r ∧ r.statusAt now = .available ∧
      l.place now id holder millis price =
        let h := holdOn (r.settled now) now id holder millis price
        (.ok (.granted h),
          (((((l.settle now id).2.turn id true fun r => held r h).schedule
            ⟨h.deadline, id, h.generation⟩).count (.reservations "held")).send id
            (.holdPlaced id holder h.price h.deadline h.generation)))) := by
  have found := l.get?_settle_self now id
  simp only [place]
  cases hr : l.resources.get? id with
  | none =>
    rw [hr, Option.map_none] at found
    simp only [settle_of_unknown hr, hr]
    exact .inl ⟨trivial, trivial⟩
  | some r =>
    rw [hr, Option.map_some] at found
    simp only [found, Resource.status_settled]
    refine .inr ?_
    by_cases free : r.statusAt now = .available
    · refine .inr ⟨r, rfl, free, ?_⟩
      simp [free]
    · -- somebody has it, so there is nothing to settle
      have live := Resource.not_lapsed_of_taken free
      have same := Resource.statusAt_of_not_lapsed live
      refine .inl ⟨r, rfl, same, same ▸ free, ?_⟩
      rw [if_pos free, settle_of_not_lapsed hr live, same]

/-- **Confirming** turns a live hold that the caller may touch into a booking, or fails
and does no more than settle. -/
theorem confirm_cases (l : Ledger) (policy : HolderPolicy) (now : Int) (id : Id)
    (holder : String) :
    (∃ e, (∀ id', e ≠ .lockTimeout id') ∧
      l.confirm policy now id holder = (.error e, (l.settle now id).2)) ∨
    (∃ r c, l.resources.get? id = some r ∧ r.lapsed now = false ∧ r.status = .reserved ∧
      mayNot policy r holder = false ∧ r.claim = some c ∧
      l.confirm policy now id holder =
        (.ok (), (l.turn id true confirmed).send id (.bookingConfirmed id c.holder c.price))) := by
  have found := l.get?_settle_self now id
  simp only [confirm]
  cases hr : l.resources.get? id with
  | none =>
    rw [hr, Option.map_none] at found
    simp only [found]
    exact .inl ⟨_, by simp, rfl⟩
  | some r =>
    rw [hr, Option.map_some] at found
    simp only [found]
    split
    · exact .inl ⟨_, by simp, rfl⟩
    · next reserved =>
      simp only [Resource.status_settled, ne_eq, Decidable.not_not] at reserved
      split
      · exact .inl ⟨_, by simp, rfl⟩
      · next may =>
        split
        · exact .inl ⟨_, by simp, rfl⟩
        · next c hc =>
          -- a lapsed hold would read as available
          have live : r.lapsed now = false := Resource.not_lapsed_of_taken (by simp [reserved])
          rw [Resource.settled_of_not_lapsed live] at may hc
          rw [Resource.statusAt_of_not_lapsed live] at reserved
          rw [settle_of_not_lapsed hr live]
          exact .inr ⟨r, c, rfl, live, reserved, by simpa using may, hc, rfl⟩

/-- **Cancelling** frees a resource that the caller may touch and that is not part of a
group booking, or fails and does no more than settle. -/
theorem cancel_cases (l : Ledger) (policy : HolderPolicy) (now : Int) (id : Id)
    (holder : String) :
    (∃ e, (∀ id', e ≠ .lockTimeout id') ∧
      l.cancel policy now id holder = (.error e, (l.settle now id).2)) ∨
    (∃ r, l.resources.get? id = some r ∧ r.lapsed now = false ∧ r.status ≠ .available ∧
      mayNot policy r holder = false ∧ r.claim.bind Claim.booking = none ∧
      l.cancel policy now id holder =
        (.ok (), (l.turn id true Resource.freed).send id
          (.reservationCancelled id (r.holder.getD "")))) := by
  have found := l.get?_settle_self now id
  simp only [cancel]
  cases hr : l.resources.get? id with
  | none =>
    rw [hr, Option.map_none] at found
    simp only [found]
    exact .inl ⟨_, by simp, rfl⟩
  | some r =>
    rw [hr, Option.map_some] at found
    simp only [found]
    split
    · exact .inl ⟨_, by simp, rfl⟩
    · next taken =>
      rw [Resource.status_settled] at taken
      have live := Resource.not_lapsed_of_taken taken
      rw [Resource.settled_of_not_lapsed live]
      split
      · exact .inl ⟨_, by simp, rfl⟩
      · next may =>
        split
        · exact .inl ⟨_, by simp, rfl⟩
        · next single =>
          rw [Resource.statusAt_of_not_lapsed live] at taken
          rw [settle_of_not_lapsed hr live]
          exact .inr ⟨r, rfl, live, taken, by simpa using may, single, rfl⟩

/-- **Letting one hold lapse** does no more than settle. -/
theorem expire_cases (l : Ledger) (now : Int) (id : Id) (generation : UInt64) :
    l.expire now id generation = (false, l) ∨
      l.expire now id generation = l.settle now id := by
  simp only [expire]
  cases l.resources.get? id with
  | none => exact .inl rfl
  | some r =>
    dsimp only
    split
    · exact .inr rfl
    · exact .inl rfl

/-! ## Several resources -/

/-- Holds on some resources are settled at `now`, one after the other. -/
inductive Settles (now : Int) (l : Ledger) : Ledger → Prop where
  /-- on none yet -/
  | none : Settles now l l
  /-- on one more -/
  | snoc {l' : Ledger} (before : Settles now l l') (id : Id) : Settles now l (l'.settle now id).2

/-- Each resource was settled, or nothing happened to it. -/
theorem Settles.get? (h : Settles now l l') (id : Id) :
    l'.resources.get? id = l.resources.get? id ∨
      l'.resources.get? id = (l.resources.get? id).map fun r => r.settled now := by
  induction h with
  | none => exact .inl rfl
  | snoc before id' ih =>
    rw [get?_settle]
    split
    · next same =>
      subst same
      refine .inr ?_
      rcases ih with e | e <;> rw [e]
      simp [Function.comp_def]
    · exact ih

theorem Settles.settleAll (h : Settles now l l') (ids : List Id) :
    Settles now l (settleAll now ids l').2 := by
  induction ids generalizing l' with
  | nil => exact h
  | cons id ids ih =>
    simp only [Ledger.settleAll]
    split
    · exact ih (h.snoc id)
    · split
      · exact h.snoc id
      · exact ih (h.snoc id)

/-- If nobody is found to have one of some resources, each of them was settled and is
available. -/
theorem settleAll_spec {ids : List Id} (h : settleAll now ids l = (none, l')) :
    ∀ id ∈ ids, l'.resources.get? id = (l.resources.get? id).map (fun r => r.settled now) ∧
      ∀ r, l.resources.get? id = some r → r.statusAt now = .available := by
  induction ids generalizing l with
  | nil => exact fun id hid => absurd hid List.not_mem_nil
  | cons first ids ih =>
    have found := l.get?_settle_self now first
    -- the rest was settled in a ledger in which the first one is settled already
    have rest : settleAll now ids (l.settle now first).2 = (none, l') ∧
        ∀ r, l.resources.get? first = some r → r.statusAt now = .available := by
      simp only [settleAll] at h
      cases hr : l.resources.get? first with
      | none =>
        rw [hr, Option.map_none] at found
        simp only [found] at h
        exact ⟨h, fun r hr' => nomatch hr'⟩
      | some r =>
        rw [hr, Option.map_some] at found
        simp only [found, Resource.status_settled] at h
        split at h
        · cases h
        · next free => exact ⟨h, fun r' hr' => by cases hr'; simpa using free⟩
    intro id hid
    by_cases same : id = first
    · subst same
      refine ⟨?_, rest.2⟩
      have settles : Settles now (l.settle now id).2 l' := by
        have := (Settles.none : Settles now (l.settle now id).2 _).settleAll ids
        rwa [rest.1] at this
      rcases settles.get? id with e | e <;> rw [e, found]
      simp [Function.comp_def]
    · have other := l.get?_settle now first id
      rw [if_neg same] at other
      have := ih rest.1 id ((List.mem_cons.1 hid).resolve_left same)
      rwa [other] at this

/-- Settling resources in a row is nothing to any other. -/
theorem get?_settleAll (l : Ledger) (now : Int) {ids : List Id} (unlisted : id ∉ ids) :
    (settleAll now ids l).2.resources.get? id = l.resources.get? id := by
  induction ids generalizing l with
  | nil => rfl
  | cons first ids ih =>
    obtain ⟨other, unlisted⟩ := not_or.1 (fun h => unlisted (List.mem_cons.2 h))
    have kept : (l.settle now first).2.resources.get? id = l.resources.get? id := by
      rw [get?_settle, if_neg other]
    simp only [settleAll]
    split
    · exact (ih _ unlisted).trans kept
    · split
      · exact kept
      · exact (ih _ unlisted).trans kept

/-- What no single step changes, several do not change either. -/
theorem foldl_keeps {β : Type} {f : Ledger → β} {step : Ledger → Id → Ledger}
    (one : ∀ l id, f (step l id) = f l) (ids : List Id) (l : Ledger) :
    f (ids.foldl step l) = f l := by
  induction ids generalizing l with
  | nil => rfl
  | cons id ids ih => rw [List.foldl_cons, ih, one]

/-- What is found under each name after several resources were changed one after the other,
if doing it twice is doing it once. -/
theorem get?_foldl {step : Ledger → Id → Ledger} {f : Resource → Resource}
    (one : ∀ l id id', (step l id).resources.get? id' =
      if id' = id then (l.resources.get? id).map f else l.resources.get? id')
    (twice : ∀ r, f (f r) = f r) (ids : List Id) (l : Ledger) (id : Id) :
    (ids.foldl step l).resources.get? id =
      if id ∈ ids then (l.resources.get? id).map f else l.resources.get? id := by
  induction ids generalizing l with
  | nil => rfl
  | cons first ids ih =>
    rw [List.foldl_cons, ih, one]
    by_cases same : id = first
    · subst same
      simp [Function.comp_def, twice]
    · simp [same]

/-- The changes of status that go with changing several resources are noted. -/
theorem turns_turnAll {f : Resource → Resource} {holdStep : Bool} {ids : List Id} {l : Ledger}
    {t : Turn} (apart : ids.Nodup)
    (ht : t ∈ (ids.foldl (fun l id => l.turn id holdStep f) l).turns) :
    t ∈ l.turns ∨ ∃ id ∈ ids, ∃ r, l.resources.get? id = some r ∧
      t = ⟨id, r.status, (f r).status, holdStep⟩ := by
  induction ids generalizing l with
  | nil => exact .inl ht
  | cons first ids ih =>
    obtain ⟨new, apart⟩ := List.nodup_cons.1 apart
    rcases ih apart ht with ht | ⟨id, hid, r, hr, e⟩
    · rcases List.mem_append.1 ht with ht | ht
      · obtain ⟨r, hr, e⟩ := Option.map_eq_some_iff.1 (Option.mem_toList.1 ht)
        exact .inr ⟨first, List.mem_cons_self, r, hr, e.symm⟩
      · exact .inl ht
    · have other : id ≠ first := fun e => new (e ▸ hid)
      rw [get?_turn, if_neg other] at hr
      exact .inr ⟨id, List.mem_cons_of_mem _ hid, r, hr, e⟩

/-- **Giving up** frees a resource that still belongs to the booking, or does nothing. -/
theorem giveUp_cases (l : Ledger) (booking id : Id) :
    (∃ r, l.resources.get? id = some r ∧ r.claim.bind Claim.booking = some booking ∧
      l.giveUp booking id = l.turn id true Resource.freed) ∨
    ((∀ r, l.resources.get? id = some r → r.claim.bind Claim.booking ≠ some booking) ∧
      l.giveUp booking id = l) := by
  simp only [giveUp]
  cases hr : l.resources.get? id with
  | none => exact .inr ⟨by simp, if_neg (by simp)⟩
  | some r =>
    by_cases carries : r.claim.bind Claim.booking = some booking
    · exact .inl ⟨r, rfl, carries, if_pos (by simp [carries])⟩
    · exact .inr ⟨fun r' h => by cases h; exact carries, if_neg (by simp [carries])⟩

/-- What is found under each name after a resource was given up. -/
theorem get?_giveUp (l : Ledger) (booking id id' : Id) :
    (l.giveUp booking id).resources.get? id' =
      if id' = id then (l.resources.get? id).map fun r => r.givenUp booking
      else l.resources.get? id' := by
  rcases l.giveUp_cases booking id with ⟨r, hr, carries, e⟩ | ⟨keeps, e⟩ <;> rw [e]
  · rw [get?_turn, hr, Option.map_some, Option.map_some, Resource.givenUp, if_pos carries]
  · split
    · next same =>
      subst same
      cases hr : l.resources.get? id' with
      | none => rfl
      | some r => rw [Option.map_some, Resource.givenUp, if_neg (keeps r hr)]
    · rfl

/-- The changes of status that go with giving up several resources are noted. -/
theorem turns_giveUpAll {booking : Id} {ids : List Id} {l : Ledger} {t : Turn}
    (ht : t ∈ (ids.foldl (fun l id => l.giveUp booking id) l).turns) :
    t ∈ l.turns ∨ ∃ id ∈ ids, ∃ r, l.resources.get? id = some r ∧
      r.claim.bind Claim.booking = some booking ∧ t = ⟨id, r.status, .available, true⟩ := by
  induction ids generalizing l with
  | nil => exact .inl ht
  | cons first ids ih =>
    rw [List.foldl_cons] at ht
    rcases ih ht with ht | ⟨id, hid, r, hr, carries, e⟩
    · rcases l.giveUp_cases booking first with ⟨r, hr, carries, e⟩ | ⟨-, e⟩ <;> rw [e] at ht
      · rcases List.mem_append.1 ht with ht | ht
        · rw [hr] at ht
          obtain rfl : t = ⟨first, r.status, r.freed.status, true⟩ := by simpa using ht
          exact .inr ⟨first, List.mem_cons_self, r, hr, carries, rfl⟩
        · exact .inl ht
      · exact .inl ht
    · have other : id ≠ first := by
        rintro rfl
        rw [get?_giveUp, if_pos rfl] at hr
        obtain ⟨r', -, rfl⟩ := Option.map_eq_some_iff.1 hr
        simp only [Resource.givenUp] at carries
        split at carries
        · cases carries
        · next keeps => exact keeps carries
      rw [get?_giveUp, if_neg other] at hr
      exact .inr ⟨id, List.mem_cons_of_mem _ hid, r, hr, carries, e⟩

/-! ### Group bookings -/

@[simp] theorem mem_ascending {ids : List Id} : id ∈ ascending ids ↔ id ∈ ids := mem_sortBy

theorem pairwise_ascending (ids : List Id) :
    (ascending ids).Pairwise fun a b => a.le b = true :=
  pairwise_sortBy Id.le_total (fun _ _ _ => Id.le_trans) ids

/-- The record that a group booking gets. -/
def bookingOf (l : Ledger) (now : Int) (group : Id) (holder : String) (ids : List Id)
    (price : Float → Float) : Booking where
  id := (l.supply.draw .booking now).1
  group := group
  holder := holder
  resources := ids
  total := l.totalPrice price (ascending ids)
  status := .confirmed
  bookedAt := now

/-- What becomes of a ledger when a group booking is entered. -/
structure Enters (l : Ledger) (b : Booking) (price : Float → Float) (l' : Ledger) : Prop where
  /-- the groups stay -/
  groups : l'.groups = l.groups
  /-- a name is used up -/
  supply : l'.supply = (l.supply.draw .booking b.bookedAt).2
  /-- the booking is recorded -/
  bookings : l'.bookings = l.bookings.insert b.id b
  /-- its resources are booked -/
  found : ∀ id, l'.resources.get? id =
    if id ∈ b.resources then (l.resources.get? id).map fun r => bookedBy r b.holder b.id price
    else l.resources.get? id
  /-- and took a new status -/
  turns : b.resources.Nodup → ∀ t ∈ l'.turns, t ∈ l.turns ∨ ∃ id ∈ b.resources, ∃ r,
    l.resources.get? id = some r ∧ t = ⟨id, r.status, .booked, false⟩

/-- **Booking** is denied if one of the resources is not available, and else books all of
them. Either way the holds on them that have lapsed are settled first. -/
theorem book_cases (l : Ledger) (now : Int) (group : Id) (holder : String) (ids : List Id)
    (price : Float → Float) :
    (∃ id status l', settleAll now (ascending ids) l = (some (id, status), l') ∧
      l.book now group holder ids price =
        (.denied (.notAvailable id status), l'.count (.groupBookings "denied"))) ∨
    (∃ l' l'', settleAll now (ascending ids) l = (none, l') ∧
      l.book now group holder ids price =
        (.granted (l'.bookingOf now group holder ids price), l'') ∧
      l'.Enters (l'.bookingOf now group holder ids price) price l'') := by
  simp only [book]
  split
  · next id status l' h => exact .inl ⟨id, status, l', h, rfl⟩
  · next l' h =>
    refine .inr ⟨l', _, h, rfl, ?_⟩
    -- entering the record comes after the resources, which it leaves alone
    have all := get?_foldl (fun l id id' => l.get?_turn id id' false
      fun r => bookedBy r holder (l'.draw .booking now).1 price)
      (fun r => rfl) (ascending ids) (l'.draw .booking now).2
    have kept {β : Type} {f : Ledger → β} (one : ∀ l id,
        f (l.turn id false fun r => bookedBy r holder (l'.draw .booking now).1 price) = f l) :=
      foldl_keeps one (ascending ids) (l'.draw .booking now).2
    refine ⟨kept (f := Ledger.groups) fun _ _ => rfl, kept (f := Ledger.supply) fun _ _ => rfl,
      ?_, ?_, ?_⟩
    · exact congrArg (fun table : Table Id Booking => table.insert _ _)
        (kept (f := Ledger.bookings) fun _ _ => rfl)
    · intro id
      exact (all id).trans (by simp only [mem_ascending]; rfl)
    · intro apart t ht
      have apart : (ascending ids).Nodup := (sortBy_perm ids).nodup_iff.2 apart
      rcases turns_turnAll apart ht with old | ⟨id, hid, r, hr, e⟩
      · exact .inl old
      · exact .inr ⟨id, mem_ascending.1 hid, r, hr, e⟩

/-- Giving up resources keeps what freeing a single one keeps. -/
theorem giveUpAll_keeps {β : Type} {f : Ledger → β}
    (one : ∀ l id, f (l.turn id true Resource.freed) = f l) (booking : Id) (ids : List Id)
    (l : Ledger) : f (ids.foldl (fun l id => l.giveUp booking id) l) = f l := by
  refine foldl_keeps (fun l id => ?_) ids l
  obtain ⟨r, -, -, e⟩ | ⟨-, e⟩ := l.giveUp_cases booking id
  · rw [e, one]
  · rw [e]

/-- What is found under each name after a group booking was given up. -/
theorem get?_cancelBooking (l : Ledger) (b : Booking) (id : Id) :
    (l.cancelBooking b).resources.get? id =
      if id ∈ b.resources then (l.resources.get? id).map fun r => r.givenUp b.id
      else l.resources.get? id :=
  get?_foldl (fun l id id' => l.get?_giveUp b.id id id') (fun r => r.givenUp_givenUp b.id)
    b.resources l id

/-- One event tells that a group booking was given up. -/
theorem hub_cancelBooking (l : Ledger) (b : Booking) :
    (l.cancelBooking b).hub =
      l.hub.send b.group (.groupCancelled b.id b.group b.resources) :=
  congrArg (fun hub : Hub => hub.send _ _)
    (giveUpAll_keeps (f := Ledger.hub) (fun _ _ => rfl) b.id b.resources l)

/-! ## What stays -/

/-- Nothing has changed about the groups and about what the resources are. -/
structure Akin (l l' : Ledger) : Prop where
  /-- the groups are the same -/
  groups : l'.groups = l.groups
  /-- the resources are the same, but for who has them -/
  blanks : ∀ id,
    (l'.resources.get? id).map Resource.blank = (l.resources.get? id).map Resource.blank

theorem Akin.refl (l : Ledger) : Akin l l := ⟨rfl, fun _ => rfl⟩

theorem Akin.trans (h : Akin l l') (h' : Akin l' l'') : Akin l l'' :=
  ⟨h'.groups.trans h.groups, fun id => (h'.blanks id).trans (h.blanks id)⟩

/-- Nothing has changed but who has a resource, and what nobody decides on. -/
structure SameBooks (l l' : Ledger) : Prop extends Akin l l' where
  /-- the group bookings are the same -/
  bookings : l'.bookings = l.bookings
  /-- no name was used up -/
  supply : l'.supply = l.supply

theorem SameBooks.refl (l : Ledger) : SameBooks l l := ⟨.refl l, rfl, rfl⟩

theorem SameBooks.trans (h : SameBooks l l') (h' : SameBooks l' l'') : SameBooks l l'' :=
  ⟨h.toAkin.trans h'.toAkin, h'.bookings.trans h.bookings, h'.supply.trans h.supply⟩

/-- What a resource is does not change with who has it. -/
theorem sameBooks_turn (l : Ledger) (id : Id) (holdStep : Bool) {f : Resource → Resource}
    (hf : ∀ r, (f r).blank = r.blank) : SameBooks l (l.turn id holdStep f) := by
  refine ⟨⟨rfl, fun id' => ?_⟩, rfl, rfl⟩
  rw [get?_turn]
  split
  · next same =>
    simp [same, Function.comp_def, hf]
  · rfl

theorem sameBooks_settle (l : Ledger) (now : Int) (id : Id) :
    SameBooks l (l.settle now id).2 := by
  rcases l.settle_cases now id with ⟨r, c, -, -, -, e⟩ | ⟨-, e⟩ <;> rw [e]
  · have h := l.sameBooks_turn id true Resource.blank_freed
    exact ⟨⟨h.groups, h.blanks⟩, h.bookings, h.supply⟩
  · exact .refl l

theorem Settles.sameBooks (h : Settles now l l') : SameBooks l l' := by
  induction h with
  | none => exact .refl l
  | snoc before id ih => exact ih.trans (sameBooks_settle _ now id)

theorem sameBooks_place (l : Ledger) (now : Int) (id : Id) (holder : String) (millis : Nat)
    (price : Float → Float) : SameBooks l (l.place now id holder millis price).2 := by
  rcases l.place_cases now id holder millis price with ⟨-, e⟩ | ⟨r, -, -, -, e⟩ | ⟨r, -, -, e⟩ <;>
    rw [e]
  · exact .refl l
  · exact ⟨⟨rfl, fun _ => rfl⟩, rfl, rfl⟩
  · have h := (l.sameBooks_settle now id).trans (sameBooks_turn _ id true fun r' =>
      blank_held r' (holdOn (r.settled now) now id holder millis price))
    exact ⟨⟨h.groups, h.blanks⟩, h.bookings, h.supply⟩

theorem sameBooks_confirm (l : Ledger) (policy : HolderPolicy) (now : Int) (id : Id)
    (holder : String) : SameBooks l (l.confirm policy now id holder).2 := by
  rcases l.confirm_cases policy now id holder with ⟨err, -, e⟩ | ⟨r, c, -, -, -, -, -, e⟩ <;> rw [e]
  · exact l.sameBooks_settle now id
  · have h := l.sameBooks_turn id true blank_confirmed
    exact ⟨⟨h.groups, h.blanks⟩, h.bookings, h.supply⟩

theorem sameBooks_cancel (l : Ledger) (policy : HolderPolicy) (now : Int) (id : Id)
    (holder : String) : SameBooks l (l.cancel policy now id holder).2 := by
  rcases l.cancel_cases policy now id holder with ⟨err, -, e⟩ | ⟨r, -, -, -, -, -, e⟩ <;> rw [e]
  · exact l.sameBooks_settle now id
  · have h := l.sameBooks_turn id true Resource.blank_freed
    exact ⟨⟨h.groups, h.blanks⟩, h.bookings, h.supply⟩

/-- Entering a group booking changes nothing about what the resources are. -/
theorem Enters.akin {b : Booking} {price : Float → Float} (h : l.Enters b price l') :
    Akin l l' := by
  refine ⟨h.groups, fun id => ?_⟩
  rw [h.found]
  split
  · simp [Function.comp_def]
  · rfl

theorem akin_cancelBooking (l : Ledger) (b : Booking) : Akin l (l.cancelBooking b) := by
  refine ⟨giveUpAll_keeps (f := Ledger.groups) (fun _ _ => rfl) b.id b.resources l, fun id => ?_⟩
  rw [get?_cancelBooking]
  split
  · simp [Function.comp_def]
  · rfl

end Ledger

end Tenure
