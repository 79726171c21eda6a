import Tenure.Proofs.Service

/-!
# The two stores agree

Who has a resource is written down twice: in the claim on the resource, and, for group
bookings, in the record of the booking. `Ledger.Agreement` says that the two never
contradict each other, and that status and claim of a resource do not either.

Every decision keeps this up, whatever the time, and so do the chores. So it holds in every
state that a history of parties reaches from a ledger whose resources nobody has touched
(`agreement_of_moves`).
-/

namespace Tenure

/-- Status and claim of a resource agree. -/
structure Resource.Agrees (r : Resource) : Prop where
  /-- it is available exactly if nobody has a claim -/
  available : r.status = .available ↔ r.claim = none
  /-- a hold has a deadline, is part of no group booking and is the latest one -/
  reserved : r.status = .reserved → ∃ c t, r.claim = some c ∧ c.deadline = some t ∧
    c.booking = none ∧ c.generation = r.generation
  /-- a booking has no deadline -/
  booked : r.status = .booked → ∃ c, r.claim = some c ∧ c.deadline = none

namespace Resource.Agrees

variable {r : Resource}

theorem freed (r : Resource) : r.freed.Agrees :=
  ⟨⟨fun _ => rfl, fun _ => rfl⟩, (nomatch ·), (nomatch ·)⟩

theorem held (r : Resource) (now : Int) (id : Id) (holder : String) (millis : Nat)
    (price : Float → Float) : (Ledger.held r (Ledger.holdOn r now id holder millis price)).Agrees :=
  ⟨⟨(nomatch ·), (nomatch ·)⟩, fun _ => ⟨_, _, rfl, rfl, rfl, rfl⟩, (nomatch ·)⟩

theorem bookedBy (r : Resource) (holder : String) (booking : Id) (price : Float → Float) :
    (Ledger.bookedBy r holder booking price).Agrees :=
  ⟨⟨(nomatch ·), (nomatch ·)⟩, (nomatch ·), fun _ => ⟨_, rfl, rfl⟩⟩

theorem confirmed {c : Claim} (hc : r.claim = some c) : (Ledger.confirmed r).Agrees := by
  have claim : (Ledger.confirmed r).claim = some { c with deadline := none } := by
    rw [Ledger.confirmed, hc]
    rfl
  refine ⟨⟨(nomatch ·), fun h => ?_⟩, (nomatch ·), fun _ => ⟨_, claim, rfl⟩⟩
  rw [claim] at h
  cases h

/-- A hold is not part of a group booking. -/
theorem single_of_reserved (h : r.Agrees) (hr : r.status = .reserved) :
    r.claim.bind Claim.booking = none := by
  obtain ⟨c, t, hc, -, hb, -⟩ := h.reserved hr
  rw [hc, Option.bind_some, hb]

/-- Neither is a resource that nobody has. -/
theorem single_of_available (h : r.Agrees) (hr : r.status = .available) :
    r.claim.bind Claim.booking = none := by
  rw [h.available.1 hr, Option.bind_none]

end Resource.Agrees

namespace Ledger

/-- The claim on the resource is part of a group booking, with the same holder and group. -/
def Belongs (r : Resource) (booking : Id) (b : Booking) : Prop :=
  ∃ c, r.claim = some c ∧ c.booking = some booking ∧ c.holder = b.holder ∧ r.group = some b.group

/-- Claims and records agree. -/
structure Agreement (l : Ledger) : Prop where
  /-- status and claim of every resource agree -/
  resources : ∀ id r, l.resources.get? id = some r → r.Agrees
  /-- a claim names a booking only if that stands and lists the resource -/
  carried : ∀ id r booking, l.resources.get? id = some r →
    r.claim.bind Claim.booking = some booking →
    ∃ b, l.bookings.get? booking = some b ∧ b.status = .confirmed ∧ id ∈ b.resources ∧
      Belongs r booking b
  /-- what a booking lists belongs to it as long as it stands -/
  listed : ∀ booking b, l.bookings.get? booking = some b → b.status = .confirmed →
    ∀ id ∈ b.resources, ∃ r, l.resources.get? id = some r ∧ Belongs r booking b
  /-- every change of a status was one that is allowed -/
  turns : ∀ t ∈ l.turns, t.allowed = true

/-- The resources are registered and nobody has ever had one of them. -/
structure Untouched (l : Ledger) : Prop where
  /-- all are available, without a claim -/
  resources : ∀ id r, l.resources.get? id = some r → r.status = .available ∧ r.claim = none
  /-- there are no group bookings -/
  bookings : ∀ id, l.bookings.get? id = none
  /-- no status has changed -/
  turns : l.turns = []

variable {l l' : Ledger} {now : Int} {id : Id}

theorem Belongs.booking {r : Resource} {booking : Id} {b : Booking} (h : Belongs r booking b) :
    r.claim.bind Claim.booking = some booking := by
  obtain ⟨c, hc, hb, -⟩ := h
  rw [hc, Option.bind_some, hb]

/-- Nothing to contradict. -/
theorem Untouched.agreement (h : Untouched l) : Agreement l := by
  refine { resources := ?_, carried := ?_, listed := ?_, turns := ?_ }
  · intro id r hr
    obtain ⟨hs, hc⟩ := h.resources id r hr
    exact ⟨⟨fun _ => hc, fun _ => hs⟩, fun h => (nomatch hs.symm.trans h),
      fun h => (nomatch hs.symm.trans h)⟩
  · intro id r booking hr hb
    rw [(h.resources id r hr).2] at hb
    cases hb
  · intro booking b hb
    rw [h.bookings] at hb
    cases hb
  · intro t ht
    rw [h.turns] at ht
    cases ht

theorem untouched_hallOfTwo : Untouched hallOfTwo := by
  refine ⟨fun id r hr => ?_, fun id => rfl, rfl⟩
  rw [hallOfTwo, Table.get?_insert, Table.get?_insert] at hr
  split at hr
  · cases hr; exact ⟨rfl, rfl⟩
  · split at hr
    · cases hr; exact ⟨rfl, rfl⟩
    · cases hr

/-- What is not about resources and bookings does not matter. -/
theorem Agreement.congr (h : Agreement l) (resources : l'.resources = l.resources)
    (bookings : l'.bookings = l.bookings) (turns : l'.turns = l.turns) : Agreement l' := by
  refine { resources := ?_, carried := ?_, listed := ?_, turns := ?_ }
  · intro id r hr
    exact h.resources id r (resources ▸ hr)
  · intro id r booking hr hb
    rw [bookings]
    exact h.carried id r booking (resources ▸ hr) hb
  · intro booking b hb
    rw [resources]
    exact h.listed booking b (bookings ▸ hb)
  · intro t ht
    exact h.turns t (turns ▸ ht)

/-- **A change of one resource** that is part of no group booking, neither before nor
after. -/
theorem Agreement.turn (h : Agreement l) {r : Resource} {f : Resource → Resource} (holdStep : Bool)
    (hr : l.resources.get? id = some r) (agrees : (f r).Agrees)
    (allowed : r.status.allows holdStep (f r).status = true)
    (before : r.claim.bind Claim.booking = none) (after : (f r).claim.bind Claim.booking = none) :
    Agreement (l.turn id holdStep f) := by
  have found : ∀ id', (l.turn id holdStep f).resources.get? id' =
      if id' = id then some (f r) else l.resources.get? id' := by
    intro id'
    rw [get?_turn, hr, Option.map_some]
  refine { resources := ?_, carried := ?_, listed := ?_, turns := ?_ }
  · intro id' r' hr'
    rw [found] at hr'
    split at hr'
    · cases hr'; exact agrees
    · exact h.resources id' r' hr'
  · intro id' r' booking hr' hb
    rw [found] at hr'
    split at hr'
    · cases hr'
      rw [after] at hb
      cases hb
    · exact h.carried id' r' booking hr' hb
  · intro booking b hb hs id' hid
    obtain ⟨r', hr', belongs⟩ := h.listed booking b hb hs id' hid
    refine ⟨r', ?_, belongs⟩
    rw [found, if_neg]
    · exact hr'
    · -- the changed resource was on no list
      rintro rfl
      rw [hr] at hr'
      obtain rfl := Option.some.inj hr'
      rw [belongs.booking] at before
      cases before
  · intro t ht
    rcases List.mem_append.1 ht with ht | ht
    · rw [hr] at ht
      obtain rfl : t = ⟨id, r.status, (f r).status, holdStep⟩ := by simpa using ht
      exact allowed
    · exact h.turns t ht

/-! ## Decisions -/

/-- To free a resource that somebody has on its own. -/
theorem Agreement.turn_freed (h : Agreement l) {r : Resource} (hr : l.resources.get? id = some r)
    (taken : r.status ≠ .available) (single : r.claim.bind Claim.booking = none) :
    Agreement (l.turn id true Resource.freed) := by
  refine h.turn true hr (f := Resource.freed) (.freed r) ?_ single rfl
  cases hs : r.status with
  | available => exact absurd hs taken
  | reserved => rfl
  | booked => rfl

/-- To free one whose hold has lapsed. -/
theorem Agreement.turn_lapsed (h : Agreement l) {r : Resource} (hr : l.resources.get? id = some r)
    (gone : r.lapsed now = true) : Agreement (l.turn id true Resource.freed) := by
  obtain ⟨reserved, -⟩ := Resource.lapsed_iff.1 gone
  exact h.turn_freed hr (by rw [reserved]; exact nofun)
    ((h.resources id r hr).single_of_reserved reserved)

/-- To place a hold on a resource that is available. -/
theorem Agreement.turn_held (h : Agreement l) {r : Resource} (hr : l.resources.get? id = some r)
    (free : r.status = .available) (holder : String) (millis : Nat) (price : Float → Float) :
    Agreement (l.turn id true fun r' => Ledger.held r' (holdOn r now id holder millis price)) :=
  h.turn true hr (f := fun r' => Ledger.held r' (holdOn r now id holder millis price))
    (.held r now id holder millis price) (by rw [free]; rfl)
    ((h.resources id r hr).single_of_available free) rfl

/-- To make a booking of a hold. -/
theorem Agreement.turn_confirmed (h : Agreement l) {r : Resource} {c : Claim}
    (hr : l.resources.get? id = some r) (reserved : r.status = .reserved) (hc : r.claim = some c) :
    Agreement (l.turn id true confirmed) := by
  have single := (h.resources id r hr).single_of_reserved reserved
  refine h.turn true hr (f := confirmed) (.confirmed hc) (by rw [reserved]; rfl) single ?_
  rw [confirmed, hc]
  rw [hc] at single
  exact single

theorem Agreement.settle (h : Agreement l) (now : Int) (id : Id) :
    Agreement (l.settle now id).2 := by
  rcases l.settle_cases now id with ⟨r, c, hr, hl, -, e⟩ | ⟨-, e⟩ <;> rw [e]
  · exact (h.turn_lapsed hr hl).congr rfl rfl rfl
  · exact h

theorem Agreement.settles (h : Agreement l) (settles : Settles now l l') : Agreement l' := by
  induction settles with
  | none => exact h
  | snoc _ id ih => exact ih.settle now id

theorem Agreement.upkeep {m : Moment} (h : Agreement l) (upkeep : Upkeep m l l') :
    Agreement l' := by
  induction upkeep with
  | none => exact h
  | settle _ _ id ih => exact ih.settle _ id
  | tidy _ _ _ _ ih => exact ih.congr rfl rfl rfl

theorem Agreement.quiet (h : Agreement l) (quiet : Quiet l l') : Agreement l' := by
  obtain ⟨x, rfl⟩ := quiet
  exact h.congr rfl rfl rfl

theorem Agreement.place (h : Agreement l) (now : Int) (id : Id) (holder : String) (millis : Nat)
    (price : Float → Float) : Agreement (l.place now id holder millis price).2 := by
  rcases l.place_cases now id holder millis price with ⟨-, e⟩ | ⟨r, -, -, -, e⟩ | ⟨r, hr, free, e⟩ <;>
    rw [e]
  · exact h
  · exact h.congr rfl rfl rfl
  · have settled := h.settle now id
    have hr' : (l.settle now id).2.resources.get? id = some (r.settled now) := by
      rw [get?_settle_self, hr, Option.map_some]
    have free' : (r.settled now).status = .available := by rw [Resource.status_settled, free]
    exact (settled.turn_held hr' free' holder millis price).congr rfl rfl rfl

theorem Agreement.confirm (h : Agreement l) (policy : HolderPolicy) (now : Int) (id : Id)
    (holder : String) : Agreement (l.confirm policy now id holder).2 := by
  rcases l.confirm_cases policy now id holder with ⟨err, -, e⟩ | ⟨r, c, hr, -, hs, -, hc, e⟩ <;> rw [e]
  · exact h.settle now id
  · exact (h.turn_confirmed hr hs hc).congr rfl rfl rfl

theorem Agreement.cancel (h : Agreement l) (policy : HolderPolicy) (now : Int) (id : Id)
    (holder : String) : Agreement (l.cancel policy now id holder).2 := by
  rcases l.cancel_cases policy now id holder with ⟨err, -, e⟩ | ⟨r, hr, -, hs, -, single, e⟩ <;> rw [e]
  · exact h.settle now id
  · exact (h.turn_freed hr hs single).congr rfl rfl rfl

/-- **Entering a group booking** of resources that are available members of its group. -/
theorem Agreement.enters {b : Booking} {price : Float → Float} (h : Agreement l) (ord : Orderly l)
    (enters : l.Enters b price l') (name : b.id = (l.supply.draw .booking b.bookedAt).1)
    (confirmed : b.status = .confirmed) (apart : b.resources.Nodup)
    (free : ∀ id ∈ b.resources, ∃ r, l.resources.get? id = some r ∧ r.status = .available ∧
      r.group = some b.group) : Agreement l' := by
  have bookings : ∀ id, l'.bookings.get? id = if id = b.id then some b else l.bookings.get? id := by
    intro id
    rw [enters.bookings, Table.get?_insert]
  have booked : ∀ id ∈ b.resources, ∃ r, l'.resources.get? id = some r ∧ r.Agrees ∧
      Belongs r b.id b := by
    intro id hid
    obtain ⟨r, hr, -, hg⟩ := free id hid
    refine ⟨bookedBy r b.holder b.id price, ?_, .bookedBy .., _, rfl, rfl, rfl, hg⟩
    rw [enters.found, if_pos hid, hr, Option.map_some]
  have others : ∀ id, id ∉ b.resources → l'.resources.get? id = l.resources.get? id :=
    fun id hid => (enters.found id).trans (if_neg hid)
  refine { resources := ?_, carried := ?_, listed := ?_, turns := ?_ }
  · intro id r hr
    by_cases hid : id ∈ b.resources
    · obtain ⟨r', hr', agrees, -⟩ := booked id hid
      rw [hr] at hr'
      obtain rfl := Option.some.inj hr'
      exact agrees
    · exact h.resources id r (others id hid ▸ hr)
  · intro id r booking hr hb
    by_cases hid : id ∈ b.resources
    · obtain ⟨r', hr', -, belongs⟩ := booked id hid
      rw [hr] at hr'
      obtain rfl := Option.some.inj hr'
      obtain rfl := Option.some.inj (hb.symm.trans belongs.booking)
      exact ⟨b, by rw [bookings, if_pos rfl], confirmed, hid, belongs⟩
    · obtain ⟨b', hb', old⟩ := h.carried id r booking (others id hid ▸ hr) hb
      refine ⟨b', ?_, old⟩
      rw [bookings, if_neg (ord.ne_of_drawn hb' name)]
      exact hb'
  · intro booking b' hb hs id hid
    rw [bookings] at hb
    split at hb
    · next same =>
      cases hb
      obtain ⟨r, hr, -, belongs⟩ := booked id hid
      exact ⟨r, hr, same ▸ belongs⟩
    · obtain ⟨r, hr, belongs⟩ := h.listed booking b' hb hs id hid
      refine ⟨r, ?_, belongs⟩
      rw [others]
      · exact hr
      · -- what was available before belongs to no other booking
        intro hid'
        obtain ⟨r', hr', hf, -⟩ := free id hid'
        rw [hr] at hr'
        obtain rfl := Option.some.inj hr'
        have single := (h.resources id r hr).single_of_available hf
        rw [belongs.booking] at single
        cases single
  · intro t ht
    rcases enters.turns apart t ht with old | ⟨id, hid, r, hr, rfl⟩
    · exact h.turns t old
    · obtain ⟨r', hr', hf, -⟩ := free id hid
      rw [hr] at hr'
      obtain rfl := Option.some.inj hr'
      rw [Turn.allowed, hf]
      rfl

/-- What becomes of a ledger when a group booking is given up. -/
structure GivesUp (l : Ledger) (booking : Id) (b : Booking) (l' : Ledger) : Prop where
  /-- every resource listed is available and without a claim, and else the same -/
  given : ∀ id ∈ b.resources, ∃ r, l.resources.get? id = some r ∧
    l'.resources.get? id = some { r with status := .available, claim := none }
  /-- no other one changes -/
  others : ∀ id, id ∉ b.resources → l'.resources.get? id = l.resources.get? id
  /-- the booking is recorded as given up, and the others are the same -/
  recorded : ∀ id, l'.bookings.get? id =
    if id = booking then some { b with status := .cancelled } else l.bookings.get? id

/-- **Giving up a group booking** frees exactly what belongs to it. -/
theorem Agreement.givesUp (h : Agreement l) (ord : Orderly l) {booking : Id} {b : Booking}
    (stands : l.standing booking = .ok b) : l.GivesUp booking b (l.cancelBooking b) := by
  obtain ⟨hb, confirmed⟩ := get?_of_standing stands
  obtain rfl := ord.filed booking b hb
  refine ⟨fun id hid => ?_, fun id hid => (l.get?_cancelBooking b id).trans (if_neg hid),
    get?_bookings_cancelBooking ord stands⟩
  obtain ⟨r, hr, belongs⟩ := h.listed b.id b hb confirmed id hid
  refine ⟨r, hr, ?_⟩
  rw [get?_cancelBooking, if_pos hid, hr, Option.map_some, Resource.givenUp,
    if_pos belongs.booking, Resource.freed]

/-- Giving up a group booking keeps claims and records in agreement. -/
theorem Agreement.cancelBooking (h : Agreement l) (ord : Orderly l) {booking : Id} {b : Booking}
    (stands : l.standing booking = .ok b) : Agreement (l.cancelBooking b) := by
  obtain ⟨given, others, bookings⟩ := h.givesUp ord stands
  obtain ⟨hb, confirmed⟩ := get?_of_standing stands
  obtain rfl := ord.filed booking b hb
  refine { resources := ?_, carried := ?_, listed := ?_, turns := ?_ }
  · intro id r hr
    by_cases hid : id ∈ b.resources
    · obtain ⟨r', -, hr'⟩ := given id hid
      rw [hr] at hr'
      obtain rfl := Option.some.inj hr'
      exact .freed r'
    · exact h.resources id r (others id hid ▸ hr)
  · intro id r booking hr hc
    by_cases hid : id ∈ b.resources
    · obtain ⟨r', -, hr'⟩ := given id hid
      rw [hr] at hr'
      obtain rfl := Option.some.inj hr'
      cases hc
    · obtain ⟨b', hb', stands', hl, belongs⟩ := h.carried id r booking (others id hid ▸ hr) hc
      refine ⟨b', ?_, stands', hl, belongs⟩
      rw [bookings, if_neg]
      · exact hb'
      · rintro rfl
        rw [hb] at hb'
        obtain rfl := Option.some.inj hb'
        exact hid hl
  · intro booking b' hb' hs id hid
    rw [bookings] at hb'
    split at hb'
    · cases hb'
      cases hs
    · next other =>
      obtain ⟨r, hr, belongs⟩ := h.listed booking b' hb' hs id hid
      refine ⟨r, ?_, belongs⟩
      rw [others]
      · exact hr
      · -- a resource that belongs to one booking belongs to no other
        intro hid'
        obtain ⟨r', hr', belongs'⟩ := h.listed b.id b hb confirmed id hid'
        rw [hr] at hr'
        obtain rfl := Option.some.inj hr'
        exact other (Option.some.inj (belongs.booking.symm.trans belongs'.booking))
  · intro t ht
    rcases turns_giveUpAll ht with old | ⟨id, -, r, hr, carries, rfl⟩
    · exact h.turns t old
    · have agrees := h.resources id r hr
      cases hs : r.status with
      | booked => rfl
      | available => rw [agrees.single_of_available hs] at carries; cases carries
      | reserved => rw [agrees.single_of_reserved hs] at carries; cases carries

/-! ## Requests -/

/-- Without a fault all are known members of the group. -/
theorem member_of_firstFault {group : Id} {ids : List Id}
    (h : l.firstFault? (foreign group) ids = none) :
    ∀ id ∈ ids, ∃ r, l.resources.get? id = some r ∧ r.group = some group := by
  intro id hid
  have fine := List.findSome?_eq_none_iff.1 h id hid
  simp only [fault?] at fine
  split at fine
  · cases fine
  · next r hr =>
    simp only [foreign] at fine
    split at fine
    · next member => exact ⟨r, hr, member⟩
    · cases fine

theorem Agreement.bookAtOnce (h : Agreement l) (ord : Orderly l) (now : Int) (group : Id)
    (holder : String) (ids : List Id) (price : Float → Float) :
    Agreement (l.bookAtOnce now group holder ids price).2 := by
  obtain ⟨e, refused⟩ | ⟨fine, members, decided⟩ := l.bookAtOnce_cases now group holder ids price
  · rw [refused]
    exact h
  · rw [decided]
    have settled : Settles now l (settleAll now (ascending ids) l).2 :=
      Settles.none.settleAll _
    rcases l.book_cases now group holder ids price with
      ⟨id, status, l', hs, e⟩ | ⟨l', l'', hs, e, enters⟩ <;> rw [hs] at settled <;> rw [e]
    · exact (h.settles settled).quiet (quiet_count l' _)
    · refine (h.settles settled).enters (settled.sameBooks.orderly ord) enters rfl rfl
        (nodup_of_listFault fine) fun id hid => ?_
      obtain ⟨r, hr, member⟩ := member_of_firstFault members id (mem_ascending.2 hid)
      obtain ⟨found, free⟩ := settleAll_spec hs id (mem_ascending.2 hid)
      rw [hr, Option.map_some] at found
      refine ⟨r.settled now, found, ?_, ?_⟩
      · rw [Resource.status_settled, free r hr]
      · exact (congrArg Resource.group (r.blank_settled now)).trans member

theorem Agreement.cancelGroupAtOnce (h : Agreement l) (ord : Orderly l) (policy : HolderPolicy)
    (booking : Id) (holder : String) :
    Agreement (l.cancelGroupAtOnce policy booking holder).2 := by
  obtain ⟨e, -, refused⟩ | ⟨b, stands, -, done⟩ :=
    l.cancelGroupAtOnce_cases policy booking holder
  · rw [refused]
    exact h
  · rw [done]
    exact h.cancelBooking ord stands

/-- **Every request** keeps claims and records in agreement. -/
theorem Agreement.atOnce (h : Agreement l) (ord : Orderly l) (s : CoordinatorSettings) (now : Int)
    (r : Request) : Agreement (r.atOnce s now l).2 := by
  have reserved : ∀ id holder duration price,
      Agreement (l.reserveAtOnce now id holder duration price).2 := by
    intro id holder duration price
    obtain ⟨e, refused⟩ | placed := l.reserveAtOnce_cases now id holder duration price
    · rw [refused]
      exact h
    · rw [placed]
      exact h.place now id holder _ price
  cases r with
  | reserve id holder duration price => exact reserved id holder duration price
  | reserveDefault id holder price => exact reserved id holder _ price
  | confirm id holder => exact h.confirm s.policy now id holder
  | cancel id holder => exact h.cancel s.policy now id holder
  | book group holder ids price => exact h.bookAtOnce ord now group holder ids price
  | bookByName group holder names price =>
    change Agreement (l.bookByNameAtOnce now group holder names price).2
    obtain missing | ⟨ids, found⟩ := l.bookByNameAtOnce_cases now group holder names price
    · rw [missing]
      exact h
    · rw [found]
      exact h.bookAtOnce ord now group holder ids price
  | cancelGroup booking holder => exact h.cancelGroupAtOnce ord s.policy booking holder

/-- **Every reply** leaves claims and records in agreement. -/
theorem Agreement.does (h : Agreement l) (ord : Orderly l) {s : CoordinatorSettings} {m : Moment}
    {a : Reply} (does : a.Does s m l l') : Agreement l' := by
  rcases does with tells | upkeep
  · cases a with
    | answered r a =>
      rcases tells with ⟨-, quiet⟩ | ⟨-, quiet⟩
      · exact h.quiet quiet
      · exact (h.atOnce ord s m.stamp r).quiet quiet
    | looked => exact h.quiet tells
    | swept _ => exact tells.elim
    | expired _ => exact tells.elim
    | round _ => exact tells.elim
  · exact h.upkeep upkeep

/-- **Two group bookings that stand share no resource.** -/
theorem Agreement.disjoint (h : Agreement l) {id₁ id₂ : Id} {b₁ b₂ : Booking}
    (h₁ : l.bookings.get? id₁ = some b₁) (h₂ : l.bookings.get? id₂ = some b₂)
    (s₁ : b₁.status = .confirmed) (s₂ : b₂.status = .confirmed) {id : Id}
    (m₁ : id ∈ b₁.resources) (m₂ : id ∈ b₂.resources) : id₁ = id₂ := by
  obtain ⟨r, hr, belongs⟩ := h.listed id₁ b₁ h₁ s₁ id m₁
  obtain ⟨r', hr', belongs'⟩ := h.listed id₂ b₂ h₂ s₂ id m₂
  rw [hr] at hr'
  obtain rfl := Option.some.inj hr'
  exact Option.some.inj (belongs.booking.symm.trans belongs'.booking)

end Ledger

namespace Traffic

variable {s : CoordinatorSettings} {origin : Int} {l₀ : Ledger} {t : Traffic Ledger Reply}

/-- In every reachable state everybody keeps to the rules, and claims and records agree. -/
theorem Moves.agreement (h : Moves (Party s) (Traffic.start origin l₀) t) (start : l₀.Untouched) :
    (t.Kept Ledger.conduct Ledger.Upkeep fun m l l' a => a.Does s m l l') ∧
      t.shared.Agreement :=
  h.kept (P := fun t => t.shared.Agreement) Party.keepsTo
    (fun {t u} kept effect hP => by
      cases effect with
      | still _ same _ => exact same ▸ hP
      | waits _ did _ => exact hP.upkeep did
      | answers _ a _ did _ => exact hP.does kept.inv did)
    (kept_start (Ledger.orderly_of_none start.bookings)) start.agreement

/-- **Claims and records agree in every reachable state**, whoever does what in whatever
order and however time passes; in particular no resource is in two group bookings. -/
theorem agreement_of_moves (start : l₀.Untouched)
    (h : Moves (Party s) (Traffic.start origin l₀) t) :
    t.shared.Agreement ∧
      ∀ id₁ id₂ b₁ b₂, t.shared.bookings.get? id₁ = some b₁ → t.shared.bookings.get? id₂ = some b₂ →
        b₁.status = .confirmed → b₂.status = .confirmed → id₁ ≠ id₂ →
          ∀ id ∈ b₁.resources, id ∉ b₂.resources := by
  have ⟨_, agreement⟩ := h.agreement start
  exact ⟨agreement, fun id₁ id₂ b₁ b₂ h₁ h₂ s₁ s₂ ne id m₁ m₂ =>
    ne (agreement.disjoint h₁ h₂ s₁ s₂ m₁ m₂)⟩

/-- So it is when Ann has booked both seats of a hall. -/
theorem agreement_of_a_booking :
    Ledger.hallOfTwo.Untouched ∧ ∃ t, Moves (Party .standard) (Traffic.start 0 Ledger.hallOfTwo) t ∧
      (t.shared.resources.get? ⟨0, 1⟩).map Resource.status = some .booked ∧ t.shared.Agreement := by
  have start := Ledger.untouched_hallOfTwo
  have moves : Moves (Party .standard) (Traffic.start 0 Ledger.hallOfTwo)
      (((Traffic.start 0 Ledger.hallOfTwo).enter (Request.annBooks.errand .standard)).run
        (fun _ => false) none 5) :=
    (Moves.none.snoc (.enter (Client.once .standard .annBooks).party)).trans (run_moves ..)
  exact ⟨start, _, moves, by decide +kernel, (agreement_of_moves start moves).1⟩

end Traffic

end Tenure
