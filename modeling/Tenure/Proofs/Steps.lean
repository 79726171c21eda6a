import Tenure.Proofs.Agreement

/-!
# One step at a time

Whatever requests and sweeps do to a ledger is a row of elementary steps (`Ledger.Steps`). A
step is one change of the resources together with the event that tells of it, or mere counting,
and says under which circumstances it happens (`Ledger.Step`).

So what is to be shown of every request is shown of the kinds of steps: `Request.steps` takes
each request apart, and `Helper.keepsTo` says that there is nothing else to errands and
sweeps.
-/

namespace Tenure

namespace Ledger

variable {l l' l'' : Ledger} {m : Moment} {id : Id}

/-! ## Steps -/

/-- What becomes of a ledger when a group booking is entered, with what is told of it. -/
structure Books (l : Ledger) (b : Booking) (price : Float → Float) (l' : Ledger) : Prop
    extends Enters l b price l' where
  /-- it has a new name -/
  name : b.id = (l.supply.draw .booking b.bookedAt).1
  /-- it stands -/
  stands : b.status = .confirmed
  /-- it lists no resource twice -/
  apart : b.resources.Nodup
  /-- its resources were available members of its group -/
  free : ∀ id ∈ b.resources, ∃ r, l.resources.get? id = some r ∧ r.status = .available ∧
    r.group = some b.group
  /-- one event tells of it -/
  hub : l'.hub = l.hub.send b.group (.groupBooked b.id b.group b.holder b.resources b.total)
  /-- the pending deadlines stay -/
  expiries : l'.expiries = l.expiries
  /-- the reaper has the same in its hand -/
  inHand : l'.inHand = l.inHand
  /-- the ledger is in use as before -/
  inUse : l'.inUse = l.inUse

/-- One thing that requests and sweeps do to a ledger, until the moment `m`. -/
inductive Step (m : Moment) : Ledger → Ledger → Prop where
  /-- to count -/
  | count {l l' : Ledger} (quiet : Quiet l l') : Step m l l'
  /-- to settle a hold that had lapsed at a time that has come -/
  | lapse {l : Ledger} {id : Id} {r : Resource} {c : Claim} {m' : Moment} (time : m'.Before m)
    (here : l.resources.get? id = some r) (gone : r.lapsed m'.stamp = true)
    (claim : r.claim = some c) :
    Step m l ((l.turn id true Resource.freed).send id (.holdExpired id c.holder c.generation))
  /-- to place a hold on a resource that is available -/
  | hold {l : Ledger} {id : Id} {r : Resource} (holder : String) (millis : Nat)
    (price : Float → Float) (here : l.resources.get? id = some r)
    (free : r.status = .available) :
    Step m l
      (let h := holdOn r m.stamp id holder millis price
      ((l.turn id true fun r' => held r' h).schedule ⟨h.deadline, id, h.generation⟩).send id
        (.holdPlaced id holder h.price h.deadline h.generation))
  /-- to make a booking of a hold -/
  | confirm {l : Ledger} {id : Id} {r : Resource} {c : Claim}
    (here : l.resources.get? id = some r) (live : r.lapsed m.stamp = false)
    (reserved : r.status = .reserved) (claim : r.claim = some c) :
    Step m l ((l.turn id true confirmed).send id (.bookingConfirmed id c.holder c.price))
  /-- to give up a resource that somebody has on its own -/
  | cancel {l : Ledger} {id : Id} {r : Resource} (here : l.resources.get? id = some r)
    (live : r.lapsed m.stamp = false) (taken : r.status ≠ .available)
    (single : r.claim.bind Claim.booking = none) :
    Step m l ((l.turn id true Resource.freed).send id
      (.reservationCancelled id (r.holder.getD "")))
  /-- to book several resources -/
  | book {l l' : Ledger} {b : Booking} {price : Float → Float} (books : Books l b price l') :
    Step m l l'
  /-- to give up a group booking -/
  | giveUp {l : Ledger} {booking : Id} {b : Booking} (stands : l.standing booking = .ok b) :
    Step m l (l.cancelBooking b)

/-- A row of steps, until the moment `m`. -/
inductive Steps (m : Moment) (l : Ledger) : Ledger → Prop where
  /-- nothing so far -/
  | none : Steps m l l
  /-- one more step -/
  | snoc {l' l'' : Ledger} (before : Steps m l l') (step : Step m l' l'') : Steps m l l''

theorem Steps.trans (h : Steps m l l') (h' : Steps m l' l'') : Steps m l l'' := by
  induction h' with
  | none => exact h
  | snoc _ step ih => exact ih.snoc step

theorem Step.steps (h : Step m l l') : Steps m l l' := .snoc .none h

theorem Quiet.steps (h : Quiet l l') : Steps m l l' := (Step.count h).steps

theorem Steps.count (h : Steps m l l') (x : Metric) : Steps m l (l'.count x) :=
  h.snoc (.count (quiet_count l' x))

/-- What no step changes, a row of steps does not change either. -/
theorem Steps.keeps {P : Ledger → Prop} (one : ∀ {l l'}, Step m l l' → P l → P l')
    (h : Steps m l l') (start : P l) : P l' := by
  induction h with
  | none => exact start
  | snoc _ step ih => exact one step ih

/-! ## What steps keep -/

theorem Step.orderly (h : Step m l l') (ord : Orderly l) : Orderly l' := by
  cases h with
  | count quiet => exact quiet.sameBooks.orderly ord
  | book books =>
    have permitted : conduct.Permits [] l l' := books.permits books.name books.apart ord
    exact permitted.1
  | @giveUp _ b stands =>
    have permitted : conduct.Permits [.group b.group] l (l.cancelBooking b) :=
      permits_cancelBooking ord stands List.mem_cons_self
    exact permitted.1
  | _ => exact ⟨ord.filed, ord.fresh, ord.once⟩

/-- **Every step** keeps claims and records in agreement. -/
theorem Step.agreement (h : Step m l l') (agreement : Agreement l) (ord : Orderly l) :
    Agreement l' := by
  cases h with
  | count quiet => exact agreement.quiet quiet
  | lapse _ here gone _ => exact (agreement.turn_lapsed here gone).congr rfl rfl rfl
  | hold holder millis price here free =>
    exact (agreement.turn_held here free holder millis price).congr rfl rfl rfl
  | confirm here _ reserved claim =>
    exact (agreement.turn_confirmed here reserved claim).congr rfl rfl rfl
  | cancel here _ taken single => exact (agreement.turn_freed here taken single).congr rfl rfl rfl
  | book books =>
    exact agreement.enters ord books.toEnters books.name books.stands books.apart books.free
  | giveUp stands => exact agreement.cancelBooking ord stands

/-! ## Decisions are rows of steps -/

theorem Steps.settle (h : Steps m l l') {m' : Moment} (time : m'.Before m) (id : Id) :
    Steps m l (l'.settle m'.stamp id).2 := by
  rcases l'.settle_cases m'.stamp id with ⟨r, c, hr, hl, hc, e⟩ | ⟨-, e⟩ <;> rw [e]
  · exact (h.snoc (.lapse time hr hl hc)).count .holdsExpired
  · exact h

theorem steps_settle (l : Ledger) (m : Moment) (id : Id) : Steps m l (l.settle m.stamp id).2 :=
  Steps.none.settle (.refl m) id

theorem Settles.steps (h : Settles m.stamp l l') : Steps m l l' := by
  induction h with
  | none => exact .none
  | snoc _ id ih => exact ih.settle (.refl m) id

theorem steps_place (l : Ledger) (m : Moment) (id : Id) (holder : String) (millis : Nat)
    (price : Float → Float) : Steps m l (l.place m.stamp id holder millis price).2 := by
  rcases l.place_cases m.stamp id holder millis price with
    ⟨-, e⟩ | ⟨r, -, -, -, e⟩ | ⟨r, hr, free, e⟩ <;> rw [e]
  · exact .none
  · exact Steps.none.count _
  · have here : (l.settle m.stamp id).2.resources.get? id = some (r.settled m.stamp) := by
      rw [get?_settle_self, hr, Option.map_some]
    have free : (r.settled m.stamp).status = .available := by rw [Resource.status_settled, free]
    exact ((l.steps_settle m id).snoc (.hold holder millis price here free)).count
      (.reservations "held")

theorem steps_confirm (l : Ledger) (policy : HolderPolicy) (m : Moment) (id : Id)
    (holder : String) : Steps m l (l.confirm policy m.stamp id holder).2 := by
  rcases l.confirm_cases policy m.stamp id holder with
    ⟨err, -, e⟩ | ⟨r, c, hr, live, reserved, -, hc, e⟩ <;> rw [e]
  · exact l.steps_settle m id
  · exact (Step.confirm hr live reserved hc).steps

theorem steps_cancel (l : Ledger) (policy : HolderPolicy) (m : Moment) (id : Id)
    (holder : String) : Steps m l (l.cancel policy m.stamp id holder).2 := by
  rcases l.cancel_cases policy m.stamp id holder with
    ⟨err, -, e⟩ | ⟨r, hr, live, taken, -, single, e⟩ <;> rw [e]
  · exact l.steps_settle m id
  · exact (Step.cancel hr live taken single).steps

/-- Turning resources keeps what a single turn keeps. -/
theorem turnAll_keeps {β : Type} {f : Ledger → β}
    (one : ∀ l id holdStep g, f (l.turn id holdStep g) = f l) (ids : List Id) (holdStep : Bool)
    (g : Resource → Resource) (l : Ledger) :
    f (ids.foldl (fun l id => l.turn id holdStep g) l) = f l :=
  foldl_keeps (fun l id => one l id holdStep g) ids l

/-- One event tells of a group booking. -/
theorem hub_book {now : Int} {group : Id} {holder : String} {ids : List Id}
    {price : Float → Float} (hs : settleAll now (ascending ids) l = (none, l')) :
    (l.book now group holder ids price).2.hub =
      l'.hub.send group (.groupBooked (l'.supply.draw .booking now).1 group holder ids
        (l'.totalPrice price (ascending ids))) := by
  simp only [book, hs]
  exact congrArg (fun hub : Hub => hub.send _ _)
    (turnAll_keeps (f := Ledger.hub) (fun _ _ _ _ => rfl) (ascending ids) false _ _)

/-- A group booking of members of the group that are apart. -/
theorem steps_book (l : Ledger) (m : Moment) (group : Id) (holder : String) {ids : List Id}
    (price : Float → Float) (apart : ids.Nodup)
    (members : ∀ id ∈ ids, ∃ r, l.resources.get? id = some r ∧ r.group = some group) :
    Steps m l (l.book m.stamp group holder ids price).2 := by
  have settled : Settles m.stamp l (settleAll m.stamp (ascending ids) l).2 :=
    Settles.none.settleAll _
  rcases l.book_cases m.stamp group holder ids price with
    ⟨id, status, l', hs, e⟩ | ⟨l', l'', hs, e, enters⟩ <;> rw [hs] at settled
  · rw [e]
    exact settled.steps.count _
  · -- what is not about resources is read off the definition
    have same : (l.book m.stamp group holder ids price).2 = l'' := by rw [e]
    have free : ∀ id ∈ ids, ∃ r, l'.resources.get? id = some r ∧ r.status = .available ∧
        r.group = some group := by
      intro id hid
      obtain ⟨r, hr, member⟩ := members id hid
      obtain ⟨found, free⟩ := settleAll_spec hs id (mem_ascending.2 hid)
      rw [hr, Option.map_some] at found
      refine ⟨r.settled m.stamp, found, ?_, ?_⟩
      · rw [Resource.status_settled, free r hr]
      · exact (congrArg Resource.group (r.blank_settled m.stamp)).trans member
    have books : Books l' (l'.bookingOf m.stamp group holder ids price) price l'' := by
      refine { enters with
        name := rfl, stands := rfl, apart, free, hub := ?_, expiries := ?_, inHand := ?_,
        inUse := ?_ }
      · rw [← same]
        exact hub_book hs
      · rw [← same]
        simp only [book, hs]
        exact turnAll_keeps (f := Ledger.expiries) (fun _ _ _ _ => rfl) _ _ _ _
      · rw [← same]
        simp only [book, hs]
        exact turnAll_keeps (f := Ledger.inHand) (fun _ _ _ _ => rfl) _ _ _ _
      · rw [← same]
        simp only [book, hs]
        exact turnAll_keeps (f := Ledger.inUse) (fun _ _ _ _ => rfl) _ _ _ _
    rw [e]
    exact settled.steps.snoc (.book books)

/-! ## Requests -/

theorem steps_reserveAtOnce (l : Ledger) (m : Moment) (id : Id) (holder : String)
    (duration : Nat) (price : Float → Float) :
    Steps m l (l.reserveAtOnce m.stamp id holder duration price).2 := by
  obtain ⟨e, refused⟩ | placed := l.reserveAtOnce_cases m.stamp id holder duration price
  · rw [refused]
    exact .none
  · rw [placed]
    exact l.steps_place m id holder _ price

theorem steps_bookAtOnce (l : Ledger) (m : Moment) (group : Id) (holder : String)
    (ids : List Id) (price : Float → Float) :
    Steps m l (l.bookAtOnce m.stamp group holder ids price).2 := by
  obtain ⟨e, refused⟩ | ⟨fine, members, decided⟩ :=
    l.bookAtOnce_cases m.stamp group holder ids price
  · rw [refused]
    exact .none
  · rw [decided]
    exact l.steps_book m group holder price (nodup_of_listFault fine) fun id hid =>
      member_of_firstFault members id (mem_ascending.2 hid)

end Ledger

open Ledger

variable {s : CoordinatorSettings} {m : Moment} {l l' l₀ : Ledger}

/-- **Requests are rows of steps.** -/
theorem Request.steps (s : CoordinatorSettings) (r : Request) (m : Moment) (l : Ledger) :
    Steps m l (r.atOnce s m.stamp l).2 := by
  cases r with
  | reserve id holder duration price => exact l.steps_reserveAtOnce m id holder duration price
  | reserveDefault id holder price => exact l.steps_reserveAtOnce m id holder _ price
  | confirm id holder => exact l.steps_confirm s.policy m id holder
  | cancel id holder => exact l.steps_cancel s.policy m id holder
  | book group holder ids price => exact l.steps_bookAtOnce m group holder ids price
  | bookByName group holder names price =>
    simp only [Request.atOnce]
    obtain missing | ⟨ids, found⟩ := l.bookByNameAtOnce_cases m.stamp group holder names price
    · rw [missing]
      exact .none
    · rw [found]
      exact l.steps_bookAtOnce m group holder ids price
  | cancelGroup booking holder =>
    simp only [Request.atOnce]
    obtain ⟨e, -, refused⟩ | ⟨b, stands, -, done⟩ :=
      l.cancelGroupAtOnce_cases s.policy booking holder
    · rw [refused]
      exact .none
    · rw [done]
      exact (Step.giveUp stands).steps

theorem Request.Serves.steps {r : Request} {a : Answer} (h : r.Serves s m.stamp l l' a) :
    Steps m l l' := by
  rcases h with ⟨-, quiet⟩ | ⟨-, quiet⟩
  · exact quiet.steps
  · exact (r.steps s m l).trans quiet.steps

theorem Reply.Tells.steps {a : Reply} (h : a.Tells s m l l') : Steps m l l' := by
  cases a with
  | answered r a => exact Request.Serves.steps h
  | looked => exact Quiet.steps h
  | swept _ => exact h.elim
  | expired _ => exact h.elim
  | round _ => exact h.elim

/-! ## Errands and sweeps -/

theorem sweeping_steps : Sweeping Steps where
  refl _ _ := .none
  count h x := h.count x
  settle h _ time id := h.settle time id

/-- What a party does that leaves single deadlines to the reaper. -/
inductive Task (s : CoordinatorSettings) : Call Ledger Reply → Prop where
  /-- an errand -/
  | errand {c : Call Ledger Reply} (errand : Errand s c) : Task s c
  /-- a sweep over all resources -/
  | sweep : Task s (Ledger.sweep.bind fun n => .done (.swept n))

/-- A party that runs errands and sweeps, one after the other. -/
def Helper (s : CoordinatorSettings) (call : Call Ledger Reply)
    (again : Reply → Option (Call Ledger Reply)) : Prop :=
  Task s call ∧ ∀ a c, again a = some c → Task s c

theorem Task.party {c : Call Ledger Reply} (h : Task s c) : Errand s c ∨ Chore s c := by
  cases h with
  | errand errand => exact .inl errand
  | sweep => exact .inr .sweep

/-- Every helper is a party. -/
theorem Helper.party {call : Call Ledger Reply} {again : Reply → Option (Call Ledger Reply)}
    (h : Helper s call again) : Party s call again := ⟨h.1.party, fun a c hc => (h.2 a c hc).party⟩

/-- Every client is a helper. -/
theorem Client.helper {call : Call Ledger Reply} {again : Reply → Option (Call Ledger Reply)}
    (h : Client s call again) : Helper s call again :=
  ⟨.errand h.1, fun a c hc => .errand (h.2 a c hc)⟩

/-- **Errands and sweeps are rows of steps**, in any of their stretches. -/
theorem Task.keeps {c : Call Ledger Reply} (h : Task s c) :
    c.Keeps conduct Steps fun m l l' _ => Steps m l l' := by
  intro m l ord
  cases h with
  | errand errand =>
    exact (errand.keeps m l ord).mono (fun _ _ _ quiet => quiet.steps)
      fun _ _ _ _ _ tells => tells.steps
  | sweep => exact Call.meets_bind.2 (meets_sweep sweeping_steps ord)

theorem Helper.keepsTo {call : Call Ledger Reply} {again : Reply → Option (Call Ledger Reply)}
    (h : Helper s call again) : KeepsTo conduct Steps (fun m l l' _ => Steps m l l') call again :=
  ⟨h.1.keeps, fun a c hc => (h.2 a c hc).keeps⟩

end Tenure
