import Tenure.Proofs.Settlement.Basic

/-!
# Decisions on ledgers ahead in settling

Every request decided at once is answered the same on a ledger and on one that is ahead of it,
and afterwards the one is still ahead of the other (`Ahead.atOnce`). A decision on one resource
begins by settling it. A group booking settles its resources up to the first that somebody has;
if nobody has any, they are all settled when they are booked. What it looks at besides, names,
groups and prices, has nothing to do with who has a resource.
-/

namespace Tenure.Ledger

variable {l l' : Ledger} {now now' : Int} {id : Id}

/-- The same answers, and ledgers of which the second is ahead. -/
def InStep {α : Type} (now : Int) (r r' : α × Ledger) : Prop := r.1 = r'.1 ∧ Ahead now r.2 r'.2

/-! ## One resource -/

/-- A change of a resource that is the same in both ledgers. -/
theorem Ahead.turn (h : Ahead now l l') (same : l'.resources.get? id = l.resources.get? id)
    (holdStep : Bool) (f : Resource → Resource) :
    Ahead now (l.turn id holdStep f) (l'.turn id holdStep f) := by
  have keys : ∀ l : Ledger, (l.turn id holdStep f).resources.keys = l.resources.keys :=
    fun l => Table.keys_modify ..
  refine ⟨by rw [keys, keys, h.keys], fun id' => ?_, h.groups, h.bookings, h.supply, h.inUse, h.hub⟩
  simp only [get?_turn]
  split
  · rw [same]
    exact .inl rfl
  · exact h.found id'

theorem Ahead.schedule (h : Ahead now l l') (e : Expiry) : Ahead now (l.schedule e) (l'.schedule e) :=
  ⟨h.keys, h.found, h.groups, h.bookings, h.supply, h.inUse, h.hub⟩

theorem Ahead.place (h : Ahead now l l') (le : now ≤ now') (id : Id) (holder : String)
    (millis : Nat) (price : Float → Float) :
    InStep now (l.place now' id holder millis price) (l'.place now' id holder millis price) := by
  have settled := h.settle le id
  have same := h.get?_settle le id
  simp only [Ledger.place, same]
  cases (l.settle now' id).2.resources.get? id with
  | none => exact ⟨rfl, settled⟩
  | some r =>
    dsimp only
    split
    · exact ⟨rfl, settled.count _⟩
    · exact ⟨rfl, (((settled.turn same true _).schedule _).count _).send _ _⟩

theorem Ahead.confirm (h : Ahead now l l') (le : now ≤ now') (policy : HolderPolicy) (id : Id)
    (holder : String) :
    InStep now (l.confirm policy now' id holder) (l'.confirm policy now' id holder) := by
  have settled := h.settle le id
  have same := h.get?_settle le id
  simp only [Ledger.confirm, same]
  cases (l.settle now' id).2.resources.get? id with
  | none => exact ⟨rfl, settled⟩
  | some r =>
    dsimp only
    split
    · exact ⟨rfl, settled⟩
    · split
      · exact ⟨rfl, settled⟩
      · cases r.claim with
        | none => exact ⟨rfl, settled⟩
        | some c => exact ⟨rfl, (settled.turn same true _).send _ _⟩

theorem Ahead.cancel (h : Ahead now l l') (le : now ≤ now') (policy : HolderPolicy) (id : Id)
    (holder : String) :
    InStep now (l.cancel policy now' id holder) (l'.cancel policy now' id holder) := by
  have settled := h.settle le id
  have same := h.get?_settle le id
  simp only [Ledger.cancel, same]
  cases (l.settle now' id).2.resources.get? id with
  | none => exact ⟨rfl, settled⟩
  | some r =>
    dsimp only
    split
    · exact ⟨rfl, settled⟩
    · split
      · exact ⟨rfl, settled⟩
      · cases r.claim.bind Claim.booking with
        | some booking => exact ⟨rfl, settled⟩
        | none => exact ⟨rfl, (settled.turn same true _).send _ _⟩

theorem Ahead.reserveAtOnce (h : Ahead now l l') (le : now ≤ now') (id : Id) (holder : String)
    (duration : Nat) (price : Float → Float) :
    InStep now (l.reserveAtOnce now' id holder duration price)
      (l'.reserveAtOnce now' id holder duration price) := by
  simp only [Ledger.reserveAtOnce]
  split
  · exact ⟨rfl, h⟩
  · exact ⟨rfl, h⟩
  · exact h.place le id holder _ price

/-! ## Group bookings -/

theorem Ahead.settleAll (h : Ahead now l l') (le : now ≤ now') (ids : List Id) :
    InStep now (settleAll now' ids l) (settleAll now' ids l') := by
  induction ids generalizing l l' with
  | nil => exact ⟨rfl, h⟩
  | cons id ids ih =>
    have settled := h.settle le id
    simp only [Ledger.settleAll, h.get?_settle le id]
    cases (l.settle now' id).2.resources.get? id with
    | none => exact ih settled
    | some r =>
      dsimp only
      split
      · exact ⟨rfl, settled⟩
      · exact ih settled

/-- Resources of which nobody has any are the same in both ledgers once they are settled. -/
theorem Ahead.get?_settleAll (h : Ahead now l l') (le : now ≤ now') {ids : List Id}
    (free : (Ledger.settleAll now' ids l).1 = none) :
    ∀ id ∈ ids, (Ledger.settleAll now' ids l').2.resources.get? id =
      (Ledger.settleAll now' ids l).2.resources.get? id := by
  intro id hid
  have free' := (h.settleAll le ids).1.symm.trans free
  rw [(settleAll_spec (Prod.ext free' rfl) id hid).1, (settleAll_spec (Prod.ext free rfl) id hid).1,
    h.settled le]

/-- Changes of resources that are the same in both ledgers. -/
theorem Ahead.turnAll (h : Ahead now l l') {ids : List Id}
    (same : ∀ id ∈ ids, l'.resources.get? id = l.resources.get? id) (holdStep : Bool)
    (f : Resource → Resource) :
    Ahead now (ids.foldl (fun l id => l.turn id holdStep f) l)
      (ids.foldl (fun l id => l.turn id holdStep f) l') := by
  induction ids generalizing l l' with
  | nil => exact h
  | cons id ids ih =>
    have first := same id List.mem_cons_self
    refine ih (h.turn first holdStep f) fun id' hid => ?_
    rw [get?_turn, get?_turn, first, same id' (List.mem_cons_of_mem _ hid)]

/-- Prices have nothing to do with who has a resource. -/
theorem Akin.totalPrice (h : Akin l l') (price : Float → Float) (ids : List Id) :
    l'.totalPrice price ids = l.totalPrice price ids := by
  have weights : ∀ id, (l'.resources.get? id).map Resource.weight =
      (l.resources.get? id).map Resource.weight := by
    intro id
    have blanks := congrArg (Option.map Resource.weight) (h.blanks id)
    rwa [Option.map_map, Option.map_map] at blanks
  have added : ∀ l : Ledger, l.totalPrice price ids = ids.foldl
      (fun total id => ((l.resources.get? id).map Resource.weight).elim total
        fun weight => total + price weight) 0.0 := by
    intro l
    refine congrArg (fun add => ids.foldl add 0.0) (funext fun total => funext fun id => ?_)
    cases l.resources.get? id <;> rfl
  rw [added, added]
  simp only [weights]

theorem Ahead.draw (h : Ahead now l l') (kind : Kind) (now' : Int) :
    InStep now (l.draw kind now') (l'.draw kind now') := by
  have drawn := congrArg (fun s : Supply => s.draw kind now') h.supply
  exact ⟨(congrArg Prod.fst drawn).symm, h.keys, h.found, h.groups, h.bookings,
    congrArg Prod.snd drawn, h.inUse, h.hub⟩

theorem Ahead.drawCode (h : Ahead now l l') (now' : Int) (taken : List String) :
    InStep now (l.drawCode now' taken) (l'.drawCode now' taken) := by
  have drawn := congrArg (fun s : Supply => s.drawCode now' taken) h.supply
  exact ⟨(congrArg Prod.fst drawn).symm, h.keys, h.found, h.groups, h.bookings,
    congrArg Prod.snd drawn, h.inUse, h.hub⟩

theorem Ahead.enter (h : Ahead now l l') (b : Booking) :
    Ahead now { l with bookings := l.bookings.insert b.id b }
      { l' with bookings := l'.bookings.insert b.id b } :=
  ⟨h.keys, h.found, h.groups, congrArg (fun t : Table Id Booking => t.insert b.id b) h.bookings,
    h.supply, h.inUse, h.hub⟩

theorem Ahead.book (h : Ahead now l l') (le : now ≤ now') (group : Id) (holder : String)
    (ids : List Id) (price : Float → Float) :
    InStep now (l.book now' group holder ids price) (l'.book now' group holder ids price) := by
  obtain ⟨answered, ahead⟩ := h.settleAll le (ascending ids)
  have free : (Ledger.settleAll now' (ascending ids) l).1 = none → _ := h.get?_settleAll le
  simp only [Ledger.book]
  generalize Ledger.settleAll now' (ascending ids) l = settled at answered ahead free ⊢
  generalize Ledger.settleAll now' (ascending ids) l' = settled' at answered ahead free ⊢
  obtain ⟨found, l₁⟩ := settled
  obtain ⟨found', l₁'⟩ := settled'
  obtain rfl : found = found' := answered
  have ahead : Ahead now l₁ l₁' := ahead
  cases found with
  | some taken => exact ⟨rfl, ahead.count _⟩
  | none =>
    have same := free rfl
    obtain ⟨name, drawn⟩ := ahead.draw .booking now'
    have total := drawn.akin.totalPrice price (ascending ids)
    dsimp only
    rw [← name, total]
    have booked := drawn.turnAll same false
      fun r => bookedBy r holder (l₁.draw .booking now').1 price
    exact ⟨rfl, ((booked.enter ⟨_, group, holder, ids, _, .confirmed, now'⟩).count _).send _ _⟩

/-- A test that does not look at who has a resource. -/
theorem Akin.firstFault? (h : Akin l l') {check : Id → Resource → Option CallError}
    (lasting : Lasting check) (ids : List Id) :
    l'.firstFault? check ids = l.firstFault? check ids :=
  congrArg (fun fault => ids.findSome? fault) (funext (h.fault? lasting))

theorem Ahead.bookAtOnce (h : Ahead now l l') (le : now ≤ now') (group : Id) (holder : String)
    (ids : List Id) (price : Float → Float) :
    InStep now (l.bookAtOnce now' group holder ids price)
      (l'.bookAtOnce now' group holder ids price) := by
  have booked := h.book le group holder ids price
  simp only [Ledger.bookAtOnce, h.groups, h.akin.firstFault? (lasting_foreign group)]
  split
  · exact ⟨rfl, h⟩
  · split
    · exact ⟨rfl, h⟩
    · split
      · exact ⟨rfl, h⟩
      · exact ⟨congrArg Except.ok booked.1, booked.2⟩

theorem Ahead.bookByNameAtOnce (h : Ahead now l l') (le : now ≤ now') (group : Id)
    (holder : String) (names : List String) (price : Float → Float) :
    InStep now (l.bookByNameAtOnce now' group holder names price)
      (l'.bookByNameAtOnce now' group holder names price) := by
  simp only [Ledger.bookByNameAtOnce, h.akin.allNamed]
  split
  · exact ⟨rfl, h⟩
  · exact h.bookAtOnce le group holder _ price

/-! ## Giving up group bookings -/

/-- A lapsed hold that is given up is as free as one that was settled. -/
theorem Ahead.cancelBooking (h : Ahead now l l') (b : Booking) :
    Ahead now (l.cancelBooking b) (l'.cancelBooking b) := by
  have keys := giveUpAll_keeps (f := fun l => l.resources.keys)
    (fun _ _ => Table.keys_modify ..) b.id b.resources
  have inUse := giveUpAll_keeps (f := Ledger.inUse) (fun _ _ => rfl) b.id b.resources
  have hub := giveUpAll_keeps (f := Ledger.hub) (fun _ _ => rfl) b.id b.resources
  obtain ⟨books, supply⟩ := l.bookings_cancelBooking b
  obtain ⟨books', supply'⟩ := l'.bookings_cancelBooking b
  refine ⟨(keys l').trans (h.keys.trans (keys l).symm), ?_,
    (l'.akin_cancelBooking b).groups.trans (h.groups.trans (l.akin_cancelBooking b).groups.symm),
    by rw [books', books, h.bookings], by rw [supply', supply, h.supply],
    (inUse l').trans (h.inUse.trans (inUse l).symm), ?_⟩
  · intro id
    simp only [get?_cancelBooking]
    split
    · obtain e | ⟨r, hr, lapsed, e⟩ := h.found id
      · exact .inl (by rw [e])
      · rw [e, hr, Option.map_some, Option.map_some]
        have free : r.freed.givenUp b.id = r.freed := by simp [Resource.givenUp, Resource.freed]
        by_cases part : r.claim.bind Claim.booking = some b.id
        · exact .inl (by rw [free, Resource.givenUp, if_pos part])
        · exact .inr ⟨r, by rw [Resource.givenUp, if_neg part], lapsed, by rw [free]⟩
    · exact h.found id
  · have told := h.hub.send b.group (.groupCancelled b.id b.group b.resources)
    rwa [← hub l, ← hub l'] at told

theorem Ahead.cancelGroupAtOnce (h : Ahead now l l') (policy : HolderPolicy) (booking : Id)
    (holder : String) :
    InStep now (l.cancelGroupAtOnce policy booking holder)
      (l'.cancelGroupAtOnce policy booking holder) := by
  have stands : l'.standing booking = l.standing booking := by
    simp only [standing, h.bookings]
  have lasting : Lasting fun _ _ => none := fun _ _ => rfl
  simp only [Ledger.cancelGroupAtOnce, stands, h.groups, h.akin.firstFault? lasting]
  split
  · exact ⟨rfl, h⟩
  · split
    · exact ⟨rfl, h⟩
    · split
      · exact ⟨rfl, h⟩
      · split
        · exact ⟨rfl, h⟩
        · exact ⟨rfl, h.cancelBooking _⟩

/-! ## Requests -/

/-- **Requests do not see what was settled.** -/
theorem Ahead.atOnce (h : Ahead now l l') (le : now ≤ now') (s : CoordinatorSettings)
    (r : Request) : InStep now (r.atOnce s now' l) (r.atOnce s now' l') := by
  cases r with
  | reserve id holder duration price =>
    have step := h.reserveAtOnce le id holder duration price
    exact ⟨congrArg Answer.hold step.1, step.2⟩
  | reserveDefault id holder price =>
    have step := h.reserveAtOnce le id holder (s.holdTimeout * 1000000) price
    exact ⟨congrArg Answer.hold step.1, step.2⟩
  | confirm id holder =>
    have step := h.confirm le s.policy id holder
    exact ⟨congrArg Answer.done step.1, step.2⟩
  | cancel id holder =>
    have step := h.cancel le s.policy id holder
    exact ⟨congrArg Answer.done step.1, step.2⟩
  | book group holder ids price =>
    have step := h.bookAtOnce le group holder ids price
    exact ⟨congrArg Answer.booking step.1, step.2⟩
  | bookByName group holder names price =>
    have step := h.bookByNameAtOnce le group holder names price
    exact ⟨congrArg Answer.booking step.1, step.2⟩
  | cancelGroup booking holder =>
    have step := h.cancelGroupAtOnce s.policy booking holder
    exact ⟨congrArg Answer.done step.1, step.2⟩

end Tenure.Ledger
