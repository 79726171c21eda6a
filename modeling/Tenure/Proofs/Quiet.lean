import Tenure.Proofs.Decisions
import Tenure.Proofs.Requests

/-!
# Counting changes nothing else

Calls count what they do, and some count before they have done anything. Two ledgers that
differ in what was counted, and in nothing else, are `Quiet` to each other. Every request
decided at once is answered the same on both and leaves them quiet to each other
(`Quiet.atOnce`), since no decision looks at what was counted.
-/

namespace Tenure.Ledger

/-- The ledger has changed in what was counted, if at all. -/
def Quiet (l l' : Ledger) : Prop := ∃ x, l' = { l with metrics := x }

variable {l l' l'' : Ledger}

theorem Quiet.refl (l : Ledger) : Quiet l l := ⟨l.metrics, rfl⟩

theorem Quiet.trans (h : Quiet l l') (h' : Quiet l' l'') : Quiet l l'' := by
  obtain ⟨x, rfl⟩ := h
  obtain ⟨y, rfl⟩ := h'
  exact ⟨y, rfl⟩

theorem Quiet.resources (h : Quiet l l') : l'.resources = l.resources := by
  obtain ⟨x, rfl⟩ := h
  rfl

theorem quiet_count (l : Ledger) (m : Metric) : Quiet l (l.count m) := ⟨_, rfl⟩

theorem Quiet.count (h : Quiet l l') (m : Metric) : Quiet l (l'.count m) := h.trans (quiet_count l' m)

/-- Same answers, and ledgers that differ in what was counted. -/
def Quietly {α : Type} (r r' : α × Ledger) : Prop := r.1 = r'.1 ∧ Quiet r.2 r'.2

theorem Quietly.trans {α : Type} {r r' r'' : α × Ledger} (h : Quietly r r')
    (h' : Quietly r' r'') : Quietly r r'' := ⟨h.1.trans h'.1, h.2.trans h'.2⟩

/-! ## Decisions do not look at what was counted -/

/-- Counts have no say in whether a hold has lapsed, -/
theorem Quiet.settle (h : Quiet l l') (now : Int) (id : Id) :
    Quietly (l.settle now id) (l'.settle now id) := by
  obtain ⟨x, rfl⟩ := h
  simp only [Ledger.settle]
  cases l.resources.get? id with
  | none => exact ⟨rfl, _, rfl⟩
  | some r =>
    dsimp only
    split
    · cases r.claim with
      | none => exact ⟨rfl, _, rfl⟩
      | some c => exact ⟨rfl, _, rfl⟩
    · exact ⟨rfl, _, rfl⟩

/-- in whether one is placed, -/
theorem Quiet.place (h : Quiet l l') (now : Int) (id : Id) (holder : String) (millis : Nat)
    (price : Float → Float) :
    Quietly (l.place now id holder millis price) (l'.place now id holder millis price) := by
  obtain ⟨x, e⟩ := (h.settle now id).2
  simp only [Ledger.place]
  rw [e]
  cases (l.settle now id).2.resources.get? id with
  | none => exact ⟨rfl, _, rfl⟩
  | some r =>
    dsimp only
    split
    · exact ⟨rfl, _, rfl⟩
    · exact ⟨rfl, _, rfl⟩

/-- in whether it is confirmed -/
theorem Quiet.confirm (h : Quiet l l') (policy : HolderPolicy) (now : Int) (id : Id)
    (holder : String) :
    Quietly (l.confirm policy now id holder) (l'.confirm policy now id holder) := by
  obtain ⟨x, e⟩ := (h.settle now id).2
  simp only [Ledger.confirm]
  rw [e]
  cases (l.settle now id).2.resources.get? id with
  | none => exact ⟨rfl, _, rfl⟩
  | some r =>
    dsimp only
    split
    · exact ⟨rfl, _, rfl⟩
    · split
      · exact ⟨rfl, _, rfl⟩
      · cases r.claim with
        | none => exact ⟨rfl, _, rfl⟩
        | some c => exact ⟨rfl, _, rfl⟩

/-- or cancelled. -/
theorem Quiet.cancel (h : Quiet l l') (policy : HolderPolicy) (now : Int) (id : Id)
    (holder : String) :
    Quietly (l.cancel policy now id holder) (l'.cancel policy now id holder) := by
  obtain ⟨x, e⟩ := (h.settle now id).2
  simp only [Ledger.cancel]
  rw [e]
  cases (l.settle now id).2.resources.get? id with
  | none => exact ⟨rfl, _, rfl⟩
  | some r =>
    dsimp only
    split
    · exact ⟨rfl, _, rfl⟩
    · split
      · exact ⟨rfl, _, rfl⟩
      · cases r.claim.bind Claim.booking with
        | none => exact ⟨rfl, _, rfl⟩
        | some booking => exact ⟨rfl, _, rfl⟩

/-- They have none in the settling of several, -/
theorem Quiet.settleAll (h : Quiet l l') (now : Int) (ids : List Id) :
    Quietly (settleAll now ids l) (settleAll now ids l') := by
  induction ids generalizing l l' with
  | nil => exact ⟨rfl, h⟩
  | cons id ids ih =>
    have settled := (h.settle now id).2
    obtain ⟨x, e⟩ := settled
    simp only [Ledger.settleAll]
    rw [e]
    cases (l.settle now id).2.resources.get? id with
    | none => exact ih ⟨x, rfl⟩
    | some r =>
      dsimp only
      split
      · exact ⟨rfl, x, rfl⟩
      · exact ih ⟨x, rfl⟩

theorem Quiet.turnAll (h : Quiet l l') (holdStep : Bool) (f : Resource → Resource)
    (ids : List Id) :
    Quiet (ids.foldl (fun l id => l.turn id holdStep f) l)
      (ids.foldl (fun l id => l.turn id holdStep f) l') := by
  induction ids generalizing l l' with
  | nil => exact h
  | cons id ids ih =>
    obtain ⟨x, rfl⟩ := h
    exact ih ⟨x, rfl⟩

theorem Quiet.enter (h : Quiet l l') (b : Booking) (m : Metric) (e : Event) :
    Quiet ((({ l with bookings := l.bookings.insert b.id b } : Ledger).count m).send b.group e)
      ((({ l' with bookings := l'.bookings.insert b.id b } : Ledger).count m).send b.group e) := by
  obtain ⟨x, rfl⟩ := h
  exact ⟨_, rfl⟩

/-- nor in **booking** a list. -/
theorem Quiet.book (h : Quiet l l') (now : Int) (group : Id) (holder : String) (ids : List Id)
    (price : Float → Float) :
    Quietly (l.book now group holder ids price) (l'.book now group holder ids price) := by
  obtain ⟨same, x, e⟩ := h.settleAll now (ascending ids)
  simp only [Ledger.book]
  cases ha : Ledger.settleAll now (ascending ids) l with
  | mk found l₁ =>
    cases hb : Ledger.settleAll now (ascending ids) l' with
    | mk found' l₁' =>
      rw [ha, hb] at same e
      obtain rfl : found = found' := same
      obtain rfl : l₁' = { l₁ with metrics := x } := e
      cases found with
      | some taken => exact ⟨rfl, _, rfl⟩
      | none =>
        have drawn : Quiet (l₁.draw .booking now).2
            (Ledger.draw { l₁ with metrics := x } .booking now).2 := ⟨x, rfl⟩
        have all := drawn.turnAll false
          (fun r => bookedBy r holder (l₁.draw .booking now).1 price) (ascending ids)
        exact ⟨rfl, all.enter (l₁.bookingOf now group holder ids price) (.groupBookings "booked")
          (.groupBooked _ group holder ids _)⟩

/-- Giving a booking up does the same whatever was counted. -/
theorem Quiet.cancelBooking (h : Quiet l l') (b : Booking) :
    Quiet (l.cancelBooking b) (l'.cancelBooking b) := by
  have all : ∀ (ids : List Id) {l l' : Ledger}, Quiet l l' →
      Quiet (ids.foldl (fun l id => l.giveUp b.id id) l)
        (ids.foldl (fun l id => l.giveUp b.id id) l') := by
    intro ids
    induction ids with
    | nil => exact fun h => h
    | cons id ids ih =>
      intro l l' h
      refine ih ?_
      obtain ⟨x, rfl⟩ := h
      simp only [giveUp]
      split
      · exact ⟨x, rfl⟩
      · exact ⟨x, rfl⟩
  obtain ⟨x, e⟩ := all b.resources h
  simp only [Ledger.cancelBooking]
  rw [e]
  exact ⟨x, rfl⟩

/-! ## Requests -/

/-- **Reserving** at once does not depend on counts, -/
theorem Quiet.reserveAtOnce (h : Quiet l l') (now : Int) (id : Id) (holder : String)
    (duration : Nat) (price : Float → Float) :
    Quietly (l.reserveAtOnce now id holder duration price)
      (l'.reserveAtOnce now id holder duration price) := by
  simp only [Ledger.reserveAtOnce]
  split
  · exact ⟨rfl, h⟩
  · exact ⟨rfl, h⟩
  · exact h.place now id holder _ price

theorem Quiet.allNamed (h : Quiet l l') (group : Id) (names : List String) :
    l.allNamed group names = l'.allNamed group names := by
  obtain ⟨x, rfl⟩ := h
  induction names with
  | nil => rfl
  | cons name names ih =>
    rw [Ledger.allNamed, Ledger.allNamed, ih]
    rfl

/-- nor does **booking** -/
theorem Quiet.bookAtOnce (h : Quiet l l') (now : Int) (group : Id) (holder : String)
    (ids : List Id) (price : Float → Float) :
    Quietly (l.bookAtOnce now group holder ids price)
      (l'.bookAtOnce now group holder ids price) := by
  have booked := h.book now group holder ids price
  obtain ⟨x, rfl⟩ := h
  simp only [Ledger.bookAtOnce]
  have same : ∀ check ids, firstFault? { l with metrics := x } check ids = l.firstFault? check ids :=
    fun _ _ => rfl
  simp only [same]
  split
  · exact ⟨rfl, x, rfl⟩
  · split
    · exact ⟨rfl, x, rfl⟩
    · split
      · exact ⟨rfl, x, rfl⟩
      · exact ⟨congrArg Except.ok booked.1, booked.2⟩

/-- by name or otherwise, -/
theorem Quiet.bookByNameAtOnce (h : Quiet l l') (now : Int) (group : Id) (holder : String)
    (names : List String) (price : Float → Float) :
    Quietly (l.bookByNameAtOnce now group holder names price)
      (l'.bookByNameAtOnce now group holder names price) := by
  simp only [Ledger.bookByNameAtOnce]
  rw [h.allNamed]
  split
  · exact ⟨rfl, h⟩
  · exact h.bookAtOnce now group holder _ price

/-- nor does giving a booking up. -/
theorem Quiet.cancelGroupAtOnce (h : Quiet l l') (policy : HolderPolicy) (booking : Id)
    (holder : String) :
    Quietly (l.cancelGroupAtOnce policy booking holder)
      (l'.cancelGroupAtOnce policy booking holder) := by
  have given := fun b => h.cancelBooking b
  obtain ⟨x, rfl⟩ := h
  simp only [Ledger.cancelGroupAtOnce]
  have same : ∀ check ids, firstFault? { l with metrics := x } check ids = l.firstFault? check ids :=
    fun _ _ => rfl
  have stands : standing { l with metrics := x } booking = l.standing booking := rfl
  simp only [same, stands]
  split
  · exact ⟨rfl, x, rfl⟩
  · split
    · exact ⟨rfl, x, rfl⟩
    · split
      · exact ⟨rfl, x, rfl⟩
      · split
        · exact ⟨rfl, x, rfl⟩
        · exact ⟨rfl, given _⟩

/-- **Requests do not look at what was counted.** -/
theorem Quiet.atOnce (h : Quiet l l') (s : CoordinatorSettings) (now : Int) (r : Request) :
    Quietly (r.atOnce s now l) (r.atOnce s now l') := by
  cases r with
  | reserve id holder duration price =>
    have q := h.reserveAtOnce now id holder duration price
    exact ⟨congrArg Answer.hold q.1, q.2⟩
  | reserveDefault id holder price =>
    have q := h.reserveAtOnce now id holder (s.holdTimeout * 1000000) price
    exact ⟨congrArg Answer.hold q.1, q.2⟩
  | confirm id holder =>
    have q := h.confirm s.policy now id holder
    exact ⟨congrArg Answer.done q.1, q.2⟩
  | cancel id holder =>
    have q := h.cancel s.policy now id holder
    exact ⟨congrArg Answer.done q.1, q.2⟩
  | book group holder ids price =>
    have q := h.bookAtOnce now group holder ids price
    exact ⟨congrArg Answer.booking q.1, q.2⟩
  | bookByName group holder names price =>
    have q := h.bookByNameAtOnce now group holder names price
    exact ⟨congrArg Answer.booking q.1, q.2⟩
  | cancelGroup booking holder =>
    have q := h.cancelGroupAtOnce s.policy booking holder
    exact ⟨congrArg Answer.done q.1, q.2⟩

end Tenure.Ledger
