import Tenure.Proofs.Agreement
import Tenure.Proofs.Alone.Requests
import Tenure.Proofs.Tracking

/-!
# Group bookings are given up once

A group booking that stands can be given up by its holder, whatever has happened before: what it
lists still belongs to it (`Ledger.Agreement`), and it was booked in a group that there is
(`Ledger.Housed`). Once it was given up nothing becomes of its record any more
(`Ledger.Retains`), so whoever looks at it finds that out.

Who looked before that and waits for the lock of the group looks again once it has the lock. It
is turned away then (`Ledger.Spurned`), or has given up waiting for that very lock, and either way
it has done nothing but count. So of any number of attempts to give up one booking at most one
comes about (`Traffic.given_up_once`).
-/

namespace Tenure

/-! ## Two promises -/

/-- A call that keeps each of two promises keeps both. -/
theorem Call.Meets.and {σ α : Type} {C : Conduct σ} {wait : Moment → σ → σ → Prop}
    {ret ret' : List Key → Moment → σ → σ → α → Prop} {c : Call σ α} {held : List Key} {m : Moment}
    {s₀ s : σ} (h : c.Meets C wait ret held m s₀ s) (h' : c.Meets C wait ret' held m s₀ s) :
    c.Meets C wait (fun held m s₀ s a => ret held m s₀ s a ∧ ret' held m s₀ s a) held m s₀ s := by
  induction c generalizing held m s₀ s with
  | done a => exact ⟨h, h'⟩
  | look k ih => exact ih m s h h'
  | save s' k ih => exact ⟨h.1, ih h.2 h'.2⟩
  | acquire key mode patience k ih =>
    refine ⟨h.1, fun m' s₀' s' hr => ?_⟩
    obtain ⟨got, late⟩ := h.2 m' s₀' s' hr
    obtain ⟨got', late'⟩ := h'.2 m' s₀' s' hr
    exact ⟨ih true got got', fun hp => ih false (late hp) (late' hp)⟩
  | release key k ih => exact ih h h'
  | probe key mode k ih => exact fun b => ih b (h b) (h' b)
  | pause due sign k ih =>
    refine ⟨h.1, fun m' s₀' s' hr => ?_⟩
    obtain ⟨on, taken⟩ := h.2 m' s₀' s' hr
    obtain ⟨on', taken'⟩ := h'.2 m' s₀' s' hr
    exact ⟨ih on on', fun s'' hs => ⟨(taken s'' hs).1, ih (taken s'' hs).2 (taken' s'' hs).2⟩⟩

namespace Ledger

variable {s : CoordinatorSettings} {l l' l'' l₀ : Ledger} {held : List Key} {m : Moment} {now : Int}
  {booking : Id} {b : Booking}

/-! ## The record of a booking -/

/-- Whatever is booked is booked in a group that there is. -/
def Housed (l : Ledger) : Prop :=
  ∀ id b, l.bookings.get? id = some b → l.groups.contains b.group = true

/-- A booking is on record as given up. -/
def Fallen (l : Ledger) (booking : Id) (b : Booking) : Prop :=
  l.bookings.get? booking = some b ∧ b.status = .cancelled

/-- What may become of the records. -/
structure Retains (l l' : Ledger) : Prop where
  /-- a booking that was given up stays as it is -/
  fallen : ∀ {booking b}, l.Fallen booking b → l'.Fallen booking b
  /-- bookings are made in groups that there are -/
  housed : l.Housed → l'.Housed

theorem Retains.trans (h : Retains l l') (h' : Retains l' l'') : Retains l l'' :=
  ⟨fun fallen => h'.fallen (h.fallen fallen), fun housed => h'.housed (h.housed housed)⟩

theorem SameBooks.retains (h : SameBooks l l') : Retains l l' := by
  refine ⟨fun ⟨hb, cancelled⟩ => ⟨h.bookings.symm ▸ hb, cancelled⟩, fun housed id b hb => ?_⟩
  rw [h.groups]
  exact housed id b (h.bookings ▸ hb)

theorem Enters.retains {price : Float → Float} (enters : l.Enters b price l') (ord : Orderly l)
    (name : b.id = (l.supply.draw .booking b.bookedAt).1)
    (registered : l.groups.contains b.group = true) : Retains l l' := by
  have bookings : ∀ id, l'.bookings.get? id = if id = b.id then some b else l.bookings.get? id := by
    intro id
    rw [enters.bookings, Table.get?_insert]
  refine ⟨fun ⟨hb', cancelled⟩ => ⟨?_, cancelled⟩, fun housed id b' hb' => ?_⟩
  · rw [bookings, if_neg (ord.ne_of_drawn hb' name)]
    exact hb'
  · rw [enters.groups]
    rw [bookings] at hb'
    split at hb'
    · cases hb'
      exact registered
    · exact housed id b' hb'

theorem retains_cancelBooking (ord : Orderly l) (stands : l.standing booking = .ok b) :
    Retains l (l.cancelBooking b) := by
  have bookings := get?_bookings_cancelBooking ord stands
  obtain ⟨hb, confirmed⟩ := get?_of_standing stands
  refine ⟨fun ⟨hb', cancelled⟩ => ⟨?_, cancelled⟩, fun housed id b' hb' => ?_⟩
  · -- the one that is given up stood
    rw [bookings, if_neg]
    · exact hb'
    · rintro rfl
      rw [hb] at hb'
      obtain rfl := Option.some.inj hb'
      rw [confirmed] at cancelled
      cases cancelled
  · rw [(l.akin_cancelBooking b).groups]
    rw [bookings] at hb'
    split at hb'
    · cases hb'
      exact housed booking b hb
    · exact housed id b' hb'

theorem retains_bookAtOnce (ord : Orderly l) (now : Int) (group : Id) (holder : String)
    (ids : List Id) (price : Float → Float) :
    Retains l (l.bookAtOnce now group holder ids price).2 := by
  cases registered : l.groups.contains group with
  | false =>
    have same : (l.bookAtOnce now group holder ids price).2 = l := by
      simp only [bookAtOnce, registered]
      split <;> rfl
    rw [same]
    exact (SameBooks.refl l).retains
  | true =>
    obtain ⟨e, refused⟩ | ⟨-, -, decided⟩ := l.bookAtOnce_cases now group holder ids price
    · rw [refused]
      exact (SameBooks.refl l).retains
    · have settled : Settles now l (settleAll now (ascending ids) l).2 := Settles.none.settleAll _
      rw [decided]
      rcases l.book_cases now group holder ids price with
        ⟨id, status, l', hs, e⟩ | ⟨l', l'', hs, e, enters⟩ <;> rw [hs] at settled <;> rw [e]
      · exact (settled.sameBooks.trans (quiet_count l' _).sameBooks).retains
      · have ord' := settled.sameBooks.orderly ord
        refine settled.sameBooks.retains.trans (enters.retains ord' rfl ?_)
        exact (congrArg (Table.contains · group) settled.sameBooks.groups).trans registered

/-- **Every request** leaves the record of what was given up alone. -/
theorem retains_atOnce (ord : Orderly l) (s : CoordinatorSettings) (now : Int) (r : Request) :
    Retains l (r.atOnce s now l).2 := by
  have held : ∀ id holder duration price,
      Retains l (l.reserveAtOnce now id holder duration price).2 := by
    intro id holder duration price
    obtain ⟨e, refused⟩ | placed := l.reserveAtOnce_cases now id holder duration price
    · rw [refused]
      exact (SameBooks.refl l).retains
    · rw [placed]
      exact (l.sameBooks_place ..).retains
  cases r with
  | reserve id holder duration price => exact held id holder duration price
  | reserveDefault id holder price => exact held id holder _ price
  | confirm id holder => exact (l.sameBooks_confirm ..).retains
  | cancel id holder => exact (l.sameBooks_cancel ..).retains
  | book group holder ids price => exact retains_bookAtOnce ord now group holder ids price
  | bookByName group holder names price =>
    simp only [Request.atOnce]
    obtain missing | ⟨ids, found⟩ := l.bookByNameAtOnce_cases now group holder names price
    · rw [missing]
      exact (SameBooks.refl l).retains
    · rw [found]
      exact retains_bookAtOnce ord now group holder ids price
  | cancelGroup booking holder =>
    simp only [Request.atOnce]
    obtain ⟨e, -, refused⟩ | ⟨b, stands, -, done⟩ :=
      l.cancelGroupAtOnce_cases s.policy booking holder
    · rw [refused]
      exact (SameBooks.refl l).retains
    · rw [done]
      exact retains_cancelBooking ord stands

/-- Whatever a party does leaves the record of what was given up alone. -/
theorem DoesApart.retains {a : Reply} (ord : Orderly l) (does : a.DoesApart s m l l') :
    Retains l l' := by
  rcases does with tells | ⟨-, upkeep⟩
  · cases a with
    | answered r a =>
      rcases tells with ⟨-, quiet⟩ | ⟨-, quiet⟩
      · exact quiet.sameBooks.retains
      · exact (retains_atOnce ord s m.stamp r).trans quiet.sameBooks.retains
    | looked => exact (Quiet.sameBooks tells).retains
    | swept _ => exact tells.elim
    | expired _ => exact tells.elim
    | round _ => exact tells.elim
  · exact upkeep.sameBooks.retains

/-! ## Too late to give up -/

theorem Fallen.standing (fallen : l.Fallen booking b) :
    l.standing booking = .error (.alreadyCancelled booking) := by
  simp [Ledger.standing, fallen.1, fallen.2]

theorem Quiet.standing (quiet : Quiet l l') (booking : Id) :
    l'.standing booking = l.standing booking := by
  obtain ⟨x, rfl⟩ := quiet
  rfl

/-- If the booking had been given up before the stretch of the answer, then the answer says so, or
that the lock of the group did not come in time. -/
def Spurned (booking : Id) (l : Ledger) (a : Except CallError Unit) : Prop :=
  ∀ b, l.Fallen booking b →
    a = .error (.alreadyCancelled booking) ∨ a = .error (.lockTimeout b.group)

theorem spurned_of_standing (stands : l.standing booking = .ok b) (a : Except CallError Unit) :
    Spurned booking l a := by
  intro b' fallen
  rw [fallen.standing] at stands
  cases stands

theorem spurned_of_error {e : CallError} (error : l.standing booking = .error e) :
    Spurned booking l (.error e) := by
  intro b fallen
  rw [fallen.standing] at error
  cases error
  exact .inl rfl

/-- **Too late.** A call to give up a booking that somebody else has given up meanwhile finds that
out under the lock of the group, and does nothing. -/
theorem meets_cancelGroup_spurned (s : CoordinatorSettings) (booking : Id) (holder : String)
    (h : Waited m l₀ l) :
    (cancelGroup s booking holder).Meets conduct (fun _ => Quiet)
      (fun _ _ l₀ _ a => Spurned booking l₀ a) held m l₀ l := by
  cases hs : l.standing booking with
  | error e => exact meets_gets hs (spurned_of_error ((h.did.standing booking).symm.trans hs))
  | ok b =>
    have before : l₀.standing booking = .ok b := (h.did.standing booking).symm.trans hs
    refine meets_gets hs (meets_unless (fun _ => spurned_of_standing before _) fun _ =>
      meets_lockDue ?_)
    -- during the wait for its group the booking keeps everything but whether it stands
    have stable : Stable held fun l =>
        ∃ status, l.bookings.get? booking = some { b with status := status } := by
      rintro l l' ⟨status, hb⟩ rely
      obtain ⟨status', hb', -⟩ := rely.bookings booking _ hb
      exact ⟨status', hb'⟩
    have h : Underway (fun _ => Quiet)
        (fun l => ∃ status, l.bookings.get? booking = some { b with status := status }) m l₀ l :=
      ⟨h.did, h.ord, b.status, (get?_of_standing hs).1⟩
    refine Call.meets_holdingUntil h.did (fun m' l₀' l' hr => ?_) fun m' l₀' l' hr => ?_
    · obtain ⟨did, ord, status, hb⟩ := h.resumed tolerant_quiet stable hr
      cases hs' : l'.standing booking with
      | error e => exact meets_gets hs' (spurned_of_error ((did.standing booking).symm.trans hs'))
      | ok c =>
        obtain rfl := eq_of_standing hs hb hs'
        refine meets_gets hs' ?_
        dsimp only
        split
        · exact spurned_of_standing ((did.standing booking).symm.trans hs') _
        · -- nobody else can give it up from here on
          have firm : Stable (.group b.group :: held) fun l => l.standing booking = .ok b :=
            fun _ _ stands rely => rely.standing stands List.mem_cons_self
          have stands : ∀ {m l₀ l}, Underway (fun _ => Quiet) (fun l => l.standing booking = .ok b)
              m l₀ l → ∀ a, Spurned booking l₀ a :=
            fun h => spurned_of_standing ((h.did.standing booking).symm.trans h.knows)
          refine meets_underLocks tolerant_quiet firm (fun _ _ => rfl) ⟨did, ord, hs'⟩ ?_ ?_ ?_
          · intro held' m'' l₀'' l'' more h _
            exact Call.meets_update.2
              ⟨permits_cancelBooking h.ord h.knows (more List.mem_cons_self), stands h _⟩
          · exact fun _ _ _ _ h _ => stands h _
          · exact fun _ _ _ _ _ h => stands h _
    · obtain ⟨did, -, status, hb⟩ := h.resumed tolerant_quiet stable hr
      obtain ⟨x, rfl⟩ := did
      rintro b' ⟨hb', -⟩
      rw [show l₀'.bookings.get? booking = some { b with status := status } from hb] at hb'
      obtain rfl := Option.some.inj hb'
      exact .inr rfl

/-! ## Giving up -/

theorem GivesUp.quiet (h : l.GivesUp booking b l') (quiet : Quiet l' l'') :
    l.GivesUp booking b l'' := by
  obtain ⟨x, rfl⟩ := quiet
  exact ⟨h.given, h.others, h.recorded⟩

end Ledger

open Ledger

variable {s : CoordinatorSettings} {m : Moment} {l l' : Ledger} {booking : Id} {a : Reply}

/-! ## Replies -/

/-- Whether the reply is that a group booking was given up. -/
def Reply.gaveUp (booking : Id) : Reply → Bool
  | .answered (.cancelGroup id _) (.done (.ok ())) => id = booking
  | _ => false

theorem Reply.exists_of_gaveUp (h : a.gaveUp booking = true) :
    ∃ holder, a = .answered (.cancelGroup booking holder) (.done (.ok ())) := by
  unfold Reply.gaveUp at h
  split at h
  · next id holder =>
    obtain rfl := of_decide_eq_true h
    exact ⟨holder, rfl⟩
  · cases h

/-- **Only a booking that stands is given up**, and then it does no longer. -/
theorem Reply.DoesApart.gaveUp (does : a.DoesApart s m l l') (ord : l.Orderly)
    (gaveUp : a.gaveUp booking = true) :
    (∃ b, l.standing booking = .ok b) ∧ ∃ b, l'.Fallen booking b := by
  obtain ⟨holder, rfl⟩ := Reply.exists_of_gaveUp gaveUp
  rcases does with (⟨late, -⟩ | ⟨answered, quiet⟩) | ⟨chore, -⟩
  · cases late
  · simp only [Request.atOnce] at answered quiet
    obtain ⟨e, -, refused⟩ | ⟨b, stands, -, done⟩ :=
      l.cancelGroupAtOnce_cases s.policy booking holder
    · rw [refused] at answered
      cases answered
    · rw [done] at quiet
      obtain ⟨x, e⟩ := quiet
      refine ⟨⟨b, stands⟩, { b with status := .cancelled }, ?_, rfl⟩
      change l' = _ at e
      rw [e]
      exact (get?_bookings_cancelBooking ord stands booking).trans (if_pos rfl)
  · exact chore.elim

/-- What becomes of a call to give up a booking that was given up before: it says so or did not get
the lock of the group in time, and has done nothing but count. -/
def Reply.TooLate (l l' : Ledger) (a : Reply) : Prop :=
  ∀ booking b holder x, l.Fallen booking b →
    a = .answered (.cancelGroup booking holder) (.done x) →
    (x = .error (.alreadyCancelled booking) ∨ x = .error (.lockTimeout b.group)) ∧ l.Quiet l'

/-- **Whoever comes too late** to give up a booking has no effect. -/
theorem Errand.tooLate {c : Call Ledger Reply} (h : Errand s c) :
    c.Keeps conduct (fun _ => Quiet) fun _ l l' a => a.TooLate l l' := by
  intro m l ord
  cases h with
  | request r =>
    have start : Waited m l l := ⟨.refl l, ord, trivial⟩
    refine Call.meets_bind.2 ?_
    cases r with
    | cancelGroup booking holder =>
      refine Call.meets_bind.2 (((meets_cancelGroup s booking holder start).and
        (meets_cancelGroup_spurned s booking holder start)).mono (fun _ _ _ w => w) ?_)
      rintro held m l₀ l x ⟨decided, spurned⟩ id b _ _ fallen e
      cases e
      refine ⟨spurned b fallen, ?_⟩
      rcases decided with ⟨-, quiet⟩ | ⟨-, quiet⟩
      · exact quiet
      · simp only [cancelGroupAtOnce, fallen.standing] at quiet
        exact quiet
    | _ =>
      refine (Request.meets_call s _ start).mono (fun _ _ _ w => w) ?_
      intro held m l₀ l x _ booking b holder y _ e
      cases e
  | look c idle =>
    refine Call.meets_bind.2 (idle.meets (fun _ => .refl) (fun _ _ _ _ _ _ => ?_) ord)
    intro booking b holder x _ e
    cases e

theorem Client.tooLate {call : Call Ledger Reply} {again : Reply → Option (Call Ledger Reply)}
    (h : Client s call again) :
    KeepsTo conduct (fun _ => Quiet) (fun _ l l' a => a.TooLate l l') call again :=
  ⟨h.1.tooLate, fun a c hc => (h.2 a c hc).tooLate⟩

/-! ## Every reachable state -/

namespace Traffic

variable {origin : Int} {l₀ : Ledger} {t u v : Traffic Ledger Reply}

/-- The records are in order, and a booking that somebody was told to have given up, which is one
party at most, is on record so. -/
structure Recorded (t : Traffic Ledger Reply) : Prop where
  /-- bookings are made in groups that there are -/
  housed : t.shared.Housed
  /-- at most one party is told to have given up a booking -/
  once : ∀ booking, t.returned.countP (fun r => r.answer.gaveUp booking) ≤ 1
  /-- and then it is given up -/
  fallen : ∀ booking, 0 < t.returned.countP (fun r => r.answer.gaveUp booking) →
    ∃ b, t.shared.Fallen booking b

theorem Recorded.retains (recorded : t.Recorded) (retains : t.shared.Retains u.shared)
    (returned : u.returned = t.returned) : u.Recorded := by
  refine ⟨retains.housed recorded.housed, fun booking => ?_, fun booking some => ?_⟩
  · rw [returned]
    exact recorded.once booking
  · rw [returned] at some
    obtain ⟨b, fallen⟩ := recorded.fallen booking some
    exact ⟨b, retains.fallen fallen⟩

/-- **One answer more.** Nobody is told to have given up what has been given up. -/
theorem Recorded.answers (recorded : t.Recorded) (ord : t.shared.Orderly) {owner : Owner}
    (did : a.DoesApart s t.clock t.shared u.shared)
    (returned : u.returned = ⟨owner, a, t.clock.elapsed⟩ :: t.returned) : u.Recorded := by
  have retains := DoesApart.retains ord did
  refine ⟨retains.housed recorded.housed, fun booking => ?_, fun booking some => ?_⟩ <;>
    rw [returned, List.countP_cons] at * <;> cases gaveUp : a.gaveUp booking
  · simpa using recorded.once booking
  · obtain ⟨⟨b, stands⟩, -⟩ := did.gaveUp ord gaveUp
    have none : ¬ 0 < t.returned.countP (fun r => r.answer.gaveUp booking) := by
      intro some
      obtain ⟨b', fallen⟩ := recorded.fallen booking some
      rw [fallen.standing] at stands
      cases stands
    simp only [if_pos]
    omega
  · obtain ⟨b, fallen⟩ := recorded.fallen booking (by simpa [gaveUp] using some)
    exact ⟨b, retains.fallen fallen⟩
  · exact (did.gaveUp ord gaveUp).2

/-- **Along every history** the records are in order. -/
theorem Moves.recorded (start : l₀.Untouched) (h : Moves (Party s) (Traffic.start origin l₀) t) :
    (t.Kept conduct Upkeep fun m l l' a => a.DoesApart s m l l') ∧ t.Recorded := by
  have empty : (Traffic.start origin l₀ : Traffic Ledger Reply).Recorded := by
    refine ⟨fun id b hb => ?_, fun _ => Nat.zero_le 1, fun _ some => absurd some (Nat.lt_irrefl 0)⟩
    cases (start.bookings id).symm.trans hb
  refine h.kept Party.keepsToApart ?_ (kept_start (orderly_of_none start.bookings)) empty
  intro t u kept effect recorded
  cases effect with
  | still _ same returned =>
    exact recorded.retains (same ▸ (SameBooks.refl _).retains) returned
  | waits _ did returned => exact recorded.retains did.sameBooks.retains returned
  | answers owner a _ did returned => exact recorded.answers kept.inv did returned

/-- What was given up stays so. -/
theorem Moves.fallen (h : Moves (Party s) t u)
    (kept : t.Kept conduct Upkeep fun m l l' a => a.DoesApart s m l l') {b : Booking}
    (fallen : t.shared.Fallen booking b) : u.shared.Fallen booking b := by
  refine (h.kept (P := fun t => t.shared.Fallen booking b) Party.keepsToApart ?_ kept fallen).2
  intro t u kept effect fallen
  cases effect with
  | still _ same _ => exact same ▸ fallen
  | waits _ did _ => exact did.sameBooks.retains.fallen fallen
  | answers _ _ _ did _ => exact (DoesApart.retains kept.inv did).fallen fallen

end Traffic

end Tenure
