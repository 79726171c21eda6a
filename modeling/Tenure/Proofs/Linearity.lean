import Tenure.Proofs.Service

/-!
# Calls side by side are calls in a row

However the calls of clients interleave at their waits for locks, what comes of them is what
would have come of the same requests made one at a time, in the order in which they
returned, each at the time at which it returned (`linearizable`).

The row of requests is read off the answers (`Traffic.inARow`), each of them decided by
`Request.atOnce`, which is what the call comes to when nobody else is there
(`Request.freely_call`). A request that came too late for a lock is left out of it, so it has
had no effect either.
-/

namespace Tenure

variable {s : CoordinatorSettings} {now : Int} {l l₀ : Ledger}

/-! ## Nobody is late who need not wait -/

namespace Ledger

theorem late_done {e : CallError} (h : ∀ id, e ≠ .lockTimeout id) :
    (Answer.done (.error e)).late = false := by
  cases e with
  | lockTimeout id => exact absurd rfl (h id)
  | _ => rfl

theorem late_place (l : Ledger) (now : Int) (id : Id) (holder : String) (millis : Nat)
    (price : Float → Float) :
    (Answer.hold (l.place now id holder millis price).1).late = false := by
  rcases l.place_cases now id holder millis price with
    ⟨-, e⟩ | ⟨r, -, -, -, e⟩ | ⟨r, -, -, e⟩ <;> rw [e] <;> rfl

theorem late_reserveAtOnce (l : Ledger) (now : Int) (id : Id) (holder : String) (duration : Nat)
    (price : Float → Float) :
    (Answer.hold (l.reserveAtOnce now id holder duration price).1).late = false := by
  obtain ⟨e, refused⟩ | placed := l.reserveAtOnce_cases now id holder duration price
  · rw [refused]
    rfl
  · rw [placed]
    exact l.late_place now id holder _ price

theorem late_confirm (l : Ledger) (policy : HolderPolicy) (now : Int) (id : Id)
    (holder : String) : (Answer.done (l.confirm policy now id holder).1).late = false := by
  obtain ⟨e, inTime, refused⟩ | ⟨r, c, -, -, -, -, -, done⟩ := l.confirm_cases policy now id holder
  · rw [refused]
    exact late_done inTime
  · rw [done]
    rfl

theorem late_cancel (l : Ledger) (policy : HolderPolicy) (now : Int) (id : Id)
    (holder : String) : (Answer.done (l.cancel policy now id holder).1).late = false := by
  obtain ⟨e, inTime, refused⟩ | ⟨r, -, -, -, -, -, done⟩ := l.cancel_cases policy now id holder
  · rw [refused]
    exact late_done inTime
  · rw [done]
    rfl

theorem late_book (l : Ledger) (now : Int) (group : Id) (holder : String) (ids : List Id)
    (price : Float → Float) :
    (Answer.booking (.ok (l.book now group holder ids price).1)).late = false := by
  rcases l.book_cases now group holder ids price with
    ⟨id, status, l', -, e⟩ | ⟨l', l'', -, e, -⟩ <;> rw [e] <;> rfl

theorem late_bookAtOnce (l : Ledger) (now : Int) (group : Id) (holder : String) (ids : List Id)
    (price : Float → Float) :
    (Answer.booking (l.bookAtOnce now group holder ids price).1).late = false := by
  obtain ⟨e, refused⟩ | ⟨-, -, decided⟩ := l.bookAtOnce_cases now group holder ids price
  · rw [refused]
    rfl
  · rw [decided]
    exact l.late_book now group holder ids price

theorem late_cancelGroupAtOnce (l : Ledger) (policy : HolderPolicy) (booking : Id)
    (holder : String) :
    (Answer.done (l.cancelGroupAtOnce policy booking holder).1).late = false := by
  obtain ⟨e, inTime, refused⟩ | ⟨b, -, -, done⟩ := l.cancelGroupAtOnce_cases policy booking holder
  · rw [refused]
    exact late_done inTime
  · rw [done]
    rfl

end Ledger

/-- **Nobody is late** who is served at once. -/
theorem Request.late_atOnce (r : Request) : (r.atOnce s now l).1.late = false := by
  cases r with
  | reserve id holder duration price => exact l.late_reserveAtOnce now id holder duration price
  | reserveDefault id holder price => exact l.late_reserveAtOnce now id holder _ price
  | confirm id holder => exact l.late_confirm s.policy now id holder
  | cancel id holder => exact l.late_cancel s.policy now id holder
  | book group holder ids price => exact l.late_bookAtOnce now group holder ids price
  | bookByName group holder names price =>
    change (Answer.booking (l.bookByNameAtOnce now group holder names price).1).late = false
    obtain missing | ⟨ids, found⟩ := l.bookByNameAtOnce_cases now group holder names price
    · rw [missing]
      rfl
    · rw [found]
      exact l.late_bookAtOnce now group holder ids price
  | cancelGroup booking holder => exact l.late_cancelGroupAtOnce s.policy booking holder

/-! ## In a row -/

namespace Traffic

/-- The ledger after the requests that were answered, made one at a time in the order of
their answers, each at the time of its answer; the latest answer comes first in the list.
Requests that came too late are left out. -/
def inARow (s : CoordinatorSettings) (origin : Int) (l₀ : Ledger) : List (Return Reply) → Ledger
  | [] => l₀
  | ⟨_, .answered r a, time⟩ :: earlier =>
    if a.late then inARow s origin l₀ earlier
    else (r.atOnce s (Moment.stamp ⟨origin, time⟩) (inARow s origin l₀ earlier)).2
  | _ :: earlier => inARow s origin l₀ earlier

/-- Every answer is the one that the request would have got in the row. -/
def Answered (s : CoordinatorSettings) (origin : Int) (l₀ : Ledger) (returned : List (Return Reply)) :
    Prop :=
  ∀ later owner r a time earlier, returned = later ++ ⟨owner, .answered r a, time⟩ :: earlier →
    a.late = false →
      (r.atOnce s (Moment.stamp ⟨origin, time⟩) (inARow s origin l₀ earlier)).1 = a

variable {origin : Int} {t : Traffic Ledger Reply}

theorem Answered.cons {returned : List (Return Reply)} (h : Answered s origin l₀ returned)
    {ret : Return Reply}
    (first : ∀ r a, ret.answer = .answered r a → a.late = false →
      (r.atOnce s (Moment.stamp ⟨origin, ret.time⟩) (inARow s origin l₀ returned)).1 = a) :
    Answered s origin l₀ (ret :: returned) := by
  intro later owner r a time earlier e inTime
  cases later with
  | nil =>
    obtain ⟨rfl, rfl⟩ := List.cons.inj e
    exact first r a rfl inTime
  | cons x later =>
    obtain ⟨-, e⟩ := List.cons.inj e
    exact h later owner r a time earlier e inTime

/-- **One answer more.** What an errand does to the ledger it does in the row. -/
theorem quiet_inARow_cons {m : Moment} {returned : List (Return Reply)} {l l' : Ledger}
    {owner : Owner} {a : Reply} (quiet : (inARow s m.origin l₀ returned).Quiet l)
    (tells : a.Tells s m l l') :
    (inARow s m.origin l₀ (⟨owner, a, m.elapsed⟩ :: returned)).Quiet l' := by
  cases a with
  | answered r a =>
    simp only [inARow]
    rcases tells with ⟨late, same⟩ | ⟨answered, done⟩
    · rw [if_pos late]
      exact quiet.trans same
    · have inTime : a.late = false := by
        rw [← show (r.atOnce s m.stamp l).1 = a from answered]
        exact r.late_atOnce
      rw [if_neg (by simp [inTime])]
      exact (quiet.atOnce s m.stamp r).2.trans done
  | looked => exact quiet.trans tells
  | swept _ => exact tells.elim
  | expired _ => exact tells.elim
  | round _ => exact tells.elim

/-- **Calls side by side are calls in a row.** Whoever was not too late for a lock was
answered as in the row of all requests, and the ledger is the one after that row, up to
what was counted. -/
theorem linearizable (ord : l₀.Orderly) (h : Moves (Client s) (Traffic.start origin l₀) t) :
    Answered s origin l₀ t.returned ∧ (inARow s origin l₀ t.returned).Quiet t.shared := by
  have row : t.clock.origin = origin ∧ Answered s origin l₀ t.returned ∧
      (inARow s origin l₀ t.returned).Quiet t.shared := by
    refine (h.kept (P := fun t => t.clock.origin = origin ∧ Answered s origin l₀ t.returned ∧
      (inARow s origin l₀ t.returned).Quiet t.shared) Client.keepsTo ?_ (kept_start ord) ?_).2
    · rintro t u - effect ⟨rfl, answered, quiet⟩
      refine ⟨effect.before.1.symm, ?_⟩
      cases effect with
      | still _ shared returned =>
        rw [shared, returned]
        exact ⟨answered, quiet⟩
      | waits _ did returned =>
        rw [returned]
        exact ⟨answered, quiet.trans did⟩
      | answers owner a _ did returned =>
        rw [returned]
        refine ⟨answered.cons fun r a' e inTime => ?_, quiet_inARow_cons quiet did⟩
        obtain rfl : a = .answered r a' := e
        rcases did with ⟨late, -⟩ | ⟨same, -⟩
        · rw [inTime] at late
          cases late
        · exact (quiet.atOnce s t.clock.stamp r).1.trans same
    · refine ⟨rfl, fun later owner r a time earlier e => ?_, .refl l₀⟩
      cases later <;> cases e
  exact row.2

/-- Somebody keeps the seat locked for ten milliseconds. -/
def watch : Call Ledger Unit := keeping (.resource ⟨0, 1⟩) 10

/-- So it is when Bob has to wait ten milliseconds for somebody who has the lock of the
seat. -/
theorem linearizable_after_a_wait :
    Ledger.hallOfTwo.Orderly ∧
      ∃ t, Moves (Client .standard) (Traffic.start 0 Ledger.hallOfTwo) t ∧
        t.returned.map Return.time = [10, 10] ∧
        Answered .standard 0 Ledger.hallOfTwo t.returned ∧
        (inARow .standard 0 Ledger.hallOfTwo t.returned).Quiet t.shared := by
  have ord : Ledger.hallOfTwo.Orderly := Ledger.orderly_of_none fun _ => rfl
  have moves : Moves (Client .standard) (Traffic.start 0 Ledger.hallOfTwo)
      ((((Traffic.start 0 Ledger.hallOfTwo).enter (watch.bind fun _ => .done .looked)).enter
        (Request.bobReserves.errand .standard)).run (fun _ => false) none 10) :=
    ((Moves.none.snoc (.enter (client_keeping ..))).snoc (.enter (Client.once .standard .bobReserves))).trans
      (run_moves ..)
  exact ⟨ord, _, moves, by decide +kernel, linearizable ord moves⟩

end Traffic

end Tenure
