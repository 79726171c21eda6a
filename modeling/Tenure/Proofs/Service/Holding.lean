import Tenure.Proofs.Service.Basic

/-!
# Serving requests for one resource

A request to hold, confirm or cancel is decided under the lock of its resource, on the
ledger as it is then. The early look of a request to hold turns away only those who would
be turned away at once (`place_of_taken`).
-/

namespace Tenure.Ledger

variable {l l' l₀ : Ledger} {held : List Key} {m : Moment} {α : Type}

/-- Decisions on a known resource are made under its lock. -/
theorem meets_decide {f : Int → Ledger → Except CallError Unit × Ledger}
    (s : CoordinatorSettings) (id : Id) (h : Waited m l₀ l)
    (unknown : ∀ now {l}, l.resources.get? id = none → f now l = (.error (.notFound id), l))
    (blind : ∀ now {l l'}, Quiet l l' → Quietly (f now l) (f now l'))
    (books : ∀ now l, SameBooks l (f now l).2) :
    (decide s id f).Meets conduct (fun _ => Quiet) (fun _ => Decided .done f) held m l₀ l := by
  refine meets_known ?_ fun r _ => meets_lockDue ?_
  · intro hr
    exact meets_done h.did blind (by rw [unknown m.stamp hr]; exact ⟨rfl, .refl l⟩)
  · refine meets_underLock tolerant_quiet stable_true h (fun m' l₀' l' _ h' => ?_)
      fun m' l₀' l' _ h' => .inl ⟨rfl, h'.did⟩
    exact meets_decision h' blind ((books m'.stamp l').permits h'.ord)

/-- Nobody confirms a hold on a resource that is not there. -/
theorem confirm_of_unknown {policy : HolderPolicy} {now : Int} {id : Id} {holder : String}
    (hr : l.resources.get? id = none) :
    l.confirm policy now id holder = (.error (.notFound id), l) := by
  simp only [confirm, settle_of_unknown hr, hr]

/-- Nor does anybody cancel one. -/
theorem cancel_of_unknown {policy : HolderPolicy} {now : Int} {id : Id} {holder : String}
    (hr : l.resources.get? id = none) :
    l.cancel policy now id holder = (.error (.notFound id), l) := by
  simp only [cancel, settle_of_unknown hr, hr]

/-- **Confirming** changes the ledger as deciding on it does, at one moment under the lock; until then
nothing but counts changes. -/
theorem meets_confirmHold (s : CoordinatorSettings) (id : Id) (holder : String)
    (h : Waited m l₀ l) :
    (confirmHold s id holder).Meets conduct (fun _ => Quiet)
      (fun _ => Decided .done fun now l => l.confirm s.policy now id holder) held m l₀ l :=
  meets_decide s id h (fun _ _ hr => confirm_of_unknown hr)
    (fun now _ _ q => q.confirm s.policy now id holder)
    fun now l => l.sameBooks_confirm s.policy now id holder

/-- **Cancelling** does as well. -/
theorem meets_cancelHold (s : CoordinatorSettings) (id : Id) (holder : String)
    (h : Waited m l₀ l) :
    (cancelHold s id holder).Meets conduct (fun _ => Quiet)
      (fun _ => Decided .done fun now l => l.cancel s.policy now id holder) held m l₀ l :=
  meets_decide s id h (fun _ _ hr => cancel_of_unknown hr)
    (fun now _ _ q => q.cancel s.policy now id holder)
    fun now l => l.sameBooks_cancel s.policy now id holder

/-- Nor is one placed. -/
theorem place_of_unknown {now : Int} {id : Id} {holder : String} {millis : Nat}
    {price : Float → Float} (hr : l.resources.get? id = none) :
    l.place now id holder millis price = (.error (.notFound id), l) := by
  simp only [place, settle_of_unknown hr, hr]

/-- Whoever is turned away at the early look would be turned away at once. -/
theorem place_of_taken {now : Int} {id : Id} {holder : String} {millis : Nat}
    {price : Float → Float} {r : Resource} (hr : l.resources.get? id = some r)
    (taken : r.statusAt now ≠ .available) :
    l.place now id holder millis price =
      (.ok (.denied (.notAvailable id (r.statusAt now))), l.count (.reservations "denied")) := by
  rcases l.place_cases now id holder millis price with
    ⟨none, -⟩ | ⟨r', hr', same, -, e⟩ | ⟨r', hr', free, -⟩
  · rw [hr] at none
    cases none
  · rw [hr] at hr'
    obtain rfl := Option.some.inj hr'
    rw [e, same]
  · rw [hr] at hr'
    obtain rfl := Option.some.inj hr'
    exact absurd free taken

/-- The early look finds the status that counts now, if it finds anything. -/
theorem meets_peekStatus {W : Moment → Ledger → Ledger → Prop}
    {ret : List Key → Moment → Ledger → Ledger → α → Prop} {id : Id}
    {k : Option Status → Call Ledger α} (blocked : (k none).Meets conduct W ret held m l₀ l)
    (seen : (k ((l.resources.get? id).map fun r => r.statusAt m.stamp)).Meets conduct W ret held
      m l₀ l) :
    ((peekStatus id).bind k).Meets conduct W ret held m l₀ l := by
  refine Call.meets_bind.2 fun free => ?_
  cases free with
  | false => exact blocked
  | true => exact seen

/-- **Placing a hold** is decided on at the moment at which the lock is had, or at the one at which the
resource was seen to be taken, or is put off because the lock was not to be had. -/
theorem meets_placeHold (s : CoordinatorSettings) (id : Id) (holder : String) (millis : Nat)
    (price : Float → Float) (h : Waited m l₀ l) :
    (placeHold s id holder millis price).Meets conduct (fun _ => Quiet)
      (fun _ => Decided .hold fun now l => l.place now id holder millis price) held m l₀ l := by
  have blind : ∀ now {l l' : Ledger}, Quiet l l' →
      Quietly (l.place now id holder millis price) (l'.place now id holder millis price) :=
    fun now _ _ q => q.place now id holder millis price
  refine meets_known ?_ ?_
  · intro hr
    refine meets_done h.did blind ?_
    rw [place_of_unknown hr]
    exact ⟨rfl, .refl l⟩
  · intro r hr
    -- under the lock, which is where it counts
    have locked : (underLock id (m.elapsed + s.lockWait)
        ((Call.modify fun l => l.count (.reservations "timeout")).bind fun _ =>
          .done (.ok (.denied (.contended id))))
        (Call.update fun now l => l.place now id holder millis price)).Meets
        conduct (fun _ => Quiet)
        (fun _ => Decided .hold fun now l => l.place now id holder millis price) held m l₀ l := by
      refine meets_underLock tolerant_quiet stable_true h (fun m' l₀' l' _ h' => ?_)
        fun m' l₀' l' _ h' => meets_count h'.ord _ (.inl ⟨rfl, h'.did.count _⟩)
      exact meets_decision h' blind ((l'.sameBooks_place ..).permits h'.ord)
    have denied : r.statusAt m.stamp ≠ .available →
        Decided .hold (fun now l => l.place now id holder millis price) m l₀
          (l.count (.reservations "denied"))
          (.ok (.denied (.notAvailable id (r.statusAt m.stamp)))) := by
      intro taken
      exact .ofQuiet h.did blind (by rw [place_of_taken hr taken]; exact ⟨rfl, .refl _⟩)
    refine meets_peekStatus locked ?_
    rw [hr, Option.map_some]
    cases hs : r.statusAt m.stamp with
    | available => exact locked
    | reserved =>
      rw [hs] at denied
      exact meets_count h.ord _ (denied (by simp))
    | booked =>
      rw [hs] at denied
      exact meets_count h.ord _ (denied (by simp))

/-- **Reserving** is to place a hold if the holder and the time are in order, and else to refuse at once. -/
theorem meets_reserve (s : CoordinatorSettings) (id : Id) (holder : String) (duration : Nat)
    (price : Float → Float) (h : Waited m l₀ l) :
    (reserve s id holder duration price).Meets conduct (fun _ => Quiet)
      (fun _ => Decided .hold fun now l => l.reserveAtOnce now id holder duration price)
      held m l₀ l := by
  obtain ⟨e, refused, once⟩ | ⟨placed, once⟩ := reserve_cases s id holder duration price
  · rw [refused]
    refine meets_done h.did (fun now _ _ q => q.reserveAtOnce now id holder duration price) ?_
    rw [once]
    exact ⟨rfl, .refl l⟩
  · rw [placed]
    simp only [once]
    exact meets_placeHold s id holder _ price h

end Tenure.Ledger
