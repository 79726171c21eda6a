import Tenure.Proofs.Alone.Basic
import Tenure.Proofs.Service.Grouping
import Tenure.Proofs.Service.Holding

/-!
# Requests run alone

**A request made while all locks are free is decided at once**, just as `Request.atOnce` says,
and leaves all locks free (`Request.freely_call`). So what is answered late is late because of
somebody else. The one thing a request could get in its own way with is a booking that lists
a resource twice, and no ledger in order has one on record.
-/

namespace Tenure

namespace Ledger

variable {l : Ledger} {held : List Key} {m : Moment} {α : Type} {R : Ledger → α → Prop} {due : Nat}
  {id : Id}

/-- What `f` decides, up to what was counted. -/
abbrev Once (f : Int → Ledger → α × Ledger) (m : Moment) (l : Ledger) : Ledger → α → Prop :=
  fun l' a => Quietly (f m.stamp l) (a, l')

/-! ## Locks and looks -/

/-- A call that goes on only if a resource is known. -/
theorem freely_known {c d : Call Ledger α}
    (unknown : l.resources.get? id = none → c.Freely held m l R)
    (known : ∀ r, l.resources.get? id = some r → d.Freely held m l R) :
    ((Call.gets fun l => l.resources.contains id).bind fun b => if !b then c else d).Freely
      held m l R := by
  refine Call.freely_unless (fun no => unknown ?_) ?_
  · rw [Table.contains_eq_isSome] at no
    simpa using no
  · intro yes
    rw [Table.contains_eq_isSome] at yes
    obtain ⟨r, hr⟩ := Option.isSome_iff_exists.1 yes
    exact known r hr

/-- The deadline for locks is read off the clock. -/
theorem freely_lockDue {s : CoordinatorSettings} {f : Nat → Call Ledger α}
    (h : (f (m.elapsed + s.lockWait)).Freely held m l R) : ((lockDue s).bind f).Freely held m l R :=
  h

/-- A party that is alone always has the lock, and never comes too late. -/
theorem freely_underLock {late body : Call Ledger α} (new : Key.resource id ∉ held)
    (h : body.Freely (.resource id :: held) m (l.count .lockWait) R) :
    (underLock id due late body).Freely held m l R :=
  Call.freely_holdingUntil new h

/-- Work under the locks of several resources begins if there is nothing wrong with any of
them, and else the first fault is what the call comes back with. -/
theorem freely_underLocks {R : Ledger → Except CallError α → Prop}
    {late : Id → Call Ledger (Except CallError α)} {check : Id → Resource → Option CallError}
    {body : Call Ledger (Except CallError α)} {ids : List Id} (apart : ids.Nodup)
    (new : ∀ id ∈ ids, Key.resource id ∉ held)
    (hfault : ∀ e l', l.firstFault? check ids = some e → Quiet l l' → R l' (.error e))
    (hbody : ∀ held' l', l.firstFault? check ids = none → Quiet l l' → body.Freely held' m l' R) :
    (underLocks due late check body ids).Freely held m l R := by
  induction ids generalizing held l with
  | nil => exact hbody held l rfl (.refl l)
  | cons id ids ih =>
    obtain ⟨unlisted, apart⟩ := List.nodup_cons.1 apart
    have counted := quiet_count l .lockWait
    refine freely_known ?_ fun r hr => freely_underLock (new id List.mem_cons_self) ?_
    · intro hr
      exact Call.freely_done (hfault _ l (firstFault_cons_of_some (by rw [fault?, hr])) (.refl l))
    · have fault : l.fault? check id = check id r := by rw [fault?, hr]
      have checked : ((l.count .lockWait).resources.get? id).bind (check id) = check id r := by
        rw [counted.resources, hr, Option.bind_some]
      cases he : check id r with
      | some e =>
        refine Call.freely_gets (checked.trans he) (Call.freely_done ?_)
        exact hfault e _ (firstFault_cons_of_some (fault.trans he)) counted
      | none =>
        have rest : l.firstFault? check (id :: ids) = (l.count .lockWait).firstFault? check ids :=
          firstFault_cons_of_none (fault.trans he)
        rw [rest] at hfault hbody
        refine Call.freely_gets (checked.trans he) (ih apart ?_ ?_ ?_)
        · intro id' hid locked
          obtain same | old := List.mem_cons.1 locked
          · exact unlisted (Key.resource.inj same ▸ hid)
          · exact new id' (List.mem_cons_of_mem _ hid) old
        · exact fun e l' he q => hfault e l' he (counted.trans q)
        · exact fun held' l' fine q => hbody held' l' fine (counted.trans q)

/-- It reads a resource as it is, -/
theorem freely_readOne {β : Type} (id : Id) (f : Resource → β) :
    (readOne id f).Freely [] m l fun l' o => l' = l ∧ o = (l.resources.get? id).map f := by
  refine Call.freely_gets rfl ?_
  split
  · exact Call.freely_holding .shared List.not_mem_nil ⟨rfl, rfl, rfl⟩
  · next unknown =>
    rw [Table.contains_eq_isSome, Bool.not_eq_true, Option.isSome_eq_false_iff,
      Option.isNone_iff_eq_none] at unknown
    exact Call.freely_done ⟨rfl, by rw [unknown, Option.map_none]⟩

/-- Reading resources one after the other reads them all as they are. -/
theorem freely_readEach {β : Type} (f : Id → Resource → β) (ids : List Id) :
    (readEach f ids).Freely [] m l fun l' read =>
      l' = l ∧ read = ids.filterMap fun id => (l.resources.get? id).map (f id) := by
  induction ids with
  | nil => exact Call.freely_done ⟨rfl, rfl⟩
  | cons id ids ih =>
    refine (freely_readOne id (f id)).bind fun l' o ho => ?_
    obtain ⟨rfl, rfl⟩ := ho
    refine ih.bind fun l'' read hread => ?_
    obtain ⟨rfl, rfl⟩ := hread
    refine Call.freely_done ⟨rfl, ?_⟩
    rw [List.filterMap_cons]
    cases (l''.resources.get? id).map (f id) <;> rfl

/-! ## One resource -/

/-- **Deciding on a hold** alone is to decide on it at once. -/
theorem freely_decide {f : Int → Ledger → Except CallError Unit × Ledger}
    (s : CoordinatorSettings) (id : Id)
    (unknown : ∀ now {l}, l.resources.get? id = none → f now l = (.error (.notFound id), l))
    (blind : ∀ now {l l'}, Quiet l l' → Quietly (f now l) (f now l')) :
    (decide s id f).Freely [] m l (Once f m l) := by
  refine freely_known ?_ fun r _ => freely_lockDue ?_
  · intro hr
    refine Call.freely_done ?_
    rw [Once, unknown m.stamp hr]
    exact ⟨rfl, .refl l⟩
  · exact freely_underLock List.not_mem_nil (Call.freely_update (blind _ (quiet_count l _)))

/-- So is confirming one, -/
theorem freely_confirmHold (s : CoordinatorSettings) (id : Id) (holder : String) :
    (confirmHold s id holder).Freely [] m l
      (Once (fun now l => l.confirm s.policy now id holder) m l) :=
  freely_decide s id (fun _ _ hr => confirm_of_unknown hr)
    fun now _ _ q => q.confirm s.policy now id holder

/-- and cancelling one. -/
theorem freely_cancelHold (s : CoordinatorSettings) (id : Id) (holder : String) :
    (cancelHold s id holder).Freely [] m l
      (Once (fun now l => l.cancel s.policy now id holder) m l) :=
  freely_decide s id (fun _ _ hr => cancel_of_unknown hr)
    fun now _ _ q => q.cancel s.policy now id holder

/-- The early look at a resource whose lock is free finds the status that counts. -/
theorem freely_peekStatus {k : Option Status → Call Ledger α} (new : Key.resource id ∉ held)
    (seen : (k ((l.resources.get? id).map fun r => r.statusAt m.stamp)).Freely held m l R) :
    ((peekStatus id).bind k).Freely held m l R := ⟨new, seen⟩

/-- **Placing a hold** alone is to place it at once: what was seen beforehand is still so when the lock
is had. -/
theorem freely_placeHold (s : CoordinatorSettings) (id : Id) (holder : String) (millis : Nat)
    (price : Float → Float) :
    (placeHold s id holder millis price).Freely [] m l
      (Once (fun now l => l.place now id holder millis price) m l) := by
  refine freely_known ?_ ?_
  · intro hr
    refine Call.freely_done ?_
    rw [Once, place_of_unknown hr]
    exact ⟨rfl, .refl l⟩
  · intro r hr
    have locked : (underLock id (m.elapsed + s.lockWait)
        ((Call.modify fun l => l.count (.reservations "timeout")).bind fun _ =>
          .done (.ok (.denied (.contended id))))
        (Call.update fun now l => l.place now id holder millis price)).Freely [] m l
        (Once (fun now l => l.place now id holder millis price) m l) :=
      freely_underLock List.not_mem_nil
        (Call.freely_update ((quiet_count l .lockWait).place m.stamp id holder millis price))
    have denied : r.statusAt m.stamp ≠ .available →
        Once (fun now l => l.place now id holder millis price) m l
          (l.count (.reservations "denied"))
          (.ok (.denied (.notAvailable id (r.statusAt m.stamp)))) := by
      intro taken
      rw [Once, place_of_taken hr taken]
      exact ⟨rfl, .refl _⟩
    refine freely_peekStatus List.not_mem_nil ?_
    rw [hr, Option.map_some]
    cases hs : r.statusAt m.stamp with
    | available => exact locked
    | reserved =>
      rw [hs] at denied
      exact Call.freely_modify (Call.freely_done (denied (by simp)))
    | booked =>
      rw [hs] at denied
      exact Call.freely_modify (Call.freely_done (denied (by simp)))

/-- **Reserving** alone is to reserve at once. -/
theorem freely_reserve (s : CoordinatorSettings) (id : Id) (holder : String) (duration : Nat)
    (price : Float → Float) :
    (reserve s id holder duration price).Freely [] m l
      (Once (fun now l => l.reserveAtOnce now id holder duration price) m l) := by
  obtain ⟨e, refused, once⟩ | ⟨placed, once⟩ := reserve_cases s id holder duration price
  · rw [refused]
    refine Call.freely_done ?_
    rw [Once, once]
    exact ⟨rfl, .refl l⟩
  · rw [placed]
    simp only [once]
    exact freely_placeHold s id holder _ price

/-! ## Group bookings -/

/-- **Booking a list in order** alone is to book it at once: every lock is had, and none too late. -/
theorem freely_bookListed (s : CoordinatorSettings) (group : Id) (holder : String) {ids : List Id}
    (price : Float → Float) (fine : listFault? holder ids = none) :
    (bookListed s group holder ids price).Freely [] m l
      (Once (fun now l => l.bookAtOnce now group holder ids price) m l) := by
  have blind : ∀ {l'}, Quiet l l' → Quietly (l.bookAtOnce m.stamp group holder ids price)
      (l'.bookAtOnce m.stamp group holder ids price) :=
    fun q => q.bookAtOnce m.stamp group holder ids price
  refine Call.freely_unless ?_ ?_
  · intro hg
    refine Call.freely_done ?_
    simp only [Once, bookAtOnce, fine, hg]
    exact ⟨rfl, .refl l⟩
  · intro hg
    have apart : (ascending ids).Nodup := (sortBy_perm ids).nodup_iff.2 (nodup_of_listFault fine)
    refine freely_lockDue (Call.freely_holdingUntil List.not_mem_nil ?_)
    refine freely_underLocks apart (fun id _ => by simp) ?_
      fun held' l' fine' q => Call.freely_update ?_
    · intro e l' fault q
      have fault : l.firstFault? (foreign group) (ascending ids) = some e := fault
      simp only [Once, bookAtOnce, fine, hg, fault]
      exact ⟨rfl, q⟩
    · have fine' : l.firstFault? (foreign group) (ascending ids) = none := fine'
      have booked := q.book m.stamp group holder ids price
      simp only [Once, bookAtOnce, fine, hg, fine']
      exact ⟨congrArg Except.ok booked.1, booked.2⟩

/-- **Booking a group** alone is to book it at once. -/
theorem freely_bookGroup (s : CoordinatorSettings) (group : Id) (holder : String) (ids : List Id)
    (price : Float → Float) :
    (bookGroup s group holder ids price).Freely [] m l
      (Once (fun now l => l.bookAtOnce now group holder ids price) m l) := by
  obtain ⟨e, fault, refused⟩ | ⟨fine, listed⟩ := bookGroup_cases s group holder ids price
  · rw [refused]
    refine Call.freely_done ?_
    simp only [Once, bookAtOnce, fault]
    exact ⟨rfl, .refl l⟩
  · rw [listed]
    exact freely_bookListed s group holder price fine

/-- A name is looked up in the ledger as it is, -/
theorem freely_findAmong (name : String) (ids : List Id) :
    (findAmong name ids).Freely [] m l fun l' o => l' = l ∧
      o = ids.find? fun id => (l.resources.get? id).bind Resource.name = some name := by
  induction ids with
  | nil => exact Call.freely_done ⟨rfl, rfl⟩
  | cons id ids ih =>
    refine (freely_readOne id Resource.name).bind fun l' o ho => ?_
    obtain ⟨rfl, rfl⟩ := ho
    have further : (l'.resources.get? id).bind Resource.name ≠ some name →
        (findAmong name ids).Freely [] m l' fun l'' o => l'' = l' ∧
          o = (id :: ids).find? fun id => (l'.resources.get? id).bind Resource.name = some name := by
      intro other
      rw [List.find?_cons_of_neg (by simpa using other)]
      exact ih
    cases hr : l'.resources.get? id with
    | none => exact further (by simp [hr])
    | some r =>
      rw [Option.map_some]
      cases hn : r.name with
      | none => exact further (by simp [hr, hn])
      | some n =>
        dsimp only
        split
        · next same =>
          refine Call.freely_done ⟨rfl, ?_⟩
          rw [List.find?_cons_of_pos (by simp [hr, hn, same])]
        · next other => exact further (by simpa [hr, hn] using other)

/-- and so are several. -/
theorem freely_findAll (group : Id) (names : List String) :
    (findAll group names).Freely [] m l fun l' o => l' = l ∧ o = l.allNamed group names := by
  induction names with
  | nil => exact Call.freely_done ⟨rfl, rfl⟩
  | cons name names ih =>
    refine Call.Freely.bind (Call.freely_gets rfl (freely_findAmong name _)) fun l' o ho => ?_
    obtain ⟨rfl, ho⟩ := ho
    have ho : o = l'.named group name := ho
    simp only [allNamed, ← ho]
    cases o with
    | none => exact Call.freely_done ⟨rfl, rfl⟩
    | some id =>
      refine ih.bind fun l'' o ho => ?_
      obtain ⟨rfl, rfl⟩ := ho
      cases l''.allNamed group names with
      | none => exact Call.freely_done ⟨rfl, rfl⟩
      | some ids => exact Call.freely_done ⟨rfl, rfl⟩

/-- **Booking by name** alone is to look the names up and to book what has them, both at once. -/
theorem freely_bookByName (s : CoordinatorSettings) (group : Id) (holder : String)
    (names : List String) (price : Float → Float) :
    (bookByName s group holder names price).Freely [] m l
      (Once (fun now l => l.bookByNameAtOnce now group holder names price) m l) := by
  refine (freely_findAll group names).bind fun l' o ho => ?_
  obtain ⟨rfl, rfl⟩ := ho
  cases hn : l'.allNamed group names with
  | none =>
    refine Call.freely_done ?_
    simp only [Once, bookByNameAtOnce, hn]
    exact ⟨rfl, .refl l'⟩
  | some ids =>
    refine (freely_bookGroup s group holder ids price).mono fun l'' a h => ?_
    simpa only [Once, bookByNameAtOnce, hn] using h

/-- **Giving a booking up** alone is to give it up at once. -/
theorem freely_cancelGroup (s : CoordinatorSettings) (booking : Id) (holder : String)
    (ord : Orderly l) :
    (cancelGroup s booking holder).Freely [] m l
      (Once (fun _ l => l.cancelGroupAtOnce s.policy booking holder) m l) := by
  cases hs : l.standing booking with
  | error e =>
    refine Call.freely_gets hs (Call.freely_done ?_)
    simp only [Once, cancelGroupAtOnce, hs]
    exact ⟨rfl, .refl l⟩
  | ok b =>
    refine Call.freely_gets hs (Call.freely_unless ?_ ?_)
    · intro hg
      refine Call.freely_done ?_
      simp only [Once, cancelGroupAtOnce, hs, hg]
      exact ⟨rfl, .refl l⟩
    · intro hg
      refine freely_lockDue (Call.freely_holdingUntil List.not_mem_nil ?_)
      refine Call.freely_gets hs ?_
      dsimp only
      cases hp : (s.policy = .strict && b.holder ≠ holder : Bool) with
      | true =>
        refine Call.freely_done ?_
        simp only [Once, cancelGroupAtOnce, hs, hg, hp]
        exact ⟨rfl, .refl l⟩
      | false =>
        have apart : (ascending b.resources).Nodup :=
          (sortBy_perm _).nodup_iff.2 (ord.once booking b (get?_of_standing hs).1)
        refine freely_underLocks apart (fun id _ => by simp) ?_
          fun held' l' fine q => Call.freely_update ?_
        · intro e l' fault q
          simp only [Once, cancelGroupAtOnce, hs, hg, hp, fault]
          exact ⟨rfl, q⟩
        · simp only [Once, cancelGroupAtOnce, hs, hg, hp, fine]
          exact ⟨rfl, q.cancelBooking b⟩

end Ledger

/-- **Requests run alone are decided at once.** -/
theorem Request.freely_call (s : CoordinatorSettings) (r : Request) {m : Moment} {l : Ledger}
    (ord : l.Orderly) :
    (r.call s).Freely [] m l fun l' a => Ledger.Quietly (r.atOnce s m.stamp l) (a, l') := by
  cases r with
  | reserve id holder duration price =>
    exact (Ledger.freely_reserve s id holder duration price).bind fun l' a h =>
      Call.freely_done ⟨congrArg Answer.hold h.1, h.2⟩
  | reserveDefault id holder price =>
    exact (Ledger.freely_reserve s id holder _ price).bind fun l' a h =>
      Call.freely_done ⟨congrArg Answer.hold h.1, h.2⟩
  | confirm id holder =>
    exact (Ledger.freely_confirmHold s id holder).bind fun l' a h =>
      Call.freely_done ⟨congrArg Answer.done h.1, h.2⟩
  | cancel id holder =>
    exact (Ledger.freely_cancelHold s id holder).bind fun l' a h =>
      Call.freely_done ⟨congrArg Answer.done h.1, h.2⟩
  | book group holder ids price =>
    exact (Ledger.freely_bookGroup s group holder ids price).bind fun l' a h =>
      Call.freely_done ⟨congrArg Answer.booking h.1, h.2⟩
  | bookByName group holder names price =>
    exact (Ledger.freely_bookByName s group holder names price).bind fun l' a h =>
      Call.freely_done ⟨congrArg Answer.booking h.1, h.2⟩
  | cancelGroup booking holder =>
    exact (Ledger.freely_cancelGroup s booking holder ord).bind fun l' a h =>
      Call.freely_done ⟨congrArg Answer.done h.1, h.2⟩

/-- A request decided at once leaves the records in order. -/
theorem Request.orderly_atOnce (s : CoordinatorSettings) (r : Request) {now : Int} {l : Ledger}
    (ord : l.Orderly) : (r.atOnce s now l).2.Orderly := by
  have booked : ∀ group holder ids price,
      (l.bookAtOnce now group holder ids price).2.Orderly := by
    intro group holder ids price
    obtain ⟨e, refused⟩ | ⟨fine, -, decided⟩ := l.bookAtOnce_cases now group holder ids price
    · rw [refused]
      exact ord
    · rw [decided]
      have permitted : Ledger.conduct.Permits [] l (l.book now group holder ids price).2 :=
        Ledger.permits_book ord now group holder (Ledger.nodup_of_listFault fine) price
      exact permitted.1
  have held : ∀ id holder duration price,
      (l.reserveAtOnce now id holder duration price).2.Orderly := by
    intro id holder duration price
    obtain ⟨e, refused⟩ | placed := l.reserveAtOnce_cases now id holder duration price
    · rw [refused]
      exact ord
    · rw [placed]
      exact (l.sameBooks_place ..).orderly ord
  cases r with
  | reserve id holder duration price => exact held id holder duration price
  | reserveDefault id holder price => exact held id holder _ price
  | confirm id holder => exact (l.sameBooks_confirm ..).orderly ord
  | cancel id holder => exact (l.sameBooks_cancel ..).orderly ord
  | book group holder ids price => exact booked group holder ids price
  | bookByName group holder names price =>
    simp only [Request.atOnce]
    obtain missing | ⟨ids, found⟩ := l.bookByNameAtOnce_cases now group holder names price
    · rw [missing]
      exact ord
    · rw [found]
      exact booked group holder ids price
  | cancelGroup booking holder =>
    simp only [Request.atOnce]
    obtain ⟨e, -, refused⟩ | ⟨b, stands, -, done⟩ :=
      l.cancelGroupAtOnce_cases s.policy booking holder
    · rw [refused]
      exact ord
    · rw [done]
      have permitted : Ledger.conduct.Permits [.group b.group] l (l.cancelBooking b) :=
        Ledger.permits_cancelBooking ord stands List.mem_cons_self
      exact permitted.1

end Tenure
