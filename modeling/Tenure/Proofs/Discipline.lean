import Tenure.Proofs.Service
import Tenure.Proofs.Tracking

/-!
# Resources change under their locks

No party changes a resource unless it holds the lock of that resource exclusively at that
very moment (`Traffic.locked_of_changed`), and what a party has locked nobody else changes
(`Ledger.locking`).

A stretch may change the shared state several times, with other locks held each time.
`Call.changes` lists what it changes, together with the locks as they were then.
-/

namespace Tenure

variable {σ α β : Type}

/-! ## The changes of a stretch -/

/-- One change of the shared state, in the middle of a stretch. -/
structure Change (σ : Type) where
  /-- the state before -/
  before : σ
  /-- the state after -/
  after : σ
  /-- who holds what at that moment -/
  locks : Locks

/-- The changes that a call makes until it answers or has to wait. -/
def Call.changes (owner : Owner) (now : Moment) : Call σ α → σ → Locks → List (Change σ)
  | done _, _, _ => []
  | look k, s, ls => (k now s).changes owner now s ls
  | save s' k, s, ls => ⟨s, s', ls⟩ :: k.changes owner now s' ls
  | acquire key mode patience k, s, ls =>
    let r := ls.request owner key mode
    if r.1 then (k true).changes owner now s r.2
    else if reached patience now.elapsed then (k false).changes owner now s (r.2.withdraw owner key)
    else []
  | release key k, s, ls => k.changes owner now s (ls.release owner key)
  | probe key mode k, s, ls => (k ((ls.get key).ready mode)).changes owner now s ls
  | pause due sign k, s, ls =>
    if reached due now.elapsed then k.changes owner now s ls
    else
      match sign s with
      | some s' => ⟨s, s', ls⟩ :: k.changes owner now s' ls
      | none => []

/-- What no single change changes, the whole stretch does not change either. -/
theorem Call.eq_of_changes {f : σ → β} {c : Call σ α} {owner : Owner} {now : Moment} {s : σ}
    {ls : Locks} (h : ∀ x ∈ c.changes owner now s ls, f x.after = f x.before) :
    f (c.run owner now s ls).2.1 = f s := by
  induction c generalizing s ls with
  | done a => rfl
  | look k ih => exact ih now s h
  | save s' k ih =>
    obtain ⟨first, rest⟩ := List.forall_mem_cons.1 h
    exact (ih rest).trans first
  | acquire key mode patience k ih =>
    simp only [changes] at h
    simp only [run]
    split at h
    · next served => rw [if_pos served]; exact ih true h
    · next queued =>
      rw [if_neg queued]
      split at h
      · next late => rw [if_pos late]; exact ih false h
      · next early => rw [if_neg early]
  | release key k ih => exact ih h
  | probe key mode k ih => exact ih _ h
  | pause due sign k ih =>
    simp only [changes] at h
    simp only [run]
    split at h
    · next come => rw [if_pos come]; exact ih h
    · next early =>
      rw [if_neg early]
      cases hs : sign s with
      | some s' =>
        rw [hs] at h
        obtain ⟨first, rest⟩ := List.forall_mem_cons.1 h
        exact (ih rest).trans first
      | none => rfl

variable {C : Conduct σ} {wait : Moment → σ → σ → Prop}

/-- **Every change is permitted** by what the party holds exclusively at that moment. -/
theorem Call.Meets.changes {ret : List Key → Moment → σ → σ → α → Prop} {c : Call σ α}
    {owner : Owner} {held : List Key} {m : Moment} {s₀ s : σ} {ls : Locks}
    (h : c.Meets C wait ret held m s₀ s) (grants : ls.Grants owner held) :
    ∀ x ∈ c.changes owner m s ls, ∃ held, x.locks.Grants owner held ∧
      C.Permits held x.before x.after := by
  induction c generalizing held s ls with
  | done a => exact fun _ hx => absurd hx List.not_mem_nil
  | look k ih => exact ih m s h grants
  | save s' k ih =>
    exact List.forall_mem_cons.2 ⟨⟨held, grants, h.1⟩, ih h.2 grants⟩
  | acquire key mode patience k ih =>
    obtain ⟨got, late⟩ := h.2 m s₀ s .atOnce
    simp only [Call.changes]
    split
    · next served => exact ih true got (grants.request_served served)
    · split
      · next hr =>
        exact ih false (late (isSome_of_reached hr))
          ((grants.request owner key mode).withdraw owner key)
      · exact fun _ hx => absurd hx List.not_mem_nil
  | release key k ih => exact ih h (grants.release key)
  | probe key mode k ih => exact ih _ (h _) grants
  | pause due sign k ih =>
    obtain ⟨on, taken⟩ := h.2 m s₀ s .atOnce
    simp only [Call.changes]
    split
    · exact ih on grants
    · split
      · next s' hs =>
        obtain ⟨permitted, onward⟩ := taken s' hs
        exact List.forall_mem_cons.2 ⟨⟨held, grants, permitted⟩, ih onward grants⟩
      · exact fun _ hx => absurd hx List.not_mem_nil

namespace Traffic

variable {ret : Moment → σ → σ → α → Prop} {t u : Traffic σ α} {owner : Owner}
  {go : Call σ α × σ × Locks}

/-- The changes of the stretch in which a party goes on; to take a sign is one as well. -/
def changes (t : Traffic σ α) (owner : Owner) (go : Call σ α × σ × Locks) : List (Change σ) :=
  ⟨t.shared, go.2.1, go.2.2⟩ :: go.1.changes owner t.clock go.2.1 go.2.2

/-- What is different after a stretch was changed at some moment of it. -/
theorem Stretch.changed {f : σ → β} (h : t.Stretch owner go u) (ne : f u.shared ≠ f t.shared) :
    ∃ x ∈ t.changes owner go, f x.after ≠ f x.before := by
  refine Classical.byContradiction fun none => ?_
  simp only [not_exists, not_and, ne_eq, Classical.not_not] at none
  obtain ⟨first, rest⟩ := List.forall_mem_cons.1 none
  exact ne (h.shared ▸ (Call.eq_of_changes rest).trans first)

/-- In the stretch of a party that keeps to the rules every change is permitted. -/
theorem Kept.changes (kept : t.Kept C wait ret) (h : t.Stretch owner go u) :
    ∀ x ∈ t.changes owner go, ∃ held, x.locks.Grants owner held ∧
      C.Permits held x.before x.after := by
  obtain @⟨earlier, later, f, split, rfl, isOver⟩ := h
  have mem : f ∈ t.flights := (perm_of_split split).mem_iff.2 List.mem_cons_self
  obtain ⟨⟨held, grants, meets⟩, -⟩ := kept.flights f mem
  obtain ⟨held', grants', onward⟩ := (meets.isOver kept.inv kept.proper grants isOver).meets
  refine List.forall_mem_cons.2 ⟨?_, onward.changes grants'⟩
  have meets := meets t.clock t.shared (.refl _) (C.rely_refl held _) kept.inv
  generalize f.wait = w at isOver meets
  cases isOver with
  | turn c => exact ⟨held, grants, .refl C kept.inv⟩
  | granted patience k has => exact ⟨held, grants, .refl C kept.inv⟩
  | gaveUp k not passed => exact ⟨held, grants.withdraw _ _, .refl C kept.inv⟩
  | come sign k passed => exact ⟨held, grants, .refl C kept.inv⟩
  | signed k found => exact ⟨held, grants, (meets.2 _ found).1⟩

end Traffic

/-! ## The discipline -/

namespace Ledger

/-- What a party has locked the others leave alone. -/
def locking : Conduct Ledger where
  inv _ := True
  rely held l l' := ∀ id, Key.resource id ∈ held → l'.resources.get? id = l.resources.get? id
  rely_refl _ _ _ _ := rfl
  rely_trans h h' id hid := (h' id hid).trans (h id hid)

variable {l l' : Ledger} {held held' : List Key} {key : Key} {α β : Type}

/-- So whoever changes a resource has locked it. -/
theorem permits_locking :
    locking.Permits held l l' ↔
      ∀ id, l'.resources.get? id ≠ l.resources.get? id → Key.resource id ∈ held := by
  constructor
  · intro permitted id changed
    refine Decidable.byContradiction fun unlocked => ?_
    refine changed (permitted.2 [.resource id] ?_ id List.mem_cons_self)
    intro key hk hk'
    rw [List.mem_singleton] at hk'
    exact unlocked (hk' ▸ hk)
  · intro locked
    refine ⟨trivial, fun held' apart id hid => ?_⟩
    exact Classical.byContradiction fun changed => apart _ (locked id changed) hid

/-- Who does not touch the resources needs no lock. -/
theorem permits_locking_of_eq (h : l'.resources = l.resources) : locking.Permits held l l' :=
  permits_locking.2 fun id changed => absurd (by rw [h]) changed

/-- A change of a single resource. -/
theorem permits_locking_of_one {id : Id} (locked : Key.resource id ∈ held)
    (others : ∀ id', id' ≠ id → l'.resources.get? id' = l.resources.get? id') :
    locking.Permits held l l' := by
  refine permits_locking.2 fun id' changed => ?_
  by_cases same : id' = id
  · exact same ▸ locked
  · exact absurd (others id' same) changed

/-- A call that changes resources under their locks only, if it holds `held` at first. -/
def Careful (held : List Key) (c : Call Ledger α) : Prop :=
  ∀ m l₀ l, c.Meets locking (fun _ _ _ => True) (fun _ _ _ _ _ => True) held m l₀ l

/-- Who holds more may count on more. -/
theorem resumes_locking_mono {m m' : Moment} {l₀ l l₀' l' : Ledger} (more : held ⊆ held')
    (h : locking.Resumes held' m l₀ l m' l₀' l') : locking.Resumes held m l₀ l m' l₀' l' := by
  cases h with
  | atOnce => exact .atOnce
  | later time others inv => exact .later time (fun id hid => others id (more hid)) inv

/-- Who holds more is not less careful. -/
theorem Careful.mono {c : Call Ledger α} (h : Careful held c) (more : held ⊆ held') :
    Careful held' c := by
  intro m l₀ l
  replace h := h m l₀ l
  have permitted : ∀ {held held' l l'}, held ⊆ held' → locking.Permits held l l' →
      locking.Permits held' l l' := fun more h =>
    permits_locking.2 fun id changed => more (permits_locking.1 h id changed)
  induction c generalizing held held' m l₀ l with
  | done a => trivial
  | look k ih => exact ih m l more _ _ _ h
  | save l' k ih => exact ⟨permitted more h.1, ih more _ _ _ h.2⟩
  | acquire key mode patience k ih =>
    refine ⟨trivial, fun m' l₀' l' hr => ?_⟩
    obtain ⟨got, late⟩ := h.2 m' l₀' l' (resumes_locking_mono more hr)
    have gained : Locks.gained mode key held ⊆ Locks.gained mode key held' := by
      cases mode with
      | shared => exact more
      | exclusive => exact List.cons_subset_cons key more
    exact ⟨ih true gained _ _ _ got, fun hp => ih false more _ _ _ (late hp)⟩
  | release key k ih =>
    refine ih (fun k hk => ?_) _ _ _ h
    obtain ⟨hk, other⟩ := List.mem_filter.1 hk
    exact List.mem_filter.2 ⟨more hk, other⟩
  | probe key mode k ih => exact fun b => ih b more _ _ _ (h b)
  | pause due sign k ih =>
    refine ⟨trivial, fun m' l₀' l' hr => ?_⟩
    obtain ⟨on, taken⟩ := h.2 m' l₀' l' (resumes_locking_mono more hr)
    refine ⟨ih more _ _ _ on, fun l'' hs => ?_⟩
    exact ⟨permitted more (taken l'' hs).1, ih more _ _ _ (taken l'' hs).2⟩

/-! ### Parts of calls -/

/-- A call that starts from scratch may come after any other. -/
theorem Careful.bind {c : Call Ledger α} {f : α → Call Ledger β} (h : Careful held c)
    (hf : ∀ a, Careful [] (f a)) : Careful held (c.bind f) := fun m l₀ l =>
  Call.meets_bind.2 ((h m l₀ l).mono (fun _ _ _ w => w) fun _ m l₀ l a _ =>
    (hf a).mono (List.nil_subset _) m l₀ l)

theorem careful_done (a : α) : Careful held (.done a) := fun _ _ _ => trivial

theorem careful_gets {f : Ledger → β} {k : β → Call Ledger α} (h : ∀ b, Careful held (k b)) :
    Careful held ((Call.gets f).bind k) := fun m l₀ l => h (f l) m l₀ l

theorem careful_lockDue {s : CoordinatorSettings} {k : Nat → Call Ledger α}
    (h : ∀ due, Careful held (k due)) : Careful held ((lockDue s).bind k) :=
  fun m l₀ l => h _ m l₀ l

/-- What does not concern resources may always change. -/
theorem careful_modify {f : Ledger → Ledger} {c : Call Ledger α}
    (keeps : ∀ l, (f l).resources = l.resources) (h : Careful held c) :
    Careful held ((Call.modify f).bind fun _ => c) := fun m l₀ l =>
  ⟨permits_locking_of_eq (keeps l), h m l₀ (f l)⟩

/-- A decision that changes nothing but what is locked. -/
theorem careful_update {f : Int → Ledger → α × Ledger}
    (permitted : ∀ now l, locking.Permits held l (f now l).2) : Careful held (Call.update f) :=
  fun m _ l => ⟨permitted m.stamp l, trivial⟩

/-- Under a lock a call may be careful of what that protects. -/
theorem careful_holdingUntil {due : Nat} {late body : Call Ledger α} (hlate : Careful held late)
    (hbody : Careful (key :: held) body) : Careful held (Call.holdingUntil key due late body) :=
  fun _ _ _ => Call.meets_holdingUntil trivial (fun m l₀ l _ => hbody m l₀ l)
    fun m l₀ l _ => hlate m l₀ l

/-- The same with a lock for which it waits as long as it takes. -/
theorem careful_holding {body : Call Ledger α} (h : Careful (key :: held) body) :
    Careful held (Call.holding key .exclusive body) :=
  fun _ _ _ => Call.meets_holding trivial fun m l₀ l _ => h m l₀ l

/-- A call that changes nothing is careful. -/
theorem careful_idle {c : Call Ledger α} (h : c.Idle) : Careful held c := by
  intro m l₀ l
  induction c generalizing held m l₀ l with
  | done a => trivial
  | look k ih => exact ih m l (h m l) _ _ _
  | save l' k ih => exact h.elim
  | acquire key mode patience k ih =>
    exact ⟨trivial, fun m' l₀' l' _ => ⟨ih true (h true) _ _ _, fun _ => ih false (h false) _ _ _⟩⟩
  | release key k ih => exact ih h _ _ _
  | probe key mode k ih => exact fun b => ih b (h b) _ _ _
  | pause due sign k ih =>
    refine ⟨trivial, fun m' l₀' l' _ => ⟨ih h.2 _ _ _, fun l'' hs => ?_⟩⟩
    obtain rfl := h.1 _ _ hs
    exact ⟨.refl locking trivial, ih h.2 _ _ _⟩

theorem careful_underLock {id : Id} {due : Nat} {late body : Call Ledger α}
    (hlate : Careful held late) (hbody : Careful (.resource id :: held) body) :
    Careful held (underLock id due late body) :=
  careful_holdingUntil (careful_modify (fun _ => rfl) hlate) (careful_modify (fun _ => rfl) hbody)

/-- Under the locks of several resources each of them may be changed. -/
theorem careful_underLocks {due : Nat} {late : Id → Call Ledger (Except CallError α)}
    {check : Id → Resource → Option CallError} {body : Call Ledger (Except CallError α)}
    {ids : List Id} (hlate : ∀ id held, Careful held (late id))
    (hbody : ∀ held', held ⊆ held' → (∀ id ∈ ids, Key.resource id ∈ held') → Careful held' body) :
    Careful held (underLocks due late check body ids) := by
  induction ids generalizing held with
  | nil => exact hbody held (List.Subset.refl held) fun _ h => absurd h List.not_mem_nil
  | cons id ids ih =>
    refine careful_gets fun known => ?_
    cases known with
    | false => exact careful_done _
    | true =>
      refine careful_underLock (hlate id held) (careful_gets fun fault => ?_)
      cases fault with
      | some e => exact careful_done _
      | none =>
        refine ih fun held' more locked => hbody held' ?_ ?_
        · exact List.Subset.trans (List.subset_cons_self _ _) more
        · exact List.forall_mem_cons.2 ⟨more List.mem_cons_self, locked⟩

/-! ### Decisions -/

/-- Settling a resource takes its lock and no other, -/
theorem permits_locking_settle (l : Ledger) (now : Int) {id : Id}
    (locked : Key.resource id ∈ held) : locking.Permits held l (l.settle now id).2 :=
  permits_locking_of_one locked fun id' other => by rw [get?_settle, if_neg other]

/-- as does changing it in any way: -/
theorem permits_locking_turn (l : Ledger) {id : Id} (locked : Key.resource id ∈ held)
    (holdStep : Bool) (f : Resource → Resource) : locking.Permits held l (l.turn id holdStep f) :=
  permits_locking_of_one locked fun id' other => by rw [get?_turn, if_neg other]

/-- placing a hold on it, -/
theorem permits_locking_place (l : Ledger) (now : Int) {id : Id} (holder : String) (millis : Nat)
    (price : Float → Float) (locked : Key.resource id ∈ held) :
    locking.Permits held l (l.place now id holder millis price).2 := by
  refine permits_locking_of_one locked fun id' other => ?_
  rcases l.place_cases now id holder millis price with ⟨-, e⟩ | ⟨r, -, -, -, e⟩ | ⟨r, -, -, e⟩ <;>
    rw [e]
  · rfl
  · refine (get?_turn _ id id' true _).trans ?_
    rw [if_neg other, get?_settle, if_neg other]

/-- confirming that, -/
theorem permits_locking_confirm (l : Ledger) (policy : HolderPolicy) (now : Int) {id : Id}
    (holder : String) (locked : Key.resource id ∈ held) :
    locking.Permits held l (l.confirm policy now id holder).2 := by
  rcases l.confirm_cases policy now id holder with ⟨err, -, e⟩ | ⟨r, c, -, -, -, -, -, e⟩ <;> rw [e]
  · exact permits_locking_settle l now locked
  · exact permits_locking_turn l locked true confirmed

/-- or cancelling it. -/
theorem permits_locking_cancel (l : Ledger) (policy : HolderPolicy) (now : Int) {id : Id}
    (holder : String) (locked : Key.resource id ∈ held) :
    locking.Permits held l (l.cancel policy now id holder).2 := by
  rcases l.cancel_cases policy now id holder with ⟨err, -, e⟩ | ⟨r, -, -, -, -, -, e⟩ <;> rw [e]
  · exact permits_locking_settle l now locked
  · exact permits_locking_turn l locked true Resource.freed

/-- Booking a list takes the locks of all that is on the list, -/
theorem permits_locking_book (l : Ledger) (now : Int) (group : Id) (holder : String) {ids : List Id}
    (price : Float → Float) (locked : ∀ id ∈ ids, Key.resource id ∈ held) :
    locking.Permits held l (l.book now group holder ids price).2 := by
  refine permits_locking.2 fun id changed => ?_
  refine Decidable.byContradiction fun unlocked => ?_
  have unlisted : id ∉ ids := fun hid => unlocked (locked id hid)
  have kept := l.get?_settleAll now (mt mem_ascending.1 unlisted)
  refine changed ?_
  rcases l.book_cases now group holder ids price with
    ⟨id', status, l', hs, e⟩ | ⟨l', l'', hs, e, enters⟩ <;> rw [e] <;> rw [hs] at kept
  · exact kept
  · exact (enters.found id).trans ((if_neg unlisted).trans kept)

/-- and so does giving the booking up. -/
theorem permits_locking_cancelBooking (l : Ledger) (b : Booking)
    (locked : ∀ id ∈ b.resources, Key.resource id ∈ held) :
    locking.Permits held l (l.cancelBooking b) := by
  refine permits_locking.2 fun id changed => ?_
  refine Decidable.byContradiction fun unlocked => changed ?_
  rw [get?_cancelBooking, if_neg fun hid => unlocked (locked id hid)]

/-! ### Calls -/

/-- **Deciding on a hold** is done under the lock of its resource. -/
theorem careful_decide (s : CoordinatorSettings) (id : Id)
    {f : Int → Ledger → Except CallError α × Ledger}
    (permitted : ∀ now l, locking.Permits (.resource id :: held) l (f now l).2) :
    Careful held (decide s id f) := by
  refine careful_gets fun known => ?_
  cases known with
  | false => exact careful_done _
  | true =>
    exact careful_lockDue fun due =>
      careful_underLock (careful_done _) (careful_update permitted)

/-- So is placing one, after a look at the resource that changes nothing. -/
theorem careful_placeHold (s : CoordinatorSettings) (id : Id) (holder : String) (millis : Nat)
    (price : Float → Float) : Careful held (placeHold s id holder millis price) := by
  refine careful_gets fun known => ?_
  cases known with
  | false => exact careful_done _
  | true =>
    have locked : ∀ held, Careful held ((lockDue s).bind fun due => underLock id due
        ((Call.modify fun l => l.count (.reservations "timeout")).bind fun _ =>
          .done (.ok (.denied (.contended id))))
        (Call.update fun now l => l.place now id holder millis price)) := fun held =>
      careful_lockDue fun due =>
        careful_underLock (careful_modify (fun _ => rfl) (careful_done _))
          (careful_update fun now l => permits_locking_place l now holder millis price
            List.mem_cons_self)
    have denied : ∀ held status, Careful held
        ((Call.modify fun l => l.count (.reservations "denied")).bind fun _ =>
          (.done (.ok (.denied (.notAvailable id status))) :
            Call Ledger (Except CallError (Reservation Hold)))) := fun held status =>
      careful_modify (fun _ => rfl) (careful_done _)
    refine Careful.bind (c := peekStatus id) (careful_idle ?_) fun status => ?_
    · intro b
      cases b with
      | false => trivial
      | true => exact fun _ _ => trivial
    · match status with
      | some .reserved => exact denied [] .reserved
      | some .booked => exact denied [] .booked
      | some .available => exact locked []
      | none => exact locked []

theorem careful_reserve (s : CoordinatorSettings) (id : Id) (holder : String) (duration : Nat)
    (price : Float → Float) : Careful held (reserve s id holder duration price) := by
  obtain ⟨e, refused, -⟩ | ⟨placed, -⟩ := reserve_cases s id holder duration price
  · rw [refused]
    exact careful_done _
  · rw [placed]
    exact careful_placeHold s id holder _ price

/-- **Booking a group** is done under all its locks. -/
theorem careful_bookGroup (s : CoordinatorSettings) (group : Id) (holder : String) (ids : List Id)
    (price : Float → Float) : Careful held (bookGroup s group holder ids price) := by
  have late : ∀ id held, Careful held
      ((Call.modify fun l => l.count (.groupBookings "timeout")).bind fun _ =>
        (.done (.ok (.denied (.contended id))) :
          Call Ledger (Except CallError (Reservation Booking)))) := fun id held =>
    careful_modify (fun _ => rfl) (careful_done _)
  obtain ⟨e, -, refused⟩ | ⟨-, listed⟩ := bookGroup_cases s group holder ids price
  · rw [refused]
    exact careful_done _
  · rw [listed]
    refine careful_gets fun known => ?_
    cases known with
    | false => exact careful_done _
    | true =>
      refine careful_lockDue fun due => careful_holdingUntil (late group held) ?_
      refine careful_underLocks late fun held' _ locked => careful_update fun now l => ?_
      exact permits_locking_book l now group holder price fun id hid =>
        locked id (mem_ascending.2 hid)

theorem idle_findAmong (name : String) (ids : List Id) : (findAmong name ids).Idle := by
  induction ids with
  | nil => trivial
  | cons id ids ih =>
    refine (idle_readOne id Resource.name).bind fun found => ?_
    match found with
    | none => exact ih
    | some none => exact ih
    | some (some n) =>
      dsimp only
      split
      · trivial
      · exact ih

theorem idle_findAll (group : Id) (names : List String) : (findAll group names).Idle := by
  induction names with
  | nil => trivial
  | cons name names ih =>
    refine Call.Idle.bind (c := find group name) (fun _ _ => idle_findAmong name _) fun found => ?_
    cases found with
    | none => trivial
    | some id =>
      refine ih.bind fun rest => ?_
      cases rest <;> trivial

theorem careful_bookByName (s : CoordinatorSettings) (group : Id) (holder : String)
    (names : List String) (price : Float → Float) :
    Careful held (bookByName s group holder names price) := by
  refine Careful.bind (careful_idle (idle_findAll group names)) fun found => ?_
  cases found with
  | none => exact careful_done _
  | some ids => exact careful_bookGroup s group holder ids price

/-- **Giving a booking up** is done under the locks of what it lists. -/
theorem careful_cancelGroup (s : CoordinatorSettings) (booking : Id) (holder : String) :
    Careful held (cancelGroup s booking holder) := by
  refine careful_gets fun stands => ?_
  cases stands with
  | error e => exact careful_done _
  | ok b =>
    refine careful_gets fun known => ?_
    cases known with
    | false => exact careful_done _
    | true =>
      refine careful_lockDue fun due => careful_holdingUntil (careful_done _) ?_
      refine careful_gets fun stands => ?_
      cases stands with
      | error e => exact careful_done _
      | ok c =>
        dsimp only
        split
        · exact careful_done _
        · refine careful_underLocks (fun _ _ => careful_done _) fun held' _ locked =>
            careful_update fun _ l => ?_
          exact permits_locking_cancelBooking l b fun id hid => locked id (mem_ascending.2 hid)

/-- **A sweep** settles each resource under its lock. -/
theorem careful_settleEach (now : Int) (ids : List Id) : Careful held (settleEach now ids) := by
  induction ids generalizing held with
  | nil => exact careful_done _
  | cons id ids ih =>
    refine Careful.bind (careful_holding (careful_update fun _ l =>
      permits_locking_settle l now List.mem_cons_self)) fun settled => ?_
    exact ih.bind fun rest => careful_done _

theorem careful_sweep : Careful held sweep := fun m l₀ l =>
  (Careful.bind (careful_idle (idle_list _)) fun _ => careful_settleEach m.stamp _) m l₀ l

/-- **The reaper** does as well, -/
theorem careful_expireHold (s : CoordinatorSettings) (id : Id) (generation : UInt64) :
    Careful held (expireHold s id generation) := by
  refine careful_gets fun known => ?_
  cases known with
  | false => exact careful_done _
  | true =>
    refine careful_lockDue fun due => careful_underLock ?_ ?_
    · exact careful_update fun _ _ => permits_locking_of_eq rfl
    · refine careful_update fun now l => ?_
      rcases l.expire_cases now id generation with e | e <;> simp only [e]
      · exact permits_locking_of_eq rfl
      · exact permits_locking_settle l now List.mem_cons_self

/-- one after the other. -/
theorem careful_expireEach (s : CoordinatorSettings) (es : List Expiry) :
    Careful held (expireEach s es) := by
  induction es generalizing held with
  | nil => exact careful_done _
  | cons e es ih =>
    exact Careful.bind (careful_expireHold s e.id e.generation) fun _ =>
      careful_modify (fun _ => rfl) ih

theorem careful_reap (s : CoordinatorSettings) : Careful held (reap s) := by
  refine careful_gets fun inUse => ?_
  cases inUse with
  | false => exact careful_done _
  | true =>
    refine Careful.bind (careful_update fun _ _ => permits_locking_of_eq rfl) fun due => ?_
    exact (careful_expireEach s due).bind fun _ => careful_done _

theorem careful_reaperRound (s : CoordinatorSettings) : Careful held (reaperRound s) := by
  intro m l₀ l
  change Call.Meets locking _ _ (if sleepFor m.stamp s.reaperIdle l.expiries ≠ 0 then
      (Call.wait _ wakeSign).bind fun _ => reap s else reap s) held m l₀ l
  split
  · refine ⟨trivial, fun m' l₀' l' _ => ⟨careful_reap s m' l₀' l', fun l'' sign => ?_⟩⟩
    refine ⟨permits_locking_of_eq ?_, careful_reap s m' l₀' l''⟩
    simp only [wakeSign] at sign
    split at sign
    · obtain rfl := Option.some.inj sign
      rfl
    · cases sign
  · exact careful_reap s m l₀ l

end Ledger

open Ledger

/-- **Every request** is careful, -/
theorem Request.careful (s : CoordinatorSettings) (r : Request) {held : List Key} :
    Careful held (r.call s) := by
  cases r with
  | reserve id holder duration price =>
    exact (careful_reserve s id holder duration price).bind fun _ => careful_done _
  | reserveDefault id holder price =>
    exact (careful_reserve s id holder _ price).bind fun _ => careful_done _
  | confirm id holder =>
    exact Careful.bind (careful_decide s id fun now l =>
      permits_locking_confirm l s.policy now holder List.mem_cons_self) fun _ => careful_done _
  | cancel id holder =>
    exact Careful.bind (careful_decide s id fun now l =>
      permits_locking_cancel l s.policy now holder List.mem_cons_self) fun _ => careful_done _
  | book group holder ids price =>
    exact (careful_bookGroup s group holder ids price).bind fun _ => careful_done _
  | bookByName group holder names price =>
    exact (careful_bookByName s group holder names price).bind fun _ => careful_done _
  | cancelGroup booking holder =>
    exact (careful_cancelGroup s booking holder).bind fun _ => careful_done _

variable {s : CoordinatorSettings}

/-- Errands and chores change resources under their locks only. -/
theorem careful_of_party {c : Call Ledger Reply} (h : Errand s c ∨ Chore s c) : Careful [] c := by
  rcases h with errand | chore
  · cases errand with
    | request r => exact (r.careful s).bind fun _ => careful_done _
    | look c idle => exact (careful_idle idle).bind fun _ => careful_done _
  · cases chore with
    | sweep => exact careful_sweep.bind fun _ => careful_done _
    | expiry id generation =>
      exact (careful_expireHold s id generation).bind fun _ => careful_done _
    | reaper => exact (careful_reaperRound s).bind fun _ => careful_done _

/-- and so is every party. -/
theorem Party.keepsToLocking {call : Call Ledger Reply} {again : Reply → Option (Call Ledger Reply)}
    (h : Party s call again) :
    KeepsTo locking (fun _ _ _ => True) (fun _ _ _ _ => True) call again :=
  ⟨fun m l _ => careful_of_party h.1 m l l, fun a c hc m l _ => careful_of_party (h.2 a c hc) m l l⟩

namespace Traffic

variable {origin : Int} {l₀ : Ledger} {t u : Traffic Ledger Reply} {owner : Owner}
  {go : Call Ledger Reply × Ledger × Locks}

/-- **Resources change under their locks.** Whoever goes on in a reachable state changes a
resource only at moments at which it holds the lock of that resource exclusively. -/
theorem locked_of_changed (h : Moves (Party s) (Traffic.start origin l₀) t)
    (stretch : t.Stretch owner go u) :
    ∀ x ∈ t.changes owner go, ∀ id, x.after.resources.get? id ≠ x.before.resources.get? id →
      (x.locks.get (.resource id)).heldBy owner .exclusive = true := by
  have ⟨kept, _⟩ := h.kept (P := fun _ => True) Party.keepsToLocking (fun _ _ _ => trivial)
    (kept_start trivial) trivial
  intro x hx id changed
  obtain ⟨held, grants, permitted⟩ := kept.changes stretch x hx
  exact decide_eq_true (grants _ (permits_locking.1 permitted id changed))

end Traffic

end Tenure
