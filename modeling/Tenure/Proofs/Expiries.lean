import Tenure.Proofs.Ownership
import Tenure.Proofs.Reaping

/-!
# No deadline is lost

A hold that nobody confirms or cancels ends because its deadline is in the queue, or in the
hand of the reaper. Nothing else frees the resource, unless somebody happens to sweep, so a
deadline that was lost would leave it held for good.

None is lost. Every hold has a deadline of its generation pending that does not come too early
(`Ledger.Attended`). Elementary steps keep that up, because only placing a hold brings a new one
about and that enters its deadline. So do the steps of the reaper, because it puts a deadline
out of its hand only if it is put off or the hold is over (`Ledger.Seen`).

Generations are counted in words of 64 bits. Only after 2^64 holds on one resource could two of
them be taken for one another.
-/

namespace Tenure

/-- It is held until a deadline. -/
def Resource.HeldUntil (r : Resource) (deadline : Int) : Prop :=
  r.status = .reserved ∧ r.claim.bind Claim.deadline = some deadline

theorem Resource.heldUntil_of_claim {r : Resource} {c : Claim} {deadline : Int}
    (reserved : r.status = .reserved) (hc : r.claim = some c) (hd : c.deadline = some deadline) :
    r.HeldUntil deadline := ⟨reserved, by rw [hc, Option.bind_some, hd]⟩

/-- A hold has lapsed exactly if its deadline has come. -/
theorem Resource.HeldUntil.lapsed_iff {r : Resource} {deadline now : Int}
    (h : r.HeldUntil deadline) : r.lapsed now = true ↔ deadline ≤ now := by
  simp [lapsed, h.1, h.2]

/-- The event tells of a hold that was placed on a resource. -/
def Event.places (id : Id) : Event → Bool
  | holdPlaced id' .. => id' = id
  | _ => false

/-- The deadline `e'` is `e`, or `e` put off. -/
structure Expiry.PutOff (e e' : Expiry) : Prop where
  /-- it is about the same resource -/
  id : e'.id = e.id
  /-- and the same hold -/
  generation : e'.generation = e.generation
  /-- it does not come earlier -/
  later : e.fireAt ≤ e'.fireAt

/-- The clock shows a time that can be represented. -/
theorem Moment.stamp_le_latest (m : Moment) : m.stamp ≤ Stamp.latest := by
  simp only [stamp, Stamp.latest]
  split
  · omega
  · have positive : 0 < UInt64.size := by unfold UInt64.size; omega
    have word : (m.origin + m.elapsed).bmod UInt64.size < _ := Int.bmod_lt positive
    unfold UInt64.size at word ⊢
    omega

/-- A wait of less than 2^63 milliseconds does not lead back in time. -/
theorem Moment.stamp_le_later (m : Moment) {millis : Nat} (short : millis < 0x8000000000000000) :
    m.stamp ≤ Stamp.later m.stamp (wordOfMillis millis) := by
  have word : wordOfMillis millis = millis :=
    Int.bmod_eq_of_le (by unfold UInt64.size; omega) (by unfold UInt64.size; omega)
  refine Stamp.le_later ?_ m.stamp_le_latest
  rw [word]
  omega

namespace Ledger

variable {l l' l'' : Ledger} {m : Moment} {now now' : Int} {id : Id} {generation : UInt64}
  {s : CoordinatorSettings}

/-! ## Pending deadlines -/

/-- The deadlines that are still to be seen to, in the queue or in the hand of the reaper. -/
def pending (l : Ledger) : List Expiry := l.expiries.entries ++ l.inHand

/-- Those among them that are about one hold. -/
def watches (l : Ledger) (id : Id) (generation : UInt64) : List Expiry :=
  l.pending.filter fun e => e.id = id && e.generation = generation

/-- How many holds were placed on a resource so far. -/
def grants (l : Ledger) (id : Id) : Nat := l.hub.history.countP fun x => x.2.places id

theorem mem_watches {e : Expiry} :
    e ∈ l.watches id generation ↔ e ∈ l.pending ∧ e.id = id ∧ e.generation = generation := by
  simp [watches]

theorem grants_send (l : Ledger) (key : Id) (e : Event) (id : Id) :
    (l.send key e).grants id = l.grants id + if e.places id then 1 else 0 :=
  List.countP_cons

theorem pending_schedule (l : Ledger) (e : Expiry) : (l.schedule e).pending.Perm (e :: l.pending) :=
  (insertBy_perm e l.expiries.entries).append_right l.inHand

theorem pending_takeDue (h : l.inHand = []) : (l.takeDue now).2.pending.Perm l.pending := by
  have parts : (l.takeDue now).2.pending =
      (l.expiries.afterDue now).entries ++ l.expiries.due now := rfl
  rw [parts, pending, h, List.append_nil, ← l.expiries.due_append_afterDue now]
  exact List.perm_append_comm

/-- With one more in hand there is one more pending. -/
theorem pending_of_hand {e : Expiry} {es : List Expiry} (hand : l.inHand = e :: es) :
    l.pending.Perm (e :: (l.expiries.entries ++ es)) := by
  rw [pending, hand]
  exact List.perm_middle

/-! ## What becomes of holds -/

/-- No hold was placed, and whatever is held after it was held before. -/
structure Fades (l l' : Ledger) : Prop where
  /-- no hold was placed -/
  grants : ∀ id, l'.grants id = l.grants id
  /-- holds end, if they change at all -/
  known : ∀ id r', l'.resources.get? id = some r' → ∃ r, l.resources.get? id = some r ∧
    r'.generation = r.generation ∧ ∀ deadline, r'.HeldUntil deadline → r.HeldUntil deadline

/-- Where the resources stay and nobody is told anything nothing ends either. -/
theorem Fades.of_eq (resources : l'.resources = l.resources) (hub : l'.hub = l.hub) : Fades l l' :=
  ⟨fun id => by rw [Ledger.grants, hub]; rfl,
    fun id r' hr => ⟨r', resources ▸ hr, rfl, fun _ h => h⟩⟩

theorem Fades.trans (h : Fades l l') (h' : Fades l' l'') : Fades l l'' := by
  refine ⟨fun id => (h'.grants id).trans (h.grants id), fun id r'' hr'' => ?_⟩
  obtain ⟨r', hr', same', before'⟩ := h'.known id r'' hr''
  obtain ⟨r, hr, same, before⟩ := h.known id r' hr'
  exact ⟨r, hr, same'.trans same, fun deadline held => before deadline (before' deadline held)⟩

/-- Holds are counted by the events that tell of them. -/
theorem grants_of_told {key : Id} {e : Event} (hub : l'.hub = l.hub.send key e) (id : Id) :
    l'.grants id = l.grants id + if e.places id then 1 else 0 := by
  rw [Ledger.grants, hub]
  exact l.grants_send key e id

/-- Whoever is told of something else is not told of a hold. -/
theorem grants_of_silent {key : Id} {e : Event} (hub : l'.hub = l.hub.send key e)
    (silent : ∀ id, e.places id = false) (id : Id) : l'.grants id = l.grants id := by
  rw [grants_of_told hub, silent]
  rfl

/-- Some resources are left as they are, others are not held afterwards. -/
theorem Fades.of_found {f : Resource → Resource} (grants : ∀ id, l'.grants id = l.grants id)
    (found : ∀ id, l'.resources.get? id = l.resources.get? id ∨
      l'.resources.get? id = (l.resources.get? id).map f)
    (same : ∀ r, (f r).generation = r.generation)
    (ended : ∀ r deadline, (f r).HeldUntil deadline → r.HeldUntil deadline) : Fades l l' := by
  refine ⟨grants, fun id r' hr => ?_⟩
  rcases found id with e | e <;> rw [e] at hr
  · exact ⟨r', hr, rfl, fun _ h => h⟩
  · obtain ⟨r, found, rfl⟩ := Option.map_eq_some_iff.1 hr
    exact ⟨r, found, same r, ended r⟩

theorem found_turn (l : Ledger) (id : Id) (holdStep : Bool) (f : Resource → Resource) (id' : Id) :
    (l.turn id holdStep f).resources.get? id' = l.resources.get? id' ∨
      (l.turn id holdStep f).resources.get? id' = (l.resources.get? id').map f := by
  rw [get?_turn]
  split
  · next same => exact .inr (by rw [same])
  · exact .inl rfl

/-- A resource that is given up is not held. -/
theorem not_heldUntil_freed (r : Resource) (deadline : Int) : ¬r.freed.HeldUntil deadline :=
  fun h => nomatch h.1

/-- Neither is one that is booked. -/
theorem not_heldUntil_of_booked {r : Resource} (booked : r.status = .booked) (deadline : Int) :
    ¬r.HeldUntil deadline := fun h => nomatch booked.symm.trans h.1

/-- To give up a resource. -/
theorem fades_freed (l : Ledger) (id : Id) (holdStep : Bool) {key : Id} {e : Event}
    (silent : ∀ id, e.places id = false) :
    Fades l ((l.turn id holdStep Resource.freed).send key e) :=
  .of_found (grants_of_silent rfl silent) (l.found_turn id holdStep Resource.freed) (fun _ => rfl)
    fun r deadline held => absurd held (not_heldUntil_freed r deadline)

/-- A hold was placed on a resource, and its deadline was entered. -/
structure Places (l : Ledger) (id : Id) (r : Resource) (hold : Hold) (l' : Ledger) : Prop where
  /-- the resource is known -/
  here : l.resources.get? id = some r
  /-- it has the next generation -/
  generation : hold.generation = r.generation + 1
  /-- the hold is on it, and the other resources are the same -/
  found : ∀ id', l'.resources.get? id' =
    if id' = id then some (held r hold) else l.resources.get? id'
  /-- it is counted -/
  grants : ∀ id', l'.grants id' = l.grants id' + if id' = id then 1 else 0
  /-- its deadline is pending as well -/
  pending : l'.pending.Perm (⟨hold.deadline, id, hold.generation⟩ :: l.pending)
  /-- the reaper has the same in its hand -/
  inHand : l'.inHand = l.inHand

theorem places_hold (l : Ledger) (now : Int) {r : Resource} (holder : String) (millis : Nat)
    (price : Float → Float) (hr : l.resources.get? id = some r) :
    let h := holdOn r now id holder millis price
    Places l id r h
      (((l.turn id true fun r' => held r' h).schedule ⟨h.deadline, id, h.generation⟩).send id
        (.holdPlaced id holder h.price h.deadline h.generation)) where
  here := hr
  generation := rfl
  found id' := by
    refine (get?_turn l id id' true _).trans ?_
    rw [hr, Option.map_some]
  grants id' := by
    refine (grants_of_told rfl id').trans ?_
    by_cases same : id' = id
    · simp [same, Event.places, Ledger.grants, schedule, turn, change]
    · simp [same, Ne.symm same, Event.places, Ledger.grants, schedule, turn, change]
  pending := Ledger.pending_schedule _ _
  inHand := rfl

/-- **All steps but placing a hold** let holds end at most, and leave the deadlines alone. -/
theorem Step.fades_or_places (h : Step m l l') :
    (Fades l l' ∧ l'.expiries = l.expiries ∧ l'.inHand = l.inHand) ∨
    ∃ id r hold, Places l id r hold l' := by
  cases h with
  | count quiet =>
    obtain ⟨x, rfl⟩ := quiet
    exact .inl ⟨.of_eq rfl rfl, rfl, rfl⟩
  | lapse => exact .inl ⟨l.fades_freed _ true fun _ => rfl, rfl, rfl⟩
  | hold holder millis price here free =>
    exact .inr ⟨_, _, _, l.places_hold m.stamp holder millis price here⟩
  | @confirm id =>
    refine .inl ⟨?_, rfl, rfl⟩
    exact .of_found (grants_of_silent rfl fun _ => rfl) (l.found_turn id true confirmed)
      (fun _ => rfl) fun r deadline held => absurd held (not_heldUntil_of_booked rfl deadline)
  | cancel => exact .inl ⟨l.fades_freed _ true fun _ => rfl, rfl, rfl⟩
  | @book _ b price books =>
    refine .inl ⟨?_, books.expiries, books.inHand⟩
    refine .of_found (f := fun r => bookedBy r b.holder b.id price)
      (grants_of_silent books.hub fun _ => rfl) (fun id => ?_) (fun _ => rfl)
      fun r deadline held => absurd held (not_heldUntil_of_booked rfl deadline)
    rw [books.found]
    split
    · exact .inr rfl
    · exact .inl rfl
  | @giveUp _ b =>
    have kept {β : Type} {f : Ledger → β} (one : ∀ l id, f (l.turn id true Resource.freed) = f l) :
        f (b.resources.foldl (fun l id => l.giveUp b.id id) l) = f l :=
      giveUpAll_keeps one b.id b.resources l
    refine .inl ⟨?_, kept (f := Ledger.expiries) fun _ _ => rfl,
      kept (f := Ledger.inHand) fun _ _ => rfl⟩
    refine .of_found (f := fun r => r.givenUp b.id)
      (grants_of_silent (l.hub_cancelBooking b) fun _ => rfl) (fun id => ?_) (fun r => ?_) ?_
    · rw [get?_cancelBooking]
      split
      · exact .inr rfl
      · exact .inl rfl
    · simp only [Resource.givenUp]
      split <;> rfl
    · intro r deadline held
      simp only [Resource.givenUp] at held
      split at held
      · exact absurd held (not_heldUntil_freed r deadline)
      · exact held

/-! ## What becomes of deadlines -/

/-- What becomes of the pending deadlines at the wall time `now`. -/
inductive Seen (now : Int) (l l' : Ledger) : Prop where
  /-- they stay -/
  | kept (perm : l'.pending.Perm l.pending)
  /-- one of them is put off -/
  | putOff (e e' : Expiry) (rest : List Expiry) (before : l.pending.Perm (e :: rest))
    (after : l'.pending.Perm (e' :: rest)) (off : e.PutOff e')
  /-- one of them has come, and the hold that it is about is over -/
  | done (e : Expiry) (before : l.pending.Perm (e :: l'.pending)) (come : e.fireAt ≤ now)
    (ended : ∀ r deadline, l'.resources.get? e.id = some r → r.generation = e.generation →
      r.HeldUntil deadline → now < deadline)

/-- A hold that could have been settled just now has not lapsed. -/
theorem Agreement.lt_of_expire (agreement : Agreement l) {r : Resource} {deadline : Int}
    (hr : (l.expire now id generation).2.resources.get? id = some r)
    (same : r.generation = generation) (held : r.HeldUntil deadline) : now < deadline := by
  refine Int.not_le.1 fun come => ?_
  have gone : r.lapsed now = true := held.lapsed_iff.2 come
  cases hr₀ : l.resources.get? id with
  | none =>
    simp only [expire, hr₀] at hr
    cases hr
  | some r₀ =>
    by_cases live :
        (r₀.status = .reserved && r₀.claim.any fun c => c.generation = generation) = true
    · -- it was settled, so it is not held any more
      simp only [expire, hr₀] at hr
      rw [if_pos live, get?_settle_self, hr₀, Option.map_some] at hr
      obtain rfl := Option.some.inj hr
      cases lapsed : r₀.lapsed now with
      | true =>
        rw [Resource.settled_of_lapsed lapsed] at held
        exact not_heldUntil_freed r₀ deadline held
      | false =>
        rw [Resource.settled_of_not_lapsed lapsed, lapsed] at gone
        cases gone
    · -- it was left alone, so it is another hold
      simp only [expire, hr₀] at hr
      rw [if_neg live, hr₀] at hr
      obtain rfl := Option.some.inj hr
      obtain ⟨c, -, hc, -, -, current⟩ := (agreement.resources id r₀ hr₀).reserved held.1
      refine live ?_
      rw [hc, held.1, Option.any_some, current, same]
      simp

/-- Whatever is pending afterwards was pending before, if perhaps at an earlier time. -/
theorem Seen.source (h : Seen now l l') {e' : Expiry} (he : e' ∈ l'.pending) :
    ∃ e ∈ l.pending, e.PutOff e' := by
  have stays : ∀ e : Expiry, e.PutOff e := fun e => ⟨rfl, rfl, Int.le_refl _⟩
  cases h with
  | kept perm => exact ⟨e', perm.mem_iff.1 he, stays e'⟩
  | putOff e e₁ rest before after off =>
    rcases List.mem_cons.1 (after.mem_iff.1 he) with rfl | he
    · exact ⟨e, before.mem_iff.2 List.mem_cons_self, off⟩
    · exact ⟨e', before.mem_iff.2 (List.mem_cons_of_mem _ he), stays e'⟩
  | done e before => exact ⟨e', before.mem_iff.2 (List.mem_cons_of_mem _ he), stays e'⟩

/-- **A hold keeps its deadline.** While it lasts, one that does not come too early stays
pending. -/
theorem Seen.watched (h : Seen now l l') {r : Resource} {deadline : Int} {e : Expiry}
    (hr : l'.resources.get? id = some r) (held : r.HeldUntil deadline)
    (he : e ∈ l.watches id r.generation) (late : deadline ≤ e.fireAt) :
    ∃ e' ∈ l'.watches id r.generation, deadline ≤ e'.fireAt := by
  obtain ⟨mem, about, same⟩ := mem_watches.1 he
  cases h with
  | kept perm => exact ⟨e, mem_watches.2 ⟨perm.mem_iff.2 mem, about, same⟩, late⟩
  | putOff e₀ e' rest before after off =>
    rcases List.mem_cons.1 (before.mem_iff.1 mem) with rfl | mem
    · exact ⟨e', mem_watches.2 ⟨after.mem_iff.2 List.mem_cons_self, off.id.trans about,
        off.generation.trans same⟩, Int.le_trans late off.later⟩
    · exact ⟨e, mem_watches.2 ⟨after.mem_iff.2 (List.mem_cons_of_mem _ mem), about, same⟩, late⟩
  | done e₀ before come ended =>
    rcases List.mem_cons.1 (before.mem_iff.1 mem) with rfl | mem
    · -- the one that is done with came too early, or the hold is over
      have := ended r deadline (about ▸ hr) same.symm held
      omega
    · exact ⟨e, mem_watches.2 ⟨mem, about, same⟩, late⟩

/-! ## The invariant -/

/-- Every hold is attended to. `base` says where the counting of holds started. -/
structure Attended (base : Id → UInt64) (now : Int) (l : Ledger) : Prop where
  /-- every hold has a deadline pending that does not come too early -/
  watched : ∀ id r deadline, l.resources.get? id = some r → r.HeldUntil deadline →
    ∃ e ∈ l.watches id r.generation, deadline ≤ e.fireAt
  /-- what the reaper has in hand has come -/
  come : ∀ e ∈ l.inHand, e.fireAt ≤ now
  /-- holds are numbered one by one -/
  numbered : ∀ id r, l.resources.get? id = some r →
    r.generation = base id + .ofNat (l.grants id)
  /-- whatever is pending was entered for one of these holds, and if that is the latest does not
  come too early for it -/
  entered : ∀ e ∈ l.pending, ∃ n ≤ l.grants e.id, e.generation = base e.id + .ofNat n ∧
    (n = l.grants e.id → ∀ r deadline, l.resources.get? e.id = some r → r.HeldUntil deadline →
      deadline ≤ e.fireAt)

variable {base : Id → UInt64}

theorem Attended.later (h : Attended base now l) (le : now ≤ now') : Attended base now' l :=
  { h with come := fun e he => Int.le_trans (h.come e he) le }

/-- **None of the deadlines of a hold comes too early**, as long as its generation is its own. -/
theorem Attended.le_fireAt (h : Attended base now l) {r : Resource} {deadline : Int}
    (hr : l.resources.get? id = some r) (held : r.HeldUntil deadline)
    (few : l.grants id < UInt64.size) {e : Expiry} (he : e ∈ l.pending) (about : e.id = id)
    (same : e.generation = r.generation) : deadline ≤ e.fireAt := by
  subst about
  obtain ⟨n, le, number, latest⟩ := h.entered e he
  refine latest ?_ r deadline hr held
  rw [h.numbered e.id r hr, number, UInt64.add_right_inj] at same
  have words := congrArg UInt64.toNat same
  rwa [UInt64.toNat_ofNat_of_lt' (Nat.lt_of_le_of_lt le few),
    UInt64.toNat_ofNat_of_lt' few] at words

/-- Where holds end at most, every one that is left is still attended to. -/
theorem Attended.fades (h : Attended base now l) (fades : Fades l l') (seen : Seen now l l')
    (come : ∀ e ∈ l'.inHand, e.fireAt ≤ now) : Attended base now l' := by
  refine { watched := ?_, come, numbered := ?_, entered := ?_ }
  · intro id r' deadline hr' held
    obtain ⟨r, hr, same, before⟩ := fades.known id r' hr'
    obtain ⟨e, he, late⟩ := h.watched id r deadline hr (before deadline held)
    exact seen.watched hr' held (same ▸ he) late
  · intro id r' hr'
    obtain ⟨r, hr, same, -⟩ := fades.known id r' hr'
    rw [same, fades.grants]
    exact h.numbered id r hr
  · intro e' he'
    obtain ⟨e, he, off⟩ := seen.source he'
    obtain ⟨n, le, number, latest⟩ := h.entered e he
    rw [off.id, fades.grants]
    refine ⟨n, le, off.generation.trans number, fun last r' deadline hr' held => ?_⟩
    obtain ⟨r, hr, -, before⟩ := fades.known e.id r' hr'
    exact Int.le_trans (latest last r deadline hr (before deadline held)) off.later

/-- **A hold that is placed** comes with its deadline. -/
theorem Attended.places (h : Attended base now l) {r : Resource} {hold : Hold}
    (placed : Places l id r hold l') : Attended base now l' := by
  have deadline_eq : ∀ deadline, (held r hold).HeldUntil deadline → deadline = hold.deadline :=
    fun deadline held => (Option.some.inj held.2).symm
  -- it is the next hold on the resource
  have number : hold.generation = base id + .ofNat (l.grants id + 1) := by
    rw [placed.generation, h.numbered id r placed.here, UInt64.ofNat_add, ← UInt64.add_assoc]
    rfl
  refine { watched := ?_, come := placed.inHand ▸ h.come, numbered := ?_, entered := ?_ }
  · intro id' r' deadline hr' held
    rw [placed.found] at hr'
    split at hr'
    · next same =>
      obtain rfl := Option.some.inj hr'
      refine ⟨_, mem_watches.2 ⟨placed.pending.mem_iff.2 List.mem_cons_self, same.symm, rfl⟩, ?_⟩
      exact Int.le_of_eq (deadline_eq deadline held)
    · obtain ⟨e, he, late⟩ := h.watched id' r' deadline hr' held
      obtain ⟨mem, about⟩ := mem_watches.1 he
      have mem' := placed.pending.mem_iff.2 (List.mem_cons_of_mem _ mem)
      exact ⟨e, mem_watches.2 ⟨mem', about⟩, late⟩
  · intro id' r' hr'
    rw [placed.found] at hr'
    rw [placed.grants]
    split at hr'
    · next same =>
      obtain rfl := Option.some.inj hr'
      rw [same, if_pos rfl]
      exact number
    · next other => rw [if_neg other]; exact h.numbered id' r' hr'
  · intro e he
    rw [placed.grants]
    rcases List.mem_cons.1 (placed.pending.mem_iff.1 he) with rfl | he
    · refine ⟨l.grants id + 1, Nat.le_of_eq (by rw [if_pos rfl]), number, ?_⟩
      intro _ r' deadline hr' held
      rw [placed.found, if_pos rfl] at hr'
      obtain rfl := Option.some.inj hr'
      exact Int.le_of_eq (deadline_eq deadline held)
    · obtain ⟨n, le, number, latest⟩ := h.entered e he
      refine ⟨n, Nat.le_add_right_of_le le, number, fun last r' deadline hr' held => ?_⟩
      rw [placed.found] at hr'
      split at hr'
      · -- it was entered for an earlier hold
        next same =>
        rw [if_pos same] at last
        omega
      · next other =>
        rw [if_neg other] at last
        exact latest last r' deadline hr' held

/-! ## Steps keep it up -/

theorem Attended.step (h : Attended base m.stamp l) (step : Step m l l') :
    Attended base m.stamp l' := by
  rcases step.fades_or_places with ⟨fades, queue, hand⟩ | ⟨id, r, hold, placed⟩
  · have same : l'.pending = l.pending := by rw [pending, queue, hand]; rfl
    exact h.fades fades (.kept (.of_eq same)) (hand ▸ h.come)
  · exact h.places placed

theorem Attended.steps (h : Attended base m.stamp l) (steps : Steps m l l') :
    Attended base m.stamp l' := steps.keeps (fun step h => h.step step) h

/-! ## So does the reaper -/

theorem Fades.congr (h : Fades l l') (resources : l''.resources = l'.resources)
    (hub : l''.hub = l'.hub) : Fades l l'' := by
  refine ⟨fun id => ?_, fun id r' hr => h.known id r' (resources ▸ hr)⟩
  rw [Ledger.grants, hub]
  exact h.grants id

/-- An attempt to settle the hold of one generation. -/
theorem fades_expire (l : Ledger) (now : Int) (id : Id) (generation : UInt64) :
    Fades l (l.expire now id generation).2 ∧
      (l.expire now id generation).2.expiries = l.expiries := by
  rcases l.expire_cases now id generation with e | e <;> rw [e]
  · exact ⟨.of_eq rfl rfl, rfl⟩
  · rcases l.settle_cases now id with ⟨r, c, -, -, -, e⟩ | ⟨-, e⟩ <;> rw [e]
    · exact ⟨(l.fades_freed id true fun _ => rfl).congr rfl rfl, rfl⟩
    · exact ⟨.of_eq rfl rfl, rfl⟩

theorem Reap.fades (h : Reap s m l l') : Fades l l' := by
  cases h with
  | count quiet =>
    obtain ⟨x, rfl⟩ := quiet
    exact .of_eq rfl rfl
  | notice => exact .of_eq rfl rfl
  | take => exact .of_eq rfl rfl
  | unknown => exact .of_eq rfl rfl
  | expire => exact (l.fades_expire m.stamp _ _).1.congr rfl rfl
  | retry => exact .of_eq rfl rfl

theorem Reap.agreement (h : Reap s m l l') (agreement : Agreement l) : Agreement l' := by
  cases h with
  | count quiet => exact agreement.quiet quiet
  | notice => exact agreement.congr rfl rfl rfl
  | take => exact agreement.congr rfl rfl rfl
  | unknown => exact agreement.congr rfl rfl rfl
  | @expire e es =>
    rcases l.expire_cases m.stamp e.id e.generation with same | settled
    · rw [same]
      exact agreement.congr rfl rfl rfl
    · rw [settled]
      exact (agreement.settle m.stamp e.id).congr rfl rfl rfl
  | retry => exact agreement.congr rfl rfl rfl

theorem Reap.come (h : Reap s m l l') (come : ∀ e ∈ l.inHand, e.fireAt ≤ m.stamp) :
    ∀ e ∈ l'.inHand, e.fireAt ≤ m.stamp := by
  have others : ∀ {e es}, l.inHand = e :: es → ∀ e ∈ es, e.fireAt ≤ m.stamp :=
    fun hand e he => come e (hand ▸ List.mem_cons_of_mem _ he)
  cases h with
  | count quiet =>
    obtain ⟨x, rfl⟩ := quiet
    exact come
  | notice => exact come
  | take => exact fun e he => (ExpiryQueue.mem_due_iff.1 he).2
  | unknown hand => exact others hand
  | expire hand => exact others hand
  | retry hand => exact others hand

/-- To be done with a deadline that there was an attempt on. -/
theorem pending_expire (l : Ledger) (now : Int) {e : Expiry} {es : List Expiry}
    (hand : l.inHand = e :: es) : l.pending.Perm
      (e :: { (l.expire now e.id e.generation).2 with inHand := es }.pending) := by
  change l.pending.Perm (e :: ((l.expire now e.id e.generation).2.expiries.entries ++ es))
  rw [(l.fades_expire now e.id e.generation).2]
  exact pending_of_hand hand

/-- **What the reaper does to the deadlines**: it leaves them, puts one off, or is done with one
because the hold is over. -/
theorem Reap.seen (h : Reap s m l l') (short : s.lockWait < 0x8000000000000000)
    (agreement : Agreement l) (come : ∀ e ∈ l.inHand, e.fireAt ≤ m.stamp) : Seen m.stamp l l' := by
  have first : ∀ {e es}, l.inHand = e :: es → e.fireAt ≤ m.stamp :=
    fun hand => come _ (hand ▸ List.mem_cons_self)
  cases h with
  | count quiet =>
    obtain ⟨x, rfl⟩ := quiet
    exact .kept (.refl _)
  | notice => exact .kept (.refl _)
  | take free => exact .kept (pending_takeDue free)
  | @unknown e es hand unknown =>
    refine .done e (pending_of_hand hand) (first hand) fun r deadline hr => ?_
    rw [unknown] at hr
    cases hr
  | @expire e es hand =>
    exact .done e (l.pending_expire m.stamp hand) (first hand) fun r deadline hr same held =>
      agreement.lt_of_expire hr same held
  | @retry e es hand =>
    refine .putOff e _ (l.expiries.entries ++ es) (pending_of_hand hand)
      ((insertBy_perm _ l.expiries.entries).append_right es) ⟨rfl, rfl, ?_⟩
    exact Int.le_trans (first hand) (m.stamp_le_later short)

theorem Attended.reap (h : Attended base m.stamp l) (short : s.lockWait < 0x8000000000000000)
    (agreement : Agreement l) (reap : Reap s m l l') : Attended base m.stamp l' :=
  h.fades reap.fades (reap.seen short agreement h.come) (reap.come h.come)

theorem Attended.reaps (h : Attended base m.stamp l) (short : s.lockWait < 0x8000000000000000)
    (agreement : Agreement l) (reaps : Reaps s m l l') :
    Attended base m.stamp l' ∧ Agreement l' :=
  reaps.keeps (P := fun l => Attended base m.stamp l ∧ Agreement l)
    (fun reap ⟨h, agreement⟩ => ⟨h.reap short agreement reap, reap.agreement agreement⟩)
    ⟨h, agreement⟩

/-! ## No deadline is dropped while its hold lasts -/

/-- There is no hold of one generation on a resource. -/
def Over (id : Id) (generation : UInt64) (l : Ledger) : Prop :=
  ∀ r deadline, l.resources.get? id = some r → r.generation = generation → ¬r.HeldUntil deadline

/-- A hold that is over stays so. -/
theorem Over.fades (h : Over id generation l) (fades : Fades l l') : Over id generation l' := by
  intro r' deadline hr' same held
  obtain ⟨r, hr, kept, before⟩ := fades.known id r' hr'
  exact h r deadline hr (kept.symm.trans same) (before deadline held)

/-- Elementary steps take no deadline away. -/
theorem Steps.length_watches_le (h : Steps m l l') (id : Id) (generation : UInt64) :
    (l.watches id generation).length ≤ (l'.watches id generation).length := by
  induction h with
  | none => exact Nat.le_refl _
  | @snoc l₁ l₂ _ step ih =>
    refine Nat.le_trans ih ?_
    rcases step.fades_or_places with ⟨-, queue, hand⟩ | ⟨id', r, hold, placed⟩
    · refine Nat.le_of_eq ?_
      rw [watches, watches, pending, pending, queue, hand]
    · refine Nat.le_trans ?_ (Nat.le_of_eq (placed.pending.filter _).length_eq.symm)
      exact ((List.sublist_cons_self _ _).filter _).length_le

/-- **One step of the reaper** takes a deadline away only if the hold is over. -/
theorem Attended.over_of_reap (h : Attended base m.stamp l)
    (short : s.lockWait < 0x8000000000000000) (agreement : Agreement l) (reap : Reap s m l l')
    (fewer : (l'.watches id generation).length < (l.watches id generation).length)
    (few : l.grants id < UInt64.size) : Over id generation l' := by
  cases reap.seen short agreement h.come with
  | kept perm => exact absurd (perm.filter _).length_eq (Nat.ne_of_lt fewer)
  | putOff e e' rest before after off =>
    have same : (l'.watches id generation).length = (l.watches id generation).length := by
      rw [watches, watches, (after.filter _).length_eq, (before.filter _).length_eq,
        List.filter_cons, List.filter_cons, off.id, off.generation]
      split <;> rfl
    exact absurd same (Nat.ne_of_lt fewer)
  | done e before come ended =>
    rw [watches, watches, (before.filter _).length_eq, List.filter_cons] at fewer
    split at fewer
    · next mine =>
      obtain ⟨rfl, rfl⟩ : e.id = id ∧ e.generation = generation := by simpa using mine
      intro r deadline hr same held
      obtain ⟨r₀, hr₀, kept, was⟩ := reap.fades.known e.id r hr
      have early := ended r deadline hr same held
      have late := h.le_fireAt hr₀ (was deadline held) few
        (before.mem_iff.2 List.mem_cons_self) rfl (same.symm.trans kept)
      omega
    · exact absurd fewer (Nat.lt_irrefl _)

/-- **A stretch of the reaper** takes deadlines away only of holds that are over. -/
theorem Attended.over_of_reaps (h : Attended base m.stamp l)
    (short : s.lockWait < 0x8000000000000000) (agreement : Agreement l) (reaps : Reaps s m l l')
    (fewer : (l'.watches id generation).length < (l.watches id generation).length)
    (few : l'.grants id < UInt64.size) : Over id generation l' := by
  induction reaps with
  | none => exact absurd fewer (Nat.lt_irrefl _)
  | @snoc l₁ l₂ before reap ih =>
    obtain ⟨h₁, agreement₁⟩ := h.reaps short agreement before
    rw [reap.fades.grants] at few
    rcases Nat.lt_or_ge (l₁.watches id generation).length (l.watches id generation).length with
      less | same
    · exact (ih less few).fades reap.fades
    · exact h₁.over_of_reap short agreement₁ reap (Nat.lt_of_lt_of_le fewer same) few

end Ledger

open Ledger

/-! ## Every reachable state -/

/-- A ledger that is about to be put to use. -/
structure Ledger.Pristine (l : Ledger) : Prop extends Untouched l where
  /-- no deadline is pending -/
  idle : l.pending = []
  /-- no hold was ever placed -/
  silent : ∀ id, l.grants id = 0

/-- The generation from which the holds on a resource are counted. -/
def Ledger.counted (l : Ledger) (id : Id) : UInt64 :=
  ((l.resources.get? id).map Resource.generation).getD 0

theorem Ledger.Pristine.attended {l : Ledger} (h : l.Pristine) (now : Int) :
    Attended l.counted now l := by
  have hand : l.inHand = [] := (List.append_eq_nil_iff.1 h.idle).2
  refine { watched := ?_, come := ?_, numbered := ?_, entered := ?_ }
  · intro id r deadline hr held
    exact nomatch (h.resources id r hr).1.symm.trans held.1
  · intro e he
    rw [hand] at he
    cases he
  · intro id r hr
    rw [h.silent, Ledger.counted, hr]
    exact (UInt64.add_zero _).symm
  · intro e he
    rw [h.idle] at he
    cases he

namespace Traffic

variable {s : CoordinatorSettings} {origin : Int} {l₀ : Ledger} {t u : Traffic Ledger Reply}

/-- A ledger with its reaper, and nobody else yet. -/
def attended (s : CoordinatorSettings) (origin : Int) (l₀ : Ledger) : Traffic Ledger Reply :=
  (Traffic.start origin l₀).enterAgain (Reaper.round s) (Reaper.again s)

/-- The reaper does its rounds, everybody else goes by elementary steps, and every hold is
attended to as long as the clock does not go backwards. -/
structure Guarded (s : CoordinatorSettings) (base : Id → UInt64) (t : Traffic Ledger Reply) :
    Prop where
  /-- the reaper is at its place -/
  reaping : t.Reaping s 0
  /-- nobody else does anything but elementary steps -/
  stepping : t.Stepping 0
  /-- nobody who enters is taken for the reaper -/
  known : 0 < t.nextOwner
  /-- every hold is attended to -/
  attended : t.clock.Steady → Attended base t.clock.stamp t.shared

variable {base : Id → UInt64} {wait : Moment → Ledger → Ledger → Prop}
  {ret : Moment → Ledger → Ledger → Reply → Prop}

/-- **Moves** keep every hold attended to, and take no deadline away while its hold lasts. -/
theorem Guarded.move (h : t.Guarded s base) (short : s.lockWait < 0x8000000000000000)
    (kept : t.Kept conduct wait ret) (agreement : t.shared.Agreement)
    (move : Move (Helper s) t u) :
    u.Guarded s base ∧ (u.clock.Steady → ∀ id generation,
      (u.shared.watches id generation).length < (t.shared.watches id generation).length →
      u.shared.grants id < UInt64.size → Over id generation u.shared) := by
  obtain ⟨reaping, stepping, did⟩ := h.reaping.move kept h.stepping h.known move
  have before : u.clock.Steady → Attended base u.clock.stamp t.shared := fun steady =>
    (h.attended (steady.before move.before)).later (steady _ _ move.before (.refl _))
  refine ⟨⟨reaping, stepping, Nat.lt_of_lt_of_le h.known move.nextOwner_le, fun steady => ?_⟩, ?_⟩
  · rcases did with steps | reaps
    · exact (before steady).steps steps
    · exact ((before steady).reaps short agreement reaps).1
  · intro steady id generation fewer few
    rcases did with steps | reaps
    · exact absurd fewer (Nat.not_lt.2 (steps.length_watches_le id generation))
    · exact (before steady).over_of_reaps short agreement reaps fewer few

theorem reaper_party (s : CoordinatorSettings) : Party s (Reaper.round s) (Reaper.again s) := by
  refine ⟨.inr .reaper, fun a c hc => ?_⟩
  cases a with
  | round go =>
    cases go with
    | true =>
      obtain rfl := Option.some.inj hc
      exact .inr .reaper
    | false => cases hc
  | _ => cases hc

/-- What happens beside a reaper is a history of parties. -/
theorem Moves.beside_reaper (h : Moves (Helper s) (attended s origin l₀) t) :
    Moves (Party s) (Traffic.start origin l₀) t :=
  (Move.enter (reaper_party s)).moves.trans (h.mono Helper.party)

theorem guarded_attended (start : l₀.Pristine) : (attended s origin l₀).Guarded s l₀.counted := by
  have hand : l₀.inHand = [] := (List.append_eq_nil_iff.1 start.idle).2
  refine ⟨fun f hf _ => ?_, fun f hf ne => ?_, Nat.zero_lt_one, fun _ => start.attended _⟩
  · obtain rfl := List.mem_singleton.1 hf
    exact ⟨hand.symm ▸ .turn, rfl⟩
  · obtain rfl := List.mem_singleton.1 hf
    exact absurd rfl ne

/-- **Histories** keep every hold attended to. -/
theorem Moves.guarded (h : Moves (Helper s) (attended s origin l₀) t)
    (short : s.lockWait < 0x8000000000000000) (start : l₀.Pristine) : t.Guarded s l₀.counted := by
  induction h with
  | none => exact guarded_attended start
  | snoc before move ih =>
    have ⟨kept, agreement⟩ := before.beside_reaper.agreement start.toUntouched
    exact (ih.move short kept agreement move).1

/-- **No deadline is lost.** In every state that is reached beside a reaper, while the clock does
not go backwards, each hold has a deadline of its generation pending that does not come before
its own, and so do all of them. In no move does one go away unless there is no hold of that
generation any more.

Of single generations this is said as long as less than 2^64 holds were placed on the resource. -/
theorem no_deadline_lost (short : s.lockWait < 0x8000000000000000) (start : l₀.Pristine)
    (h : Moves (Helper s) (attended s origin l₀) t) (steady : t.clock.Steady) :
    (∀ id r, t.shared.resources.get? id = some r → r.status = .reserved →
      ∃ c deadline, r.claim = some c ∧ c.deadline = some deadline ∧ c.generation = r.generation ∧
        (∃ e ∈ t.shared.watches id r.generation, deadline ≤ e.fireAt) ∧
        (t.shared.grants id < UInt64.size →
          ∀ e ∈ t.shared.watches id r.generation, deadline ≤ e.fireAt)) ∧
    ∀ u, Move (Helper s) t u → u.clock.Steady → ∀ id generation,
      (u.shared.watches id generation).length < (t.shared.watches id generation).length →
      u.shared.grants id < UInt64.size →
        ∀ r, u.shared.resources.get? id = some r → r.generation = generation →
          r.status ≠ .reserved := by
  have guarded := h.guarded short start
  have ⟨kept, agreement⟩ := h.beside_reaper.agreement start.toUntouched
  have attended := guarded.attended steady
  refine ⟨fun id r hr reserved => ?_,
    fun u move steady id generation fewer few r hr same reserved => ?_⟩
  · obtain ⟨c, deadline, hc, hd, -, current⟩ := (agreement.resources id r hr).reserved reserved
    have held : r.HeldUntil deadline := ⟨reserved, by rw [hc, Option.bind_some, hd]⟩
    refine ⟨c, deadline, hc, hd, current, attended.watched id r deadline hr held, ?_⟩
    intro few e he
    obtain ⟨mem, about, same⟩ := mem_watches.1 he
    exact attended.le_fireAt hr held few mem about same
  · have ⟨_, agreement'⟩ := (h.snoc move).beside_reaper.agreement start.toUntouched
    obtain ⟨c, deadline, hc, hd, -⟩ := (agreement'.resources id r hr).reserved reserved
    have ended := (guarded.move short kept agreement move).2 steady id generation fewer few
    exact ended r deadline hr same ⟨reserved, by rw [hc, Option.bind_some, hd]⟩

/-- Bob got a hold beside a reaper, and a second later its deadline has come. -/
def bobAttended : Traffic Ledger Reply :=
  (((attended .standard 0 Ledger.hallOfTwo).enter (Request.bobReserves.errand .standard)).settle
    8).elapseTo 1000

/-- So it is when Bob lets his hold lapse: its deadline is pending until then, and goes away in
the move in which the reaper settles the hold. -/
theorem no_deadline_lost_of_bob :
    CoordinatorSettings.standard.lockWait < 0x8000000000000000 ∧ Ledger.hallOfTwo.Pristine ∧
    Moves (Helper .standard) (attended .standard 0 Ledger.hallOfTwo) bobAttended ∧
    bobAttended.clock.Steady ∧
    (∃ r deadline, bobAttended.shared.resources.get? ⟨0, 1⟩ = some r ∧ r.status = .reserved ∧
      r.claim.bind Claim.deadline = some deadline ∧
      ∃ e ∈ bobAttended.shared.watches ⟨0, 1⟩ r.generation, deadline ≤ e.fireAt) ∧
    ∃ u, Move (Helper .standard) bobAttended u ∧ u.clock.Steady ∧
      (u.shared.watches ⟨0, 1⟩ 1).length < (bobAttended.shared.watches ⟨0, 1⟩ 1).length ∧
      u.shared.grants ⟨0, 1⟩ < UInt64.size ∧
      ∀ r, u.shared.resources.get? ⟨0, 1⟩ = some r → r.generation = 1 → r.status ≠ .reserved := by
  have short : CoordinatorSettings.standard.lockWait < 0x8000000000000000 := by decide
  have start : Ledger.hallOfTwo.Pristine := ⟨Ledger.untouched_hallOfTwo, rfl, fun _ => rfl⟩
  have moves : Moves (Helper .standard) (attended .standard 0 Ledger.hallOfTwo) bobAttended :=
    ((Moves.none.snoc (.enter (Client.once .standard .bobReserves).helper)).trans
      (run_moves ..)).snoc (.elapse (by decide +kernel))
  have steady : bobAttended.clock.Steady := Moment.steady_of_le (by decide +kernel)
  obtain ⟨watched, dropped⟩ := no_deadline_lost short start moves steady
  have held : (bobAttended.shared.resources.get? ⟨0, 1⟩).map Resource.status = some .reserved := by
    decide +kernel
  obtain ⟨r, hr, reserved⟩ := Option.map_eq_some_iff.1 held
  obtain ⟨c, deadline, hc, hd, -, watch, -⟩ := watched ⟨0, 1⟩ r hr reserved
  obtain ⟨u, hu⟩ : ∃ u, bobAttended.step = some u := Option.isSome_iff_exists.1 (by decide +kernel)
  have after : bobAttended.step.map (fun u => (u.clock, (u.shared.watches ⟨0, 1⟩ 1).length,
      u.shared.grants ⟨0, 1⟩)) = some (⟨0, 1000⟩, 0, 1) := by decide +kernel
  rw [hu] at after
  obtain ⟨clock, after⟩ := Prod.mk.inj (Option.some.inj after)
  obtain ⟨none, once⟩ := Prod.mk.inj after
  have steady' : u.clock.Steady := Moment.steady_of_le (by rw [clock]; decide)
  have move : Move (Helper .standard) bobAttended u := stepFrom_move rfl hu
  have fewer : (u.shared.watches ⟨0, 1⟩ 1).length <
      (bobAttended.shared.watches ⟨0, 1⟩ 1).length := by rw [none]; decide +kernel
  have few : u.shared.grants ⟨0, 1⟩ < UInt64.size := by rw [once]; decide
  exact ⟨short, start, moves, steady,
    ⟨r, deadline, hr, reserved, by rw [hc, Option.bind_some, hd], watch⟩,
    u, move, steady', fewer, few, dropped u move steady' ⟨0, 1⟩ 1 fewer few⟩

end Traffic

end Tenure
