import Tenure.Proofs.Deadlines.Histories
import Tenure.Proofs.LockOrder
import Tenure.Proofs.Linearity

/-!
# One deadline for all waits of a call

Calls to hold, to confirm, to cancel, to book resources that are listed and to give a booking up
hasten (`Request.hastens`): a call on one resource wants its lock, and a call on several wants
that of the group and then theirs. All of its waits have one deadline, which is `lockWait` after
the call was made.

So whatever the other parties do with the locks, such a call is answered by the deadline, it names
a lock as missed at the deadline only, the lock is the first of those it wants that it did not
obtain, and a lock that can be had is obtained even then (`Traffic.one_deadline`).
-/

namespace Tenure

/-! ## What is wanted, and what is missed -/

/-- Whether resources are listed by their names, which have to be looked up first. -/
def Request.byName : Request → Bool
  | bookByName .. => true
  | _ => false

/-- The locks that a request wants, of which that of a group comes first. -/
def Request.wants (l : Ledger) : Request → List Key
  | reserve id .. => [.resource id]
  | reserveDefault id .. => [.resource id]
  | confirm id _ => [.resource id]
  | cancel id _ => [.resource id]
  | book group _ ids _ => .group group :: ids.map .resource
  | bookByName group _ names _ =>
    .group group :: ((l.allNamed group names).getD []).map .resource
  | cancelGroup booking _ =>
    match l.bookings.get? booking with
    | none => []
    | some b => .group b.group :: b.resources.map .resource

/-- The lock that an answer names as missed. -/
def Answer.late? : Answer → Option Id
  | hold (.ok (.denied (.contended id))) => some id
  | done (.error (.lockTimeout id)) => some id
  | booking (.ok (.denied (.contended id))) => some id
  | _ => none

/-- The lock that a reply names as missed. -/
def Reply.late? : Reply → Option Id
  | answered _ a => a.late?
  | _ => none

/-- An answer that is not late names no lock. -/
theorem Answer.late?_eq_none {a : Answer} (h : a.late = false) : a.late? = none := by
  unfold late?
  split
  · cases h
  · cases h
  · cases h
  · rfl

namespace Ledger

variable {α : Type} {due : Nat} {wants : List Key} {late? : α → Option Id} {held : List Key}
  {m : Moment} {l : Ledger} {id : Id}

/-! ## Calls that hasten -/

/-- Whoever answers at once without a word of locks hastens. -/
theorem hastens_done {stage : Stage} {a : α} (h : late? a = none) (none : stage.missed = none) :
    (Call.done a : Call Ledger α).Hastens due wants (Stage.Named late?) stage m l := by
  rw [Call.Hastens, Stage.Named, h, none]
  rfl

theorem hastens_gets {β : Type} {f : Ledger → β} {k : β → Call Ledger α} {stage : Stage}
    (h : (k (f l)).Hastens due wants (Stage.Named late?) stage m l) :
    ((Call.gets f).bind k).Hastens due wants (Stage.Named late?) stage m l := h

theorem hastens_lockDue {s : CoordinatorSettings} {k : Nat → Call Ledger α} {stage : Stage}
    (h : (k (m.elapsed + s.lockWait)).Hastens due wants (Stage.Named late?) stage m l) :
    ((lockDue s).bind k).Hastens due wants (Stage.Named late?) stage m l := h

theorem hastens_peekStatus {k : Option Status → Call Ledger α} {stage : Stage}
    (h : ∀ status, (k status).Hastens due wants (Stage.Named late?) stage m l) :
    ((peekStatus id).bind k).Hastens due wants (Stage.Named late?) stage m l := by
  refine Call.hastens_bind.2 fun free => ?_
  cases free with
  | false => exact h none
  | true => exact h _

/-- Whoever decides and answers without a word of locks hastens. -/
theorem hastens_update {f : Int → Ledger → α × Ledger} (h : late? (f m.stamp l).1 = none) :
    (Call.update f).Hastens due wants (Stage.Named late?) (.taking held) m l := h

/-- What needs to be there is there, or else the call answers without a word of locks. -/
theorem hastens_known {known : Ledger → Bool} {a : α} {c : Call Ledger α} {stage : Stage}
    (h : late? a = none) (none : stage.missed = none)
    (hc : c.Hastens due wants (Stage.Named late?) stage m l) :
    ((Call.gets known).bind fun known => if !known then .done a else c).Hastens due wants
      (Stage.Named late?) stage m l := by
  refine hastens_gets ?_
  split
  · exact hastens_done h none
  · exact hc

theorem hastens_underLock {late body : Call Ledger α} (next : (Key.resource id).NextOf wants held)
    (hbody : ∀ m l, body.Hastens due wants (Stage.Named late?) (.taking (.resource id :: held)) m l)
    (hlate : ∀ m l, late.Hastens due wants (Stage.Named late?)
      (.leaving (some (.resource id))) m l) :
    (underLock id due late body).Hastens due wants (Stage.Named late?) (.taking held) m l :=
  Call.hastens_holdingUntil next (fun m _ _ => hbody m _) fun m _ _ => hlate m _

/-- **A row of locks** that are in order, and are all that is left to want. -/
theorem hastens_underLocks {late : Id → Call Ledger (Except CallError α)}
    {check : Id → Resource → Option CallError} {body : Call Ledger (Except CallError α)}
    {late? : Except CallError α → Option Id}
    (hlate : ∀ id m l, (late id).Hastens due wants (Stage.Named late?)
      (.leaving (some (.resource id))) m l)
    (hbody : ∀ held m l, body.Hastens due wants (Stage.Named late?) (.taking held) m l)
    (unknown : ∀ id, late? (.error (.notFound id)) = none)
    (fault : ∀ id r e, check id r = some e → late? (.error e) = none) {ids : List Id}
    (row : ids.Pairwise fun a b => (Key.resource a).Before (.resource b))
    (wanted : ∀ id ∈ ids, Key.resource id ∈ wants)
    (before : ∀ k ∈ held, ∀ id ∈ ids, k.Before (.resource id))
    (all : ∀ k ∈ wants, k ∈ held ∨ ∃ id ∈ ids, k = .resource id) :
    (underLocks due late check body ids).Hastens due wants (Stage.Named late?) (.taking held)
      m l := by
  induction ids generalizing held m l with
  | nil => exact hbody held m l
  | cons id ids ih =>
    obtain ⟨first, row⟩ := List.pairwise_cons.1 row
    have next : (Key.resource id).NextOf wants held := by
      refine ⟨wanted id List.mem_cons_self, fun here => ?_, fun k hk earlier => ?_⟩
      · exact Key.Before.irrefl (before _ here id List.mem_cons_self)
      · refine (all k hk).resolve_right ?_
        rintro ⟨id', hid', rfl⟩
        rcases List.mem_cons.1 hid' with rfl | hid'
        · exact Key.Before.irrefl earlier
        · exact Key.Before.irrefl (earlier.trans (first id' hid'))
    have rest : ∀ m l, (underLocks due late check body ids).Hastens due wants (Stage.Named late?)
        (.taking (.resource id :: held)) m l := by
      intro m l
      refine ih row (fun id' hid' => wanted id' (List.mem_cons_of_mem _ hid')) ?_ fun k hk => ?_
      · intro k hk id' hid'
        rcases List.mem_cons.1 hk with rfl | hk
        · exact first id' hid'
        · exact before k hk id' (List.mem_cons_of_mem _ hid')
      · rcases all k hk with here | ⟨id', hid', rfl⟩
        · exact .inl (List.mem_cons_of_mem _ here)
        · rcases List.mem_cons.1 hid' with rfl | hid'
          · exact .inl List.mem_cons_self
          · exact .inr ⟨id', hid', rfl⟩
    refine hastens_known (unknown id) rfl (hastens_underLock next (fun m l => ?_) (hlate id))
    refine hastens_gets ?_
    cases faulty : (l.resources.get? id).bind (check id) with
    | none => exact rest m l
    | some e =>
      obtain ⟨r, -, he⟩ := Option.bind_eq_some_iff.1 faulty
      exact hastens_done (fault id r e he) rfl

/-- The locks of a group and of resources are all that is wanted. -/
theorem hastens_underGroup {group : Id} {ids : List Id} (apart : ids.Nodup)
    {late : Id → Call Ledger (Except CallError α)} {check : Id → Resource → Option CallError}
    {body : Call Ledger (Except CallError α)} {late? : Except CallError α → Option Id}
    (hlate : ∀ id m l, (late id).Hastens due (.group group :: ids.map .resource)
      (Stage.Named late?) (.leaving (some (.resource id))) m l)
    (hbody : ∀ held m l, body.Hastens due (.group group :: ids.map .resource) (Stage.Named late?)
      (.taking held) m l)
    (unknown : ∀ id, late? (.error (.notFound id)) = none)
    (fault : ∀ id r e, check id r = some e → late? (.error e) = none) :
    (underLocks due late check body (ascending ids)).Hastens due
      (.group group :: ids.map .resource) (Stage.Named late?) (.taking [.group group]) m l := by
  refine hastens_underLocks hlate hbody unknown fault (pairwise_before apart) ?_ ?_ ?_
  · intro id hid
    exact List.mem_cons_of_mem _ (List.mem_map_of_mem (mem_ascending.1 hid))
  · intro k hk id _
    obtain rfl := List.mem_singleton.1 hk
    trivial
  · intro k hk
    rcases List.mem_cons.1 hk with rfl | hk
    · exact .inl List.mem_cons_self
    · obtain ⟨id, hid, rfl⟩ := List.mem_map.1 hk
      exact .inr ⟨id, mem_ascending.2 hid, rfl⟩

/-- Of several locks that of the group comes next. -/
theorem nextOf_group (group : Id) (ids : List Id) :
    (Key.group group).NextOf (.group group :: ids.map .resource) [] := by
  refine ⟨List.mem_cons_self, List.not_mem_nil, fun k _ before => ?_⟩
  cases k <;> exact before.elim

/-- A single lock comes next. -/
theorem nextOf_resource (id : Id) : (Key.resource id).NextOf [.resource id] [] := by
  refine ⟨List.mem_cons_self, List.not_mem_nil, fun k hk before => ?_⟩
  obtain rfl := List.mem_singleton.1 hk
  exact absurd before Key.Before.irrefl

theorem hastens_decide (s : CoordinatorSettings) (id : Id)
    {f : Int → Ledger → Except CallError Unit × Ledger}
    (inTime : ∀ now l, (Answer.done (f now l).1).late = false) :
    (decide s id f).Hastens (m.elapsed + s.lockWait) [.resource id]
      (Stage.Named fun a => (Answer.done a).late?) (.taking []) m l := by
  refine hastens_known rfl rfl (hastens_lockDue (hastens_underLock (nextOf_resource id) ?_ ?_))
  · exact fun m l => hastens_update (Answer.late?_eq_none (inTime m.stamp l))
  · exact fun _ _ => rfl

theorem hastens_placeHold (s : CoordinatorSettings) (id : Id) (holder : String) (millis : Nat)
    (price : Float → Float) :
    (placeHold s id holder millis price).Hastens (m.elapsed + s.lockWait) [.resource id]
      (Stage.Named fun a => (Answer.hold a).late?) (.taking []) m l := by
  have locked : ((lockDue s).bind fun due => underLock id due
      ((Call.modify fun l => l.count (.reservations "timeout")).bind fun _ =>
        .done (.ok (.denied (.contended id))))
      (Call.update fun now l => l.place now id holder millis price)).Hastens
        (m.elapsed + s.lockWait) [.resource id] (Stage.Named fun a => (Answer.hold a).late?)
        (.taking []) m l := by
    refine hastens_lockDue (hastens_underLock (nextOf_resource id) (fun m l => ?_) fun _ _ => rfl)
    exact hastens_update (Answer.late?_eq_none (l.late_place m.stamp id holder millis price))
  refine hastens_known rfl rfl (hastens_peekStatus fun status => ?_)
  match status with
  | none => exact locked
  | some .available => exact locked
  | some .reserved => rfl
  | some .booked => rfl

theorem hastens_reserve (s : CoordinatorSettings) (id : Id) (holder : String) (duration : Nat)
    (price : Float → Float) :
    (reserve s id holder duration price).Hastens (m.elapsed + s.lockWait) [.resource id]
      (Stage.Named fun a => (Answer.hold a).late?) (.taking []) m l := by
  obtain ⟨e, refused, -⟩ | ⟨placed, -⟩ := reserve_cases s id holder duration price
  · rw [refused]
    exact hastens_done rfl rfl
  · rw [placed]
    exact hastens_placeHold s id holder _ price

theorem hastens_bookGroup (s : CoordinatorSettings) (group : Id) (holder : String) (ids : List Id)
    (price : Float → Float) :
    (bookGroup s group holder ids price).Hastens (m.elapsed + s.lockWait)
      (.group group :: ids.map .resource) (Stage.Named fun a => (Answer.booking a).late?)
      (.taking []) m l := by
  obtain ⟨e, -, refused⟩ | ⟨fine, listed⟩ := bookGroup_cases s group holder ids price
  · rw [refused]
    exact hastens_done rfl rfl
  · rw [listed]
    refine hastens_known rfl rfl (hastens_lockDue (Call.hastens_holdingUntil
      (nextOf_group group ids) (fun m l _ => ?_) fun _ _ _ => rfl))
    refine hastens_underGroup (nodup_of_listFault fine) (fun _ _ _ => rfl) (fun held m l => ?_)
      (fun _ => rfl) fun _ _ _ _ => rfl
    exact hastens_update (Answer.late?_eq_none (l.late_book m.stamp group holder ids price))

theorem hastens_cancelGroup (s : CoordinatorSettings) (booking : Id) (holder : String)
    (ord : l.Orderly) :
    (cancelGroup s booking holder).Hastens (m.elapsed + s.lockWait)
      ((Request.cancelGroup booking holder).wants l) (Stage.Named fun a => (Answer.done a).late?)
      (.taking []) m l := by
  have fallen : ∀ {wants due stage m l} {l' : Ledger} {e}, l'.standing booking = .error e →
      stage.missed = none → (Call.done (.error e) : Call Ledger (Except CallError Unit)).Hastens
        due wants (Stage.Named fun a => (Answer.done a).late?) stage m l := by
    intro wants due stage m l l' e fallen none
    refine hastens_done ?_ none
    simp only [standing] at fallen
    split at fallen
    · cases fallen
      rfl
    · split at fallen
      · cases fallen
        rfl
      · cases fallen
  refine hastens_gets ?_
  cases stands : l.standing booking with
  | error e => exact fallen stands rfl
  | ok b =>
    obtain ⟨recorded, -⟩ := get?_of_standing stands
    simp only [Request.wants, recorded]
    refine hastens_known rfl rfl (hastens_lockDue (Call.hastens_holdingUntil
      (nextOf_group b.group _) (fun m l _ => ?_) fun _ _ _ => rfl))
    refine hastens_gets ?_
    cases still : l.standing booking with
    | error e => exact fallen still rfl
    | ok c =>
      dsimp only
      split
      · exact hastens_done rfl rfl
      · refine hastens_underGroup (ord.once booking b recorded) (fun _ _ _ => rfl)
          (fun _ _ _ => rfl) (fun _ => rfl) fun _ _ _ fault => ?_
        cases fault

end Ledger

/-- **Requests hasten**, unless resources have to be looked up by their names. -/
theorem Request.hastens (s : CoordinatorSettings) {r : Request} (listed : r.byName = false)
    {m : Moment} {l : Ledger} (ord : l.Orderly) :
    (r.errand s).Hastens (m.elapsed + s.lockWait) (r.wants l) (Stage.Named Reply.late?)
      (.taking []) m l := by
  refine Call.hastens_bind.2 ?_
  cases r with
  | reserve id holder duration price =>
    exact Call.hastens_bind.2 (Ledger.hastens_reserve s id holder duration price)
  | reserveDefault id holder price =>
    exact Call.hastens_bind.2 (Ledger.hastens_reserve s id holder _ price)
  | confirm id holder =>
    exact Call.hastens_bind.2 (Ledger.hastens_decide s id fun now l =>
      l.late_confirm s.policy now id holder)
  | cancel id holder =>
    exact Call.hastens_bind.2 (Ledger.hastens_decide s id fun now l =>
      l.late_cancel s.policy now id holder)
  | book group holder ids price =>
    exact Call.hastens_bind.2 (Ledger.hastens_bookGroup s group holder ids price)
  | bookByName group holder names price => cases listed
  | cancelGroup booking holder =>
    exact Call.hastens_bind.2 (Ledger.hastens_cancelGroup s booking holder ord)

/-- The locks that a request wants, as far as it has found out which those are. -/
def Request.Wanted (r : Request) (wants : List Key) (l : Ledger) : Prop :=
  wants = [] ∨ wants = r.wants l

/-- What is listed stays so. -/
theorem Request.Wanted.rely {r : Request} {wants : List Key} {l l' : Ledger} {held : List Key}
    (listed : r.byName = false) (h : r.Wanted wants l) (others : l.Rely held l') :
    r.Wanted wants l' := by
  refine h.elim .inl ?_
  rintro rfl
  cases r with
  | bookByName group holder names price => cases listed
  | cancelGroup booking holder =>
    simp only [Wanted, wants]
    cases recorded : l.bookings.get? booking with
    | none => exact .inl rfl
    | some b =>
      obtain ⟨status, same, -⟩ := others.bookings booking b recorded
      rw [same]
      exact .inr rfl
  | _ => exact .inr rfl

theorem Request.boundBy (s : CoordinatorSettings) {r : Request} (listed : r.byName = false)
    (time : Nat) :
    (r.errand s).BoundBy Ledger.conduct r.Wanted time (time + s.lockWait) Reply.late? :=
  ⟨Nat.le_add_right _ _, fun _ _ ord same => ⟨_, .inr rfl, same ▸ r.hastens s listed ord⟩,
    fun _ _ _ wanted others => wanted.rely listed others⟩

/-! ## Every history -/

namespace Traffic

variable {s : CoordinatorSettings} {origin : Int} {l₀ : Ledger} {t₀ u : Traffic Ledger Reply}
  {r : Request}

/-- **One deadline bounds all waits of a call.** A party enters in any reachable state, with a
request that lists resources by their ids if it lists any. Whatever the other parties do with the
locks after that, as long as nobody is late: while the party is in flight the deadline has not
passed, at the deadline it need not wait, and each of its stretches is timely, for the locks that
it wants. It is in flight until it has its answer, which is there by the deadline, and at the
deadline if a lock was missed. And where no party goes on to another call the answer comes. -/
theorem one_deadline (ord : l₀.Orderly) (h₀ : Moves (Party s) (Traffic.start origin l₀) t₀)
    (listed : r.byName = false)
    (h : Prompt (Party s) (fun _ => True) (t₀.enter (r.errand s)) u) :
    (∀ f ∈ u.flights, f.owner = t₀.nextOwner →
      u.clock.elapsed ≤ t₀.clock.elapsed + s.lockWait ∧
      (u.clock.elapsed = t₀.clock.elapsed + s.lockWait →
        ∃ go, f.wait.Over f.owner u.clock u.shared u.locks go) ∧
      ∀ go, f.wait.Over f.owner u.clock u.shared u.locks go →
        f.Timely Reply.late? (t₀.clock.elapsed + s.lockWait) (r.wants u.shared) u go) ∧
    ((∃ f ∈ u.flights, f.owner = t₀.nextOwner) ∨ ∃ x ∈ u.returned, x.owner = t₀.nextOwner) ∧
    (∀ x ∈ u.returned, x.owner = t₀.nextOwner →
      x.InTime Reply.late? (t₀.clock.elapsed + s.lockWait)) ∧
    (u.LastCalls → ∃ n, ∃ x ∈ (u.run (fun _ => false)
      (some (t₀.clock.elapsed + s.lockWait)) n).returned, x.owner = t₀.nextOwner) := by
  have enters := (Client.once s r).party
  have ask := Request.boundBy s listed t₀.clock.elapsed
  have sound₀ : t₀.Sound Ledger.conduct Ledger.Upkeep fun m l l' a => a.Does s m l l' :=
    h₀.invariant (fun move sound => move.sound Party.keepsTo sound) (sound_start ord)
  obtain ⟨sound, bound, inTime⟩ := h.bound Party.keepsTo sound₀ enters ask
  refine ⟨fun f hf own => ?_, bound.there, inTime, h.answered Party.keepsTo sound₀ enters ask⟩
  refine ⟨bound.soon ask.soon hf own, bound.goesOn sound hf own, fun go isOver => ?_⟩
  obtain ⟨wants, wanted, hastened⟩ := bound.hastened sound ask hf own isOver
  have timely := hastened.timely
  rcases wanted with rfl | rfl
  · -- it asks for no locks at all
    exact ⟨fun x hx => (nomatch (timely.fair x hx).wanted), timely.last, timely.names⟩
  · exact timely

/-- Somebody keeps the second seat locked for five seconds. -/
def vigil : Call Ledger Unit := keeping (.resource ⟨0, 2⟩) 5000

/-- Ann asks for both seats when somebody has the lock of the second one. -/
def annMeetsVigil : Traffic Ledger Reply :=
  ((Traffic.start 0 Ledger.hallOfTwo).enter (vigil.bind fun _ => .done .looked)).settle 1

/-- So it is when Ann asks for both seats and somebody keeps the second one locked. She obtains the
lock of the hall and that of the first seat, and waits for the other one until her deadline, a
second later. Then she is answered, and is told which lock she has missed. -/
theorem one_deadline_for_ann :
    Ledger.hallOfTwo.Orderly ∧
      Moves (Party .standard) (Traffic.start 0 Ledger.hallOfTwo) annMeetsVigil ∧
      ∃ u f go v, Prompt (Party .standard) (fun _ => True)
          (annMeetsVigil.enter (Request.annBooks.errand .standard)) u ∧
        u.clock.elapsed = 1000 ∧ f ∈ u.flights ∧ f.owner = annMeetsVigil.nextOwner ∧
        f.wait.Over f.owner u.clock u.shared u.locks go ∧
        f.Timely Reply.late? 1000 (Request.annBooks.wants u.shared) u go ∧
        Prompt (Party .standard) (fun _ => True) u v ∧
        (v.returned.map fun x => (x.owner, x.answer.late?, x.time)) = [(1, some ⟨0, 2⟩, 1000)] ∧
        ∀ x ∈ v.returned, x.owner = annMeetsVigil.nextOwner → x.InTime Reply.late? 1000 := by
  have ord : Ledger.hallOfTwo.Orderly := Ledger.orderly_of_none fun _ => rfl
  have before : Moves (Party .standard) (Traffic.start 0 Ledger.hallOfTwo) annMeetsVigil :=
    (Moves.none.snoc (.enter (client_keeping ..).party)).trans (run_moves ..)
  let t := annMeetsVigil.enter (Request.annBooks.errand .standard)
  have way : ∀ fuel,
      Prompt (Party .standard) (fun _ => True) t (t.run (fun _ => false) none fuel) :=
    fun fuel => run_prompt _ _ fuel fun _ _ => trivial
  have onward : Prompt (Party .standard) (fun _ => True) (t.run (fun _ => false) none 2)
      ((t.run (fun _ => false) none 2).run (fun _ => false) none 1) :=
    run_prompt _ _ 1 fun _ _ => trivial
  have clock : (t.run (fun _ => false) none 2).clock.elapsed = 1000 := by decide +kernel
  have unanswered : (t.run (fun _ => false) none 2).returned.length = 0 := by decide +kernel
  obtain ⟨stretches, there, -, -⟩ := one_deadline ord before rfl (way 2)
  obtain ⟨f, hf, own⟩ := there.resolve_right fun ⟨x, hx, _⟩ => by
    rw [List.eq_nil_of_length_eq_zero unanswered] at hx
    cases hx
  obtain ⟨-, goesOn, timely⟩ := stretches f hf own
  obtain ⟨go, isOver⟩ := goesOn clock
  obtain ⟨-, -, inTime, -⟩ := one_deadline ord before rfl ((way 2).trans onward)
  exact ⟨ord, before, _, f, go, _, way 2, clock, hf, own, isOver, timely go isOver, onward,
    by decide +kernel, inTime⟩

end Traffic

end Tenure
