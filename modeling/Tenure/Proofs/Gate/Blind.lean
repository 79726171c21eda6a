import Tenure.Proofs.Gate.Likeness
import Tenure.Proofs.Membership
import Tenure.Proofs.Quiet

/-!
# No operation looks at what was counted

Calls on a ledger count what they do, but no call looks at a count: on ledgers that differ in what
was counted, and in nothing else, every operation takes the same locks, waits for the same and
comes to the same answer, and leaves ledgers that differ in nothing else (`Ledger.Operation.blind`).

The operations are all that may be asked of the ledger: requests, the chores that settle lapsed
holds, what can be read, and what is done in one go, such as to register a resource.
-/

namespace Tenure

namespace Ledger

variable {α β : Type} {l l' : Ledger}

theorem Quiet.symm (h : Quiet l l') : Quiet l' l := by
  obtain ⟨x, rfl⟩ := h
  exact ⟨l.metrics, rfl⟩

/-- A call that pays no regard to what was counted. -/
def Blind (c : Call Ledger α) : Prop := c.Like Quiet c

/-! ## Parts of calls -/

theorem blind_done (a : α) : Blind (.done a) := .done a

theorem Blind.bind {c : Call Ledger α} {f : α → Call Ledger β} (h : Blind c)
    (hf : ∀ a, Blind (f a)) : Blind (c.bind f) := Call.Like.bind h hf

theorem blind_gets {f : Ledger → α} (read : ∀ (l : Ledger) x, f { l with metrics := x } = f l) :
    Blind (Call.gets f) := by
  refine Call.like_gets fun l l' quiet => ?_
  obtain ⟨x, rfl⟩ := quiet
  exact (read l x).symm

theorem blind_update {f : Int → Ledger → α × Ledger}
    (decides : ∀ now l l', Quiet l l' → Quietly (f now l) (f now l')) : Blind (Call.update f) :=
  Call.like_update decides

theorem blind_modify {f : Ledger → Ledger} (keeps : ∀ l l', Quiet l l' → Quiet (f l) (f l')) :
    Blind (Call.modify f) := Call.like_modify keeps

theorem blind_count (x : Metric) : Blind (Call.modify fun l => l.count x) := by
  refine blind_modify fun l l' quiet => ?_
  obtain ⟨y, rfl⟩ := quiet
  exact ⟨_, rfl⟩

theorem blind_lockDue (s : CoordinatorSettings) : Blind (lockDue s) :=
  Blind.bind Call.like_moment fun _ => blind_done _

/-- Calls under a lock are as blind as what they do there. -/
theorem blind_underLock {id : Id} {due : Nat} {late body : Call Ledger α} (hl : Blind late)
    (hb : Blind body) : Blind (underLock id due late body) :=
  Call.like_holdingUntil ((blind_count _).bind fun _ => hl) ((blind_count _).bind fun _ => hb)

/-! ## Reading -/

/-- A reader looks at resources, not at counts. -/
theorem blind_readOne (id : Id) (f : Resource → α) : Blind (readOne id f) := by
  refine (blind_gets fun _ _ => rfl).bind fun known => ?_
  cases known with
  | true => exact Call.like_holding (blind_gets fun _ _ => rfl)
  | false => exact blind_done _

theorem blind_readEach (f : Id → Resource → α) (ids : List Id) : Blind (readEach f ids) := by
  induction ids with
  | nil => exact blind_done _
  | cons id ids ih => exact (blind_readOne id (f id)).bind fun _ => ih.bind fun _ => blind_done _

theorem blind_list (test : ResourceInfo → Bool) : Blind (list test) :=
  (blind_gets fun _ _ => rfl).bind fun _ => (blind_readEach _ _).bind fun _ => blind_done _

/-- So does whoever looks up a name. -/
theorem blind_findAmong (name : String) (ids : List Id) : Blind (findAmong name ids) := by
  induction ids with
  | nil => exact blind_done _
  | cons id ids ih =>
    refine (blind_readOne id Resource.name).bind fun found => ?_
    rcases found with _ | _ | n
    · exact ih
    · exact ih
    · dsimp only
      split
      · exact blind_done _
      · exact ih

theorem blind_find (group : Id) (name : String) : Blind (find group name) :=
  (blind_gets fun _ _ => rfl).bind fun _ => blind_findAmong name _

theorem blind_available (group : Id) : Blind (available group) :=
  (blind_gets fun _ _ => rfl).bind fun _ => (blind_readEach _ _).bind fun _ => blind_done _

theorem blind_overwrite (id : Id) (f : Resource → Resource) : Blind (overwrite id f) := by
  refine (blind_gets fun _ _ => rfl).bind fun known => ?_
  cases known with
  | false => exact blind_done _
  | true =>
    have changed : Blind (Call.modify fun l => l.change id f) := by
      refine blind_modify fun l l' quiet => ?_
      obtain ⟨x, rfl⟩ := quiet
      exact ⟨x, rfl⟩
    exact Blind.bind (Call.like_holding changed) fun _ => blind_done _

theorem blind_findAll (group : Id) (names : List String) : Blind (findAll group names) := by
  induction names with
  | nil => exact blind_done _
  | cons name names ih =>
    refine (blind_find group name).bind fun found => ?_
    cases found with
    | none => exact blind_done _
    | some id =>
      refine ih.bind fun rest => ?_
      cases rest <;> exact blind_done _

/-! ## Requests -/

theorem blind_peekStatus (id : Id) : Blind (peekStatus id) := by
  refine Call.Like.probe _ _ fun free => ?_
  cases free with
  | true =>
    refine .look fun m l l' quiet => ?_
    rw [quiet.resources]
    exact .done _
  | false => exact blind_done _

/-- **Placing a hold** is decided on by the resource, and counts without looking. -/
theorem blind_placeHold (s : CoordinatorSettings) (id : Id) (holder : String) (millis : Nat)
    (price : Float → Float) : Blind (placeHold s id holder millis price) := by
  have denied : ∀ r : Reservation Hold, Blind (((Call.modify fun l =>
      l.count (.reservations "denied")).bind fun _ => .done (.ok r) :
        Call Ledger (Except CallError _))) :=
    fun r => (blind_count _).bind fun _ => blind_done _
  have tries : Blind ((lockDue s).bind fun due => underLock id due
      ((Call.modify fun l => l.count (.reservations "timeout")).bind
        fun _ => .done (.ok (.denied (.contended id))))
      (Call.update fun now l => l.place now id holder millis price)) :=
    (blind_lockDue s).bind fun due => blind_underLock
      ((blind_count _).bind fun _ => blind_done _)
      (blind_update fun now _ _ quiet => quiet.place now id holder millis price)
  refine (blind_gets fun _ _ => rfl).bind fun known => ?_
  cases known with
  | false => exact blind_done _
  | true =>
    refine (blind_peekStatus id).bind fun seen => ?_
    rcases seen with _ | status
    · exact tries
    · cases status with
      | available => exact tries
      | reserved => exact denied _
      | booked => exact denied _

/-- So is reserving. -/
theorem blind_reserve (s : CoordinatorSettings) (id : Id) (holder : String) (duration : Nat)
    (price : Float → Float) : Blind (reserve s id holder duration price) := by
  rcases reserve_cases s id holder duration price with ⟨e, refused, -⟩ | ⟨placed, -⟩
  · rw [refused]
    exact blind_done _
  · rw [placed]
    exact blind_placeHold s id holder _ price

/-- A decision that does not look at counts makes a call that does not. -/
theorem blind_decide (s : CoordinatorSettings) (id : Id)
    {decision : Int → Ledger → Except CallError α × Ledger}
    (decides : ∀ now l l', Quiet l l' → Quietly (decision now l) (decision now l')) :
    Blind (decide s id decision) := by
  refine (blind_gets fun _ _ => rfl).bind fun known => ?_
  cases known with
  | false => exact blind_done _
  | true =>
    exact (blind_lockDue s).bind fun due => blind_underLock (blind_done _) (blind_update decides)

/-- The same under several locks. -/
theorem blind_underLocks {due : Nat} {late : Id → Call Ledger (Except CallError α)}
    {check : Id → Resource → Option CallError} {body : Call Ledger (Except CallError α)}
    (hl : ∀ id, Blind (late id)) (hb : Blind body) (ids : List Id) :
    Blind (underLocks due late check body ids) := by
  induction ids with
  | nil => exact hb
  | cons id ids ih =>
    refine (blind_gets fun _ _ => rfl).bind fun known => ?_
    cases known with
    | false => exact blind_done _
    | true =>
      refine blind_underLock (hl id) ((blind_gets fun _ _ => rfl).bind fun fault => ?_)
      cases fault with
      | some e => exact blind_done _
      | none => exact ih

/-- **Booking a group** is decided on by the resources. -/
theorem blind_bookGroup (s : CoordinatorSettings) (group : Id) (holder : String) (ids : List Id)
    (price : Float → Float) : Blind (bookGroup s group holder ids price) := by
  rcases bookGroup_cases s group holder ids price with ⟨e, -, refused⟩ | ⟨-, tried⟩
  · rw [refused]
    exact blind_done _
  · rw [tried]
    have late : ∀ id : Id, Blind (((Call.modify fun l => l.count (.groupBookings "timeout")).bind
        fun _ => .done (.ok (.denied (.contended id))) :
          Call Ledger (Except CallError (Reservation Booking)))) :=
      fun id => (blind_count _).bind fun _ => blind_done _
    refine (blind_gets fun _ _ => rfl).bind fun known => ?_
    cases known with
    | false => exact blind_done _
    | true =>
      refine (blind_lockDue s).bind fun due => Call.like_holdingUntil (late group) ?_
      refine blind_underLocks late (blind_update fun now l l' quiet => ?_) _
      have booked := quiet.book now group holder ids price
      exact ⟨congrArg Except.ok booked.1, booked.2⟩

/-- So is booking by name. -/
theorem blind_bookByName (s : CoordinatorSettings) (group : Id) (holder : String)
    (names : List String) (price : Float → Float) :
    Blind (bookByName s group holder names price) := by
  refine (blind_findAll group names).bind fun ids => ?_
  cases ids with
  | none => exact blind_done _
  | some ids => exact blind_bookGroup s group holder ids price

/-- **Giving a booking up** is decided on by the booking. -/
theorem blind_cancelGroup (s : CoordinatorSettings) (booking : Id) (holder : String) :
    Blind (cancelGroup s booking holder) := by
  refine (blind_gets fun _ _ => rfl).bind fun stands => ?_
  cases stands with
  | error e => exact blind_done _
  | ok b =>
    refine (blind_gets fun _ _ => rfl).bind fun known => ?_
    cases known with
    | false => exact blind_done _
    | true =>
      refine (blind_lockDue s).bind fun due => Call.like_holdingUntil (blind_done _) ?_
      refine (blind_gets fun _ _ => rfl).bind fun still => ?_
      cases still with
      | error e => exact blind_done _
      | ok c =>
        dsimp only
        split
        · exact blind_done _
        · exact blind_underLocks (fun _ => blind_done _)
            (blind_update fun _ _ _ quiet => ⟨rfl, quiet.cancelBooking b⟩) _

/-- **No request** looks at counts. -/
theorem blind_request (s : CoordinatorSettings) (r : Request) : Blind (r.call s) := by
  cases r with
  | reserve id holder duration price =>
    exact (blind_reserve s id holder duration price).bind fun _ => blind_done _
  | reserveDefault id holder price =>
    exact (blind_reserve s id holder _ price).bind fun _ => blind_done _
  | confirm id holder =>
    exact (blind_decide s id fun now _ _ quiet =>
      quiet.confirm s.policy now id holder).bind fun _ => blind_done _
  | cancel id holder =>
    exact (blind_decide s id fun now _ _ quiet =>
      quiet.cancel s.policy now id holder).bind fun _ => blind_done _
  | book group holder ids price =>
    exact (blind_bookGroup s group holder ids price).bind fun _ => blind_done _
  | bookByName group holder names price =>
    exact (blind_bookByName s group holder names price).bind fun _ => blind_done _
  | cancelGroup booking holder =>
    exact (blind_cancelGroup s booking holder).bind fun _ => blind_done _

/-! ## Chores -/

theorem Quiet.schedule (h : Quiet l l') (e : Expiry) : Quiet (l.schedule e) (l'.schedule e) := by
  obtain ⟨x, rfl⟩ := h
  exact ⟨_, rfl⟩

/-- What is due does not depend on counts. -/
theorem Quiet.takeDue (h : Quiet l l') (now : Int) : Quietly (l.takeDue now) (l'.takeDue now) := by
  obtain ⟨x, rfl⟩ := h
  exact ⟨rfl, _, rfl⟩

/-- Whether a hold is settled does not depend on them either. -/
theorem Quiet.expire (h : Quiet l l') (now : Int) (id : Id) (generation : UInt64) :
    Quietly (l.expire now id generation) (l'.expire now id generation) := by
  have settled := h.settle now id
  obtain ⟨x, rfl⟩ := h
  simp only [Ledger.expire]
  cases l.resources.get? id with
  | none => exact ⟨rfl, x, rfl⟩
  | some r =>
    dsimp only
    split
    · exact settled
    · exact ⟨rfl, x, rfl⟩

/-- So no settling looks at them, -/
theorem blind_expireHold (s : CoordinatorSettings) (id : Id) (generation : UInt64) :
    Blind (expireHold s id generation) := by
  refine (blind_gets fun _ _ => rfl).bind fun known => ?_
  cases known with
  | false => exact blind_done _
  | true =>
    refine (blind_lockDue s).bind fun due => blind_underLock
      (blind_update fun now _ _ quiet => ⟨rfl, quiet.schedule _⟩)
      (blind_update fun now l l' quiet => ?_)
    have settled := quiet.expire now id generation
    exact ⟨congrArg Except.ok settled.1, settled.2⟩

theorem blind_expireEach (s : CoordinatorSettings) (es : List Expiry) :
    Blind (expireEach s es) := by
  induction es with
  | nil => exact blind_done _
  | cons e es ih =>
    have putDown : Blind (Call.modify fun l : Ledger => { l with inHand := es }) := by
      refine blind_modify fun l l' quiet => ?_
      obtain ⟨x, rfl⟩ := quiet
      exact ⟨x, rfl⟩
    exact (blind_expireHold s e.id e.generation).bind fun _ => putDown.bind fun _ => ih

theorem blind_settleEach (now : Int) (ids : List Id) : Blind (settleEach now ids) := by
  induction ids with
  | nil => exact blind_done _
  | cons id ids ih =>
    refine Blind.bind (Call.like_holding (blind_update fun _ _ _ quiet => quiet.settle now id))
      fun settled => ?_
    exact ih.bind fun _ => blind_done _

/-- no sweep does, -/
theorem blind_sweep : Blind sweep :=
  Blind.bind Call.like_now fun _ => (blind_list _).bind fun _ => blind_settleEach _ _

theorem blind_reap (s : CoordinatorSettings) : Blind (reap s) := by
  refine (blind_gets fun _ _ => rfl).bind fun used => ?_
  cases used with
  | false => exact blind_done _
  | true =>
    exact (blind_update fun now _ _ quiet => quiet.takeDue now).bind fun due =>
      (blind_expireEach s due).bind fun _ => blind_done _

/-- nor does the reaper. -/
theorem blind_reaperRound (s : CoordinatorSettings) : Blind (reaperRound s) := by
  refine Blind.bind Call.like_moment fun m => (blind_gets fun _ _ => rfl).bind fun sleep => ?_
  have asleep : Blind (Call.wait (some (m.elapsed + sleep)) wakeSign) := by
    refine .pause _ (fun l l' quiet => ?_) (.done ())
    obtain ⟨x, rfl⟩ := quiet
    simp only [wakeSign]
    split
    · exact .some ⟨x, rfl⟩
    · exact .none
  dsimp only
  split
  · exact asleep.bind fun _ => blind_reap s
  · exact blind_reap s

/-! ## Operations -/

/-- The operations on a ledger: requests, chores, what can be read, and whatever is done in one go
without a look at what was counted. -/
inductive Operation (s : CoordinatorSettings) : {β : Type} → Call Ledger β → Prop where
  /-- a request -/
  | request (r : Request) : Operation s (r.call s)
  /-- an attempt to settle one hold -/
  | expiry (id : Id) (generation : UInt64) : Operation s (expireHold s id generation)
  /-- a sweep -/
  | sweep : Operation s sweep
  /-- a round of the reaper -/
  | reaper : Operation s (reaperRound s)
  /-- to read one resource -/
  | info (id : Id) : Operation s (infoOf id)
  /-- to list resources -/
  | list (test : ResourceInfo → Bool) : Operation s (list test)
  /-- to look for a member of a group -/
  | find (group : Id) (name : String) : Operation s (find group name)
  /-- to list the available members of a group -/
  | available (group : Id) : Operation s (available group)
  /-- to change a resource outside of all rules -/
  | overwrite (id : Id) (f : Resource → Resource) : Operation s (overwrite id f)
  /-- to do something at once -/
  | atOnce {β : Type} (f : Int → Ledger → β × Ledger)
    (decides : ∀ now l l', Quiet l l' → Quietly (f now l) (f now l')) : Operation s (Call.update f)

variable {s : CoordinatorSettings}

/-- **No operation looks at what was counted.** -/
theorem Operation.blind {c : Call Ledger β} (op : Operation s c) : Blind c := by
  cases op with
  | request r => exact blind_request s r
  | expiry id generation => exact blind_expireHold s id generation
  | sweep => exact blind_sweep
  | reaper => exact blind_reaperRound s
  | info id => exact blind_readOne id _
  | list test => exact blind_list test
  | find group name => exact blind_find group name
  | available group => exact blind_available group
  | overwrite id f => exact blind_overwrite id f
  | atOnce f decides => exact blind_update decides

/-- Registering is done at once. -/
theorem operation_registering (s : CoordinatorSettings) (a : Registration) :
    Operation s (registering a) := by
  refine .atOnce _ fun now l l' quiet => ?_
  obtain ⟨x, rfl⟩ := quiet
  cases a with
  | resource id r =>
    by_cases known : l.resources.contains id = true
    · rw [register_of_known known, register_of_known (l := { l with metrics := x }) known]
      exact ⟨rfl, x, rfl⟩
    · simp only [register, add, if_neg known]
      exact ⟨rfl, _, rfl⟩
  | group name => exact ⟨rfl, x, rfl⟩

/-- A call for an operation, which takes note of what it comes to. -/
inductive Runs (s : CoordinatorSettings) : Call Ledger α → Prop where
  /-- an operation, and what is noted -/
  | intro {β : Type} {c : Call Ledger β} (op : Operation s c) (note : β → α) :
    Runs s (c.bind fun b => .done (note b))

/-- A party that runs one operation after another. -/
def Operator (s : CoordinatorSettings) (call : Call Ledger α)
    (again : α → Option (Call Ledger α)) : Prop :=
  Runs s call ∧ ∀ a c, again a = some c → Runs s c

/-- **Nothing that is run on a ledger** looks at counts. -/
theorem Runs.blind {c : Call Ledger α} (h : Runs s c) : Blind c := by
  cases h with
  | intro op note => exact op.blind.bind fun _ => blind_done _

/-- Errands that ask for something are operations. -/
theorem runs_errand (s : CoordinatorSettings) (r : Request) : Runs s (r.errand s) :=
  .intro (.request r) _

/-- A party that makes one request and leaves. -/
theorem Operator.once (s : CoordinatorSettings) (r : Request) :
    Operator s (r.errand s) fun _ => none := by
  refine ⟨runs_errand s r, fun a c next => ?_⟩
  cases next

end Ledger

end Tenure
