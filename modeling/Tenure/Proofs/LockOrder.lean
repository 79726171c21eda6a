import Tenure.Proofs.Acts
import Tenure.Proofs.Requests
import Tenure.Proofs.Decisions
import Tenure.Proofs.Waiting

/-!
# All operations climb

Whatever is asked of a ledger or of a house takes its locks in order (`House.Operation.ascends`):
most calls take one lock at a time, and group bookings that of the group first and then those of
the resources in ascending order. None of them asks for the same lock twice, since no list of
resources to be booked names one twice (`Ledger.ListsOnce`).

So operations never wait for each other in a circle, wherever they are interrupted
(`House.no_deadlock`).
-/

namespace Tenure

namespace Ledger

variable {α β : Type} {l l' : Ledger} {held : List Key} {id : Id}

/-! ## Lists of resources -/

/-- No booking lists a resource twice. -/
def ListsOnce (l : Ledger) : Prop := ∀ id b, l.bookings.get? id = some b → b.resources.Nodup

theorem ListsOnce.congr (h : l.ListsOnce) (same : l'.bookings = l.bookings) : l'.ListsOnce :=
  fun id b hb => h id b (same ▸ hb)

theorem ListsOnce.sameBooks (h : l.ListsOnce) (same : SameBooks l l') : l'.ListsOnce :=
  h.congr same.bookings

/-- Settling a hold makes no booking. -/
theorem ListsOnce.expire (h : l.ListsOnce) (now : Int) (id : Id) (generation : UInt64) :
    (l.expire now id generation).2.ListsOnce := by
  rcases l.expire_cases now id generation with e | e <;> rw [e]
  · exact h
  · exact h.sameBooks (l.sameBooks_settle now id)

/-- A booking that is made lists each resource once, as the request does. -/
theorem ListsOnce.book (h : l.ListsOnce) (now : Int) (group : Id) (holder : String) {ids : List Id}
    (apart : ids.Nodup) (price : Float → Float) :
    (l.book now group holder ids price).2.ListsOnce := by
  have settled : Settles now l (settleAll now (ascending ids) l).2 := Settles.none.settleAll _
  rcases l.book_cases now group holder ids price with
    ⟨_, _, l', hs, e⟩ | ⟨l', l'', hs, e, enters⟩ <;> rw [hs] at settled <;> rw [e]
  · exact (h.sameBooks settled.sameBooks).congr rfl
  · intro id b hb
    rw [enters.bookings, Table.get?_insert] at hb
    split at hb
    · cases hb
      exact apart
    · exact h.sameBooks settled.sameBooks id b hb

/-- Giving a booking up leaves its list. -/
theorem ListsOnce.cancelBooking (h : l.ListsOnce) (b : Booking) :
    (l.cancelBooking b).ListsOnce := by
  intro id b' hb'
  have same : (l.cancelBooking b).bookings = _ := congrArg (fun t : Table Id Booking =>
    t.modify b.id fun b => { b with status := .cancelled })
    (giveUpAll_keeps (f := Ledger.bookings) (fun _ _ => rfl) b.id b.resources l)
  rw [same, Table.get?_modify] at hb'
  split at hb'
  · obtain ⟨b₀, hb₀, rfl⟩ := Option.map_eq_some_iff.1 hb'
    exact h _ b₀ hb₀
  · exact h id b' hb'

/-- So a booking that stands lists each resource once. -/
theorem ListsOnce.standing (h : l.ListsOnce) {booking : Id} {b : Booking}
    (stands : l.standing booking = .ok b) : b.resources.Nodup := by
  simp only [Ledger.standing] at stands
  split at stands
  · cases stands
  · next b' hb =>
    split at stands
    · cases stands
    · cases stands
      exact h booking b hb

/-! ## One lock at a time -/

/-- Before the first lock there is none. -/
theorem before_first {key : Key} : ∀ k ∈ ([] : List Key), k.Before key :=
  fun _ h => absurd h List.not_mem_nil

theorem ascends_count (x : Metric) : (Call.modify fun l => l.count x).Ascends ListsOnce held :=
  Call.ascends_modify fun _ h => h.congr rfl

theorem ascends_lockDue (s : CoordinatorSettings) : (lockDue s).Ascends ListsOnce held :=
  fun _ _ _ => rfl

/-- Under the lock of a resource a call may ask for what comes after that. -/
theorem ascends_underLock {due : Nat} {late body : Call Ledger α}
    (before : ∀ k ∈ held, k.Before (.resource id))
    (hb : body.Ascends ListsOnce (.resource id :: held)) (hl : late.Ascends ListsOnce held) :
    (underLock id due late body).Ascends ListsOnce held :=
  .holdingUntil before ((ascends_count _).bind fun _ => hb) ((ascends_count _).bind fun _ => hl)

/-- Reading a resource takes one lock, and gives it back. -/
theorem ascends_readOne (id : Id) (f : Resource → α) : (readOne id f).Ascends ListsOnce [] := by
  refine Call.ascends_gets.bind fun known => ?_
  cases known with
  | true => exact .holding before_first Call.ascends_gets
  | false => exact Call.ascends_done _

/-- Reading several takes one at a time. -/
theorem ascends_readEach (f : Id → Resource → α) (ids : List Id) :
    (readEach f ids).Ascends ListsOnce [] := by
  induction ids with
  | nil => exact Call.ascends_done _
  | cons id ids ih =>
    exact (ascends_readOne id (f id)).bind fun _ => ih.bind fun _ => Call.ascends_done _

theorem ascends_list (test : ResourceInfo → Bool) : (list test).Ascends ListsOnce [] :=
  Call.ascends_gets.bind fun _ => (ascends_readEach _ _).bind fun _ => Call.ascends_done _

/-- So does looking a name up, -/
theorem ascends_findAmong (name : String) (ids : List Id) :
    (findAmong name ids).Ascends ListsOnce [] := by
  induction ids with
  | nil => exact Call.ascends_done _
  | cons id ids ih =>
    refine (ascends_readOne id Resource.name).bind fun found => ?_
    rcases found with _ | _ | n
    · exact ih
    · exact ih
    · dsimp only
      split
      · exact Call.ascends_done _
      · exact ih

theorem ascends_find (group : Id) (name : String) : (find group name).Ascends ListsOnce [] :=
  Call.ascends_gets.bind fun _ => ascends_findAmong name _

theorem ascends_available (group : Id) : (available group).Ascends ListsOnce [] :=
  Call.ascends_gets.bind fun _ => (ascends_readEach _ _).bind fun _ => Call.ascends_done _

/-- and several. -/
theorem ascends_findAll (group : Id) (names : List String) :
    (findAll group names).Ascends ListsOnce [] := by
  induction names with
  | nil => exact Call.ascends_done _
  | cons name names ih =>
    refine (ascends_find group name).bind fun found => ?_
    cases found with
    | none => exact Call.ascends_done _
    | some id =>
      refine ih.bind fun rest => ?_
      cases rest <;> exact Call.ascends_done _

theorem ascends_peekStatus (id : Id) : (peekStatus id).Ascends ListsOnce [] := by
  intro free
  cases free with
  | true => exact fun _ _ _ => rfl
  | false => exact Call.ascends_done _

/-- **Placing a hold** takes the lock of its resource, and no other. -/
theorem ascends_placeHold (s : CoordinatorSettings) (id : Id) (holder : String) (millis : Nat)
    (price : Float → Float) : (placeHold s id holder millis price).Ascends ListsOnce [] := by
  have denied : ∀ r : Reservation Hold, ((Call.modify fun l => l.count (.reservations "denied")).bind
      fun _ => .done (.ok r) : Call Ledger (Except CallError _)).Ascends ListsOnce [] :=
    fun r => (ascends_count _).bind fun _ => Call.ascends_done _
  have tries : ((lockDue s).bind fun due => underLock id due
      ((Call.modify fun l => l.count (.reservations "timeout")).bind
        fun _ => .done (.ok (.denied (.contended id))))
      (Call.update fun now l => l.place now id holder millis price)).Ascends ListsOnce [] :=
    (ascends_lockDue s).bind fun due => ascends_underLock before_first
      (Call.ascends_update fun now l h => h.sameBooks (l.sameBooks_place now id holder millis price))
      ((ascends_count _).bind fun _ => Call.ascends_done _)
  refine Call.ascends_gets.bind fun known => ?_
  cases known with
  | false => exact Call.ascends_done _
  | true =>
    refine (ascends_peekStatus id).bind fun seen => ?_
    rcases seen with _ | status
    · exact tries
    · cases status with
      | available => exact tries
      | reserved => exact denied _
      | booked => exact denied _

/-- So does reserving. -/
theorem ascends_reserve (s : CoordinatorSettings) (id : Id) (holder : String) (duration : Nat)
    (price : Float → Float) : (reserve s id holder duration price).Ascends ListsOnce [] := by
  rcases reserve_cases s id holder duration price with ⟨e, refused, -⟩ | ⟨placed, -⟩
  · rw [refused]
    exact Call.ascends_done _
  · rw [placed]
    exact ascends_placeHold s id holder _ price

/-- So does deciding on a hold, -/
theorem ascends_decide (s : CoordinatorSettings) (id : Id)
    {decision : Int → Ledger → Except CallError α × Ledger}
    (same : ∀ now l, SameBooks l (decision now l).2) :
    (decide s id decision).Ascends ListsOnce [] := by
  refine Call.ascends_gets.bind fun known => ?_
  cases known with
  | false => exact Call.ascends_done _
  | true =>
    exact (ascends_lockDue s).bind fun due => ascends_underLock before_first
      (Call.ascends_update fun now l h => h.sameBooks (same now l)) (Call.ascends_done _)

/-- as to cancel it. -/
theorem ascends_cancelHold (s : CoordinatorSettings) (id : Id) (holder : String) :
    (cancelHold s id holder).Ascends ListsOnce [] :=
  ascends_decide s id fun now l => l.sameBooks_cancel s.policy now id holder

/-- So does settling one whose deadline has come. -/
theorem ascends_expireHold (s : CoordinatorSettings) (id : Id) (generation : UInt64) :
    (expireHold s id generation).Ascends ListsOnce [] := by
  refine Call.ascends_gets.bind fun known => ?_
  cases known with
  | false => exact Call.ascends_done _
  | true =>
    exact (ascends_lockDue s).bind fun due => ascends_underLock before_first
      (Call.ascends_update fun now l h => h.expire now id generation)
      (Call.ascends_update fun now l h => h.congr rfl)

/-- One after the other they are taken and given back. -/
theorem ascends_expireEach (s : CoordinatorSettings) (es : List Expiry) :
    (expireEach s es).Ascends ListsOnce [] := by
  induction es with
  | nil => exact Call.ascends_done _
  | cons e es ih =>
    exact (ascends_expireHold s e.id e.generation).bind fun _ =>
      (Call.ascends_modify fun _ h => h.congr rfl).bind fun _ => ih

/-- So they are in a sweep. -/
theorem ascends_settleEach (now : Int) (ids : List Id) :
    (settleEach now ids).Ascends ListsOnce [] := by
  induction ids with
  | nil => exact Call.ascends_done _
  | cons id ids ih =>
    refine Call.Ascends.bind (.holding before_first (Call.ascends_update fun _ l h =>
      h.sameBooks (l.sameBooks_settle now id))) fun settled => ?_
    exact ih.bind fun _ => Call.ascends_done _

theorem ascends_sweep : sweep.Ascends ListsOnce [] :=
  Call.Ascends.bind (fun _ _ _ => rfl) fun _ => (ascends_list _).bind fun _ =>
    ascends_settleEach _ _

/-- **The reaper** holds one lock at a time. -/
theorem ascends_reap (s : CoordinatorSettings) : (reap s).Ascends ListsOnce [] := by
  refine Call.ascends_gets.bind fun used => ?_
  cases used with
  | false => exact Call.ascends_done _
  | true =>
    have taken : (Call.update fun now (l : Ledger) => l.takeDue now).Ascends ListsOnce [] :=
      Call.ascends_update fun now l h => h.congr rfl
    exact taken.bind fun due => (ascends_expireEach s due).bind fun _ => Call.ascends_done _

/-- It holds none while it sleeps. -/
theorem ascends_reaperRound (s : CoordinatorSettings) :
    (reaperRound s).Ascends ListsOnce [] := by
  refine Call.Ascends.bind (fun _ _ _ => rfl) fun m => Call.ascends_gets.bind fun sleep => ?_
  have asleep : (Call.wait (some (m.elapsed + sleep)) wakeSign).Ascends ListsOnce [] := by
    refine ⟨fun l l' h woken => ?_, rfl⟩
    simp only [wakeSign] at woken
    split at woken
    · cases woken
      exact h.congr rfl
    · cases woken
  dsimp only
  split
  · exact asleep.bind fun _ => ascends_reap s
  · exact ascends_reap s

/-! ## Locks of a group and its resources -/

/-- Locks of resources that are apart, in ascending order, are in order. -/
theorem pairwise_before {ids : List Id} (apart : ids.Nodup) :
    (ascending ids).Pairwise fun a b => (Key.resource a).Before (.resource b) :=
  (pairwise_ascending ids).and ((sortBy_perm ids).nodup_iff.2 apart)

/-- **A row of locks** that are in order, and come after those that a party has. -/
theorem ascends_underLocks {due : Nat} {late : Id → Call Ledger (Except CallError α)}
    {check : Id → Resource → Option CallError} {body : Call Ledger (Except CallError α)}
    (hl : ∀ id held, (late id).Ascends ListsOnce held) (hb : ∀ held, body.Ascends ListsOnce held)
    {ids : List Id} (row : ids.Pairwise fun a b => (Key.resource a).Before (.resource b))
    (before : ∀ k ∈ held, ∀ id ∈ ids, k.Before (.resource id)) :
    (underLocks due late check body ids).Ascends ListsOnce held := by
  induction ids generalizing held with
  | nil => exact hb held
  | cons id ids ih =>
    obtain ⟨first, row⟩ := List.pairwise_cons.1 row
    refine Call.ascends_gets.bind fun known => ?_
    cases known with
    | false => exact Call.ascends_done _
    | true =>
      refine ascends_underLock (fun k hk => before k hk id List.mem_cons_self) ?_ (hl id held)
      refine Call.ascends_gets.bind fun fault => ?_
      cases fault with
      | some e => exact Call.ascends_done _
      | none =>
        refine ih row fun k hk id' hid' => ?_
        rcases List.mem_cons.1 hk with rfl | hk
        · exact first id' hid'
        · exact before k hk id' (List.mem_cons_of_mem _ hid')

/-- The lock of a group comes before those of resources. -/
theorem ascends_underGroup {group : Id} {due : Nat}
    {late : Id → Call Ledger (Except CallError α)} {check : Id → Resource → Option CallError}
    {body : Call Ledger (Except CallError α)} (hl : ∀ id held, (late id).Ascends ListsOnce held)
    (hb : ∀ held, body.Ascends ListsOnce held) {ids : List Id} (apart : ids.Nodup) :
    (underLocks due late check body (ascending ids)).Ascends ListsOnce [.group group] := by
  refine ascends_underLocks hl hb (pairwise_before apart) fun k hk id _ => ?_
  obtain rfl := List.mem_singleton.1 hk
  trivial

/-- **Booking a group** takes the lock of the group, and then those of the resources in ascending order. -/
theorem ascends_bookGroup (s : CoordinatorSettings) (group : Id) (holder : String) (ids : List Id)
    (price : Float → Float) : (bookGroup s group holder ids price).Ascends ListsOnce [] := by
  rcases bookGroup_cases s group holder ids price with ⟨e, -, refused⟩ | ⟨fine, tried⟩
  · rw [refused]
    exact Call.ascends_done _
  · rw [tried]
    have late : ∀ (id : Id) held, ((Call.modify fun l => l.count (.groupBookings "timeout")).bind
        fun _ => .done (.ok (.denied (.contended id))) :
          Call Ledger (Except CallError (Reservation Booking))).Ascends ListsOnce held :=
      fun id held => (ascends_count _).bind fun _ => Call.ascends_done _
    refine Call.ascends_gets.bind fun known => ?_
    cases known with
    | false => exact Call.ascends_done _
    | true =>
      refine (ascends_lockDue s).bind fun due => .holdingUntil before_first ?_ (late group [])
      refine ascends_underGroup late (fun held => ?_) (nodup_of_listFault fine)
      exact Call.ascends_update fun now l h =>
        h.book now group holder (nodup_of_listFault fine) price

/-- Booking by name has given back all locks of the look-up before. -/
theorem ascends_bookByName (s : CoordinatorSettings) (group : Id) (holder : String)
    (names : List String) (price : Float → Float) :
    (bookByName s group holder names price).Ascends ListsOnce [] := by
  refine (ascends_findAll group names).bind fun ids => ?_
  cases ids with
  | none => exact Call.ascends_done _
  | some ids => exact ascends_bookGroup s group holder ids price

/-- **Giving a booking up** takes its locks in the same order as making it does. -/
theorem ascends_cancelGroup (s : CoordinatorSettings) (booking : Id) (holder : String) :
    (cancelGroup s booking holder).Ascends ListsOnce [] := by
  refine Call.ascends_gets_bind fun l once => ?_
  cases stands : l.standing booking with
  | error e => exact Call.ascends_done _
  | ok b =>
    refine Call.ascends_gets.bind fun known => ?_
    cases known with
    | false => exact Call.ascends_done _
    | true =>
      refine (ascends_lockDue s).bind fun due => .holdingUntil before_first ?_ (Call.ascends_done _)
      refine Call.ascends_gets.bind fun still => ?_
      cases still with
      | error e => exact Call.ascends_done _
      | ok c =>
        dsimp only
        split
        · exact Call.ascends_done _
        · refine ascends_underGroup (fun _ _ => Call.ascends_done _) (fun held => ?_)
            (once.standing stands)
          exact Call.ascends_update fun _ l h => h.cancelBooking b

end Ledger

/-- **Every request** takes its locks in ascending order. -/
theorem Request.ascends (s : CoordinatorSettings) (r : Request) :
    (r.call s).Ascends Ledger.ListsOnce [] := by
  cases r with
  | reserve id holder duration price =>
    exact (Ledger.ascends_reserve s id holder duration price).bind fun _ => Call.ascends_done _
  | reserveDefault id holder price =>
    exact (Ledger.ascends_reserve s id holder _ price).bind fun _ => Call.ascends_done _
  | confirm id holder =>
    exact (Ledger.ascends_decide s id fun now l =>
      l.sameBooks_confirm s.policy now id holder).bind fun _ => Call.ascends_done _
  | cancel id holder =>
    exact (Ledger.ascends_cancelHold s id holder).bind fun _ => Call.ascends_done _
  | book group holder ids price =>
    exact (Ledger.ascends_bookGroup s group holder ids price).bind fun _ => Call.ascends_done _
  | bookByName group holder names price =>
    exact (Ledger.ascends_bookByName s group holder names price).bind fun _ => Call.ascends_done _
  | cancelGroup booking holder =>
    exact (Ledger.ascends_cancelGroup s booking holder).bind fun _ => Call.ascends_done _

namespace House

variable {α β : Type} {held : List Key}

/-! ## In a house -/

/-- No booking of the ledger lists a resource twice. -/
def ListsOnce (h : House) : Prop := h.ledger.ListsOnce

theorem ascends_onLedger {c : Call Ledger α} (h : c.Ascends Ledger.ListsOnce held) :
    (onLedger c).Ascends ListsOnce held := h.within fun _ _ => rfl

/-- The gate takes no lock. -/
theorem ascends_reserveAt (s : CoordinatorSettings) (endpoint : String) (id : Id)
    (holder : String) (duration : Nat) (price : Float → Float) :
    (reserveAt s endpoint id holder duration price).Ascends ListsOnce [] := by
  refine Call.Ascends.bind (fun m h once => ⟨once.congr rfl, rfl⟩) fun admitted => ?_
  cases admitted with
  | true => exact ascends_onLedger (Ledger.ascends_reserve s id holder duration price)
  | false => exact Call.ascends_done _

/-- Compartments are tried one at a time. -/
theorem ascends_depositInto (s : CoordinatorSettings) (number : Nat) (bank : Bank)
    (parcel : String) (size : Size) (places : List (Id × Size)) :
    (depositInto s number bank parcel size places).Ascends ListsOnce [] := by
  induction places with
  | nil =>
    exact (Call.ascends_modify fun h once => once.congr rfl).bind fun _ => Call.ascends_done _
  | cons place rest ih =>
    refine (ascends_onLedger (Ledger.ascends_reserve s place.1 parcel _ _)).bind fun answer => ?_
    rcases answer with e | hold | reason
    · exact Call.ascends_done _
    · have assigned : (Call.update fun now (h : House) => h.assign now number place.2 hold).Ascends
          ListsOnce [] := Call.ascends_update fun now h once => once.congr rfl
      exact assigned.bind fun _ => Call.ascends_done _
    · exact ih

theorem ascends_deposit (s : CoordinatorSettings) (number : Nat) (bank : Bank) (parcel : String)
    (size : Size) : (deposit s number bank parcel size).Ascends ListsOnce [] := by
  have candidates : (candidates bank size).Ascends ListsOnce [] :=
    Call.Ascends.bind (fun _ _ _ => rfl) fun _ => Call.ascends_gets.bind fun _ =>
      (ascends_onLedger (Ledger.ascends_readEach _ _)).bind fun _ => Call.ascends_done _
  exact candidates.bind fun places => ascends_depositInto s number bank parcel size places

/-- **Picking up** takes the lock of the compartment; codes are looked up without any. -/
theorem ascends_pickup (s : CoordinatorSettings) (number : Nat) (code : String) :
    (pickup s number code).Ascends ListsOnce [] := by
  have redeemed : (Call.update fun now (h : House) => h.redeem now number code).Ascends
      ListsOnce [] := by
    refine Call.ascends_update fun now h once => ?_
    simp only [redeem]
    split
    · exact once
    · split
      · exact once
      · split
        · exact once
        · exact once.congr rfl
  refine redeemed.bind fun answer => ?_
  cases answer with
  | error e => exact Call.ascends_done _
  | ok a =>
    refine (ascends_onLedger (Ledger.ascends_cancelHold s a.compartment a.parcel)).bind
      fun freed => ?_
    cases freed with
    | ok => exact Call.ascends_done _
    | error e =>
      exact (Call.ascends_modify fun h once => once.congr rfl).bind fun _ => Call.ascends_done _

theorem ascends_bankStatus (number : Nat) (bank : Bank) :
    (bankStatus number bank).Ascends ListsOnce [] :=
  Call.Ascends.bind (fun _ _ _ => rfl) fun _ => Call.ascends_gets.bind fun _ =>
    (ascends_onLedger (Ledger.ascends_readEach _ _)).bind fun _ =>
      Call.ascends_gets.bind fun _ => Call.ascends_done _

/-- **Every act in a house** takes its locks in ascending order, -/
theorem Act.ascends (s : CoordinatorSettings) (act : Act) :
    (act.call s).Ascends ListsOnce [] := by
  cases act with
  | ask r => exact (ascends_onLedger (r.ascends s)).bind fun _ => Call.ascends_done _
  | enter endpoint id holder duration price =>
    exact (ascends_reserveAt s endpoint id holder duration price).bind fun _ => Call.ascends_done _
  | deposit number bank parcel size =>
    exact (ascends_deposit s number bank parcel size).bind fun _ => Call.ascends_done _
  | pickup number code => exact (ascends_pickup s number code).bind fun _ => Call.ascends_done _
  | status number bank => exact (ascends_bankStatus number bank).bind fun _ => Call.ascends_done _

/-! ## Operations -/

/-- The operations of a house: acts, the chores on its ledger, what is read of its registry, and
whatever is done in one go without a lock. -/
inductive Operation (s : CoordinatorSettings) : {β : Type} → Call House β → Prop where
  /-- an act: a request, with the gate or without, or what is done at a bank -/
  | act (act : Act) : Operation s (act.call s)
  /-- an attempt to settle one hold -/
  | expiry (id : Id) (generation : UInt64) :
    Operation s (onLedger (Ledger.expireHold s id generation))
  /-- a sweep -/
  | sweep : Operation s (onLedger Ledger.sweep)
  /-- a round of the reaper -/
  | reaper : Operation s (onLedger (Ledger.reaperRound s))
  /-- to read one resource -/
  | info (id : Id) : Operation s (onLedger (Ledger.infoOf id))
  /-- to list resources -/
  | list (test : ResourceInfo → Bool) : Operation s (onLedger (Ledger.list test))
  /-- to look for a member of a group -/
  | find (group : Id) (name : String) : Operation s (onLedger (Ledger.find group name))
  /-- to list the available members of a group -/
  | available (group : Id) : Operation s (onLedger (Ledger.available group))
  /-- to do something at once, such as to register a resource or to open a bank -/
  | atOnce {β : Type} (f : Int → House → β × House)
    (keeps : ∀ now h, h.ListsOnce → (f now h).2.ListsOnce) : Operation s (Call.update f)

/-- **Operations take their locks in order**, and leave none behind. -/
theorem Operation.ascends {s : CoordinatorSettings} {c : Call House β} (op : Operation s c) :
    c.Ascends ListsOnce [] := by
  cases op with
  | act act => exact act.ascends s
  | expiry id generation => exact ascends_onLedger (Ledger.ascends_expireHold s id generation)
  | sweep => exact ascends_onLedger Ledger.ascends_sweep
  | reaper => exact ascends_onLedger (Ledger.ascends_reaperRound s)
  | info id => exact ascends_onLedger (Ledger.ascends_readOne id _)
  | list test => exact ascends_onLedger (Ledger.ascends_list test)
  | find group name => exact ascends_onLedger (Ledger.ascends_find group name)
  | available group => exact ascends_onLedger (Ledger.ascends_available group)
  | atOnce f keeps => exact Call.ascends_update keeps

/-- Opening a bank is done at once. -/
theorem operation_openBank (s : CoordinatorSettings) (name : String) (codeLife : Nat) :
    Operation s (openBank name codeLife) := .atOnce _ fun _ _ once => once.congr rfl

/-- So is adding a compartment. -/
theorem operation_addCompartment (s : CoordinatorSettings) (bank : Bank) (size : Size) :
    Operation s (addCompartment bank size) := by
  refine .atOnce _ fun now h once => ?_
  dsimp only
  split
  · next l added =>
    simp only [Ledger.add] at added
    split at added
    · cases added
    · cases added
      exact once.congr rfl
  · exact once

/-- A call for an operation, which takes note of what it comes to. -/
inductive Runs (s : CoordinatorSettings) : Call House α → Prop where
  /-- an operation, and what is noted -/
  | intro {β : Type} {c : Call House β} (op : Operation s c) (note : β → α) :
    Runs s (c.bind fun b => .done (note b))

/-- A party that runs one operation after another. -/
def Operator (s : CoordinatorSettings) (call : Call House α)
    (again : α → Option (Call House α)) : Prop :=
  Runs s call ∧ ∀ a c, again a = some c → Runs s c

/-- so everything does that an operator runs. -/
theorem Runs.ascends {s : CoordinatorSettings} {c : Call House α} (h : Runs s c) :
    c.Ascends ListsOnce [] := by
  cases h with
  | intro op note => exact op.ascends.bind fun _ => Call.ascends_done _

theorem Operator.climber {s : CoordinatorSettings} {call : Call House α}
    {again : α → Option (Call House α)} (h : Operator s call again) :
    Climber ListsOnce call again :=
  ⟨h.1.ascends, fun a c hc => (h.2 a c hc).ascends⟩

/-! ## No deadlock -/

/-- **No deadlock.** However many operations are under way, and wherever they are interrupted,
none of them waits for itself: there is no circle of parties each of which waits for a lock that
the next one has, or asked for earlier. -/
theorem no_deadlock {s : CoordinatorSettings} {origin : Int} {h₀ : House}
    {t : Traffic House α} (once : h₀.ListsOnce)
    (h : Traffic.FineMoves (Operator s) (Traffic.start origin h₀) t) (owner : Owner) :
    ¬ Relation.TransGen t.WaitsFor owner owner := by
  have climbing : t.Climbing ListsOnce :=
    h.invariant (Traffic.FineMove.climbing Operator.climber) (Traffic.climbing_start once)
  exact climbing.acyclic owner

/-- A house with a hall of two seats. -/
def theatre : House := ⟨Ledger.hallOfTwo, .new (.fixedWindow (.new 5 1000000000)), []⟩

/-- To ask for something and forget the answer. -/
def asks (r : Request) : Call House Unit := ((Act.ask r).call .standard).bind fun _ => .done ()

/-- Ann is about to book both seats, and has the lock of the first one. -/
def annHalfway : Traffic House Unit :=
  ((Traffic.start 0 theatre).enter (asks .annBooks)).goOnAt 0 (some 10)

/-- Carol comes in between, and has the lock of the second one. -/
def carolBetween : Traffic House Unit :=
  (annHalfway.enter (asks (.reserve ⟨0, 2⟩ "Carol" 1000000000 id))).goOnAt 1 (some 8)

/-- So Ann waits for her, and Bob, who wants to book too, for Ann to be done with the hall. -/
def crowd : Traffic House Unit :=
  ((carolBetween.goOnAt 0 none).enter (asks (.book ⟨0, 3⟩ "Bob" [⟨0, 1⟩] id))).goOnAt 2 none

/-- So it is then: Bob waits for Ann and Ann for Carol, but nobody for himself. -/
theorem no_deadlock_crowd :
    theatre.ListsOnce ∧
    Traffic.FineMoves (Operator .standard) (Traffic.start 0 theatre) crowd ∧
    crowd.WaitsFor 2 0 ∧ crowd.WaitsFor 0 1 ∧
    ∀ owner, ¬ Relation.TransGen crowd.WaitsFor owner owner := by
  have once : theatre.ListsOnce := fun id b hb => nomatch hb
  have enters : ∀ {t : Traffic House Unit} r,
      Traffic.FineMoves (Operator .standard) (Traffic.start 0 theatre) t →
      Traffic.FineMoves (Operator .standard) (Traffic.start 0 theatre) (t.enter (asks r)) :=
    fun r h => h.snoc (.whole (.enter ⟨.intro (.act (.ask r)) _, fun _ _ h => nomatch h⟩))
  have halfway : Traffic.FineMoves (Operator .standard) (Traffic.start 0 theatre) annHalfway :=
    (enters .annBooks .none).goOnAt 0 (some 10)
  have between : Traffic.FineMoves (Operator .standard) (Traffic.start 0 theatre) carolBetween :=
    (enters (.reserve ⟨0, 2⟩ "Carol" 1000000000 id) halfway).goOnAt 1 (some 8)
  have moves : Traffic.FineMoves (Operator .standard) (Traffic.start 0 theatre) crowd :=
    (enters (.book ⟨0, 3⟩ "Bob" [⟨0, 1⟩] id) (between.goOnAt 0 none)).goOnAt 2 none
  have bob : crowd.Awaits 2 (.group ⟨0, 3⟩) :=
    ⟨crowd.flights.get ⟨2, by decide +kernel⟩, List.get_mem _ _, by decide +kernel, .exclusive,
      by decide +kernel, by decide +kernel⟩
  have ann : crowd.Awaits 0 (.resource ⟨0, 2⟩) :=
    ⟨crowd.flights.get ⟨1, by decide +kernel⟩, List.get_mem _ _, by decide +kernel, .exclusive,
      by decide +kernel, by decide +kernel⟩
  refine ⟨once, moves, ⟨_, bob, .inl ⟨.exclusive, by decide +kernel⟩⟩,
    ⟨_, ann, .inl ⟨.exclusive, by decide +kernel⟩⟩, no_deadlock once moves⟩

end House

end Tenure
