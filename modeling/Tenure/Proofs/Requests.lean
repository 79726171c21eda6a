import Tenure.Calls.Grouping
import Tenure.Calls.Lapsing
import Tenure.Proofs.Conduct
import Tenure.Traffic.Moves

/-!
# Requests

What clients may ask of the ledger, and what they would be answered if nobody else were
there. A `Request` is one of the calls of a client with its arguments. `Request.call` is
the call itself, with its waits; `Request.atOnce` decides the same request on the ledger
as it stands at one wall time, without locks and without an early look.

Whoever uses the ledger is a `Party`: it makes one call after another, each of them a
request, a look at things, or one of the chores that settle lapsed holds. A `Client` does
no chores.
-/

namespace Tenure

/-- What a client may ask of the ledger. -/
inductive Request where
  /-- a hold for a time given in nanoseconds -/
  | reserve (id : Id) (holder : String) (duration : Nat) (price : Float → Float)
  /-- a hold for the time set as default -/
  | reserveDefault (id : Id) (holder : String) (price : Float → Float)
  /-- to make a booking of a hold -/
  | confirm (id : Id) (holder : String)
  /-- to give up a hold or the booking of a single resource -/
  | cancel (id : Id) (holder : String)
  /-- to book resources of a group -/
  | book (group : Id) (holder : String) (ids : List Id) (price : Float → Float)
  /-- to book resources of a group by their names -/
  | bookByName (group : Id) (holder : String) (names : List String) (price : Float → Float)
  /-- to give up a group booking -/
  | cancelGroup (booking : Id) (holder : String)

/-- What a request is answered. -/
inductive Answer where
  /-- how an attempt to get a hold came out -/
  | hold (r : Except CallError (Reservation Hold))
  /-- whether something was done -/
  | done (r : Except CallError Unit)
  /-- how an attempt to book came out -/
  | booking (r : Except CallError (Reservation Booking))

/-- Whether the request came to nothing because a lock was not obtained in time. -/
def Answer.late : Answer → Bool
  | hold (.ok (.denied (.contended _))) => true
  | done (.error (.lockTimeout _)) => true
  | booking (.ok (.denied (.contended _))) => true
  | _ => false

/-! ## What is wrong with a request -/

namespace Ledger

variable {α : Type}

/-- What is wrong with a resource: it is unknown, or a test finds fault with it. -/
def fault? (l : Ledger) (check : Id → Resource → Option CallError) (id : Id) : Option CallError :=
  match l.resources.get? id with
  | none => some (.notFound id)
  | some r => check id r

/-- The first fault among some resources. -/
def firstFault? (l : Ledger) (check : Id → Resource → Option CallError) (ids : List Id) :
    Option CallError :=
  ids.findSome? (l.fault? check)

theorem firstFault_cons_of_some {l : Ledger} {check : Id → Resource → Option CallError} {id : Id}
    {ids : List Id} {e : CallError} (h : l.fault? check id = some e) :
    l.firstFault? check (id :: ids) = some e := by
  simp only [firstFault?, List.findSome?_cons, h]

theorem firstFault_cons_of_none {l : Ledger} {check : Id → Resource → Option CallError} {id : Id}
    {ids : List Id} (h : l.fault? check id = none) :
    l.firstFault? check (id :: ids) = l.firstFault? check ids := by
  simp only [firstFault?, List.findSome?_cons, h]

/-- The fault of a resource that is not a member of a group. -/
def foreign (group id : Id) (r : Resource) : Option CallError :=
  if r.group = some group then none else some (.notInGroup id group)

/-- What is wrong with the arguments of a group booking, whatever is in the ledger. -/
def listFault? (holder : String) (ids : List Id) : Option CallError :=
  match holderFault? holder with
  | some fault => some (.limitExceeded fault)
  | none =>
    if ids.isEmpty then some (.limitExceeded .nothingToBook)
    else if maxBookingSize < ids.length then some (.limitExceeded .tooMuchToBook)
    else (firstRepeated [] ids).map .duplicateResource

/-- Without a repeated entry all are apart. -/
theorem nodup_of_firstRepeated {seen ids : List Id} (h : firstRepeated seen ids = none) :
    ids.Nodup ∧ ∀ id ∈ ids, id ∉ seen := by
  induction ids generalizing seen with
  | nil => exact ⟨List.nodup_nil, fun _ h => absurd h List.not_mem_nil⟩
  | cons id ids ih =>
    simp only [firstRepeated] at h
    split at h
    · cases h
    · next new =>
      obtain ⟨apart, unseen⟩ := ih h
      refine ⟨List.nodup_cons.2 ⟨fun hid => unseen id hid List.mem_cons_self, apart⟩, ?_⟩
      intro id' hid
      rcases List.mem_cons.1 hid with rfl | hid
      · exact new
      · exact fun hs => unseen id' hid (List.mem_cons_of_mem _ hs)

/-- A list that is at fault by itself is refused, and any other is looked into. -/
theorem bookGroup_cases (s : CoordinatorSettings) (group : Id) (holder : String) (ids : List Id)
    (price : Float → Float) :
    (∃ e, listFault? holder ids = some e ∧ bookGroup s group holder ids price = .done (.error e)) ∨
    (listFault? holder ids = none ∧
      bookGroup s group holder ids price = bookListed s group holder ids price) := by
  simp only [listFault?, bookGroup]
  cases holderFault? holder with
  | some fault => exact .inl ⟨_, rfl, rfl⟩
  | none =>
    dsimp only
    split
    · exact .inl ⟨_, rfl, rfl⟩
    · split
      · exact .inl ⟨_, rfl, rfl⟩
      · cases firstRepeated [] ids with
        | some id => exact .inl ⟨_, rfl, rfl⟩
        | none => exact .inr ⟨rfl, rfl⟩

theorem nodup_of_listFault {holder : String} {ids : List Id} (h : listFault? holder ids = none) :
    ids.Nodup := by
  simp only [listFault?] at h
  split at h
  · cases h
  · split at h
    · cases h
    · split at h
      · cases h
      · exact (nodup_of_firstRepeated (Option.map_eq_none_iff.1 h)).1

/-- The first member of a group that has a name. -/
def named (l : Ledger) (group : Id) (name : String) : Option Id :=
  (l.members group).find? fun id => (l.resources.get? id).bind Resource.name = some name

/-- The members of a group that have some names; none if one is missing. -/
def allNamed (l : Ledger) (group : Id) : List String → Option (List Id)
  | [] => some []
  | name :: names =>
    match l.named group name with
    | none => none
    | some id => (l.allNamed group names).map fun ids => id :: ids

/-! ## Requests decided at once -/

/-- Places a hold at `now`. -/
def reserveAtOnce (l : Ledger) (now : Int) (id : Id) (holder : String) (duration : Nat)
    (price : Float → Float) : Except CallError (Reservation Hold) × Ledger :=
  match holderFault? holder, holdFault? (duration / 1000000) with
  | some fault, _ => (.error (.limitExceeded fault), l)
  | none, some fault => (.error (.limitExceeded fault), l)
  | none, none => l.place now id holder (duration / 1000000) price

/-- Terms that are not in order are refused, and on any others a hold is placed. -/
theorem reserve_cases (s : CoordinatorSettings) (id : Id) (holder : String) (duration : Nat)
    (price : Float → Float) :
    (∃ e, reserve s id holder duration price = .done (.error e) ∧
      ∀ now (l : Ledger), l.reserveAtOnce now id holder duration price = (.error e, l)) ∨
    (reserve s id holder duration price = placeHold s id holder (duration / 1000000) price ∧
      ∀ now (l : Ledger), l.reserveAtOnce now id holder duration price =
        l.place now id holder (duration / 1000000) price) := by
  simp only [reserve, reserveAtOnce]
  cases holderFault? holder with
  | some fault => exact .inl ⟨_, rfl, fun _ _ => rfl⟩
  | none =>
    cases holdFault? (duration / 1000000) with
    | some fault => exact .inl ⟨_, rfl, fun _ _ => rfl⟩
    | none => exact .inr ⟨rfl, fun _ _ => rfl⟩

/-- Books resources of a group at `now`. -/
def bookAtOnce (l : Ledger) (now : Int) (group : Id) (holder : String) (ids : List Id)
    (price : Float → Float) : Except CallError (Reservation Booking) × Ledger :=
  match listFault? holder ids with
  | some e => (.error e, l)
  | none =>
    if !l.groups.contains group then (.error (.notFound group), l)
    else
      match l.firstFault? (foreign group) (ascending ids) with
      | some e => (.error e, l)
      | none =>
        let r := l.book now group holder ids price
        (.ok r.1, r.2)

/-- Books resources of a group by their names at `now`. -/
def bookByNameAtOnce (l : Ledger) (now : Int) (group : Id) (holder : String)
    (names : List String) (price : Float → Float) :
    Except CallError (Reservation Booking) × Ledger :=
  match l.allNamed group names with
  | none => (.error (.notFound group), l)
  | some ids => l.bookAtOnce now group holder ids price

/-- Gives up a group booking. -/
def cancelGroupAtOnce (l : Ledger) (policy : HolderPolicy) (booking : Id) (holder : String) :
    Except CallError Unit × Ledger :=
  match l.standing booking with
  | .error e => (.error e, l)
  | .ok b =>
    if !l.groups.contains b.group then (.error (.notFound b.group), l)
    else if policy = .strict && b.holder ≠ holder then (.error (.notHolder booking holder), l)
    else
      match l.firstFault? (fun _ _ => none) (ascending b.resources) with
      | some e => (.error e, l)
      | none => (.ok (), l.cancelBooking b)

/-! ### What they come to -/

theorem reserveAtOnce_cases (l : Ledger) (now : Int) (id : Id) (holder : String) (duration : Nat)
    (price : Float → Float) :
    (∃ e, l.reserveAtOnce now id holder duration price = (.error e, l)) ∨
    l.reserveAtOnce now id holder duration price =
      l.place now id holder (duration / 1000000) price := by
  simp only [reserveAtOnce]
  split
  · exact .inl ⟨_, rfl⟩
  · exact .inl ⟨_, rfl⟩
  · exact .inr rfl

/-- A group booking is refused, or decided on for members of the group that are apart. -/
theorem bookAtOnce_cases (l : Ledger) (now : Int) (group : Id) (holder : String) (ids : List Id)
    (price : Float → Float) :
    (∃ e, l.bookAtOnce now group holder ids price = (.error e, l)) ∨
    (listFault? holder ids = none ∧ l.firstFault? (foreign group) (ascending ids) = none ∧
      l.bookAtOnce now group holder ids price =
        (.ok (l.book now group holder ids price).1, (l.book now group holder ids price).2)) := by
  simp only [bookAtOnce]
  split
  · exact .inl ⟨_, rfl⟩
  · next fine =>
    split
    · exact .inl ⟨_, rfl⟩
    · split
      · exact .inl ⟨_, rfl⟩
      · next members => exact .inr ⟨fine, members, rfl⟩

theorem bookByNameAtOnce_cases (l : Ledger) (now : Int) (group : Id) (holder : String)
    (names : List String) (price : Float → Float) :
    l.bookByNameAtOnce now group holder names price = (.error (.notFound group), l) ∨
    ∃ ids, l.bookByNameAtOnce now group holder names price =
      l.bookAtOnce now group holder ids price := by
  simp only [bookByNameAtOnce]
  split
  · exact .inl rfl
  · next ids _ => exact .inr ⟨ids, rfl⟩

/-- Giving up a group booking is refused, or done for one that stands, under the strict policy
for its holder only. -/
theorem cancelGroupAtOnce_cases (l : Ledger) (policy : HolderPolicy) (booking : Id)
    (holder : String) :
    (∃ e, (∀ id, e ≠ .lockTimeout id) ∧
      l.cancelGroupAtOnce policy booking holder = (.error e, l)) ∨
    (∃ b, l.standing booking = .ok b ∧ (policy = .strict → b.holder = holder) ∧
      l.cancelGroupAtOnce policy booking holder = (.ok (), l.cancelBooking b)) := by
  simp only [cancelGroupAtOnce]
  split
  · next e fallen =>
    refine .inl ⟨e, ?_, rfl⟩
    rintro id rfl
    simp only [standing] at fallen
    split at fallen
    · cases fallen
    · split at fallen
      · cases fallen
      · cases fallen
  · next b stands =>
    split
    · exact .inl ⟨_, by simp, rfl⟩
    · split
      · exact .inl ⟨_, by simp, rfl⟩
      · next may =>
        split
        · next e fault =>
          refine .inl ⟨e, ?_, rfl⟩
          rintro id rfl
          obtain ⟨id', -, fault⟩ := List.exists_of_findSome?_eq_some fault
          simp only [fault?] at fault
          split at fault
          · cases fault
          · cases fault
        · exact .inr ⟨b, stands, by simpa using may, rfl⟩

end Ledger

namespace Request

/-- Who asks. -/
def holder : Request → String
  | reserve _ holder _ _ => holder
  | reserveDefault _ holder _ => holder
  | confirm _ holder => holder
  | cancel _ holder => holder
  | book _ holder _ _ => holder
  | bookByName _ holder _ _ => holder
  | cancelGroup _ holder => holder

/-- Whether it asks for a hold on a resource. -/
def ForHold (id : Id) : Request → Prop
  | reserve id' _ _ _ => id' = id
  | reserveDefault id' _ _ => id' = id
  | _ => False

/-- Whether it asks for a booking in a group. -/
def ForBooking (group : Id) : Request → Prop
  | book group' _ _ _ => group' = group
  | bookByName group' _ _ _ => group' = group
  | _ => False

/-- The call that a client makes. -/
def call (s : CoordinatorSettings) : Request → Call Ledger Answer
  | reserve id holder duration price =>
    (Ledger.reserve s id holder duration price).bind fun r => .done (.hold r)
  | reserveDefault id holder price =>
    (Ledger.reserveDefault s id holder price).bind fun r => .done (.hold r)
  | confirm id holder => (Ledger.confirmHold s id holder).bind fun r => .done (.done r)
  | cancel id holder => (Ledger.cancelHold s id holder).bind fun r => .done (.done r)
  | book group holder ids price =>
    (Ledger.bookGroup s group holder ids price).bind fun r => .done (.booking r)
  | bookByName group holder names price =>
    (Ledger.bookByName s group holder names price).bind fun r => .done (.booking r)
  | cancelGroup booking holder =>
    (Ledger.cancelGroup s booking holder).bind fun r => .done (.done r)

/-- The answer at `now` if nobody else is there, and the ledger afterwards. -/
def atOnce (s : CoordinatorSettings) (now : Int) (l : Ledger) : Request → Answer × Ledger
  | reserve id holder duration price =>
    let r := l.reserveAtOnce now id holder duration price
    (.hold r.1, r.2)
  | reserveDefault id holder price =>
    let r := l.reserveAtOnce now id holder (s.holdTimeout * 1000000) price
    (.hold r.1, r.2)
  | confirm id holder =>
    let r := l.confirm s.policy now id holder
    (.done r.1, r.2)
  | cancel id holder =>
    let r := l.cancel s.policy now id holder
    (.done r.1, r.2)
  | book group holder ids price =>
    let r := l.bookAtOnce now group holder ids price
    (.booking r.1, r.2)
  | bookByName group holder names price =>
    let r := l.bookByNameAtOnce now group holder names price
    (.booking r.1, r.2)
  | cancelGroup booking holder =>
    let r := l.cancelGroupAtOnce s.policy booking holder
    (.done r.1, r.2)

end Request

/-! ## Parties -/

/-- What a party finds out from one of its calls. -/
inductive Reply where
  /-- what a request of its was answered -/
  | answered (request : Request) (a : Answer)
  /-- how many holds a sweep has settled -/
  | swept (settled : Nat)
  /-- how an attempt to settle one hold came out -/
  | expired (r : Except CallError Bool)
  /-- whether the reaper has to go on -/
  | round (again : Bool)
  /-- what it looked at is its own business -/
  | looked

/-- The call of a client that takes note of the answer. -/
def Request.errand (s : CoordinatorSettings) (r : Request) : Call Ledger Reply :=
  (r.call s).bind fun a => .done (.answered r a)

/-- The calls of clients: requests, and looks at things, under locks or without. -/
inductive Errand (s : CoordinatorSettings) : Call Ledger Reply → Prop where
  /-- a request -/
  | request (r : Request) : Errand s (r.errand s)
  /-- a look -/
  | look (c : Call Ledger Unit) (idle : c.Idle) : Errand s (c.bind fun _ => .done .looked)

/-- The calls that settle what has lapsed. -/
inductive Chore (s : CoordinatorSettings) : Call Ledger Reply → Prop where
  /-- a sweep over all resources -/
  | sweep : Chore s (Ledger.sweep.bind fun n => .done (.swept n))
  /-- an attempt on one hold -/
  | expiry (id : Id) (generation : UInt64) :
    Chore s ((Ledger.expireHold s id generation).bind fun r => .done (.expired r))
  /-- a round of the reaper -/
  | reaper : Chore s ((Ledger.reaperRound s).bind fun go => .done (.round go))

/-- A party that runs errands, one after the other. -/
def Client (s : CoordinatorSettings) (call : Call Ledger Reply)
    (again : Reply → Option (Call Ledger Reply)) : Prop :=
  Errand s call ∧ ∀ a c, again a = some c → Errand s c

/-- A party that runs errands and does chores, one after the other. -/
def Party (s : CoordinatorSettings) (call : Call Ledger Reply)
    (again : Reply → Option (Call Ledger Reply)) : Prop :=
  (Errand s call ∨ Chore s call) ∧ ∀ a c, again a = some c → Errand s c ∨ Chore s c

/-- Every client is a party. -/
theorem Client.party {s : CoordinatorSettings} {call : Call Ledger Reply}
    {again : Reply → Option (Call Ledger Reply)} (h : Client s call again) : Party s call again :=
  ⟨.inl h.1, fun a c hc => .inl (h.2 a c hc)⟩

/-- A party that makes one request and leaves. -/
theorem Client.once (s : CoordinatorSettings) (r : Request) :
    Client s (r.errand s) fun _ => none := ⟨.request r, fun _ _ h => nomatch h⟩

/-! ### An example -/

/-- A hall with two seats, both of them free. -/
def Ledger.hallOfTwo : Ledger :=
  let seat := Resource.fresh 1.0 (some ⟨0, 3⟩) none none
  { Ledger.empty (.counting 4) with
    resources := (Table.empty.insert ⟨0, 1⟩ seat).insert ⟨0, 2⟩ seat
    groups := Table.empty.insert ⟨0, 3⟩ ⟨none, [⟨0, 1⟩, ⟨0, 2⟩]⟩ }

namespace Request

/-- Ann books both seats. -/
def annBooks : Request := .book ⟨0, 3⟩ "Ann" [⟨0, 2⟩, ⟨0, 1⟩] id

/-- Bob asks for a seat for a second. -/
def bobReserves : Request := .reserve ⟨0, 1⟩ "Bob" 1000000000 id

/-- Bob makes a booking of his hold. -/
def bobConfirms : Request := .confirm ⟨0, 1⟩ "Bob"

end Request

/-- Somebody takes a lock and gives it back at a time. -/
def keeping (key : Key) (due : Nat) : Call Ledger Unit :=
  Call.holding key .exclusive (Call.wait (some due) fun _ => none)

theorem errand_keeping (s : CoordinatorSettings) (key : Key) (due : Nat) :
    Errand s ((keeping key due).bind fun _ => .done .looked) :=
  .look (keeping key due) fun _ => And.intro (fun _ _ h => nomatch h) trivial

theorem client_keeping (s : CoordinatorSettings) (key : Key) (due : Nat) :
    Client s ((keeping key due).bind fun _ => .done .looked) fun _ => none :=
  ⟨errand_keeping s key due, fun _ _ h => nomatch h⟩

end Tenure
