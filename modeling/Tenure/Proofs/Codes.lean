import Tenure.Proofs.Expiries
import Tenure.Proofs.Linearity
import Tenure.Proofs.Refusals
import Tenure.Proofs.Visitors

/-!
# What a code opens

A deposit hands out a code for a hold, but a pickup frees the compartment of the code, whoever
has it then: it asks for the compartment in the name of the parcel. So what it frees is the hold
of the deposit, or the booking made of that, as long as no other hold was placed on the
compartment since (`Ledger.Since`). Beyond that only the holder is known, and under the lenient
policy not even that.

A pickup that frees nothing changes nothing that counts and leaves the code unused; if the
compartment counts as available at that moment the code counts as expired.
-/

namespace Tenure

/-- What a resource may be like that was held with the claim `c`, if no other hold was placed on
it since. -/
inductive Resource.Follows (c : Claim) (r : Resource) : Prop where
  /-- the hold is still there -/
  | held (status : r.status = .reserved) (claim : r.claim = some c)
  /-- it has become a booking -/
  | booked (status : r.status = .booked) (claim : r.claim = some { c with deadline := none })
  /-- it is over -/
  | free (status : r.status = .available)
  /-- it is over, and the resource is part of a group booking -/
  | shared (status : r.status = .booked) (part : (r.claim.bind Claim.booking).isSome = true)

namespace Ledger

variable {l l' : Ledger} {m : Moment} {n : Nat} {c : Claim} {id : Id}

/-- What is known of a resource since a hold with the claim `c` was placed on it, the `n`-th of
its holds. -/
structure Since (n : Nat) (c : Claim) (id : Id) (l : Ledger) : Prop where
  /-- holds are counted -/
  counted : n ≤ l.grants id
  /-- if no other was placed it is still like that -/
  follows : l.grants id = n → ∃ r, l.resources.get? id = some r ∧ r.Follows c

/-- Nothing has happened to the resource in question, or a hold that was there has ended or has
become a booking. -/
theorem Since.change (h : Since n c id l) (grants : l'.grants id = l.grants id)
    (found : l'.resources.get? id = l.resources.get? id ∨ ∃ f : Resource → Resource,
      l'.resources.get? id = (l.resources.get? id).map f ∧
        ∀ r, l.resources.get? id = some r → r.Follows c → (f r).Follows c) : Since n c id l' := by
  refine ⟨grants ▸ h.counted, fun last => ?_⟩
  obtain ⟨r, hr, follows⟩ := h.follows (grants ▸ last)
  rcases found with same | ⟨f, changed, keeps⟩
  · exact ⟨r, same.trans hr, follows⟩
  · exact ⟨f r, by rw [changed, hr, Option.map_some], keeps r hr follows⟩

/-- A change of one resource, which somebody is told of. -/
theorem Since.turn (h : Since n c id l) (id' : Id) {f : Resource → Resource} {key : Id} {e : Event}
    (silent : ∀ id, e.places id = false)
    (keeps : ∀ r, l.resources.get? id' = some r → r.Follows c → (f r).Follows c) :
    Since n c id ((l.turn id' true f).send key e) := by
  refine h.change (grants_of_silent rfl silent id) ?_
  change (l.turn id' true f).resources.get? id = _ ∨ _
  by_cases same : id = id'
  · subst same
    exact .inr ⟨f, (l.get?_turn id id true f).trans (if_pos rfl), keeps⟩
  · exact .inl ((l.get?_turn id' id true f).trans (if_neg same))

/-- A hold is placed, here or elsewhere. -/
theorem Since.places (h : Since n c id l) {id' : Id} {r : Resource} {hold : Hold}
    (placed : Places l id' r hold l') : Since n c id l' := by
  have counted := h.counted
  have grants := placed.grants id
  by_cases same : id = id'
  · rw [if_pos same] at grants
    exact ⟨by omega, fun last => by omega⟩
  · rw [if_neg same] at grants
    exact h.change grants (.inl ((placed.found id).trans (if_neg same)))

/-- **Steps** other than placing a hold on the resource leave it like that. -/
theorem Since.step (h : Since n c id l) (step : Step m l l') : Since n c id l' := by
  cases step with
  | count quiet =>
    obtain ⟨x, rfl⟩ := quiet
    exact ⟨h.counted, h.follows⟩
  | @lapse id' => exact h.turn id' (fun _ => rfl) fun _ _ _ => .free rfl
  | hold holder millis price here => exact h.places (l.places_hold m.stamp holder millis price here)
  | @confirm id' r c' here live reserved claim =>
    refine h.turn id' (fun _ => rfl) fun r' hr' follows => ?_
    rw [here] at hr'
    obtain rfl := Option.some.inj hr'
    cases follows with
    | held _ claim' => exact .booked rfl (by rw [confirmed, claim']; rfl)
    | booked status => cases reserved.symm.trans status
    | free status => cases reserved.symm.trans status
    | shared status => cases reserved.symm.trans status
  | @cancel id' => exact h.turn id' (fun _ => rfl) fun _ _ _ => .free rfl
  | @book _ b price books =>
    refine h.change (grants_of_silent books.hub (fun _ => rfl) id) ?_
    rw [books.found]
    split
    · exact .inr ⟨_, rfl, fun _ _ _ => .shared rfl rfl⟩
    · exact .inl rfl
  | @giveUp _ b =>
    refine h.change (grants_of_silent (l.hub_cancelBooking b) (fun _ => rfl) id) ?_
    rw [get?_cancelBooking]
    split
    · refine .inr ⟨_, rfl, fun r _ follows => ?_⟩
      simp only [Resource.givenUp]
      split
      · exact .free rfl
      · exact follows
    · exact .inl rfl

theorem Since.goes (h : Since n c id l) (goes : l.Goes m l') : Since n c id l' :=
  goes.keeps (fun step h => h.step step)
    (fun aside h => h.change (by rw [grants, aside.hub]; rfl) (.inl (by rw [aside.resources]))) h

/-- A hold, or the booking of a single resource, that still lasts is given up at `now` in the name
of a parcel, and nothing else. -/
structure Releases (policy : HolderPolicy) (now : Int) (a : Assignment) (r : Resource)
    (l l' : Ledger) : Prop where
  /-- it is the compartment of the parcel -/
  here : l.resources.get? a.compartment = some r
  /-- somebody has it -/
  taken : r.status ≠ .available
  /-- if for a time, that is not over -/
  live : r.lapsed now = false
  /-- it is part of no group booking -/
  single : r.claim.bind Claim.booking = none
  /-- under the strict policy it is the parcel that has it -/
  own : policy = .strict → r.holder = some a.parcel
  /-- it is freed -/
  freed : l'.resources.get? a.compartment = some r.freed
  /-- the other resources are the same -/
  others : ∀ id, id ≠ a.compartment → l'.resources.get? id = l.resources.get? id
  /-- the group bookings are the same -/
  bookings : l'.bookings = l.bookings

theorem releases_cancel {policy : HolderPolicy} {now : Int} {a : Assignment}
    (done : Quietly (l.cancel policy now a.compartment a.parcel) (.ok (), l')) :
    ∃ r, Releases policy now a r l l' := by
  obtain ⟨answered, x, rfl⟩ := done
  rcases l.cancel_cases policy now a.compartment a.parcel with
    ⟨err, -, e⟩ | ⟨r, hr, live, taken, may, single, e⟩ <;> rw [e] at answered
  · cases answered
  · have found := fun id => l.get?_turn a.compartment id true Resource.freed
    rw [e]
    refine ⟨r, hr, taken, live, single, ?_, ?_, fun id ne => (found id).trans (if_neg ne), rfl⟩
    · rintro rfl
      simpa [mayNot] using may
    · exact (found a.compartment).trans ((if_pos rfl).trans (congrArg _ hr))

/-- Nobody can give up what nobody has. -/
theorem cancel_of_available (policy : HolderPolicy) {now : Int} {r : Resource} (holder : String)
    (hr : l.resources.get? id = some r) (free : r.statusAt now = .available) :
    (l.cancel policy now id holder).1 = .error (.invalidState .cancel id .available) := by
  have found := l.get?_settle_self now id
  rw [hr, Option.map_some] at found
  simp only [cancel, found, Resource.status_settled, free, if_true]

end Ledger

/-- A hold whose time is over, and after which nobody got the resource, counts for nothing. -/
theorem Resource.Follows.free_of_past {r : Resource} {c : Claim} {now deadline : Int}
    (h : r.Follows c) (lasts : c.deadline = some deadline) (come : deadline ≤ now)
    (unbooked : r.status ≠ .booked) : r.statusAt now = .available := by
  cases h with
  | held status claim =>
    have held : r.HeldUntil deadline := ⟨status, by rw [claim, Option.bind_some, lasts]⟩
    exact statusAt_eq_available_of_lapsed (held.lapsed_iff.2 come)
  | booked status => exact absurd status unbooked
  | free status =>
    rw [statusAt_of_not_lapsed, status]
    simp [lapsed, status]
  | shared status => exact absurd status unbooked

/-- What is freed is the hold, or the booking made of it. -/
theorem Resource.Follows.claim_of_single {r : Resource} {c : Claim} (h : r.Follows c)
    (taken : r.status ≠ .available) (single : r.claim.bind Claim.booking = none) :
    r.claim = some c ∨ r.claim = some { c with deadline := none } := by
  cases h with
  | held _ claim => exact .inl claim
  | booked _ claim => exact .inr claim
  | free status => exact absurd status taken
  | shared _ part => simp [single] at part

namespace House

/-- No code was handed out yet. -/
def Unissued (h : House) : Prop := ∀ number code, h.assignment? number code = none

variable {s : CoordinatorSettings} {m : Moment} {h h' : House} {number : Nat} {code : String}
  {x : Except LockerError Assignment} {a : Assignment} {report : Report}

/-! ## Pickups -/

/-- A pickup frees a compartment at most. -/
theorem PicksUp.goes (picks : PicksUp s m h h' number code x) : Goes m h h' := by
  cases picks with
  | unknown same => exact same ▸ .refl m h
  | used same => exact same ▸ .refl m h
  | expired same => exact same ▸ .refl m h
  | freed codes _ done => exact ⟨(h.ledger.steps_cancel ..).goes.quiet done.2, codes⟩
  | @kept codes a _ _ decided =>
    have served := decided.serves (r := .cancel a.compartment a.parcel) rfl
    exact ⟨served.steps.goes, codes⟩

/-- A pickup that fails has at most settled a hold that had lapsed. -/
theorem PicksUp.spares (picks : PicksUp s m h h' number code x) {e : LockerError}
    (failed : x = .error e) : h.ledger.Spares m.stamp h'.ledger := by
  cases picks with
  | unknown same => exact same ▸ (Ledger.OnlySettles.refl _ _).spares
  | used same => exact same ▸ (Ledger.OnlySettles.refl _ _).spares
  | expired same => exact same ▸ (Ledger.OnlySettles.refl _ _).spares
  | freed => cases failed
  | @kept _ a _ _ decided =>
    have served := decided.serves (r := .cancel a.compartment a.parcel) rfl
    obtain ⟨gone, only⟩ := served.onlySettles rfl
    exact only.spares

/-- The code was handed out, or nothing has happened. -/
theorem PicksUp.known (picks : PicksUp s m h h' number code x) :
    (x = .error .invalidCode ∧ h' = h) ∨ ∃ a, h.assignment? number code = some a := by
  cases picks with
  | unknown same => exact .inl ⟨rfl, same⟩
  | used _ here => exact .inr ⟨_, here⟩
  | expired _ here => exact .inr ⟨_, here⟩
  | freed codes here =>
    obtain ⟨a, ha, -⟩ := codes.before here
    exact .inr ⟨a, ha⟩
  | kept codes here =>
    obtain ⟨a, ha, -⟩ := codes.before (congrArg (Option.map Assignment.issued) here)
    exact .inr ⟨a, ha⟩

/-- A code that is about some parcel afterwards was about that parcel before. -/
theorem SameCodes.issued_eq (codes : SameCodes h h') {a' : Assignment}
    (here : h.assignment? number code = some a)
    (here' : (h'.assignment? number code).map Assignment.issued = some a'.issued) :
    a'.issued = a.issued := by
  obtain ⟨a₁, ha₁, same⟩ := codes.before here'
  obtain rfl := Option.some.inj (here.symm.trans ha₁)
  exact same.symm

/-- A pickup that fails leaves the code unused, unless that was used up before. -/
theorem PicksUp.unused (picks : PicksUp s m h h' number code x)
    (here : h.assignment? number code = some a) {e : LockerError} (failed : x = .error e)
    (other : e ≠ .codeAlreadyUsed) : h'.assignment? number code = some a.issued := by
  cases picks with
  | unknown _ missing => exact nomatch missing.symm.trans here
  | used => exact absurd (Except.error.inj failed).symm other
  | @expired same a' here' unused =>
    obtain rfl := Option.some.inj (here'.symm.trans here)
    rw [same, here, Assignment.issued_of_unused unused]
  | freed => cases failed
  | @kept codes a' here' =>
    have issued := congrArg (Option.map Assignment.issued) here'
    have same : a'.issued = a.issued := codes.issued_eq here issued
    rw [here', same]

/-- A pickup that succeeds frees the compartment of its parcel. -/
theorem PicksUp.opens (picks : PicksUp s m h h' number code x)
    (here : h.assignment? number code = some a) {a' : Assignment} (opened : x = .ok a') :
    a'.issued = a.issued ∧ ∃ r, Ledger.Releases s.policy m.stamp a.issued r h.ledger h'.ledger := by
  cases picks with
  | freed codes here' done =>
    cases opened
    rw [← codes.issued_eq here here']
    exact ⟨rfl, Ledger.releases_cancel (a := a'.issued) done⟩
  | _ => cases opened

/-- If the compartment counts as available, the code counts as expired. -/
theorem PicksUp.expires (picks : PicksUp s m h h' number code x)
    (here : h.assignment? number code = some a) {r : Resource}
    (hr : h.ledger.resources.get? a.compartment = some r) (free : r.statusAt m.stamp = .available) :
    x = .error .codeAlreadyUsed ∨ (∃ id, x = .error (.call (.lockTimeout id))) ∨
      x = .error .codeExpired := by
  -- the code is about the same compartment afterwards
  have free : ∀ {a' : Assignment}, SameCodes h h' →
      (h'.assignment? number code).map Assignment.issued = some a'.issued →
      (h.ledger.cancel s.policy m.stamp a'.compartment a'.parcel).1 =
        .error (.invalidState .cancel a'.compartment .available) := by
    intro a' codes here'
    have same : a'.issued.compartment = a.issued.compartment :=
      congrArg Assignment.compartment (codes.issued_eq here here')
    exact Ledger.cancel_of_available s.policy a'.parcel (same ▸ hr) free
  cases picks with
  | unknown _ missing => exact nomatch missing.symm.trans here
  | used => exact .inl rfl
  | expired => exact .inr (.inr rfl)
  | freed codes here' done => cases (free codes here').symm.trans done.1
  | @kept codes a' here' e decided =>
    rcases decided with ⟨late, -⟩ | done
    · cases e with
      | lockTimeout id => exact .inr (.inl ⟨id, rfl⟩)
      | _ => cases late
    · obtain rfl := Except.error.inj (done.1.symm.trans (free codes (congrArg _ here')))
      exact .inr (.inr rfl)

/-! ## Codes -/

/-- **Every visit** that is not a deposit leaves every code with its parcel. -/
theorem Report.Gives.cases (gives : report.Gives s m h h') :
    Goes m h h' ∨ ∃ number bank parcel size a,
      report = .result (.deposit number bank parcel size) (.parcel (.ok a)) ∧
        Deposits m h h' number a := by
  cases report with
  | reply a => exact .inl gives
  | result act r =>
    cases act with
    | deposit number bank parcel size =>
      cases r with
      | parcel x =>
        cases x with
        | ok a => exact .inr ⟨number, bank, parcel, size, a, rfl, gives⟩
        | error e => exact .inl gives
      | _ => exact .inl gives
    | pickup number code =>
      cases r with
      | parcel x => exact .inl (PicksUp.goes gives)
      | _ => exact .inl gives
    | _ => exact .inl gives

theorem Report.Gives.ledger (gives : report.Gives s m h h') : h.ledger.Goes m h'.ledger := by
  rcases gives.cases with goes | ⟨_, _, _, _, _, _, deposits⟩
  · exact goes.ledger
  · exact deposits.ledger

/-- **Every code** was there before, or was handed out just now. -/
theorem Report.Gives.codes (gives : report.Gives s m h h') {bank : Nat}
    (here : h'.assignment? bank code = some a) :
    (h.assignment? bank code).map Assignment.issued = some a.issued ∨
      (∃ b parcel size, report = .result (.deposit bank b parcel size) (.parcel (.ok a))) ∧
        code = a.code ∧ a.pickedUp = false ∧ ∃ c, a.Holds c h'.ledger := by
  rcases gives.cases with goes | ⟨number, b, parcel, size, a', rfl, deposits⟩
  · exact .inl ((goes.codes.found bank code).symm.trans (congrArg _ here))
  · rcases deposits.codes bank code a here with ⟨rfl, rfl, rfl⟩ | before
    · exact .inr ⟨⟨b, parcel, size, rfl⟩, rfl, deposits.unused, deposits.holds⟩
    · exact .inl before

end House

namespace Traffic

open House

variable {s : CoordinatorSettings} {origin : Int} {h₀ : House} {t u : Traffic House Report}
  {number : Nat} {code : String} {a : Assignment} {c : Claim}

/-! ## Every reachable state -/

/-- A visit comes to something in the move from `t` to `u`. -/
def Reports (t u : Traffic House Report) (report : Report) : Prop :=
  ∃ owner time, u.returned = ⟨owner, report, time⟩ :: t.returned

/-- In the move from `t` to `u`, of some history of visitors, a deposit is answered with `a`. Its
hold has been placed, with the claim `c`. -/
structure Deposited (s : CoordinatorSettings) (origin : Int) (h₀ : House) (number : Nat)
    (a : Assignment) (c : Claim) (t u : Traffic House Report) : Prop where
  /-- what happened before -/
  before : Moves (Visitor s) (Traffic.start origin h₀) t
  /-- the move -/
  move : Move (Visitor s) t u
  /-- the answer -/
  answer : ∃ bank parcel size,
    t.Reports u (.result (.deposit number bank parcel size) (.parcel (.ok a)))
  /-- the code was not used yet -/
  unused : a.pickedUp = false
  /-- the hold -/
  holds : a.Holds c u.shared.ledger

/-- The code of `a` was handed out by a deposit before `t`, and it is known what may have become of
the hold. -/
def HandedOut (s : CoordinatorSettings) (origin : Int) (h₀ : House) (number : Nat) (a : Assignment)
    (t : Traffic House Report) : Prop :=
  ∃ t₁ u₁ c, Deposited s origin h₀ number a c t₁ u₁ ∧ Moves (Visitor s) u₁ t ∧
    Ledger.Since (u₁.shared.ledger.grants a.compartment) c a.compartment t.shared.ledger

theorem HandedOut.move (h : HandedOut s origin h₀ number a t) (move : Move (Visitor s) t u)
    {m : Moment} (goes : t.shared.ledger.Goes m u.shared.ledger) :
    HandedOut s origin h₀ number a u := by
  obtain ⟨t₁, u₁, c, deposited, moves, since⟩ := h
  exact ⟨t₁, u₁, c, deposited, moves.snoc move, since.goes goes⟩

/-- A deposit hands out a code. -/
theorem Deposited.handedOut (h : Deposited s origin h₀ number a c t u) :
    HandedOut s origin h₀ number a u := by
  obtain ⟨r, hr, status, claim, -⟩ := h.holds.here
  exact ⟨t, u, c, h, .none, Nat.le_refl _, fun _ => ⟨r, hr, .held status claim⟩⟩

/-- An answer that comes back is given as promised. -/
theorem Effect.gives {wait : Moment → House → House → Prop}
    {ret : Moment → House → House → Report → Prop} {report : Report} (effect : Effect wait ret t u)
    (answer : t.Reports u report) : ret t.clock t.shared u.shared report := by
  obtain ⟨owner, time, answer⟩ := answer
  cases effect with
  | still _ _ returned => simp [answer] at returned
  | waits _ _ returned => simp [answer] at returned
  | answers _ a _ did returned =>
    cases returned.symm.trans answer
    exact did

/-- **Along every history** codes come from deposits. -/
theorem Moves.handedOut (ord : h₀.ledger.Orderly) (unissued : h₀.Unissued)
    (h : Moves (Visitor s) (Traffic.start origin h₀) t) :
    t.Kept conduct Goes (fun m h h' a => a.Gives s m h h') ∧
      ∀ number code a, t.shared.assignment? number code = some a →
        a.code = code ∧ HandedOut s origin h₀ number a.issued t := by
  induction h with
  | none =>
    exact ⟨kept_start ord, fun number code a ha => nomatch (unissued number code).symm.trans ha⟩
  | @snoc t u before move ih =>
    obtain ⟨kept, known⟩ := ih
    obtain ⟨kept', effect⟩ := move.effect Visitor.keepsTo kept
    refine ⟨kept', fun number code a ha => ?_⟩
    -- a code that was there before
    have old : ∀ {m}, t.shared.ledger.Goes m u.shared.ledger →
        (t.shared.assignment? number code).map Assignment.issued = some a.issued →
        a.code = code ∧ HandedOut s origin h₀ number a.issued u := by
      intro m goes issued
      obtain ⟨a₁, ha₁, same⟩ := Option.map_eq_some_iff.1 issued
      obtain ⟨made, handedOut⟩ := known number code a₁ ha₁
      rw [same] at handedOut
      exact ⟨(congrArg Assignment.code same).symm.trans made, handedOut.move move goes⟩
    cases effect with
    | still _ shared _ =>
      rw [shared] at ha
      have goes : t.shared.ledger.Goes t.clock u.shared.ledger := by
        rw [shared]
        exact .none
      exact old goes (congrArg _ ha)
    | waits _ did _ => exact old did.ledger ((did.codes.found number code).symm.trans (congrArg _ ha))
    | answers owner report clock did returned =>
      rcases did.codes ha with issued | ⟨⟨bank, parcel, size, rfl⟩, made, unused, c, holds⟩
      · exact old did.ledger issued
      · refine ⟨made.symm, ?_⟩
        rw [Assignment.issued_of_unused unused]
        exact Deposited.handedOut
          ⟨before, move, ⟨bank, parcel, size, owner, _, returned⟩, unused, holds⟩

/-- How the pickup of the code of `a` ends in the move from `t` to `u`, with the answer `x`. Its
hold was placed with the claim `c`, as the `n`-th one on the compartment. -/
structure Redeems (s : CoordinatorSettings) (t u : Traffic House Report) (number : Nat)
    (a : Assignment) (c : Claim) (n : Nat) (x : Except LockerError Assignment) : Prop where
  /-- it frees the compartment: of the hold of the deposit, or of the booking made of that, if no
  other hold was placed there since -/
  opens : ∀ a', x = .ok a' → a'.issued = a ∧ ∃ r,
    Ledger.Releases s.policy t.clock.stamp a r t.shared.ledger u.shared.ledger ∧
      (t.shared.ledger.grants a.compartment = n →
        r.claim = some c ∨ r.claim = some { c with deadline := none })
  /-- or it fails, which changes nothing that counts, and leaves the code unused if it was -/
  fails : ∀ e, x = .error e → t.shared.ledger.Spares t.clock.stamp u.shared.ledger ∧
    (e ≠ .codeAlreadyUsed → u.shared.assignment? number a.code = some a)
  /-- if the compartment counts as available, the code counts as expired -/
  expires : ∀ r, t.shared.ledger.resources.get? a.compartment = some r →
    r.statusAt t.clock.stamp = .available →
      x = .error .codeAlreadyUsed ∨ (∃ id, x = .error (.call (.lockTimeout id))) ∨
        x = .error .codeExpired
  /-- so it does if the hold has lapsed and nobody has got the compartment since -/
  lapsed : ∀ r, t.shared.ledger.resources.get? a.compartment = some r →
    t.shared.ledger.grants a.compartment = n → a.deadline ≤ t.clock.stamp → r.status ≠ .booked →
      r.statusAt t.clock.stamp = .available

/-- **A code opens its own deposit.** Whoever comes with a code in the course of any history, under
either policy, comes with one that was handed out by a deposit in the course of it, or nothing
happens. What a pickup with that code does to the compartment depends on what has become of the
hold of that deposit. -/
theorem code_opens_its_deposit (ord : h₀.ledger.Orderly) (unissued : h₀.Unissued)
    (h : Moves (Visitor s) (Traffic.start origin h₀) t) (move : Move (Visitor s) t u)
    {x : Except LockerError Assignment}
    (answer : t.Reports u (.result (.pickup number code) (.parcel x))) :
    (x = .error .invalidCode ∧ u.shared = t.shared) ∨
    ∃ a c t₁ u₁, a.code = code ∧ Deposited s origin h₀ number a c t₁ u₁ ∧ Moves (Visitor s) u₁ t ∧
      Redeems s t u number a c (u₁.shared.ledger.grants a.compartment) x := by
  obtain ⟨kept, known⟩ := h.handedOut ord unissued
  have picks : PicksUp s t.clock t.shared u.shared number code x :=
    (move.effect Visitor.keepsTo kept).2.gives answer
  rcases picks.known with nothing | ⟨a, ha⟩
  · exact .inl nothing
  · obtain ⟨rfl, t₁, u₁, c, deposited, moves, since⟩ := known number code a ha
    refine .inr ⟨a.issued, c, t₁, u₁, rfl, deposited, moves, ?_⟩
    refine { opens := ?_, fails := ?_, expires := ?_, lapsed := ?_ }
    · intro a' opened
      obtain ⟨same, r, releases⟩ := picks.opens ha opened
      refine ⟨same, r, releases, fun last => ?_⟩
      obtain ⟨r', hr', follows⟩ := since.follows last
      obtain rfl := Option.some.inj (hr'.symm.trans releases.here)
      exact follows.claim_of_single releases.taken releases.single
    · exact fun e failed => ⟨picks.spares failed, picks.unused ha failed⟩
    · exact fun r hr free => picks.expires ha hr free
    · intro r hr last come unbooked
      obtain ⟨r', hr', follows⟩ := since.follows last
      obtain rfl := Option.some.inj (hr'.symm.trans hr)
      exact follows.free_of_past deposited.holds.deadline come unbooked

/-! ### Alice's parcel -/

/-- A bank with one compartment, where codes work for five milliseconds. -/
def bankOfOne : Bank := ⟨⟨0, 2⟩, 5000000, Table.empty⟩

/-- A house with that bank, in which nothing has happened yet. -/
def lockers : House where
  ledger :=
    { Ledger.empty (.counting 3) with
      resources := Table.empty.insert ⟨0, 1⟩ (.fresh 0.0 (some ⟨0, 2⟩) none (some .small))
      groups := Table.empty.insert ⟨0, 2⟩ ⟨none, [⟨0, 1⟩]⟩ }
  admission := .new (.fixedWindow (.new 5 1000000000))
  banks := [bankOfOne]

theorem orderly_lockers : lockers.ledger.Orderly := Ledger.orderly_of_none fun _ => rfl

theorem unissued_lockers : lockers.Unissued := by
  intro number code
  cases number <;> rfl

/-- What Alice gets for her parcel. -/
def alicesParcel : Assignment := ⟨"CODE000003", "Alice", ⟨0, 1⟩, .small, 5, false⟩

/-- Alice comes with a parcel. -/
def aliceDeposits : Traffic House Report :=
  (Traffic.start 0 lockers).enter ((Act.deposit 0 bankOfOne "Alice" .small).visit .standard)

/-- She has left it there. -/
def aliceDeposited : Traffic House Report := aliceDeposits.run (fun _ => false) none 1

/-- She comes for it. -/
def aliceReturns : Traffic House Report :=
  aliceDeposited.enter ((Act.pickup 0 alicesParcel.code).visit .standard)

/-- She has got it. -/
def aliceLeaves : Traffic House Report := aliceReturns.run (fun _ => false) none 1

/-- So it is when Alice leaves a parcel and comes back for it. -/
theorem code_opens_alices_deposit :
    lockers.ledger.Orderly ∧ lockers.Unissued ∧
    Moves (Visitor .standard) (Traffic.start 0 lockers) aliceReturns ∧
    Move (Visitor .standard) aliceReturns aliceLeaves ∧
    aliceReturns.Reports aliceLeaves (.result (.pickup 0 alicesParcel.code)
      (.parcel (.ok { alicesParcel with pickedUp := true }))) ∧
    ∃ a c t₁ u₁, a.code = alicesParcel.code ∧ Deposited .standard 0 lockers 0 a c t₁ u₁ ∧
      Moves (Visitor .standard) u₁ aliceReturns ∧
      Redeems .standard aliceReturns aliceLeaves 0 a c (u₁.shared.ledger.grants a.compartment)
        (.ok { alicesParcel with pickedUp := true }) := by
  have deposits : Moves (Visitor .standard) (Traffic.start 0 lockers) aliceDeposited :=
    (Move.moves (.enter (Visit.act _).visitor)).trans (run_moves ..)
  have moves : Moves (Visitor .standard) (Traffic.start 0 lockers) aliceReturns :=
    deposits.snoc (.enter (Visit.act _).visitor)
  have move : Move (Visitor .standard) aliceReturns aliceLeaves := stepFrom_move rfl rfl
  have answer : aliceReturns.Reports aliceLeaves _ := ⟨1, 0, rfl⟩
  have redeems := code_opens_its_deposit orderly_lockers unissued_lockers moves move answer
  exact ⟨orderly_lockers, unissued_lockers, moves, move, answer,
    redeems.resolve_left fun h => nomatch h.1⟩

/-- Alice has come for her parcel while somebody had the lock, and after a request for a hold in her
name. When the lock is free her hold has lapsed, and the request is granted. -/
def aliceWaits : Traffic House Report :=
  (((aliceDeposited.enter (visitFor (watch.bind fun _ => .done .looked))).enter
    ((Act.ask (.reserve ⟨0, 1⟩ "Alice" 1000000000 id)).visit .standard)).enter
    ((Act.pickup 0 alicesParcel.code).visit .standard)).run (fun _ => false) none 6

/-- She has got the lock as well. -/
def aliceUnlocks : Traffic House Report := aliceWaits.run (fun _ => false) none 1

/-- **A code may open another hold.** If a hold lapses while somebody waits with its code, and the
compartment goes to the same holder once more, the code opens that hold. -/
theorem code_opens_later_hold :
    (∃ c, Deposited .standard 0 lockers 0 alicesParcel c aliceDeposits aliceDeposited ∧
      c.generation = 1) ∧
    Moves (Visitor .standard) aliceDeposited aliceWaits ∧
    Move (Visitor .standard) aliceWaits aliceUnlocks ∧
    aliceWaits.Reports aliceUnlocks (.result (.pickup 0 alicesParcel.code)
      (.parcel (.ok { alicesParcel with pickedUp := true }))) ∧
    alicesParcel.deadline ≤ aliceWaits.clock.stamp ∧
    ∃ r, Ledger.Releases .strict aliceWaits.clock.stamp alicesParcel r aliceWaits.shared.ledger
      aliceUnlocks.shared.ledger ∧ r.claim.map Claim.generation = some 2 := by
  have enters : Moves (Visitor .standard) (Traffic.start 0 lockers) aliceDeposits :=
    Move.moves (.enter (Visit.act _).visitor)
  have deposits : Move (Visitor .standard) aliceDeposits aliceDeposited := stepFrom_move rfl rfl
  have holds : alicesParcel.Holds ⟨"Alice", _, some 5, 1, none⟩ aliceDeposited.shared.ledger :=
    ⟨⟨_, rfl, rfl, rfl, rfl⟩, rfl, rfl, rfl⟩
  have deposited : Deposited .standard 0 lockers 0 alicesParcel _ aliceDeposits aliceDeposited :=
    ⟨enters, deposits, ⟨bankOfOne, "Alice", .small, 0, 0, rfl⟩, rfl, holds⟩
  have looks : Visit .standard (visitFor (watch.bind fun _ => .done .looked)) :=
    .party (.inl (errand_keeping ..))
  have waits : Moves (Visitor .standard) aliceDeposited aliceWaits :=
    (((Moves.none.snoc (.enter looks.visitor)).snoc (.enter (Visit.act _).visitor)).snoc
      (.enter (Visit.act _).visitor)).trans (run_moves ..)
  have unlocks : Move (Visitor .standard) aliceWaits aliceUnlocks := stepFrom_move rfl rfl
  have answer : aliceWaits.Reports aliceUnlocks (.result (.pickup 0 alicesParcel.code)
      (.parcel (.ok { alicesParcel with pickedUp := true }))) := ⟨3, 10, rfl⟩
  have whole := (enters.snoc deposits).trans waits
  have ⟨kept, _⟩ := whole.handedOut orderly_lockers unissued_lockers
  have picks := (unlocks.effect Visitor.keepsTo kept).2.gives answer
  have here : aliceWaits.shared.assignment? 0 alicesParcel.code =
      some { alicesParcel with pickedUp := true } := rfl
  obtain ⟨r, releases⟩ : ∃ r, Ledger.Releases .strict aliceWaits.clock.stamp alicesParcel r
      aliceWaits.shared.ledger aliceUnlocks.shared.ledger := (PicksUp.opens picks here rfl).2
  have second : (aliceWaits.shared.ledger.resources.get? alicesParcel.compartment).map
      (fun r => r.claim.map Claim.generation) = some (some 2) := rfl
  rw [releases.here] at second
  exact ⟨⟨_, deposited, rfl⟩, waits, unlocks, answer, by decide +kernel, r, releases,
    Option.some.inj second⟩

end Traffic

end Tenure
