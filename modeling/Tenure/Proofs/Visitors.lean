import Tenure.Proofs.Acts
import Tenure.Proofs.Steps
import Tenure.Proofs.Visits

/-!
# What visitors of a house do

A visitor makes one visit after another, each of them an act, or an errand or a chore on the
ledger (`House.Visitor`). Until it is answered a visit leaves every code with its parcel and
does to the ledger what elementary steps do (`House.Goes`). Two kinds of answers say more:

* a parcel that gets a code has its hold by then (`House.Deposits`), and
* a code that opens has had its compartment freed in this very stretch, while one that does not
  open is left unused, if it was used up for a while (`House.PicksUp`).
-/

namespace Tenure

namespace Ledger

variable {l l' l'' : Ledger} {m : Moment}

/-! ## What may become of a ledger -/

/-- Nothing has become of the resources, and nobody was told anything. -/
structure Aside (l l' : Ledger) : Prop where
  /-- the resources are the same -/
  resources : l'.resources = l.resources
  /-- the events are the same -/
  hub : l'.hub = l.hub

/-- A row of steps, with other things in between that are no matter of resources. -/
inductive Goes (m : Moment) (l : Ledger) : Ledger → Prop where
  /-- nothing so far -/
  | none : Goes m l l
  /-- one more step -/
  | step {l' l'' : Ledger} (before : Goes m l l') (step : Step m l' l'') : Goes m l l''
  /-- something else -/
  | aside {l' l'' : Ledger} (before : Goes m l l') (aside : Aside l' l'') : Goes m l l''

theorem Goes.steps (h : Goes m l l') (steps : Steps m l' l'') : Goes m l l'' := by
  induction steps with
  | none => exact h
  | snoc _ step ih => exact ih.step step

theorem Goes.quiet (h : Goes m l l') (quiet : Quiet l' l'') : Goes m l l'' := h.step (.count quiet)

theorem Steps.goes (h : Steps m l l') : Goes m l l' := Goes.none.steps h

theorem Quiet.goes (h : Quiet l l') : Goes m l l' := Goes.none.quiet h

theorem Goes.trans (h : Goes m l l') (h' : Goes m l' l'') : Goes m l l'' := by
  induction h' with
  | none => exact h
  | step _ step ih => exact ih.step step
  | aside _ aside ih => exact ih.aside aside

/-- What no step changes, and nothing else that is no matter of resources. -/
theorem Goes.keeps {P : Ledger → Prop} (one : ∀ {l l'}, Step m l l' → P l → P l')
    (other : ∀ {l l'}, Aside l l' → P l → P l') (h : Goes m l l') (start : P l) : P l' := by
  induction h with
  | none => exact start
  | step _ step ih => exact one step ih
  | aside _ aside ih => exact other aside ih

theorem Upkeep.goes (h : Upkeep m l l') : Goes m l l' := by
  induction h with
  | none => exact .none
  | settle _ time id ih => exact ih.steps (Steps.none.settle time id)
  | tidy _ _ _ _ ih => exact ih.aside ⟨rfl, rfl⟩

theorem goes_of_reserve {id : Id} {holder : String} {duration : Nat} {price : Float → Float}
    {a : Except CallError (Reservation Hold)}
    (h : Decided .hold (fun now l => l.reserveAtOnce now id holder duration price) m l l' a) :
    Goes m l l' := by
  rcases h with ⟨-, quiet⟩ | ⟨-, quiet⟩
  · exact quiet.goes
  · exact (l.steps_reserveAtOnce ..).goes.quiet quiet

end Ledger

theorem Reply.Does.goes {s : CoordinatorSettings} {m : Moment} {l l' : Ledger} {a : Reply}
    (h : a.Does s m l l') : l.Goes m l' := by
  rcases h with tells | upkeep
  · exact tells.steps.goes
  · exact upkeep.goes

/-- The hold of a parcel is on its compartment, with this claim. -/
structure Assignment.Holds (a : Assignment) (c : Claim) (l : Ledger) : Prop where
  /-- the claim is that of a hold on the compartment, and its generation is the latest -/
  here : ∃ r, l.resources.get? a.compartment = some r ∧ r.status = .reserved ∧
    r.claim = some c ∧ r.generation = c.generation
  /-- the parcel is the holder -/
  holder : c.holder = a.parcel
  /-- the hold lasts as long as the code -/
  deadline : c.deadline = some a.deadline
  /-- it is part of no group booking -/
  single : c.booking = none

namespace House

variable {α : Type} {s : CoordinatorSettings} {m : Moment} {h h' h'' h₀ : House} {held : List Key}
  {number : Nat} {code : String}

/-! ## Visits -/

/-- What a visit comes to. -/
inductive Report where
  /-- the result of an act -/
  | result (act : Act) (r : Result)
  /-- the reply to an errand, or to a chore -/
  | reply (a : Reply)

/-- A visit for an act. -/
def Act.visit (s : CoordinatorSettings) (act : Act) : Call House Report :=
  (act.call s).bind fun r => .done (.result act r)

/-- A visit for an errand or a chore on the ledger. -/
def visitFor (c : Call Ledger Reply) : Call House Report :=
  (onLedger c).bind fun a => .done (.reply a)

/-- What visitors do. -/
inductive Visit (s : CoordinatorSettings) : Call House Report → Prop where
  /-- an act -/
  | act (act : Act) : Visit s (act.visit s)
  /-- an errand or a chore on the ledger -/
  | party {c : Call Ledger Reply} (party : Errand s c ∨ Chore s c) : Visit s (visitFor c)

/-- A visitor makes one visit after another. -/
def Visitor (s : CoordinatorSettings) (call : Call House Report)
    (again : Report → Option (Call House Report)) : Prop :=
  Visit s call ∧ ∀ a c, again a = some c → Visit s c

/-! ## What may become of a house -/

/-- How a house changes in a stretch of a visit that ends in a wait. -/
structure Goes (m : Moment) (h h' : House) : Prop where
  /-- the ledger changes by steps -/
  ledger : h.ledger.Goes m h'.ledger
  /-- the codes stay -/
  codes : SameCodes h h'

/-- How it changes in the stretch in which a parcel gets its code. -/
structure Deposits (m : Moment) (h h' : House) (number : Nat) (a : Assignment) : Prop where
  /-- the ledger changes by steps -/
  ledger : h.ledger.Goes m h'.ledger
  /-- the code is unused -/
  unused : a.pickedUp = false
  /-- the parcel has its hold -/
  holds : ∃ c, a.Holds c h'.ledger
  /-- no other code was handed out -/
  codes : ∀ bank code a', h'.assignment? bank code = some a' →
    (bank = number ∧ code = a.code ∧ a' = a) ∨
      (h.assignment? bank code).map Assignment.issued = some a'.issued

/-- How it changes in the stretch in which a deposit is answered. -/
def Fills (m : Moment) (h h' : House) (number : Nat) : Except LockerError Assignment → Prop
  | .ok a => Deposits m h h' number a
  | .error _ => Goes m h h'

/-- How it changes in the stretch in which a pickup is answered. -/
inductive PicksUp (s : CoordinatorSettings) (m : Moment) (h h' : House) (number : Nat)
    (code : String) : Except LockerError Assignment → Prop where
  /-- there is no such code -/
  | unknown (same : h' = h) (missing : h.assignment? number code = none) :
    PicksUp s m h h' number code (.error .invalidCode)
  /-- it was used up -/
  | used (same : h' = h) {a : Assignment} (here : h.assignment? number code = some a)
    (used : a.pickedUp = true) : PicksUp s m h h' number code (.error .codeAlreadyUsed)
  /-- its time is over -/
  | expired (same : h' = h) {a : Assignment} (here : h.assignment? number code = some a)
    (unused : a.pickedUp = false) : PicksUp s m h h' number code (.error .codeExpired)
  /-- its compartment is freed -/
  | freed (codes : SameCodes h h') {a : Assignment}
    (here : (h'.assignment? number code).map Assignment.issued = some a.issued)
    (done : Ledger.Quietly (h.ledger.cancel s.policy m.stamp a.compartment a.parcel)
      (.ok (), h'.ledger)) : PicksUp s m h h' number code (.ok a)
  /-- its compartment cannot be freed -/
  | kept (codes : SameCodes h h') {a : Assignment}
    (here : h'.assignment? number code = some a.issued) {e : CallError}
    (decided : Ledger.Decided .done
      (fun now l => l.cancel s.policy now a.compartment a.parcel) m h.ledger h'.ledger (.error e)) :
    PicksUp s m h h' number code (.error (if e.isInvalidState then .codeExpired else .call e))

/-- How it changes in the stretch in which a visit comes to something. -/
def Report.Gives (s : CoordinatorSettings) (m : Moment) (h h' : House) : Report → Prop
  | .result (.deposit number _ _ _) (.parcel x) => Fills m h h' number x
  | .result (.pickup number code) (.parcel x) => PicksUp s m h h' number code x
  | _ => Goes m h h'

theorem Goes.refl (m : Moment) (h : House) : Goes m h h := ⟨.none, .refl h⟩

/-- A change of the ledger comes on top. -/
theorem Goes.onLedger {l : Ledger} (did : Goes m h₀ h) (goes : h.ledger.Goes m l) :
    Goes m h₀ { h with ledger := l } :=
  ⟨did.ledger.trans goes, did.codes.trans (.of_banks rfl)⟩

/-! ## Visits keep to that -/

/-- A call on the ledger that is no matter of codes. -/
theorem meets_goes {c : Call Ledger α} {W : Moment → Ledger → Ledger → Prop}
    {ret : List Key → Moment → Ledger → Ledger → α → Prop}
    {ret' : List Key → Moment → House → House → α → Prop}
    (meets : c.Meets Ledger.conduct W ret held m h.ledger h.ledger) (ord : h.ledger.Orderly)
    (did : Goes m h₀ h) (waits : ∀ {m l l'}, W m l l' → l.Goes m l')
    (answers : ∀ {held m h₀ h l a}, l.Orderly → Goes m h₀ h →
      ret held m h.ledger l a → ret' held m h₀ { h with ledger := l } a) :
    (onLedger c).Meets conduct Goes ret' held m h₀ h :=
  meets_did meets ord did Goes.refl (fun did did' => did.onLedger (waits did')) answers

theorem idle_candidates (bank : Bank) (size : Size) : (candidates bank size).Idle :=
  fun _ _ _ _ => (idle_onLedger (Ledger.idle_readEach _ _)).bind fun _ => trivial

theorem idle_bankStatus (number : Nat) (bank : Bank) : (bankStatus number bank).Idle :=
  fun _ _ _ _ => (idle_onLedger (Ledger.idle_readEach _ _)).bind fun _ _ _ => trivial

/-- A hold that was granted is on the resource. -/
theorem granted_reserveAtOnce {l : Ledger} {now : Int} {id : Id} {holder : String} {duration : Nat}
    {price : Float → Float} {hold : Hold}
    (granted : (l.reserveAtOnce now id holder duration price).1 = .ok (.granted hold)) :
    hold.id = id ∧ hold.holder = holder ∧
      ∃ r, (l.reserveAtOnce now id holder duration price).2.resources.get? id =
        some (Ledger.held r hold) := by
  obtain ⟨e, refused⟩ | placed := l.reserveAtOnce_cases now id holder duration price
  · rw [refused] at granted
    cases granted
  · rw [placed] at granted ⊢
    rcases l.place_cases now id holder (duration / 1000000) price with
      ⟨-, e⟩ | ⟨r, -, -, -, e⟩ | ⟨r, hr, -, e⟩ <;> rw [e] at granted ⊢
    · cases granted
    · cases granted
    · cases granted
      refine ⟨rfl, rfl, r.settled now, ?_⟩
      refine (Ledger.get?_turn _ id id true _).trans ?_
      rw [if_pos rfl, Ledger.get?_settle_self, hr]
      rfl

/-- **Handing out a code** for a hold that was placed in the same stretch. -/
theorem deposits_assign (did : Goes m h₀ h) (now : Int) (number : Nat) (size : Size) {hold : Hold}
    {r : Resource} (here : h.ledger.resources.get? hold.id = some (Ledger.held r hold)) :
    Deposits m h₀ (h.assign now number size hold).2 number (h.assign now number size hold).1 where
  ledger := did.ledger.aside ⟨rfl, rfl⟩
  unused := rfl
  holds := ⟨_, ⟨⟨_, here, rfl, rfl, rfl⟩, rfl, rfl, rfl⟩⟩
  codes bank code a' ha := by
    rw [assignment?_assign] at ha
    split at ha
    · next new =>
      obtain ⟨b, -, rfl⟩ := Option.map_eq_some_iff.1 ha
      exact .inl ⟨new.1.symm, new.2, rfl⟩
    · exact .inr ((did.codes.found bank code).symm.trans (congrArg _ ha))

theorem meets_depositInto (s : CoordinatorSettings) (number : Nat) (bank : Bank) (parcel : String)
    (size : Size) (places : List (Id × Size)) (ord : h.ledger.Orderly) (did : Goes m h₀ h) :
    (depositInto s number bank parcel size places).Meets conduct Goes
      (fun _ m h₀ h x => Fills m h₀ h number x) held m h₀ h := by
  induction places generalizing held m h₀ h with
  | nil =>
    have quiet := h.ledger.quiet_count (.lockerDeposits "full")
    have codes : SameCodes h { h with ledger := h.ledger.count (.lockerDeposits "full") } :=
      .of_banks rfl
    exact ⟨codes.permits (quiet.sameBooks.permits ord), did.onLedger quiet.goes⟩
  | cons place rest ih =>
    obtain ⟨id, own⟩ := place
    refine Call.meets_bind.2 (meets_goes
      (Ledger.meets_reserve s id parcel bank.codeLife _ ⟨.refl _, ord, trivial⟩) ord did
      Ledger.Quiet.goes ?_)
    intro held m h₀ h l answer ord did decided
    have goes := Ledger.goes_of_reserve decided
    cases answer with
    | error e => exact did.onLedger goes
    | ok reservation =>
      cases reservation with
      | denied reason => exact ih ord (did.onLedger goes)
      | granted hold =>
        refine Call.meets_bind.2 (Call.meets_update.2 ⟨permits_assign ord .., ?_⟩)
        rcases decided with ⟨late, -⟩ | ⟨granted, quiet⟩
        · cases late
        · obtain ⟨rfl, rfl, r, hr⟩ := granted_reserveAtOnce granted
          exact deposits_assign (did.onLedger goes) m.stamp number own
            ((congrArg (fun t : Table Id Resource => t.get? hold.id) quiet.resources).trans hr)

/-- Taking back that a code was used. -/
theorem assignment?_mark_false {a : Assignment}
    (here : (h.assignment? number code).map Assignment.issued = some a.issued) :
    (h.mark number code false).assignment? number code = some a.issued := by
  rw [assignment?_mark, if_pos ⟨rfl, rfl⟩]
  exact here

/-- What follows once it is known whether the compartment of a code could be freed. -/
def vacated (number : Nat) (code : String) (a : Assignment) :
    Except CallError Unit → Call House (Except LockerError Assignment)
  | .ok () => .done (.ok a)
  | .error e => do
    Call.modify fun h => h.mark number code false
    return .error (if e.isInvalidState then .codeExpired else .call e)

theorem vacate_eq (s : CoordinatorSettings) (number : Nat) (code : String) (a : Assignment) :
    vacate s number code a =
      (onLedger (Ledger.cancelHold s a.compartment a.parcel)).bind (vacated number code a) := rfl

/-- **Freeing the compartment** of a code that was used up in the same stretch, if at all. -/
theorem meets_vacate (s : CoordinatorSettings) {a : Assignment} (ord : h.ledger.Orderly)
    (codes : SameCodes h₀ h) (same : h.ledger = h₀.ledger)
    (here : (h.assignment? number code).map Assignment.issued = some a.issued) :
    (vacate s number code a).Meets conduct Goes (fun _ m h₀ h x => PicksUp s m h₀ h number code x)
      held m h₀ h := by
  -- the code stays with its parcel while the lock is waited for
  have stable : ∀ held h h', (h.assignment? number code).map Assignment.issued = some a.issued →
      Rely held h h' → (h'.assignment? number code).map Assignment.issued = some a.issued := by
    intro held h h' here others
    obtain ⟨a₁, ha₁, issued⟩ := Option.map_eq_some_iff.1 here
    obtain ⟨a₂, ha₂, issued'⟩ := others.codes number code a₁ ha₁
    rw [ha₂, Option.map_some, issued', issued]
  have covers : ∀ m h₀ h, SameCodes h₀ h → h.ledger = h₀.ledger →
      Covers (fun h => (h.assignment? number code).map Assignment.issued = some a.issued)
        (fun _ => Ledger.Quiet)
        (fun _ => Ledger.Decided .done fun now l => l.cancel s.policy now a.compartment a.parcel)
        Goes (fun held m h₀ h x => (vacated number code a x).Meets conduct Goes
          (fun _ m h₀ h x => PicksUp s m h₀ h number code x) held m h₀ h) m h.ledger h₀ h := by
    intro m h₀ h codes same
    refine ⟨fun l quiet => ⟨?_, codes.trans (.of_banks rfl)⟩, fun held l x ord here decided => ?_⟩
    · rw [← same]
      exact quiet.goes
    · rw [same] at decided
      have codes' : SameCodes h₀ { h with ledger := l } := codes.trans (.of_banks rfl)
      cases x with
      | ok done =>
        rcases decided with ⟨late, -⟩ | done
        · cases late
        · exact .freed codes' here done
      | error e =>
        have marked := sameCodes_mark { h with ledger := l } number code false
        exact ⟨marked.permits (.refl _ ord),
          .kept (codes'.trans marked) (assignment?_mark_false here) decided⟩
  rw [vacate_eq]
  refine Call.meets_bind.2 (meets_onLedger (Ledger.meets_cancelHold s a.compartment a.parcel
    ⟨.refl _, ord, trivial⟩) stable ord here (covers m h₀ h codes same) ?_)
  exact fun m h₁ _ => covers m h₁ h₁ (.refl h₁) rfl

/-- **Using up a code** fails on one that there is not, on a used one and on one whose time is
over, and else succeeds. -/
theorem redeem_cases (h : House) (now : Int) (number : Nat) (code : String) :
    (h.assignment? number code = none ∧ h.redeem now number code = (.error .invalidCode, h)) ∨
    ∃ a, h.assignment? number code = some a ∧
      ((a.pickedUp = true ∧ h.redeem now number code = (.error .codeAlreadyUsed, h)) ∨
      (a.pickedUp = false ∧ h.redeem now number code = (.error .codeExpired, h)) ∨
      (a.pickedUp = false ∧ h.redeem now number code =
        (.ok { a with pickedUp := true }, h.mark number code true))) := by
  simp only [redeem]
  cases ha : h.assignment? number code with
  | none => exact .inl ⟨rfl, rfl⟩
  | some a =>
    refine .inr ⟨a, rfl, ?_⟩
    dsimp only
    cases used : a.pickedUp with
    | true => exact .inl ⟨rfl, rfl⟩
    | false =>
      refine .inr ?_
      cases a.expired now with
      | true => exact .inl ⟨rfl, rfl⟩
      | false => exact .inr ⟨rfl, rfl⟩

theorem meets_pickup (s : CoordinatorSettings) (number : Nat) (code : String) (ord : h.ledger.Orderly) :
    (pickup s number code).Meets conduct Goes (fun _ m h₀ h x => PicksUp s m h₀ h number code x)
      held m h h := by
  refine Call.meets_bind.2 (Call.meets_update.2 ?_)
  have idle : conduct.Permits held h h := .refl _ ord
  rcases h.redeem_cases m.stamp number code with
    ⟨missing, e⟩ | ⟨a, ha, ⟨used, e⟩ | ⟨unused, e⟩ | ⟨unused, e⟩⟩ <;> rw [e]
  · exact ⟨idle, .unknown rfl missing⟩
  · exact ⟨idle, .used rfl ha used⟩
  · exact ⟨idle, .expired rfl ha unused⟩
  · have marked := h.sameCodes_mark number code true
    have permitted : conduct.Permits held h (h.mark number code true) :=
      marked.permits (.refl _ ord)
    refine ⟨permitted, meets_vacate s permitted.1 marked rfl ?_⟩
    rw [marked.found number code, ha]
    rfl

/-- **Acts** keep to it. -/
theorem Act.keeps (s : CoordinatorSettings) (act : Act) :
    (act.visit s).Keeps conduct Goes fun m h h' a => a.Gives s m h h' := by
  intro m h ord
  have waited : Ledger.Waited m h.ledger h.ledger := ⟨.refl _, ord, trivial⟩
  refine Call.meets_bind.2 ?_
  cases act with
  | ask r =>
    refine Call.meets_bind.2 (meets_goes (r.meets_call s waited) ord (.refl m h)
      Ledger.Quiet.goes ?_)
    exact fun _ did serves => did.onLedger (Request.Serves.steps serves).goes
  | enter endpoint id holder duration price =>
    have codes : SameCodes h (h.judge endpoint holder m).2 := .of_banks rfl
    have quiet : h.ledger.Quiet (h.judge endpoint holder m).2.ledger := ⟨_, rfl⟩
    have permitted : conduct.Permits [] h (h.judge endpoint holder m).2 :=
      codes.permits (quiet.sameBooks.permits ord)
    have did : Goes m h (h.judge endpoint holder m).2 := ⟨quiet.goes, codes⟩
    refine Call.meets_bind.2 (Call.meets_bind.2 ⟨permitted, ?_⟩)
    change Call.Meets _ _ _ (if (h.judge endpoint holder m).1 then _ else _) _ _ _ _
    split
    · refine meets_goes (Ledger.meets_reserve s id holder duration price
        ⟨.refl _, permitted.1, trivial⟩) permitted.1 did Ledger.Quiet.goes ?_
      exact fun _ did decided => did.onLedger (Ledger.goes_of_reserve decided)
    · exact did
  | deposit number bank parcel size =>
    have idle := idle_candidates bank size
    refine Call.meets_bind.2 (Call.meets_bind.2 (idle.meets Goes.refl ?_ ord))
    intro held m' h places _ ord
    exact meets_depositInto s number bank parcel size places ord (.refl m' h)
  | pickup number code => exact Call.meets_bind.2 (meets_pickup s number code ord)
  | status number bank =>
    refine Call.meets_bind.2 ((idle_bankStatus number bank).meets Goes.refl ?_ ord)
    exact fun held m' h a _ _ => .refl m' h

/-- **Visits** keep to it. -/
theorem Visit.keeps {c : Call House Report} (visit : Visit s c) :
    c.Keeps conduct Goes fun m h h' a => a.Gives s m h h' := by
  cases visit with
  | act act => exact act.keeps s
  | party party =>
    intro m h ord
    have party : Party s _ fun _ => none := ⟨party, fun _ _ h => nomatch h⟩
    exact Call.meets_bind.2 (meets_goes (party.keepsTo.first m h.ledger ord) ord (.refl m h)
      Ledger.Upkeep.goes fun _ did does => did.onLedger (Reply.Does.goes does))

/-- Whoever comes once is a visitor. -/
theorem Visit.visitor {c : Call House Report} (visit : Visit s c) : Visitor s c fun _ => none :=
  ⟨visit, fun _ _ h => nomatch h⟩

theorem Visitor.keepsTo {call : Call House Report} {again : Report → Option (Call House Report)}
    (h : Visitor s call again) :
    KeepsTo conduct Goes (fun m h h' a => a.Gives s m h h') call again :=
  ⟨h.1.keeps, fun a c hc => (h.2 a c hc).keeps⟩

end House

end Tenure
