import Tenure.Proofs.Acts
import Tenure.Proofs.Alone.Requests

/-!
# Acts run alone

Whatever is done in a house while all locks are free is done at once, as `Act.atOnce` says,
and leaves all locks free (`Act.freely_call`).
-/

namespace Tenure.House

variable {h h' : House} {held : List Key} {m : Moment} {α : Type}

/-- A call on the ledger of a house comes to what it comes to on the ledger. -/
theorem freely_onLedger {c : Call Ledger α} {R : Ledger → α → Prop}
    (came : c.Freely held m h.ledger R) :
    (onLedger c).Freely held m h fun h' a => ∃ l, h' = { h with ledger := l } ∧ R l a :=
  Call.Freely.within (t := h) (fun _ _ => rfl) (fun _ _ _ => rfl)
    (came.mono fun l _ came => ⟨l, rfl, came⟩)

/-- **Reserving at an endpoint** alone is to ask the gate and to reserve, both at once. -/
theorem freely_reserveAt (s : CoordinatorSettings) (endpoint : String) (id : Id) (holder : String)
    (duration : Nat) (price : Float → Float) :
    (reserveAt s endpoint id holder duration price).Freely [] m h fun h' a =>
      Quietly (h.reserveAtOnce m endpoint id holder duration price) (a, h') := by
  simp only [reserveAtOnce]
  change Call.Freely (if (h.judge endpoint holder m).1 then
    onLedger (Ledger.reserve s id holder duration price)
    else .done (.ok (.denied (.rateLimited endpoint)))) [] m (h.judge endpoint holder m).2 _
  obtain ⟨admitted, h₁⟩ := h.judge endpoint holder m
  cases admitted with
  | false => exact Call.freely_done ⟨rfl, .refl h₁⟩
  | true =>
    refine (freely_onLedger (Ledger.freely_reserve s id holder duration price)).mono ?_
    intro h' a came
    obtain ⟨l, rfl, answered, quiet⟩ := came
    exact ⟨answered, quiet, rfl, rfl⟩

/-! ## Lockers -/

/-- The compartments are tried one after the other, as they are all at once. -/
theorem freely_depositInto (s : CoordinatorSettings) (number : Nat) (bank : Bank)
    (parcel : String) (size : Size) (places : List (Id × Size)) (quiet : Quiet h h') :
    (depositInto s number bank parcel size places).Freely [] m h' fun h'' a =>
      Quietly (fill m.stamp number bank parcel size places h) (a, h'') := by
  induction places generalizing h h' with
  | nil =>
    exact Call.freely_modify
      (Call.freely_done ⟨rfl, quiet.ledger.count _, quiet.admission, quiet.banks⟩)
  | cons place rest ih =>
    obtain ⟨id, own⟩ := place
    refine (freely_onLedger (Ledger.freely_reserve s id parcel bank.codeLife
      Pricing.standard.price)).bind fun h₁ a came => ?_
    obtain ⟨l, rfl, came⟩ := came
    have tried := (quiet.ledger.reserveAtOnce m.stamp id parcel bank.codeLife
      Pricing.standard.price).trans came
    simp only [fill]
    cases hr : h.ledger.reserveAtOnce m.stamp id parcel bank.codeLife Pricing.standard.price with
    | mk answer l₁ =>
      rw [hr] at tried
      obtain ⟨rfl, same⟩ := tried
      have quiet : Quiet { h with ledger := l₁ } { h' with ledger := l } :=
        ⟨same, quiet.admission, quiet.banks⟩
      cases answer with
      | error e => exact Call.freely_done ⟨rfl, quiet⟩
      | ok reservation =>
        cases reservation with
        | denied reason => exact ih quiet
        | granted hold =>
          have assigned := quiet.assign m.stamp number own hold
          exact Call.freely_update_bind
            (Call.freely_done ⟨congrArg Except.ok assigned.1, assigned.2⟩)

/-- **Depositing** alone is to deposit at once. -/
theorem freely_deposit (s : CoordinatorSettings) (number : Nat) (bank : Bank) (parcel : String)
    (size : Size) :
    (deposit s number bank parcel size).Freely [] m h fun h' a =>
      Quietly (h.depositAtOnce m.stamp number bank parcel size) (a, h') := by
  refine Call.Freely.bind (R := fun h' places => h' = h ∧ places = fitting size
    (h.ledger.readMembers bank.group fun id r => (id, r.size, r.statusAt m.stamp))) ?_ ?_
  · refine (freely_onLedger (Ledger.freely_readEach _ _)).bind fun h' read came => ?_
    obtain ⟨l, rfl, rfl, rfl⟩ := came
    exact Call.freely_done ⟨rfl, rfl⟩
  · intro h' places came
    obtain ⟨rfl, rfl⟩ := came
    exact freely_depositInto s number bank parcel size _ (.refl h')

/-- **Picking up** alone is to pick up at once: what the code opened when it was looked up it still
opens. -/
theorem freely_pickup (s : CoordinatorSettings) (number : Nat) (code : String) :
    (pickup s number code).Freely [] m h fun h' a =>
      Quietly (h.pickupAtOnce s.policy m.stamp number code) (a, h') := by
  rw [pickup]
  refine Call.freely_update_bind ?_
  simp only [pickupAtOnce]
  generalize h.redeem m.stamp number code = r
  obtain ⟨redeemed, h₁⟩ := r
  cases redeemed with
  | error e => exact Call.freely_done ⟨rfl, .refl h₁⟩
  | ok a =>
    refine (freely_onLedger (Ledger.freely_cancelHold s a.compartment a.parcel)).bind ?_
    intro h₂ answer came
    obtain ⟨l, rfl, came⟩ := came
    dsimp only
    cases hr : h₁.ledger.cancel s.policy m.stamp a.compartment a.parcel with
    | mk answer' l₁ =>
      simp only [Ledger.Once, hr] at came
      obtain ⟨rfl, same⟩ := came
      cases answer' with
      | ok done => exact Call.freely_done ⟨rfl, same, rfl, rfl⟩
      | error e => exact Call.freely_modify (Call.freely_done ⟨rfl, same, rfl, rfl⟩)

/-- **The status of a bank** is what it is at once. -/
theorem freely_bankStatus (number : Nat) (bank : Bank) :
    (bankStatus number bank).Freely [] m h fun h' a =>
      h' = h ∧ a = h.statusAtOnce m.stamp number bank := by
  refine (freely_onLedger (Ledger.freely_readEach _ _)).bind fun h' read came => ?_
  obtain ⟨l, rfl, rfl, rfl⟩ := came
  exact Call.freely_gets rfl (Call.freely_done ⟨rfl, rfl⟩)

/-- **Acts done alone are done at once.** -/
theorem Act.freely_call (s : CoordinatorSettings) (act : Act) (ord : h.ledger.Orderly) :
    (act.call s).Freely [] m h fun h' a => Quietly (act.atOnce s m h) (a, h') := by
  cases act with
  | ask r =>
    refine (freely_onLedger (r.freely_call s ord)).bind fun h' a came => ?_
    obtain ⟨l, rfl, answered, quiet⟩ := came
    exact Call.freely_done ⟨congrArg Result.answer answered, quiet, rfl, rfl⟩
  | enter endpoint id holder duration price =>
    exact (freely_reserveAt s endpoint id holder duration price).bind fun h' a came =>
      Call.freely_done ⟨congrArg (fun r => Result.answer (.hold r)) came.1, came.2⟩
  | deposit number bank parcel size =>
    exact (freely_deposit s number bank parcel size).bind fun h' a came =>
      Call.freely_done ⟨congrArg Result.parcel came.1, came.2⟩
  | pickup number code =>
    exact (freely_pickup s number code).bind fun h' a came =>
      Call.freely_done ⟨congrArg Result.parcel came.1, came.2⟩
  | status number bank =>
    refine (freely_bankStatus number bank).bind fun h' a came => ?_
    obtain ⟨rfl, rfl⟩ := came
    exact Call.freely_done ⟨rfl, .refl h'⟩

/-! ## The records stay in order -/

/-- Looking for a code leaves the records in order. -/
theorem orderly_assign (now : Int) (number : Nat) (size : Size) (hold : Hold)
    (ord : h.ledger.Orderly) : (h.assign now number size hold).2.ledger.Orderly :=
  ⟨ord.filed, fun id b hb => (ord.fresh id b hb).drawCode now (h.codes number), ord.once⟩

/-- Filling a compartment leaves the ledger in order. -/
theorem orderly_fill (number : Nat) (bank : Bank) (parcel : String) (size : Size) {now : Int}
    (places : List (Id × Size)) (ord : h.ledger.Orderly) :
    (fill now number bank parcel size places h).2.ledger.Orderly := by
  induction places generalizing h with
  | nil => exact ord
  | cons place rest ih =>
    obtain ⟨id, own⟩ := place
    have tried : (h.ledger.reserveAtOnce now id parcel bank.codeLife
        Pricing.standard.price).2.Orderly :=
      (Request.reserve id parcel bank.codeLife Pricing.standard.price).orderly_atOnce .standard ord
    simp only [fill]
    generalize h.ledger.reserveAtOnce now id parcel bank.codeLife Pricing.standard.price = r
      at tried ⊢
    obtain ⟨answer, l⟩ := r
    cases answer with
    | error e => exact tried
    | ok reservation =>
      cases reservation with
      | denied reason => exact ih (h := { h with ledger := l }) tried
      | granted hold => exact orderly_assign (h := { h with ledger := l }) now number own hold tried

/-- A reservation through an endpoint leaves the records in order, whether it is let in or not. -/
theorem orderly_reserveAt (endpoint : String) (id : Id) (holder : String) (duration : Nat)
    (price : Float → Float) (ord : h.ledger.Orderly) :
    (h.reserveAtOnce m endpoint id holder duration price).2.ledger.Orderly := by
  have judged : (h.judge endpoint holder m).2.ledger.Orderly :=
    (Ledger.Quiet.sameBooks ⟨_, rfl⟩).orderly ord
  simp only [reserveAtOnce]
  generalize h.judge endpoint holder m = r at judged ⊢
  obtain ⟨admitted, h₁⟩ := r
  cases admitted with
  | false => exact judged
  | true => exact (Request.reserve id holder duration price).orderly_atOnce .standard judged

/-- Redeeming a code is nothing to the ledger. -/
theorem ledger_redeem (h : House) (now : Int) (number : Nat) (code : String) :
    (h.redeem now number code).2.ledger = h.ledger := by
  simp only [redeem]
  split
  · rfl
  · split
    · rfl
    · split <;> rfl

/-- So does picking up. -/
theorem orderly_pickup (policy : HolderPolicy) (now : Int) (number : Nat) (code : String)
    (ord : h.ledger.Orderly) :
    (h.pickupAtOnce policy now number code).2.ledger.Orderly := by
  have redeemed : (h.redeem now number code).2.ledger.Orderly := by
    rw [ledger_redeem]
    exact ord
  simp only [pickupAtOnce]
  generalize h.redeem now number code = r at redeemed ⊢
  obtain ⟨answer, h₁⟩ := r
  cases answer with
  | error e => exact redeemed
  | ok a =>
    have freed := (h₁.ledger.sameBooks_cancel policy now a.compartment a.parcel).orderly redeemed
    dsimp only
    generalize h₁.ledger.cancel policy now a.compartment a.parcel = r at freed ⊢
    obtain ⟨answer, l⟩ := r
    cases answer with
    | ok done => exact freed
    | error e => exact freed

/-- Acts leave the records in order. -/
theorem Act.orderly_atOnce (s : CoordinatorSettings) (act : Act) (ord : h.ledger.Orderly) :
    (act.atOnce s m h).2.ledger.Orderly := by
  cases act with
  | ask r => exact r.orderly_atOnce s ord
  | enter endpoint id holder duration price =>
    exact orderly_reserveAt endpoint id holder duration price ord
  | deposit number bank parcel size => exact orderly_fill number bank parcel size _ ord
  | pickup number code => exact orderly_pickup s.policy m.stamp number code ord
  | status number bank => exact ord

end Tenure.House
