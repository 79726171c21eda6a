import Tenure.Proofs.Alone.Acts
import Tenure.Proofs.Service
import Tenure.Proofs.Settlement.Decisions

/-!
# When holds are settled cannot be told

A house is `Ahead` of another one if its ledger is, and nothing else is different. **No act
sees the difference**: while all locks are free, the same act at the same moment comes to the
same result in both houses, and the one is still ahead of the other (`Act.inStep`).

A `Course` is a run of a house in which one thing is done after the other while all locks are
free: acts, sweeps, attempts on single holds, and whatever the reaper does. In between, what
the chores have done only gets the house ahead of one in which nothing but the acts was done.
So the results of the acts do not depend on the chores at all (`settling_unobservable`).
-/

namespace Tenure

/-- Settling leaves the size as it is. -/
@[simp] theorem Resource.size_settled (r : Resource) (now : Int) : (r.settled now).size = r.size := by
  simpa only [Resource.blank] using congrArg Resource.size (r.blank_settled now)

/-- What is read of resources is the same on a ledger ahead, if it would be the same once they
are settled. -/
theorem Ledger.Ahead.readMembers {α : Type} {l l' : Ledger} {now now' : Int} (h : Ahead now l l')
    (le : now ≤ now') {f : Id → Resource → α} (counts : ∀ id r, f id (r.settled now') = f id r)
    (group : Id) : l'.readMembers group f = l.readMembers group f := by
  have read : ∀ (l : Ledger) id, (l.resources.get? id).map (f id) =
      ((l.resources.get? id).map fun r => r.settled now').map (f id) := by
    intro l id
    simp [Function.comp_def, counts]
  simp only [Ledger.readMembers, h.akin.members, read, h.settled le]

namespace House

/-- The second house is the first one with some holds settled that have lapsed at `now`. -/
structure Ahead (now : Int) (h h' : House) : Prop where
  /-- its ledger is ahead -/
  ledger : h.ledger.Ahead now h'.ledger
  /-- the admission controller is the same -/
  admission : h'.admission = h.admission
  /-- the banks are the same -/
  banks : h'.banks = h.banks

variable {h h' h₁ h₁' : House} {now now' : Int} {m m' : Moment}

theorem Ahead.refl (now : Int) (h : House) : Ahead now h h := ⟨.refl now h.ledger, rfl, rfl⟩

theorem Ahead.mono (a : Ahead now h h') (le : now ≤ now') : Ahead now' h h' :=
  ⟨a.ledger.mono le, a.admission, a.banks⟩

/-- What was counted does not matter. -/
theorem Ahead.quiet (a : Ahead now h h') (quiet : Quiet h h₁) (quiet' : Quiet h' h₁') :
    Ahead now h₁ h₁' :=
  ⟨a.ledger.quiet quiet.ledger quiet'.ledger,
    quiet'.admission.trans (a.admission.trans quiet.admission.symm),
    quiet'.banks.trans (a.banks.trans quiet.banks.symm)⟩

/-- The same results, and houses of which the second is ahead. -/
def InStep {α : Type} (now : Int) (r r' : α × House) : Prop := r.1 = r'.1 ∧ Ahead now r.2 r'.2

/-! ## Acts -/

theorem Ahead.judge (a : Ahead now h h') (endpoint key : String) (m : Moment) :
    InStep now (h.judge endpoint key m) (h'.judge endpoint key m) := by
  simp only [House.judge, a.admission]
  exact ⟨rfl, a.ledger.quiet ⟨_, rfl⟩ ⟨_, rfl⟩, rfl, a.banks⟩

theorem Ahead.reserveAtOnce (a : Ahead now h h') (le : now ≤ m.stamp) (endpoint : String) (id : Id)
    (holder : String) (duration : Nat) (price : Float → Float) :
    InStep now (h.reserveAtOnce m endpoint id holder duration price)
      (h'.reserveAtOnce m endpoint id holder duration price) := by
  obtain ⟨same, ahead⟩ := a.judge endpoint holder m
  simp only [House.reserveAtOnce]
  generalize h.judge endpoint holder m = r at same ahead ⊢
  generalize h'.judge endpoint holder m = r' at same ahead ⊢
  obtain ⟨admitted, h₁⟩ := r
  obtain ⟨admitted', h₁'⟩ := r'
  obtain rfl : admitted = admitted' := same
  have ahead : Ahead now h₁ h₁' := ahead
  cases admitted with
  | false => exact ⟨rfl, ahead⟩
  | true =>
    have step := ahead.ledger.reserveAtOnce le id holder duration price
    exact ⟨step.1, step.2, ahead.admission, ahead.banks⟩

theorem Ahead.assign (a : Ahead now h h') (now' : Int) (number : Nat) (size : Size) (hold : Hold) :
    InStep now (h.assign now' number size hold) (h'.assign now' number size hold) := by
  have codes : h'.codes number = h.codes number := by rw [House.codes, a.banks, House.codes]
  obtain ⟨same, drawn⟩ := a.ledger.drawCode now' (h.codes number)
  simp only [House.assign, changeBank, codes, ← same, a.banks]
  exact ⟨rfl, drawn.count _, a.admission, rfl⟩

theorem Ahead.fill (a : Ahead now h h') (le : now ≤ now') (number : Nat) (bank : Bank)
    (parcel : String) (size : Size) (places : List (Id × Size)) :
    InStep now (fill now' number bank parcel size places h)
      (fill now' number bank parcel size places h') := by
  induction places generalizing h h' with
  | nil => exact ⟨rfl, a⟩
  | cons place rest ih =>
    obtain ⟨id, own⟩ := place
    obtain ⟨same, ahead⟩ := a.ledger.reserveAtOnce le id parcel bank.codeLife Pricing.standard.price
    simp only [House.fill]
    generalize h.ledger.reserveAtOnce now' id parcel bank.codeLife Pricing.standard.price = r
      at same ahead ⊢
    generalize h'.ledger.reserveAtOnce now' id parcel bank.codeLife Pricing.standard.price = r'
      at same ahead ⊢
    obtain ⟨answer, l⟩ := r
    obtain ⟨answer', l'⟩ := r'
    obtain rfl : answer = answer' := same
    have tried : Ahead now { h with ledger := l } { h' with ledger := l' } :=
      ⟨ahead, a.admission, a.banks⟩
    cases answer with
    | error e => exact ⟨rfl, tried⟩
    | ok reservation =>
      cases reservation with
      | denied reason => exact ih tried
      | granted hold =>
        have step := tried.assign now' number own hold
        exact ⟨congrArg Except.ok step.1, step.2⟩

theorem Ahead.depositAtOnce (a : Ahead now h h') (le : now ≤ now') (number : Nat) (bank : Bank)
    (parcel : String) (size : Size) :
    InStep now (h.depositAtOnce now' number bank parcel size)
      (h'.depositAtOnce now' number bank parcel size) := by
  have read := a.ledger.readMembers le (f := fun id r => (id, r.size, r.statusAt now'))
    (fun id r => by simp) bank.group
  simp only [House.depositAtOnce, read]
  exact a.fill le number bank parcel size _

theorem Ahead.mark (a : Ahead now h h') (number : Nat) (code : String) (pickedUp : Bool) :
    Ahead now (h.mark number code pickedUp) (h'.mark number code pickedUp) :=
  ⟨a.ledger, a.admission, congrArg (fun banks => List.modify banks number _) a.banks⟩

theorem Ahead.redeem (a : Ahead now h h') (now' : Int) (number : Nat) (code : String) :
    InStep now (h.redeem now' number code) (h'.redeem now' number code) := by
  simp only [House.redeem, assignment?, a.banks]
  split
  · exact ⟨rfl, a⟩
  · split
    · exact ⟨rfl, a⟩
    · split
      · exact ⟨rfl, a⟩
      · exact ⟨rfl, a.mark number code true⟩

theorem Ahead.pickupAtOnce (a : Ahead now h h') (le : now ≤ now') (policy : HolderPolicy)
    (number : Nat) (code : String) :
    InStep now (h.pickupAtOnce policy now' number code) (h'.pickupAtOnce policy now' number code) := by
  obtain ⟨same, ahead⟩ := a.redeem now' number code
  simp only [House.pickupAtOnce]
  generalize h.redeem now' number code = r at same ahead ⊢
  generalize h'.redeem now' number code = r' at same ahead ⊢
  obtain ⟨redeemed, h₁⟩ := r
  obtain ⟨redeemed', h₁'⟩ := r'
  obtain rfl : redeemed = redeemed' := same
  have ahead : Ahead now h₁ h₁' := ahead
  cases redeemed with
  | error e => exact ⟨rfl, ahead⟩
  | ok assignment =>
    obtain ⟨same, freed⟩ :=
      ahead.ledger.cancel le policy assignment.compartment assignment.parcel
    dsimp only
    rw [← same]
    have freed : Ahead now { h₁ with ledger := _ } { h₁' with ledger := _ } :=
      ⟨freed, ahead.admission, ahead.banks⟩
    cases (h₁.ledger.cancel policy now' assignment.compartment assignment.parcel).1 with
    | ok done => exact ⟨rfl, freed⟩
    | error e => exact ⟨rfl, freed.mark number code false⟩

theorem Ahead.statusAtOnce (a : Ahead now h h') (le : now ≤ now') (number : Nat) (bank : Bank) :
    h.statusAtOnce now' number bank = h'.statusAtOnce now' number bank := by
  have read := a.ledger.readMembers le (f := fun _ r => r.statusAt now')
    (fun _ r => r.statusAt_settled now') bank.group
  simp only [House.statusAtOnce, read, a.ledger.akin.members, activeCodes, a.banks]

/-- **Acts do not see what was settled.** -/
theorem Act.inStep (a : Ahead now h h') (le : now ≤ m.stamp) (s : CoordinatorSettings) (act : Act) :
    InStep now (act.atOnce s m h) (act.atOnce s m h') := by
  cases act with
  | ask r =>
    have step := a.ledger.atOnce le s r
    exact ⟨congrArg Result.answer step.1, step.2, a.admission, a.banks⟩
  | enter endpoint id holder duration price =>
    have step := a.reserveAtOnce le endpoint id holder duration price
    exact ⟨congrArg (fun r => Result.answer (.hold r)) step.1, step.2⟩
  | deposit number bank parcel size =>
    have step := a.depositAtOnce le number bank parcel size
    exact ⟨congrArg Result.parcel step.1, step.2⟩
  | pickup number code =>
    have step := a.pickupAtOnce le s.policy number code
    exact ⟨congrArg Result.parcel step.1, step.2⟩
  | status number bank => exact ⟨congrArg Result.status (a.statusAtOnce le number bank), a⟩

/-! ## Courses -/

/-- An act, when it was done, and what came of it. -/
structure Deed where
  /-- when -/
  time : Moment
  /-- what -/
  act : Act
  /-- the result -/
  result : Result

/-- What was done and when. -/
def Deed.asked (d : Deed) : Moment × Act := (d.time, d.act)

end House

/-- One stretch of a chore that begins while all locks are free. -/
inductive Ledger.Stretch (s : CoordinatorSettings) (m : Moment) (l l' : Ledger) : Prop where
  /-- a sweep, an attempt on one hold, or a round of the reaper begins -/
  | begins (c : Call Ledger Reply) (chore : Chore s c) (owner : Owner) (ls : Locks)
    (free : ls.Free) (ran : (c.run owner m l ls).2.1 = l')
  /-- the sleep of the reaper is over, since its time has come or there is an early deadline -/
  | wakes (due : Option Nat) (owner : Owner) (ls : Locks) (free : ls.Free)
    (go : Call Ledger Bool × Ledger × Locks)
    (isOver : (Wait.pause due wakeSign (reap s)).Over owner m l ls go)
    (ran : (go.1.run owner m go.2.1 go.2.2).2.1 = l')

namespace House

/-- A run of a house from `h₀` in which one thing is done after the other while all locks are
free. The deeds come the latest first, `m` is the time of what was done last. -/
inductive Course (s : CoordinatorSettings) (h₀ : House) : List Deed → Moment → House → Prop where
  /-- nothing was done yet -/
  | opens (m : Moment) : Course s h₀ [] m h₀
  /-- an act -/
  | act {deeds : List Deed} {m m' : Moment} {h h' : House} (before : Course s h₀ deeds m h)
    (time : m.Before m') (act : Act) (owner : Owner) {ls ls' : Locks} (free : ls.Free)
    {result : Result} (ran : (act.call s).run owner m' h ls = (.returned result, h', ls')) :
    Course s h₀ (⟨m', act, result⟩ :: deeds) m' h'
  /-- a stretch of a chore -/
  | chore {deeds : List Deed} {m m' : Moment} {h : House} {l : Ledger}
    (before : Course s h₀ deeds m h) (time : m.Before m') (stretch : h.ledger.Stretch s m' l) :
    Course s h₀ deeds m' { h with ledger := l }

end House

/-! ### What chores do -/

namespace Ledger

variable {s : CoordinatorSettings} {m : Moment} {l₀ l l' : Ledger} {α : Type}

/-- What a call promises of every stretch holds of a stretch on free locks, wherever it ends. -/
theorem did_run {did : Moment → Ledger → Ledger → Prop}
    {ret : List Key → Moment → Ledger → Ledger → α → Prop} {c : Call Ledger α} {ls : Locks}
    (meets : c.Meets conduct did ret [] m l₀ l)
    (answers : ∀ held l a, ret held m l₀ l a → did m l₀ l) (ord : Orderly l) (free : ls.Free)
    (owner : Owner) : did m l₀ (c.run owner m l ls).2.1 := by
  have left : Leaves conduct did ret owner m l₀ l ls (c.run owner m l ls) :=
    meets.run ord free.proper Locks.grants_nil
  have ends := left.ends
  generalize c.run owner m l ls = r at ends ⊢
  obtain ⟨stop, l', ls'⟩ := r
  cases stop with
  | returned a =>
    obtain ⟨held, h⟩ := ends
    exact answers held l' a h
  | waiting w => exact ends.1

theorem Stretch.upkeep (h : Stretch s m l l') (ord : Orderly l) : Upkeep m l l' := by
  cases h with
  | begins c chore owner ls free ran =>
    subst ran
    exact did_run (chore.keeps m l ord) (fun _ _ _ did => did) ord free owner
  | wakes due owner ls free go isOver ran =>
    subst ran
    -- all that has happened before is that notice was taken of an early deadline
    have woken : Busy m l go.2.1 ∧ go.1 = reap s ∧ go.2.2 = ls := by
      cases isOver with
      | come sign k passed => exact ⟨⟨.none, ord, trivial⟩, rfl, rfl⟩
      | signed k found =>
        obtain ⟨-, rfl⟩ := wakeSign_eq_some.1 found
        exact ⟨⟨Upkeep.none.tidy _ _ _, ⟨ord.filed, ord.fresh, ord.once⟩, trivial⟩, rfl, rfl⟩
    obtain ⟨busy, same, locks⟩ := woken
    rw [same, locks]
    exact did_run (meets_reap s busy) (fun _ _ _ onward => onward.2.did) busy.ord free owner

end Ledger

namespace House

variable {s : CoordinatorSettings} {h₀ h h' : House} {deeds deeds' : List Deed} {m m' : Moment}
  {now : Int}

/-! ### Nothing but acts -/

/-- What comes of acts if nothing but them is done: the deeds, the latest first, and the house
afterwards. -/
def lazily (s : CoordinatorSettings) (h₀ : House) : List (Moment × Act) → List Deed × House
  | [] => ([], h₀)
  | (m, act) :: past =>
    let before := lazily s h₀ past
    let r := act.atOnce s m before.2
    (⟨m, act, r.1⟩ :: before.1, r.2)

theorem orderly_lazily (s : CoordinatorSettings) (ord : h₀.ledger.Orderly)
    (asked : List (Moment × Act)) : (lazily s h₀ asked).2.ledger.Orderly := by
  induction asked with
  | nil => exact ord
  | cons first past ih => exact first.2.orderly_atOnce s ih

/-- **One act in two houses**, of which the second is ahead of the first. -/
theorem Act.run_ahead (s : CoordinatorSettings) (act : Act) (ord : h.ledger.Orderly)
    (a : Ahead now h h') (le : now ≤ m.stamp) {ls : Locks} (free : ls.Free) (owner : Owner) :
    ∃ t ls', (act.call s).run owner m h' ls = (.returned (act.atOnce s m h).1, t, ls') ∧
      ls'.Free ∧ Ahead now (act.atOnce s m h).2 t := by
  obtain ⟨result, t, ls', ran, free', answered, quiet⟩ :=
    (act.freely_call s (a.ledger.orderly ord)).run free owner
  obtain ⟨same, ahead⟩ := act.inStep a le s
  refine ⟨t, ls', ?_, free', ahead.quiet (.refl _) quiet⟩
  rw [ran, same, answered]

/-- **A course is lazy but for what was settled**: its deeds are what they would be if nothing
but acts had been done, and its house is ahead. -/
theorem Course.lazily (course : Course s h₀ deeds m h) (ord : h₀.ledger.Orderly)
    (steady : m.Steady) :
    deeds = (House.lazily s h₀ (deeds.map Deed.asked)).1 ∧
      Ahead m.stamp (House.lazily s h₀ (deeds.map Deed.asked)).2 h := by
  induction course with
  | opens m => exact ⟨rfl, .refl m.stamp h₀⟩
  | @act deeds m m' h h' before time act owner ls ls' free result ran ih =>
    obtain ⟨same, ahead⟩ := ih (steady.before time)
    have le : m.stamp ≤ m'.stamp := steady m m' time (.refl m')
    have ord := orderly_lazily s ord (deeds.map Deed.asked)
    obtain ⟨t, ls'', ran', -, ahead'⟩ :=
      act.run_ahead s ord (ahead.mono le) (Int.le_refl _) free owner
    rw [ran] at ran'
    obtain ⟨answered, rfl, -⟩ : _ ∧ h' = t ∧ ls' = ls'' := by simpa using ran'
    refine ⟨?_, ahead'⟩
    simp only [List.map_cons, Deed.asked, House.lazily, ← same, answered]
  | @chore deeds m m' h l before time stretch ih =>
    obtain ⟨same, ahead⟩ := ih (steady.before time)
    have le : m.stamp ≤ m'.stamp := steady m m' time (.refl m')
    have ord := ahead.ledger.orderly (orderly_lazily s ord (deeds.map Deed.asked))
    have further := (stretch.upkeep ord).ahead steady
    exact ⟨same, (ahead.ledger.mono le).trans further, ahead.admission, ahead.banks⟩

/-- **When holds are settled cannot be told.** While all locks are free an act comes to the same
in two houses of which one is ahead of the other in settling, and leaves it ahead. So in two
courses of a house in which the same acts are done at the same times the results are the same,
whatever chores are done in between. -/
theorem settling_unobservable (s : CoordinatorSettings) :
    (∀ (now : Int) (h h' : House), h.ledger.Orderly → Ahead now h h' →
      ∀ (act : Act) (m : Moment), now ≤ m.stamp →
      ∀ (owner owner' : Owner) (ls ls' : Locks), ls.Free → ls'.Free →
      ∃ result t t' us us',
        (act.call s).run owner m h ls = (.returned result, t, us) ∧
        (act.call s).run owner' m h' ls' = (.returned result, t', us') ∧
        us.Free ∧ us'.Free ∧ t.ledger.Orderly ∧ Ahead now t t') ∧
    (∀ (h₀ h h' : House) (deeds deeds' : List Deed) (m m' : Moment), h₀.ledger.Orderly →
      m.Steady → m'.Steady → Course s h₀ deeds m h → Course s h₀ deeds' m' h' →
      deeds.map Deed.asked = deeds'.map Deed.asked → deeds = deeds') := by
  constructor
  · intro now h h' ord ahead act m le owner owner' ls ls' free free'
    obtain ⟨result, t, us, ran, left, answered, quiet⟩ := (act.freely_call s ord).run free owner
    obtain ⟨t', us', ran', left', ahead'⟩ := act.run_ahead s ord ahead le free' owner'
    refine ⟨result, t, t', us, us', ran, ?_, left, left', ?_, ?_⟩
    · rw [ran']
      exact congrArg (fun r => (Stop.returned r, t', us')) answered
    · exact quiet.ledger.sameBooks.orderly (act.orderly_atOnce s ord)
    · exact ahead'.quiet quiet (.refl t')
  · intro h₀ h h' deeds deeds' m m' ord steady steady' course course' same
    obtain ⟨e, -⟩ := course.lazily ord steady
    obtain ⟨e', -⟩ := course'.lazily ord steady'
    rw [e, e', same]

/-- A house around the hall with two seats. -/
def hall : House where
  ledger := Ledger.hallOfTwo
  admission := .new (.fixedWindow (.new 5 1000000000))
  banks := []

/-- The house once Bob has a hold on a seat. -/
def hallOfBob : House := (((Act.ask .bobReserves).call .standard).run 0 ⟨0, 0⟩ hall .empty).2.1

/-- The same house after a sweep at the moment at which the hold lapses. -/
def hallSwept : House where
  ledger :=
    ((Ledger.sweep.bind fun n => .done (Reply.swept n)).run 0 ⟨0, 1000⟩ hallOfBob.ledger .empty).2.1
  admission := hallOfBob.admission
  banks := hallOfBob.banks

/-- Ann, who books both seats at that moment, cannot tell whether there was a sweep. -/
theorem settling_unobservable_to_ann :
    (hallOfBob.ledger.resources.get? ⟨0, 1⟩).map Resource.status = some .reserved ∧
    (hallSwept.ledger.resources.get? ⟨0, 1⟩).map Resource.status = some .available ∧
    Ahead 1000 hallOfBob hallSwept ∧
    ∃ deeds deeds' h h', Course .standard hall deeds ⟨0, 1000⟩ h ∧
      Course .standard hall deeds' ⟨0, 1000⟩ h' ∧ Ahead 1000 h h' ∧
      deeds.map Deed.asked = [(⟨0, 1000⟩, .ask .annBooks), (⟨0, 0⟩, .ask .bobReserves)] ∧
      deeds = deeds' := by
  have ord : hall.ledger.Orderly := Ledger.orderly_of_none fun _ => rfl
  have steady : (⟨0, 1000⟩ : Moment).Steady := Moment.steady_of_le (by decide)
  have time : (⟨0, 0⟩ : Moment).Before ⟨0, 1000⟩ := ⟨rfl, by decide⟩
  have stamp : (⟨0, 1000⟩ : Moment).stamp = 1000 := by decide
  obtain ⟨unseen, same⟩ := settling_unobservable .standard
  -- Bob gets his hold
  obtain ⟨bobs, t, -, us, -, bob, -, -, -, ord', -⟩ := unseen 0 hall hall ord (.refl 0 hall)
    (.ask .bobReserves) ⟨0, 0⟩ (by decide) 0 0 .empty .empty Locks.free_empty Locks.free_empty
  obtain rfl : hallOfBob = t := by rw [hallOfBob, bob]
  have held : Course .standard hall _ ⟨0, 0⟩ hallOfBob :=
    (Course.opens ⟨0, 0⟩).act (.refl _) _ 0 Locks.free_empty bob
  -- it is swept away, or not
  have stretch : hallOfBob.ledger.Stretch .standard ⟨0, 1000⟩ hallSwept.ledger :=
    .begins _ .sweep 0 .empty Locks.free_empty rfl
  have ahead : Ahead 1000 hallOfBob hallSwept :=
    ⟨stamp ▸ (stretch.upkeep ord').ahead steady, rfl, rfl⟩
  have swept : Course .standard hall _ ⟨0, 1000⟩ hallSwept := held.chore time stretch
  -- and Ann books both seats
  obtain ⟨anns, h, h', us, us', ann, ann', -, -, -, after⟩ := unseen 1000 _ _ ord' ahead
    (.ask .annBooks) ⟨0, 1000⟩ (by decide) 0 0 .empty .empty Locks.free_empty Locks.free_empty
  have late := held.act time _ 0 Locks.free_empty ann
  have late' := swept.act (.refl _) _ 0 Locks.free_empty ann'
  exact ⟨by decide +kernel, by decide +kernel, ahead, _, _, h, h', late, late', after, rfl,
    same hall h h' _ _ _ _ ord steady steady late late' rfl⟩

end House

end Tenure
