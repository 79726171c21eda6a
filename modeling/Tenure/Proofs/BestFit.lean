import Tenure.Proofs.Alone.Acts
import Tenure.Proofs.Redeeming

/-!
# The best fit

A deposit finds a compartment exactly if one takes the parcel, and then it is the best one: of
those that take it one of the smallest, and of these the one that was registered first
(`Ledger.BestFit`). What comes out of the sorted candidates first is the best fit
(`bestFit_of_fitting`), and while the locks are free it is placed at once: the look that found it
and the decision under its lock see the same status, so no candidate is ever passed over
(`House.run_deposit`).

The code is new because the bank has every code on file that it has handed out before, whoever did
what in between (`Traffic.Moves.listed`).
-/

namespace Tenure

variable {l : Ledger} {now : Int} {size own : Size} {group id : Id}

/-! ## Compartments that fit -/

namespace Ledger

/-- A compartment takes a parcel of a size: it has a size of its own that is no smaller, and counts
as available. -/
def Takes (l : Ledger) (now : Int) (size : Size) (id : Id) (own : Size) : Prop :=
  ∃ r, l.resources.get? id = some r ∧ r.size = some own ∧ size ≤ own ∧ r.statusAt now = .available

/-- The compartment of a group that a parcel of a size should go into. -/
structure BestFit (l : Ledger) (now : Int) (group : Id) (size : Size) (id : Id) (own : Size) :
    Prop where
  /-- it takes the parcel -/
  takes : l.Takes now size id own
  /-- no other that does is smaller -/
  smallest : ∀ id' ∈ l.members group, ∀ own', l.Takes now size id' own' → own ≤ own'
  /-- none of its size that does was registered earlier -/
  earliest : ∃ earlier later, l.members group = earlier ++ id :: later ∧
    ∀ id' ∈ earlier, ¬l.Takes now size id' own

/-- What a member offers to a parcel of a size: itself with its own size, if it takes it. -/
def offer? (l : Ledger) (now : Int) (size : Size) (id : Id) : Option (Id × Size) :=
  (l.resources.get? id).bind fun r => r.size.bind fun own =>
    if size ≤ own && r.statusAt now = .available then some (id, own) else none

theorem offer?_eq_some {place : Id × Size} :
    l.offer? now size id = some place ↔ place.1 = id ∧ l.Takes now size id place.2 := by
  obtain ⟨id', own⟩ := place
  simp only [offer?, Takes]
  cases l.resources.get? id with
  | none => simp
  | some r =>
    simp only [Option.bind_some, Option.some.injEq, exists_eq_left']
    cases r.size with
    | none => simp
    | some s =>
      simp only [Option.bind_some, Option.ite_none_right_eq_some, Bool.and_eq_true,
        decide_eq_true_eq, Option.some.injEq, Prod.mk.injEq]
      constructor
      · rintro ⟨⟨fits, free⟩, rfl, rfl⟩
        exact ⟨rfl, rfl, fits, free⟩
      · rintro ⟨rfl, rfl, fits, free⟩
        exact ⟨⟨fits, free⟩, rfl, rfl⟩

end Ledger

/-- The candidates are what the members of the group offer, the smallest first. -/
theorem fitting_readMembers (l : Ledger) (now : Int) (size : Size) (group : Id) :
    House.fitting size (l.readMembers group fun id r => (id, r.size, r.statusAt now)) =
      sortBy (fun a b => decide (a.2 ≤ b.2)) ((l.members group).filterMap (l.offer? now size)) := by
  rw [House.fitting, Ledger.readMembers, List.filterMap_filterMap]
  refine congrArg (fun offer => sortBy _ (List.filterMap offer _)) (funext fun id => ?_)
  rw [Ledger.offer?]
  cases l.resources.get? id with
  | none => rfl
  | some r => cases hs : r.size <;> simp [hs]

/-- Without candidates nothing takes the parcel. -/
theorem fitting_eq_nil :
    House.fitting size (l.readMembers group fun id r => (id, r.size, r.statusAt now)) = [] ↔
      ∀ id ∈ l.members group, ∀ own, ¬l.Takes now size id own := by
  rw [fitting_readMembers, ← List.perm_nil, (sortBy_perm _).congr_left, List.perm_nil,
    List.filterMap_eq_nil_iff]
  refine forall_congr' fun id => forall_congr' fun _ => ?_
  simp only [Option.eq_none_iff_forall_ne_some, ne_eq, Ledger.offer?_eq_some, Prod.forall, not_and]
  exact ⟨fun none own => none id own rfl, fun none id' own _ => none own⟩

/-- **The first candidate is the best fit.** -/
theorem bestFit_of_fitting {rest : List (Id × Size)}
    (first : House.fitting size (l.readMembers group fun id r => (id, r.size, r.statusAt now)) =
      (id, own) :: rest) : l.BestFit now group size id own := by
  rw [fitting_readMembers] at first
  obtain ⟨before, after, offers, above, below⟩ := sortBy_eq_cons
    (fun (a b : Id × Size) => (Nat.le_total a.2.rank b.2.rank).imp decide_eq_true decide_eq_true)
    (fun a b c hab hbc => decide_eq_true
      (Nat.le_trans (of_decide_eq_true hab) (of_decide_eq_true hbc))) first
  obtain ⟨front, back, members, fronts, backs⟩ := List.filterMap_eq_append_iff.1 offers
  obtain ⟨skipped, id', later, back, idle, offered, laters⟩ := List.filterMap_eq_cons_iff.1 backs
  subst back
  obtain ⟨rfl, takes⟩ := Ledger.offer?_eq_some.1 offered
  -- whatever is offered is larger, or comes later and is not smaller
  have larger : ∀ id' ∈ front, ∀ own', l.Takes now size id' own' → ¬own' ≤ own := by
    intro id' mem own' takes
    have mem : (id', own') ∈ before :=
      fronts ▸ List.mem_filterMap.2 ⟨id', mem, Ledger.offer?_eq_some.2 ⟨rfl, takes⟩⟩
    exact of_decide_eq_false (above _ mem)
  have none : ∀ id' ∈ skipped, ∀ own', ¬l.Takes now size id' own' := by
    intro id' mem own' takes
    have offered : l.offer? now size id' = some (id', own') :=
      Ledger.offer?_eq_some.2 ⟨rfl, takes⟩
    cases (idle id' mem).symm.trans offered
  refine ⟨takes, fun id' mem own' takes' => ?_, front ++ skipped, later, ?_, ?_⟩
  · rw [members, List.mem_append, List.mem_append, List.mem_cons] at mem
    rcases mem with mem | mem | rfl | mem
    · exact Nat.le_of_not_le (larger id' mem own' takes')
    · exact absurd takes' (none id' mem own')
    · obtain ⟨r, hr, size, -⟩ := takes
      obtain ⟨r', hr', size', -⟩ := takes'
      obtain rfl := Option.some.inj (hr.symm.trans hr')
      obtain rfl := Option.some.inj (size.symm.trans size')
      exact Nat.le_refl _
    · have mem : (id', own') ∈ after :=
        laters ▸ List.mem_filterMap.2 ⟨id', mem, Ledger.offer?_eq_some.2 ⟨rfl, takes'⟩⟩
      exact of_decide_eq_true (below _ mem)
  · rw [members, List.append_assoc]
  · intro id' mem takes
    rcases List.mem_append.1 mem with mem | mem
    · exact larger id' mem own takes (Nat.le_refl _)
    · exact none id' mem own takes

/-! ## Deposits -/

namespace House

variable {s : CoordinatorSettings} {m : Moment} {h h' h'' : House} {number : Nat} {bank b : Bank}
  {parcel : String} {a : Assignment}

/-- A deposit has put a parcel into the compartment that fits best, and handed out a code for it. -/
structure PutsAway (h : House) (now : Int) (number : Nat) (bank : Bank) (parcel : String)
    (size : Size) (h' : House) (a : Assignment) : Prop where
  /-- no compartment would have been better -/
  best : h.ledger.BestFit now bank.group size a.compartment a.size
  /-- it is the parcel that was brought -/
  parcel : a.parcel = parcel
  /-- it is still there -/
  unused : a.pickedUp = false
  /-- the code works as long as codes of the bank do -/
  deadline : a.deadline = Stamp.later now (bank.codeLife / 1000000 : Nat)
  /-- the parcel has a hold on the compartment until then -/
  held : ∃ r hold, h.ledger.resources.get? a.compartment = some r ∧
    h'.ledger.resources.get? a.compartment = some (Ledger.held r hold) ∧
    hold.holder = a.parcel ∧ hold.deadline = a.deadline
  /-- all other resources are as they were -/
  others : ∀ id, id ≠ a.compartment → h'.ledger.resources.get? id = h.ledger.resources.get? id
  /-- the bank had nothing on file under the code -/
  new : h.assignment? number a.code = none
  /-- as long as there are codes left it is the first one to come up of which that is true -/
  first : (h.codes number).length < codeRange →
    ∃ k, a.code = codeOf (h.ledger.supply.source.name (h.ledger.supply.drawn.length + k) now) ∧
      ∀ j < k, codeOf (h.ledger.supply.source.name (h.ledger.supply.drawn.length + j) now) ∈
        h.codes number
  /-- the assignment is filed under the code, and the others are as they were -/
  filed : ∀ number' code, h'.assignment? number' code =
    if number = number' ∧ code = a.code then some a else h.assignment? number' code

theorem PutsAway.quiet (put : PutsAway h now number bank parcel size h' a) (quiet : Quiet h' h'') :
    PutsAway h now number bank parcel size h'' a := by
  have resources := quiet.ledger.resources
  obtain ⟨r, hold, here, held, terms⟩ := put.held
  refine { put with held := ⟨r, hold, here, ?_, terms⟩, others := ?_, filed := ?_ }
  · rw [resources, held]
  · intro id ne
    rw [resources, put.others id ne]
  · intro number' code
    rw [assignment?_congr quiet.banks, put.filed]

/-- A hold replaces whatever claim there was. -/
theorem held_settled (r : Resource) (hold : Hold) :
    Ledger.held (r.settled now) hold = Ledger.held r hold := by
  rw [Resource.settled]
  split <;> rfl

/-- **A hold on what counts as available is granted.** -/
theorem reserveAtOnce_of_takes {l : Ledger} (takes : l.Takes now size id own)
    (named : holderFault? parcel = none) {life : Nat} (lasts : holdFault? (life / 1000000) = none)
    (price : Float → Float) :
    ∃ r hold l', l.reserveAtOnce now id parcel life price = (.ok (.granted hold), l') ∧
      l.resources.get? id = some r ∧ hold.id = id ∧ hold.holder = parcel ∧
      hold.deadline = Stamp.later now (life / 1000000 : Nat) ∧ l'.supply = l.supply ∧
      ∀ id', l'.resources.get? id' =
        if id' = id then some (Ledger.held r hold) else l.resources.get? id' := by
  obtain ⟨r, hr, -, -, free⟩ := takes
  rw [Ledger.reserveAtOnce, named, lasts]
  rcases l.place_cases now id parcel (life / 1000000) price with
    ⟨unknown, -⟩ | ⟨r', hr', stored, taken, -⟩ | ⟨r', hr', -, placed⟩
  · cases hr.symm.trans unknown
  · obtain rfl := Option.some.inj (hr.symm.trans hr')
    exact absurd (stored.symm.trans free) taken
  · obtain rfl := Option.some.inj (hr.symm.trans hr')
    refine ⟨r, _, _, placed, hr, rfl, rfl, rfl, (l.sameBooks_settle now id).supply, fun id' => ?_⟩
    refine (Ledger.get?_turn _ id id' true _).trans ?_
    rw [Ledger.get?_settle_self, hr, Option.map_some, Option.map_some, held_settled]
    split
    · rfl
    · next other => exact (l.get?_settle now id id').trans (if_neg other)

/-- **A deposit** fails if nothing takes the parcel, and else puts it where it fits best. -/
theorem depositAtOnce_cases (here : h.banks[number]? = some b) (named : holderFault? parcel = none)
    (lasts : holdFault? (bank.codeLife / 1000000) = none) (size : Size) (now : Int) :
    ((∀ id ∈ h.ledger.members bank.group, ∀ own, ¬h.ledger.Takes now size id own) ∧
      h.depositAtOnce now number bank parcel size = (.error (.noCompartment size), h)) ∨
    ∃ a h', h.depositAtOnce now number bank parcel size = (.ok a, h') ∧
      PutsAway h now number bank parcel size h' a := by
  simp only [depositAtOnce]
  cases hf : fitting size (h.ledger.readMembers bank.group fun id r => (id, r.size, r.statusAt now))
    with
  | nil => exact .inl ⟨fitting_eq_nil.1 hf, rfl⟩
  | cons place rest =>
    obtain ⟨id, own⟩ := place
    have best := bestFit_of_fitting hf
    obtain ⟨r, hold, l, granted, hr, rfl, rfl, deadline, supply, found⟩ :=
      reserveAtOnce_of_takes best.takes named lasts Pricing.standard.price
    simp only [fill, granted]
    refine .inr ⟨_, _, rfl, ?_⟩
    refine ⟨best, rfl, rfl, deadline, ?_, ?_, ?_, fun few => ?_, ?_⟩
    · exact ⟨r, hold, hr, (found hold.id).trans (if_pos rfl), rfl, rfl⟩
    · exact fun id ne => (found id).trans (if_neg ne)
    · exact assignment?_of_assign { h with ledger := l } now number own hold
    · rw [← supply]
      exact l.supply.drawCode_eq_codeOf now few
    · intro number' code
      refine (assignment?_assign ..).trans ?_
      exact congrArg (fun b : Option Bank => ite _ (b.map _) _) here

/-- **Without locks in the way** a deposit is answered at once. -/
theorem run_deposit (s : CoordinatorSettings) (here : h.banks[number]? = some b)
    (named : holderFault? parcel = none) (lasts : holdFault? (bank.codeLife / 1000000) = none)
    (size : Size) (owner : Owner) {ls : Locks} (free : ls.Free) :
    ∃ x h' ls', (deposit s number bank parcel size).run owner m h ls = (.returned x, h', ls') ∧
      ls'.Free ∧
      ((x = .error (.noCompartment size) ∧ Quiet h h' ∧
          ∀ id ∈ h.ledger.members bank.group, ∀ own, ¬h.ledger.Takes m.stamp size id own) ∨
        ∃ a, x = .ok a ∧ PutsAway h m.stamp number bank parcel size h' a) := by
  obtain ⟨x, h', ls', ran, free', answered, quiet⟩ :=
    (freely_deposit (m := m) (h := h) s number bank parcel size).run free owner
  refine ⟨x, h', ls', ran, free', ?_⟩
  rcases depositAtOnce_cases here named lasts size m.stamp with ⟨none, e⟩ | ⟨a, h₁, e, put⟩ <;>
    rw [e] at answered quiet
  · exact .inl ⟨answered.symm, quiet, none⟩
  · exact .inr ⟨a, answered.symm, put.quiet quiet⟩

/-! ## Codes are on file -/

/-- A code that is handed out in a stretch is on file by the time it ends, if there is such a
bank. -/
def Lists (_ : Moment) (_ h' : House) (report : Report) : Prop :=
  ∀ number code, report.issued? = some (number, code) → number < h'.banks.length →
    ∃ a, h'.assignment? number code = some a

theorem Visit.lists {c : Call House Report} (visit : Visit s c) :
    c.Keeps conduct (fun _ _ _ => True) Lists := by
  intro m h ord
  rcases visit.files with ⟨number, code, rfl⟩ | files
  · exact Call.meets_bind.2 (Call.meets_bind.2 ((meets_pickup s number code ord).mono
      (fun _ _ _ _ => trivial) fun _ _ _ _ _ _ => nofun))
  · refine (files m h ord).mono (fun _ _ _ _ => trivial) fun _ _ h₀ h report files => ?_
    intro number code issued known
    cases files with
    | @issues _ _ _ _ a banks _ _ filed =>
      cases issued
      exact ⟨a, by simp [filed, List.getElem?_eq_getElem (banks ▸ known)]⟩
    | same _ none => cases none.symm.trans issued

end House

namespace Traffic

open House

variable {s : CoordinatorSettings} {origin : Int} {h₀ : House} {t u : Traffic House Report}

/-- **Codes stay on file.** Along every history a bank has on file what it has handed out. -/
theorem Moves.listed (ord : h₀.ledger.Orderly)
    (h : Moves (Visitor s) (Traffic.start origin h₀) t) :
    t.Kept conduct (fun _ _ _ => True) Lists ∧
      ∀ number code, (number, code) ∈ issued t.returned → number < t.shared.banks.length →
        ∃ a, t.shared.assignment? number code = some a := by
  induction h with
  | none => exact ⟨kept_start ord, nofun⟩
  | @snoc t u before move ih =>
    obtain ⟨kept, listed⟩ := ih
    obtain ⟨kept', effect⟩ := move.effect
      (fun visitor => ⟨visitor.1.lists, fun a c hc => (visitor.2 a c hc).lists⟩) kept
    have seen : House.Rely [] t.shared u.shared := move.rely kept
    have old : ∀ number code, (number, code) ∈ issued t.returned →
        number < u.shared.banks.length → ∃ a, u.shared.assignment? number code = some a := by
      intro number code mem known
      obtain ⟨a, ha⟩ := listed number code mem (seen.banks ▸ known)
      obtain ⟨a', ha', -⟩ := seen.codes number code a ha
      exact ⟨a', ha'⟩
    refine ⟨kept', ?_⟩
    cases effect with
    | still _ _ returned => exact returned ▸ old
    | waits _ _ returned => exact returned ▸ old
    | answers owner a _ lists returned =>
      intro number code mem known
      rw [returned, issued, List.filterMap_cons] at mem
      cases issues : a.issued? with
      | none =>
        simp only [issues] at mem
        exact old number code mem known
      | some x =>
        simp only [issues, List.mem_cons] at mem
        rcases mem with rfl | mem
        · exact lists number code issues known
        · exact old number code mem known

/-- **A deposit is the best fit.** Whatever has happened in a house before, and whoever is still
there, while nobody has a lock a deposit on terms that are in order finds a compartment exactly if
a member of the bank takes the parcel. Then it puts the parcel where it fits best, under a code
that the bank has never handed out before, and else nothing changes but what is counted. -/
theorem deposit_is_best_fit (ord : h₀.ledger.Orderly)
    (h : Moves (Visitor s) (Traffic.start origin h₀) t) (free : t.locks.Free) {number : Nat}
    {bank : Bank} (here : t.shared.banks[number]? = some bank) {parcel : String}
    (named : holderFault? parcel = none) (lasts : holdFault? (bank.codeLife / 1000000) = none)
    (size : Size) (owner : Owner) :
    ∃ x h' ls',
      (deposit s number bank parcel size).run owner t.clock t.shared t.locks =
        (.returned x, h', ls') ∧ ls'.Free ∧
      (x = .error (.noCompartment size) ↔ ∀ id ∈ t.shared.ledger.members bank.group, ∀ own,
        ¬t.shared.ledger.Takes t.clock.stamp size id own) ∧
      (x = .error (.noCompartment size) → Quiet t.shared h') ∧
      (x ≠ .error (.noCompartment size) → ∃ a, x = .ok a ∧
        PutsAway t.shared t.clock.stamp number bank parcel size h' a ∧
        (number, a.code) ∉ issued t.returned) := by
  obtain ⟨kept, listed⟩ := h.listed ord
  obtain ⟨x, h', ls', ran, free', came⟩ :=
    run_deposit (m := t.clock) s here named lasts size owner free
  refine ⟨x, h', ls', ran, free', ?_⟩
  rcases came with ⟨rfl, quiet, none⟩ | ⟨a, rfl, put⟩
  · exact ⟨iff_of_true rfl none, fun _ => quiet, fun found => absurd rfl found⟩
  · refine ⟨iff_of_false nofun fun none => ?_, nofun, fun _ => ⟨a, rfl, put, fun mem => ?_⟩⟩
    · obtain ⟨earlier, later, members, -⟩ := put.best.earliest
      have mem : a.compartment ∈ t.shared.ledger.members bank.group := by simp [members]
      exact none a.compartment mem a.size put.best.takes
    · obtain ⟨known, -⟩ := List.getElem?_eq_some_iff.1 here
      obtain ⟨a', filed⟩ := listed number a.code mem known
      cases put.new.symm.trans filed

/-! ### A bank of many sizes -/

/-- A bank with a large compartment, one without a size, and two of medium size, of which the first
has a hold that has lapsed. -/
def manySizes : House where
  ledger :=
    { Ledger.empty (.counting 6) with
      resources :=
        (((Table.empty.insert ⟨0, 1⟩ (.fresh 0.0 (some ⟨0, 5⟩) none (some .large))).insert
          ⟨0, 2⟩ (.fresh 0.0 (some ⟨0, 5⟩) none none)).insert
          ⟨0, 3⟩ (Ledger.held (.fresh 0.0 (some ⟨0, 5⟩) none (some .medium))
            ⟨⟨0, 3⟩, "Bob", 0.0, -1, 1⟩)).insert
          ⟨0, 4⟩ (.fresh 0.0 (some ⟨0, 5⟩) none (some .medium))
      groups := Table.empty.insert ⟨0, 5⟩ ⟨none, [⟨0, 1⟩, ⟨0, 2⟩, ⟨0, 3⟩, ⟨0, 4⟩]⟩ }
  admission := .new (.fixedWindow (.new 5 1000000000))
  banks := [⟨⟨0, 5⟩, 5000000, Table.empty⟩]

theorem orderly_manySizes : manySizes.ledger.Orderly := Ledger.orderly_of_none fun _ => rfl

/-- Alice has left a small parcel there. -/
def aliceIsFirst : Traffic House Report :=
  ((Traffic.start 0 manySizes).enter
    ((Act.deposit 0 ⟨⟨0, 5⟩, 5000000, Table.empty⟩ "Alice" .small).visit .standard)).run
    (fun _ => false) none 1

/-- The bank once she has left it. -/
def aliceIsIn : Bank :=
  ⟨⟨0, 5⟩, 5000000, Table.empty.insert "CODE000006" ⟨"CODE000006", "Alice", ⟨0, 3⟩, .medium, 5, false⟩⟩

/-- She has got the compartment of Bob, whose time was over. Ann, who comes next with a small
parcel, gets the other one of medium size. -/
theorem deposit_is_best_fit_for_ann :
    manySizes.ledger.Orderly ∧ Moves (Visitor .standard) (Traffic.start 0 manySizes) aliceIsFirst ∧
    aliceIsFirst.locks.Free ∧ aliceIsFirst.shared.banks[0]? = some aliceIsIn ∧
    holderFault? "Ann" = none ∧ holdFault? (aliceIsIn.codeLife / 1000000) = none ∧
    issued aliceIsFirst.returned = [(0, "CODE000006")] ∧
    ∃ h' ls', (deposit .standard 0 aliceIsIn "Ann" .small).run 1 aliceIsFirst.clock
        aliceIsFirst.shared aliceIsFirst.locks =
      (.returned (.ok ⟨"CODE000007", "Ann", ⟨0, 4⟩, .medium, 5, false⟩), h', ls') ∧
      PutsAway aliceIsFirst.shared 0 0 aliceIsIn "Ann" .small h'
        ⟨"CODE000007", "Ann", ⟨0, 4⟩, .medium, 5, false⟩ ∧
      (0, "CODE000007") ∉ issued aliceIsFirst.returned := by
  have moves : Moves (Visitor .standard) (Traffic.start 0 manySizes) aliceIsFirst :=
    (Move.moves (.enter (Visit.act _).visitor)).trans (run_moves ..)
  have free : aliceIsFirst.locks.Free := Locks.free_of_values (by decide +kernel)
  have here : aliceIsFirst.shared.banks[0]? = some aliceIsIn := rfl
  have named : holderFault? "Ann" = none := by decide +kernel
  have lasts : holdFault? (aliceIsIn.codeLife / 1000000) = none := by decide
  have gets : ((deposit .standard 0 aliceIsIn "Ann" .small).run 1 aliceIsFirst.clock
      aliceIsFirst.shared aliceIsFirst.locks).1 =
    .returned (.ok ⟨"CODE000007", "Ann", ⟨0, 4⟩, .medium, 5, false⟩) := rfl
  obtain ⟨x, h', ls', ran, -, -, -, found⟩ :=
    deposit_is_best_fit orderly_manySizes moves free here named lasts .small 1
  rw [ran] at gets
  cases gets
  obtain ⟨a, e, put, new⟩ := found nofun
  cases e
  exact ⟨orderly_manySizes, moves, free, here, named, lasts, rfl, h', ls', ran, put, new⟩

end Traffic

end Tenure
