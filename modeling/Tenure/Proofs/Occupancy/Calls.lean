import Tenure.Proofs.Occupancy.Meanwhile

/-!
# What a bank does with its codes

The calls of a bank leave its codes and its compartments matched (`House.Tallies`), whatever is
done elsewhere while they wait for locks, and whatever chores are done (`House.Meanwhile`): one
more compartment (`bears_addCompartment`), a deposit (`bears_deposit`), a pickup
(`bears_pickup`).

A pickup marks its code as used before it has freed the compartment. In between the compartments
match the codes as they were before the mark (`House.Vacating`). If the hold of the parcel lapses
meanwhile, the compartment is nobody's by then, for other calls of the bank do not come in
between.
-/

namespace Tenure

namespace Ledger

variable {l l' : Ledger} {now : Int} {id : Id}

/-- **A resource is registered**, or its name is taken. -/
theorem add_cases (l : Ledger) (id : Id) (r : Resource) :
    l.add id r = .error (.duplicate id) ∨
    ∃ l', l.add id r = .ok l' ∧ l.resources.get? id = none ∧
      (∀ id', l'.resources.get? id' = if id' = id then some r else l.resources.get? id') ∧
      ∀ group, r.group = some group → l'.members group = l.members group ++ [id] := by
  simp only [add]
  split
  · exact .inl rfl
  · next new =>
    refine .inr ⟨_, rfl, ?_, fun id' => Table.get?_insert .., fun group member => ?_⟩
    · simpa [Table.contains_eq_isSome] using new
    · simp only [send, members, member, joined]
      cases l.groups.get? group with
      | none => rw [Table.get?_insert, if_pos rfl]; rfl
      | some old => rw [Table.get?_insert, if_pos rfl]; rfl

/-- **A hold that was granted** is on the resource, which was free, and the others are the same. -/
theorem place_of_granted {holder : String} {millis : Nat} {price : Float → Float} {hold : Hold}
    (granted : (l.place now id holder millis price).1 = .ok (.granted hold)) :
    hold.id = id ∧ hold.holder = holder ∧ ∃ r, l.resources.get? id = some r ∧
      r.statusAt now = .available ∧ ∀ id', (l.place now id holder millis price).2.resources.get? id' =
        if id' = id then some (held (r.settled now) hold) else l.resources.get? id' := by
  rcases l.place_cases now id holder millis price with
    ⟨-, e⟩ | ⟨r, -, -, -, e⟩ | ⟨r, hr, free, e⟩ <;> rw [e] at granted ⊢
  · cases granted
  · cases granted
  · cases granted
    refine ⟨rfl, rfl, r, hr, free, fun id' => (get?_turn _ id id' true _).trans ?_⟩
    rw [get?_settle_self, hr]
    split
    · rfl
    · next other => rw [get?_settle, if_neg other]

/-- A request that is not granted leaves the resources as they are, or settles one of them. -/
theorem place_of_refused {holder : String} {millis : Nat} {price : Float → Float}
    (refused : ∀ hold, (l.place now id holder millis price).1 ≠ .ok (.granted hold)) :
    l.Ahead now (l.place now id holder millis price).2 := by
  rcases l.place_cases now id holder millis price with
    ⟨-, e⟩ | ⟨r, -, -, -, e⟩ | ⟨r, -, -, e⟩ <;> rw [e] at refused ⊢
  · exact .refl now l
  · exact l.ahead_count now _
  · exact absurd rfl (refused _)

/-- A hold that is not given up is still there, unless it had lapsed. -/
theorem cancel_of_refused {policy : HolderPolicy} {holder : String} {e : CallError}
    (refused : (l.cancel policy now id holder).1 = .error e) :
    l.Ahead now (l.cancel policy now id holder).2 := by
  rcases l.cancel_cases policy now id holder with ⟨e', -, e⟩ | ⟨r, -, -, -, -, -, e⟩ <;>
    rw [e] at refused ⊢
  · exact l.ahead_settle now id
  · cases refused

end Ledger

/-- What is on the right of a list has its counterpart on the left. -/
theorem exists_of_forall₂ {α β : Type} {R : α → β → Prop} {as : List α} {bs : List β}
    (h : List.Forall₂ R as bs) {b : β} (hb : b ∈ bs) : ∃ a ∈ as, R a b := by
  induction h with
  | nil => cases hb
  | @cons a b' as bs related _ ih =>
    rcases List.mem_cons.1 hb with rfl | hb
    · exact ⟨a, List.mem_cons_self, related⟩
    · obtain ⟨a', ha', related'⟩ := ih hb
      exact ⟨a', List.mem_cons_of_mem _ ha', related'⟩

namespace House

variable {number : Nat} {b : Bank} {codes : Table String Assignment} {now : Int} {m m' : Moment}
  {h h' h₀ : House} {code : String} {a : Assignment}

/-! ## One more compartment -/

theorem bears_addCompartment (t : Tallies number b codes codes m.stamp h) (size : Size) :
    (addCompartment b size).Bears (Meanwhile number b.group)
      (fun m h _ => Tallies number b codes codes m.stamp h) m h := by
  change Tallies number b codes codes m.stamp _
  dsimp only
  rcases (h.ledger.draw .resource m.stamp).2.add_cases (h.ledger.draw .resource m.stamp).1
      (Resource.fresh 0.0 (some b.group) (some (size.text ++ "-" ++
        toString (((h.ledger.draw .resource m.stamp).2.members b.group).length + 1))) (some size))
    with e | ⟨l, e, unknown, found, members⟩
  · rw [e]
    exact t
  · rw [e]
    exact ⟨t.bank, t.matched.grow unknown (members b.group rfl) ((found _).trans (if_pos rfl)) rfl
      fun id' other => (found id').trans (if_neg other)⟩

/-! ## Deposits -/

/-- What may come of a deposit: a code that is new, or none. -/
def Lodges (number : Nat) (b : Bank) (codes : Table String Assignment) (m : Moment) (h : House) :
    Except LockerError Assignment → Prop
  | .ok a => codes.get? a.code = none ∧ a.pickedUp = false ∧
    Tallies number b (codes.insert a.code a) (codes.insert a.code a) m.stamp h
  | .error _ => Tallies number b codes codes m.stamp h

/-- **Handing out a code** for a hold that was granted in the same stretch. -/
theorem Tallies.assign (t : Tallies number b codes codes now h) {id : Id} {parcel : String}
    {millis : Nat} {price : Float → Float} {size : Size} {hold : Hold}
    (granted : (h.ledger.place now id parcel millis price).1 = .ok (.granted hold))
    (member : id ∈ h.ledger.members b.group)
    (own : (h.ledger.resources.get? id).map Resource.size = some (some size)) :
    let r := House.assign { h with ledger := (h.ledger.place now id parcel millis price).2 } now
      number size hold
    codes.get? r.1.code = none ∧ r.1.pickedUp = false ∧
      Tallies number b (codes.insert r.1.code r.1) (codes.insert r.1.code r.1) now r.2 := by
  obtain ⟨rfl, rfl, r, hr, free, found⟩ := Ledger.place_of_granted granted
  have books := h.ledger.sameBooks_place now hold.id hold.holder millis price
  have new := (t.assignment? _).symm.trans (assignment?_of_assign
    { h with ledger := (h.ledger.place now hold.id hold.holder millis price).2 } now number size hold)
  refine ⟨new, rfl, getElem?_changeBank t.bank _, ?_⟩
  refine t.matched.insert new member ?_ (books.members b.group)
    (fun id other => (found id).trans (if_neg other)) rfl ?_
  · intro r' hr'
    obtain rfl := Option.some.inj (hr.symm.trans hr')
    exact free
  · have here := (found hold.id).trans (if_pos rfl)
    refine ⟨⟨_, ⟨⟨_, here, rfl, rfl, rfl⟩, rfl, rfl, rfl⟩⟩, ?_⟩
    refine (congrArg (Option.map Resource.size) here).trans ?_
    rw [hr, Option.map_some] at own
    rw [Option.map_some, Ledger.held, Resource.size_settled, Option.some.inj own]
    rfl

/-- What a compartment has to be to be tried. -/
def Offers (h : House) (group : Id) (place : Id × Size) : Prop :=
  place.1 ∈ h.ledger.members group ∧
    (h.ledger.resources.get? place.1).map Resource.size = some (some place.2)

theorem bears_depositInto (s : CoordinatorSettings) (parcel : String) (size : Size)
    {places : List (Id × Size)} (offers : ∀ place ∈ places, h₀.Offers b.group place)
    (t : Tallies number b codes codes m.stamp h) (same : SameCompartments b.group h₀ h) :
    (depositInto s number b parcel size places).Bears (Meanwhile number b.group)
      (Lodges number b codes) m h := by
  induction places generalizing m h with
  | nil => exact t.count (.lockerDeposits "full")
  | cons place rest ih =>
    obtain ⟨id, own⟩ := place
    obtain ⟨member, sized⟩ := offers (id, own) List.mem_cons_self
    have rest : ∀ place ∈ rest, h₀.Offers b.group place :=
      fun place hp => offers place (List.mem_cons_of_mem _ hp)
    refine Call.bears_bind.2 (bears_reserve
      (P := fun m h => Tallies number b codes codes m.stamp h ∧ SameCompartments b.group h₀ h)
      s id parcel b.codeLife Pricing.standard.price
      (fun known others => ⟨known.1.meanwhile others, known.2.meanwhile others⟩) ?_ ?_ ?_ ⟨t, same⟩)
    · intro m h x known
      exact ⟨known.1.count x, known.2.settled (h.ledger.ahead_count m.stamp x)⟩
    · intro m h x ⟨t, same⟩ refused
      cases x with
      | error e => exact t
      | ok reservation =>
        cases reservation with
        | denied reason => exact ih rest t same
        | granted hold => exact absurd rfl (refused hold)
    · intro m h ⟨t, same⟩
      have ahead : _ → h.ledger.Ahead m.stamp (h.ledger.place m.stamp id parcel
          (b.codeLife / 1000000) Pricing.standard.price).2 := Ledger.place_of_refused
      dsimp only
      cases answer : (h.ledger.place m.stamp id parcel (b.codeLife / 1000000)
          Pricing.standard.price).1 with
      | error e => exact t.settled (ahead fun hold => by simp [answer])
      | ok reservation =>
        cases reservation with
        | denied reason =>
          have ahead := ahead fun hold => by simp [answer]
          exact ih rest (t.settled ahead) (same.settled ahead)
        | granted hold =>
          exact t.assign answer (same.members ▸ member) ((same.sizes id member).trans sized)

/-- What is tried was read, and takes the parcel. -/
theorem mem_fitting {size : Size} {read : List (Id × Option Size × Status)} {place : Id × Size}
    (tried : place ∈ fitting size read) : (place.1, some place.2, Status.available) ∈ read := by
  obtain ⟨⟨id, own, status⟩, here, fits⟩ := List.mem_filterMap.1 ((mem_sortBy ..).1 tried)
  cases own with
  | none => cases fits
  | some own =>
    dsimp only at fits
    split at fits
    · next takes =>
      cases fits
      rw [Bool.and_eq_true, decide_eq_true_eq, decide_eq_true_eq] at takes
      exact takes.2 ▸ here
    · cases fits

/-- **A deposit** hands out a new code, or none, and leaves codes and compartments matched. -/
theorem bears_deposit (s : CoordinatorSettings) (parcel : String) (size : Size)
    (t : Tallies number b codes codes m.stamp h) :
    (deposit s number b parcel size).Bears (Meanwhile number b.group) (Lodges number b codes)
      m h := by
  -- the sizes that are read are those that the compartments have all the time
  have read : (onLedger (Ledger.readEach (fun id r => (id, r.size, r.statusAt m.stamp))
      (h.ledger.members b.group))).Bears (Meanwhile number b.group) (fun m' h' read =>
        (Tallies number b codes codes m'.stamp h' ∧ SameCompartments b.group h h') ∧
          ∃ each, List.Forall₂ (fun _ (o : Option (Id × Option Size × Status)) =>
              ∀ x ∈ o, x.1 ∈ h.ledger.members b.group ∧
                (h.ledger.resources.get? x.1).map Resource.size = some x.2.1)
            (h.ledger.members b.group) each ∧ read = each.filterMap fun o => o) m h := by
    refine bears_readEach (P := fun m' h' =>
      Tallies number b codes codes m'.stamp h' ∧ SameCompartments b.group h h')
      (fun known others => ⟨known.1.meanwhile others, known.2.meanwhile others⟩) ?_
      ⟨t, .refl b.group h⟩
    intro m' h' known id hid x hx
    obtain ⟨r, hr, rfl⟩ := Option.map_eq_some_iff.1 hx
    refine ⟨hid, ?_⟩
    rw [← known.2.sizes id hid, hr, Option.map_some]
  refine Call.bears_bind.2 ?_
  change ((onLedger (Ledger.readEach _ (h.ledger.members b.group))).bind fun read =>
    .done (fitting size read)).Bears _ _ m h
  refine Call.bears_bind.2 (read.mono ?_)
  rintro m' h' _ ⟨⟨t, same⟩, each, reads, rfl⟩
  refine bears_depositInto s parcel size (fun place tried => ?_) t same
  obtain ⟨o, here, rfl⟩ := List.mem_filterMap.1 (mem_fitting tried)
  obtain ⟨-, -, known⟩ := exists_of_forall₂ reads here
  exact known _ rfl

/-! ## Pickups -/

/-- A pickup has marked a code as used and waits for the lock of its compartment, or is about to
free that. -/
structure Vacating (number : Nat) (b : Bank) (codes : Table String Assignment) (code : String)
    (a : Assignment) (now : Int) (h : House) : Prop where
  /-- but for the mark codes and compartments match -/
  tallies : Tallies number b (codes.modify code Assignment.used) codes now h
  /-- the compartment is there -/
  member : a.compartment ∈ h.ledger.members b.group
  /-- no other code works for it -/
  alone : ∀ code' a', Works codes now code' a' → a'.compartment = a.compartment → code' = code

theorem Vacating.settled {l : Ledger} (v : Vacating number b codes code a now h)
    (ahead : h.ledger.Ahead now l) :
    Vacating number b codes code a now { h with ledger := l } :=
  ⟨v.tallies.settled ahead, (ahead.akin.members b.group).symm ▸ v.member, v.alone⟩

/-- Nothing that happens meanwhile makes a difference to that. -/
theorem Vacating.meanwhile (v : Vacating number b codes code a m.stamp h)
    (others : Meanwhile number b.group m h m' h') :
    Vacating number b codes code a m'.stamp h' := by
  refine others.keeps (P := Vacating number b codes code a) ?_ (fun v ahead => v.settled ahead) ?_ v
  · exact fun v le => ⟨⟨v.tallies.bank, v.tallies.matched.later le⟩, v.member,
      fun code' a' works => v.alone code' a' (works.before le)⟩
  · exact fun v leaves => ⟨v.tallies.elsewhere leaves, leaves.members.symm ▸ v.member, v.alone⟩

/-- Taking back the mark. -/
theorem Vacating.unmark (v : Vacating number b codes code a now h)
    (here : codes.get? code = some a) (unused : a.pickedUp = false) :
    Tallies number b codes codes now (h.mark number code false) := by
  have back : (codes.modify code Assignment.used).modify code
      (fun a => { a with pickedUp := false }) = codes := by
    rw [Table.modify_modify]
    refine Table.modify_eq_self fun a' here' => ?_
    obtain rfl := Option.some.inj (here.symm.trans here')
    exact Assignment.issued_of_unused unused
  refine ⟨?_, v.tallies.matched⟩
  rw [mark, getElem?_changeBank v.tallies.bank, back]

/-- What may come of a pickup: the code is used up, or nothing has happened. -/
def Clears (number : Nat) (b : Bank) (codes : Table String Assignment) (code : String) (m : Moment)
    (h : House) : Except LockerError Assignment → Prop
  | .ok _ => (∃ a, codes.get? code = some a) ∧
    Tallies number b (codes.modify code Assignment.used) (codes.modify code Assignment.used)
      m.stamp h
  | .error _ => Tallies number b codes codes m.stamp h

/-- **The compartment is freed**, if it is that of the parcel still. -/
theorem Vacating.clear (v : Vacating number b codes code a now h) (here : codes.get? code = some a)
    {policy : HolderPolicy}
    (done : (h.ledger.cancel policy now a.compartment a.parcel).1 = .ok ()) :
    Tallies number b (codes.modify code Assignment.used) (codes.modify code Assignment.used) now
      { h with ledger := (h.ledger.cancel policy now a.compartment a.parcel).2 } := by
  obtain ⟨r, releases⟩ := Ledger.releases_cancel (a := a)
    (show Ledger.Quietly (h.ledger.cancel policy now a.compartment a.parcel) (.ok (), _) from
      ⟨done, .refl _⟩)
  have books := h.ledger.sameBooks_cancel policy now a.compartment a.parcel
  have matched := v.tallies.matched
  -- what is not over by then is the hold of the parcel
  have works : Works codes now code a := by
    obtain ⟨r', hr', free | ⟨code', a', works, same⟩⟩ := matched.taken a.compartment v.member
    · obtain rfl := Option.some.inj (hr'.symm.trans releases.here)
      rw [Resource.statusAt_of_not_lapsed releases.live] at free
      exact absurd free releases.taken
    · obtain rfl := v.alone code' a' works same
      obtain rfl := Option.some.inj (here.symm.trans works.here)
      exact works
  exact ⟨v.tallies.bank,
    matched.use works (books.members b.group) ⟨_, releases.freed, rfl⟩ releases.others⟩

theorem bears_vacate (s : CoordinatorSettings) (v : Vacating number b codes code a m.stamp h)
    (here : codes.get? code = some a) (unused : a.pickedUp = false) :
    (vacate s number code a.used).Bears (Meanwhile number b.group) (Clears number b codes code)
      m h := by
  rw [vacate_eq]
  refine Call.bears_bind.2 (bears_cancelHold
    (P := fun m h => Vacating number b codes code a m.stamp h) s a.compartment a.parcel
    (fun v others => v.meanwhile others) ?_ ?_ ?_ v)
  · exact fun {m h x} v => v.settled (h.ledger.ahead_count m.stamp x)
  · exact fun v => v.unmark here unused
  · intro m h v
    dsimp only
    cases done : (h.ledger.cancel s.policy m.stamp a.compartment a.parcel).1 with
    | ok done' => exact ⟨⟨a, here⟩, v.clear here done⟩
    | error e => exact (v.settled (Ledger.cancel_of_refused done)).unmark here unused

/-- **Using up a code** that is on file: it was used before, its time is over, or it works. -/
theorem redeem_apart (here : h.assignment? number code = some a) (now : Int) :
    (a.pickedUp = true ∧ h.redeem now number code = (.error .codeAlreadyUsed, h)) ∨
    (a.pickedUp = false ∧ a.deadline ≤ now ∧ h.redeem now number code = (.error .codeExpired, h)) ∨
    (a.pickedUp = false ∧ now < a.deadline ∧
      h.redeem now number code = (.ok a.used, h.mark number code true)) := by
  rcases Bool.eq_false_or_eq_true a.pickedUp with used | unused
  · exact .inl ⟨used, by simp [redeem, here, used]⟩
  · refine .inr ?_
    rcases Int.lt_or_le now a.deadline with lasts | past
    · have working : a.expired now = false := by simp [Assignment.expired, Int.not_le.2 lasts]
      exact .inr ⟨unused, lasts, by simp [redeem, here, unused, working, Assignment.used]⟩
    · have expired : a.expired now = true := by simp [Assignment.expired, unused, past]
      exact .inl ⟨unused, past, by simp [redeem, here, unused, expired]⟩

/-- **A pickup** uses up its code, or leaves everything as it was. -/
theorem bears_pickup (s : CoordinatorSettings) (code : String)
    (t : Tallies number b codes codes m.stamp h) :
    (pickup s number code).Bears (Meanwhile number b.group) (Clears number b codes code) m h := by
  rw [pickup]
  refine Call.bears_update_bind ?_
  cases here : codes.get? code with
  | none =>
    have missing : h.assignment? number code = none := (t.assignment? code).trans here
    simp only [redeem, missing]
    exact t
  | some a =>
    rcases redeem_apart ((t.assignment? code).trans here) m.stamp with
      ⟨-, e⟩ | ⟨-, -, e⟩ | ⟨unused, lasts, e⟩ <;> rw [e]
    · exact t
    · exact t
    · have works : Works codes m.stamp code a := ⟨here, unused, lasts⟩
      have marked : Tallies number b (codes.modify code Assignment.used) codes m.stamp
          (h.mark number code true) := ⟨getElem?_changeBank t.bank _, t.matched⟩
      exact bears_vacate s ⟨marked, (t.matched.placed code a works).1, fun code' a' works' =>
        t.matched.apart code' a' code a works' works⟩ here unused

end House

end Tenure
