import Tenure.Proofs.Occupancy.Calls

/-!
# Occupancy matches codes

A bank is tended (`House.Tended`) if nothing but its own calls, the chores and the time that passes
does anything to its compartments. Its calls come one after the other; each of them may have to
wait for locks, and may not get them. At any time between two calls the compartments that somebody
has are those of the codes that work, one for each, and what a pickup comes to is told by what was
done before (`occupancy_matches_codes`).
-/

namespace Tenure.House

variable {s : CoordinatorSettings} {number : Nat} {b : Bank} {codes : Table String Assignment}
  {now : Int} {m m' : Moment} {h h' h₀ : House} {deeds : List Deed} {code : String}
  {a a' : Assignment} {owner : Owner} {ls : Locks}

/-! ## Runs -/

/-- A bank in which nothing has happened yet. -/
structure Unused (number : Nat) (b : Bank) (h : House) : Prop where
  /-- it is there -/
  bank : h.banks[number]? = some b
  /-- no code is on file -/
  empty : b.assignments.size = 0
  /-- no compartment is listed twice -/
  nodup : (h.ledger.members b.group).Nodup
  /-- nobody has any of them -/
  free : ∀ id ∈ h.ledger.members b.group,
    ∃ r, h.ledger.resources.get? id = some r ∧ r.status = .available

/-- The acts that change what a bank has on file. -/
inductive Act.OfBank (number : Nat) (b : Bank) : Act → Prop where
  /-- to place a parcel -/
  | deposit (parcel : String) (size : Size) : OfBank number b (.deposit number b parcel size)
  /-- to redeem a code -/
  | pickup (code : String) : OfBank number b (.pickup number code)

/-- A run of a house from `h₀` in which the compartments of a bank are touched by nothing but the
calls of the bank, each of which comes to its end before the next one begins, and by chores. The
deeds come the latest first, each with the time at which it was done; `m` is the time by now. -/
inductive Tended (s : CoordinatorSettings) (number : Nat) (b : Bank) (h₀ : House) :
    List Deed → Moment → House → Prop where
  /-- nothing was done yet -/
  | opens (m : Moment) : Tended s number b h₀ [] m h₀
  /-- a deposit or a pickup -/
  | act {deeds : List Deed} {m m' : Moment} {h h' : House} (before : Tended s number b h₀ deeds m h)
    {act : Act} (own : act.OfBank number b) (owner : Owner) (ls : Locks) {result : Result}
    (ends : (act.call s).Ends (Meanwhile number b.group) owner m h ls result m' h') :
    Tended s number b h₀ (⟨m', act, result⟩ :: deeds) m' h'
  /-- one more compartment -/
  | compartment {deeds : List Deed} {m m' : Moment} {h h' : House}
    (before : Tended s number b h₀ deeds m h) (size : Size) (owner : Owner) (ls : Locks)
    {x : Except LockerError Id}
    (ends : (addCompartment b size).Ends (Meanwhile number b.group) owner m h ls x m' h') :
    Tended s number b h₀ deeds m' h'
  /-- what happens in between -/
  | between {deeds : List Deed} {m m' : Moment} {h h' : House}
    (before : Tended s number b h₀ deeds m h) (others : Meanwhile number b.group m h m' h') :
    Tended s number b h₀ deeds m' h'

/-! ## What was done -/

/-- A deposit was answered with `a`. -/
def Issued (number : Nat) (deeds : List Deed) (a : Assignment) : Prop :=
  ∃ d ∈ deeds, ∃ bank parcel size,
    d.act = .deposit number bank parcel size ∧ d.result = .parcel (.ok a)

/-- A pickup of a code has succeeded. -/
def Redeemed (number : Nat) (deeds : List Deed) (code : String) : Prop :=
  ∃ d ∈ deeds, ∃ a, d.act = .pickup number code ∧ d.result = .parcel (.ok a)

/-- What was done is on file. -/
structure Recorded (number : Nat) (deeds : List Deed) (codes : Table String Assignment) :
    Prop where
  /-- what was issued is on file, and nothing else -/
  issued : ∀ a, Issued number deeds a ↔ (codes.get? a.code).map Assignment.issued = some a
  /-- what is marked was redeemed, and nothing else -/
  redeemed : ∀ code, Redeemed number deeds code ↔
    ∃ a, codes.get? code = some a ∧ a.pickedUp = true

theorem issued_cons {d : Deed} : Issued number (d :: deeds) a ↔
    (∃ bank parcel size, d.act = .deposit number bank parcel size ∧ d.result = .parcel (.ok a)) ∨
      Issued number deeds a := by
  simp only [Issued, List.mem_cons, exists_eq_or_imp]

theorem redeemed_cons {d : Deed} : Redeemed number (d :: deeds) code ↔
    (∃ a, d.act = .pickup number code ∧ d.result = .parcel (.ok a)) ∨
      Redeemed number deeds code := by
  simp only [Redeemed, List.mem_cons, exists_eq_or_imp]

namespace Recorded

/-- What is refused leaves no record. -/
theorem refused (r : Recorded number deeds codes) {act : Act} {e : LockerError} :
    Recorded number (⟨m, act, .parcel (.error e)⟩ :: deeds) codes := by
  refine ⟨fun a => issued_cons.trans (Iff.trans ?_ (r.issued a)),
    fun code => redeemed_cons.trans (Iff.trans ?_ (r.redeemed code))⟩
  · exact or_iff_right fun ⟨_, _, _, _, answer⟩ => nomatch answer
  · exact or_iff_right fun ⟨_, _, answer⟩ => nomatch answer

/-- A deposit has handed out a new code. -/
theorem deposit (r : Recorded number deeds codes) {bank : Bank} {parcel : String} {size : Size}
    (new : codes.get? a.code = none) (unused : a.pickedUp = false) :
    Recorded number (⟨m, .deposit number bank parcel size, .parcel (.ok a)⟩ :: deeds)
      (codes.insert a.code a) := by
  refine ⟨fun a' => ?_, fun code => ?_⟩
  · rw [issued_cons, r.issued, Table.get?_insert]
    split
    · next same =>
      rw [same, new, Option.map_some, Assignment.issued_of_unused unused]
      simp
    · next other =>
      refine or_iff_right ?_
      rintro ⟨bank', parcel', size', -, answer⟩
      cases answer
      exact other rfl
  · rw [redeemed_cons, r.redeemed, Table.get?_insert]
    split
    · next same =>
      rw [same, new]
      simp [unused]
    · simp

/-- A pickup has used up a code. -/
theorem pickup (r : Recorded number deeds codes) (here : codes.get? code = some a) :
    Recorded number (⟨m, .pickup number code, .parcel (.ok a')⟩ :: deeds)
      (codes.modify code Assignment.used) := by
  refine ⟨fun a' => ?_, fun code' => ?_⟩
  · rw [issued_cons, r.issued, Table.get?_modify]
    split
    · next same =>
      rw [same, here]
      simp [Assignment.issued, Assignment.used]
    · simp
  · rw [redeemed_cons, r.redeemed, Table.get?_modify]
    split
    · next same =>
      subst same
      rw [here]
      simp [Assignment.used]
    · next other => simp [Ne.symm other]

end Recorded

/-! ## Between two calls -/

/-- Nothing is on file, and nobody has anything. -/
theorem Unused.tallies (u : Unused number b h) (now : Int) :
    Tallies number b b.assignments b.assignments now h := by
  have none : ∀ code, b.assignments.get? code = none := Table.get?_of_size_eq_zero u.empty
  have unknown : ∀ {code a}, b.assignments.get? code ≠ some a := by simp [none]
  refine ⟨u.bank, ?_⟩
  refine { filed := ?_, nodup := u.nodup, placed := ?_, taken := fun id hid => ?_, apart := ?_ }
  · exact fun code a here => absurd here unknown
  · exact fun code a works => absurd works.here unknown
  · obtain ⟨r, hr, free⟩ := u.free id hid
    exact ⟨r, hr, .inl (Resource.statusAt_of_available free now)⟩
  · exact fun code a code' a' works => absurd works.here unknown

theorem Unused.recorded (u : Unused number b h) : Recorded number [] b.assignments := by
  have none : ∀ code, b.assignments.get? code = none := Table.get?_of_size_eq_zero u.empty
  constructor <;> simp [Issued, Redeemed, none]

/-- **Every call of a bank** leaves codes and compartments matched, and what was done on file. -/
theorem Act.OfBank.ends {act : Act} (own : act.OfBank number b)
    (t : Tallies number b codes codes m.stamp h) (r : Recorded number deeds codes) {result : Result}
    (ends : (act.call s).Ends (Meanwhile number b.group) owner m h ls result m' h') :
    ∃ codes', Tallies number b codes' codes' m'.stamp h' ∧
      Recorded number (⟨m', act, result⟩ :: deeds) codes' := by
  cases own with
  | deposit parcel size =>
    have bears : ((Act.deposit number b parcel size).call s).Bears (Meanwhile number b.group)
        (fun m h result => ∃ x, result = .parcel x ∧ Lodges number b codes m h x) m h :=
      Call.bears_bind.2 ((bears_deposit s parcel size t).mono fun m h x lodges => ⟨x, rfl, lodges⟩)
    obtain ⟨x, rfl, lodges⟩ := bears.ends (fun _ _ => .none) ends
    cases x with
    | error e => exact ⟨codes, lodges, r.refused⟩
    | ok a =>
      obtain ⟨new, unused, t'⟩ := lodges
      exact ⟨_, t', r.deposit new unused⟩
  | pickup code =>
    have bears : ((Act.pickup number code).call s).Bears (Meanwhile number b.group)
        (fun m h result => ∃ x, result = .parcel x ∧ Clears number b codes code m h x) m h :=
      Call.bears_bind.2 ((bears_pickup s code t).mono fun m h x clears => ⟨x, rfl, clears⟩)
    obtain ⟨x, rfl, clears⟩ := bears.ends (fun _ _ => .none) ends
    cases x with
    | error e => exact ⟨codes, clears, r.refused⟩
    | ok a =>
      obtain ⟨⟨a₀, here⟩, t'⟩ := clears
      exact ⟨_, t', r.pickup here⟩

/-- **At any time between two calls** codes and compartments match, and what was done is on file. -/
theorem Tended.tallies (unused : h₀.Unused number b) (tended : Tended s number b h₀ deeds m h) :
    ∃ codes, Tallies number b codes codes m.stamp h ∧ Recorded number deeds codes := by
  induction tended with
  | opens m => exact ⟨b.assignments, unused.tallies m.stamp, unused.recorded⟩
  | act before own owner ls ends ih =>
    obtain ⟨codes, t, r⟩ := ih
    exact own.ends t r ends
  | compartment before size owner ls ends ih =>
    obtain ⟨codes, t, r⟩ := ih
    exact ⟨codes, (bears_addCompartment t size).ends (fun _ _ => .none) ends, r⟩
  | between before others ih =>
    obtain ⟨codes, t, r⟩ := ih
    exact ⟨codes, t.meanwhile others, r⟩

/-! ## What is reported -/

/-- A count that does not have to wait is one of the house as it is. -/
theorem bankStatus_at_once {st : BankStatus} {ls' : Locks}
    (ran : (bankStatus number b).run owner m h ls = (.returned st, h', ls')) :
    st = h.statusAtOnce m.stamp number b := by
  -- nothing happens meanwhile
  have read : (onLedger (Ledger.readEach (fun _ r => r.statusAt m.stamp)
      (h.ledger.members b.group))).Bears (fun m h m' h' => m' = m ∧ h' = h)
      (fun m' h' read => (m' = m ∧ h' = h) ∧ ∃ each, List.Forall₂
        (fun id o => o = (h.ledger.resources.get? id).map fun r => r.statusAt m.stamp)
        (h.ledger.members b.group) each ∧ read = each.filterMap fun o => o) m h := by
    refine bears_readEach (P := fun m' h' => m' = m ∧ h' = h) ?_ ?_ ⟨rfl, rfl⟩
    · rintro m h m' h' ⟨rfl, rfl⟩ ⟨rfl, rfl⟩
      exact ⟨rfl, rfl⟩
    · rintro m h ⟨rfl, rfl⟩ id -
      rfl
  have bears : (bankStatus number b).Bears (fun m h m' h' => m' = m ∧ h' = h)
      (fun _ _ st => st = h.statusAtOnce m.stamp number b) m h := by
    change ((onLedger (Ledger.readEach _ (h.ledger.members b.group))).bind fun read => _).Bears
      _ _ m h
    refine Call.bears_bind.2 (read.mono ?_)
    rintro m' h' read ⟨⟨rfl, rfl⟩, each, reads, rfl⟩
    have each_eq : ((h'.ledger.members b.group).map fun id =>
        (h'.ledger.resources.get? id).map fun r => r.statusAt m'.stamp) = each := by
      rw [← List.forall₂_eq_eq_eq, List.forall₂_map_left_iff]
      exact reads.imp fun id o seen => seen.symm
    subst each_eq
    rw [List.filterMap_map]
    rfl
  exact bears.ends (fun _ _ => ⟨rfl, rfl⟩) (.returns ran)

/-- What is reported of a bank is so, and as many codes are active as compartments are occupied. -/
structure Reports (b : Bank) (codes : Table String Assignment) (now : Int) (l : Ledger)
    (st : BankStatus) : Prop where
  /-- all compartments are counted -/
  compartments : st.compartments = (l.members b.group).length
  /-- those that somebody has are occupied -/
  occupied : st.occupied = (l.taken b.group now).ncard
  /-- the others are free -/
  free : st.free + st.occupied = st.compartments
  /-- the codes that work are active -/
  active : st.activeCodes = (Matched.working codes now).ncard
  /-- there are as many of these as of the occupied compartments -/
  same : st.activeCodes = st.occupied

/-- **A count** of a bank whose codes and compartments match. -/
theorem Tallies.reports (t : Tallies number b codes codes now h) :
    Reports b codes now h.ledger (h.statusAtOnce now number b) := by
  have same : h.activeCodes now number = (h.statusAtOnce now number b).occupied :=
    t.activeCodes.trans t.matched.countP_active
  have active : h.activeCodes now number = (Matched.working codes now).ncard :=
    t.activeCodes.trans t.matched.ncard_working.symm
  have few : (h.ledger.readMembers b.group fun _ r => r.statusAt now).count .available ≤
      (h.ledger.members b.group).length :=
    Nat.le_trans List.count_le_length (List.length_filterMap_le ..)
  exact {
    compartments := rfl
    occupied := same.symm.trans (active.trans t.matched.bijOn.ncard_eq)
    free := Nat.add_sub_cancel' few
    active := active
    same := same }

/-- How a pickup of a code is answered after the deeds, and what it does to the ledger. -/
structure Answers (policy : HolderPolicy) (number : Nat) (deeds : List Deed) (now : Int)
    (code : String) (l l' : Ledger) (x : Except LockerError Assignment) : Prop where
  /-- the code is not valid: it was never issued -/
  invalid : x = .error .invalidCode ↔ ¬∃ a, Issued number deeds a ∧ a.code = code
  /-- it was used: it was redeemed before -/
  used : x = .error .codeAlreadyUsed ↔ Redeemed number deeds code
  /-- it has expired: it was not redeemed, and its time is over -/
  expired : x = .error .codeExpired ↔ ¬Redeemed number deeds code ∧
    ∃ a, (Issued number deeds a ∧ a.code = code) ∧ a.deadline ≤ now
  /-- it opens otherwise -/
  opens : (∃ a, x = .ok a) ↔ ¬Redeemed number deeds code ∧
    ∃ a, (Issued number deeds a ∧ a.code = code) ∧ now < a.deadline
  /-- then its compartment is freed, and nothing else -/
  frees : ∀ a, x = .ok a → (Issued number deeds a.issued ∧ a.code = code) ∧
    ∃ r, Ledger.Releases policy now a r l l'

theorem Tallies.issued_iff (t : Tallies number b codes codes now h)
    (r : Recorded number deeds codes) (here : codes.get? code = some a) :
    Issued number deeds a' ∧ a'.code = code ↔ a' = a.issued := by
  rw [r.issued]
  constructor
  · rintro ⟨issued, rfl⟩
    rw [here, Option.map_some] at issued
    exact (Option.some.inj issued).symm
  · rintro rfl
    have filed : a.issued.code = code := t.matched.filed code a here
    exact ⟨by rw [filed, here, Option.map_some], filed⟩

/-- **A code that works is picked up**, under either policy. -/
theorem Tallies.pickupAtOnce_of_works (t : Tallies number b codes codes now h)
    (works : Works codes now code a) (policy : HolderPolicy) :
    h.pickupAtOnce policy now number code = (.ok a.used, { h.mark number code true with
      ledger := (h.ledger.cancel policy now a.compartment a.parcel).2 }) := by
  have known := (t.assignment? code).trans works.here
  have redeemed : h.redeem now number code = (.ok a.used, h.mark number code true) := by
    rcases redeem_apart known now with ⟨used, -⟩ | ⟨-, past, -⟩ | ⟨-, -, e⟩
    · exact absurd (used.symm.trans works.unused) Bool.noConfusion
    · exact absurd works.lasts (Int.not_lt.2 past)
    · exact e
  have done : ((h.mark number code true).ledger.cancel policy now a.used.compartment
      a.used.parcel).1 = .ok () := t.matched.opens works policy
  simp only [pickupAtOnce, redeemed, done]
  rfl

/-- **What a pickup comes to** is told by what was done before. -/
theorem Tallies.answers (t : Tallies number b codes codes m.stamp h)
    (r : Recorded number deeds codes) {policy : HolderPolicy} {x : Except LockerError Assignment}
    (came : Quietly (h.pickupAtOnce policy m.stamp number code) (x, h')) :
    Answers policy number deeds m.stamp code h.ledger h'.ledger x := by
  obtain ⟨answered, quiet⟩ := came
  change (h.pickupAtOnce policy m.stamp number code).1 = x at answered
  cases here : codes.get? code with
  | none =>
    have missing : h.assignment? number code = none := (t.assignment? code).trans here
    have unissued : ∀ a, ¬(Issued number deeds a ∧ a.code = code) := by
      rintro a ⟨issued, rfl⟩
      rw [r.issued, here] at issued
      cases issued
    have unredeemed : ¬Redeemed number deeds code := by simp [r.redeemed, here]
    obtain rfl : .error .invalidCode = x := by
      rw [← answered]
      simp only [pickupAtOnce, redeem, missing]
    constructor <;> simp [unissued, unredeemed]
  | some a =>
    have issued : ∀ a', Issued number deeds a' ∧ a'.code = code ↔ a' = a.issued :=
      fun a' => t.issued_iff r here
    have redeemed : Redeemed number deeds code ↔ a.pickedUp = true := by simp [r.redeemed, here]
    have known := (t.assignment? code).trans here
    rcases redeem_apart known m.stamp with
      ⟨used, e⟩ | ⟨unused, past, e⟩ | ⟨unused, lasts, e⟩
    · obtain rfl : .error .codeAlreadyUsed = x := by
        rw [← answered]
        simp only [pickupAtOnce, e]
      constructor <;> simp [issued, redeemed, used]
    · obtain rfl : .error .codeExpired = x := by
        rw [← answered]
        simp only [pickupAtOnce, e]
      constructor <;> simp [issued, redeemed, unused, past, Assignment.issued]
    · have works : Works codes m.stamp code a := ⟨here, unused, lasts⟩
      rw [t.pickupAtOnce_of_works works] at answered quiet
      obtain rfl : .ok a.used = x := answered
      have freed : ∃ r, Ledger.Releases policy m.stamp a.used r h.ledger h'.ledger :=
        Ledger.releases_cancel ⟨t.matched.opens works policy, quiet.ledger⟩
      constructor
      · simp [issued]
      · simp [redeemed, unused]
      · simp [issued, redeemed, unused, lasts, Assignment.issued]
      · simp [issued, redeemed, unused, lasts, Assignment.issued]
      · rintro a' ⟨⟩
        exact ⟨(issued _).2 rfl, freed⟩

/-- **Occupancy matches codes.** At any time between two calls of a bank that was tended:

* the compartments that somebody has are those of the codes that work, one for each, and the parcel
  of each of these codes is in its compartment;
* what is reported of the bank is so, and as many codes are active as compartments are occupied;
* a pickup, with nothing locked, is answered according to what was done before, and if it opens a
  compartment, frees that and no other. -/
theorem occupancy_matches_codes (unused : h₀.Unused number b)
    (tended : Tended s number b h₀ deeds m h) :
    ∃ codes, h.banks[number]? = some { b with assignments := codes } ∧
      (∀ code a, codes.get? code = some a → a.code = code) ∧
      Set.BijOn Assignment.compartment (Matched.working codes m.stamp)
        (h.ledger.taken b.group m.stamp) ∧
      (∀ a ∈ Matched.working codes m.stamp, a.Placed h.ledger) ∧
      (∀ owner ls st h' ls', (bankStatus number b).run owner m h ls = (.returned st, h', ls') →
        Reports b codes m.stamp h.ledger st) ∧
      ∀ owner ls, ls.Free →
        (∃ st ls', (bankStatus number b).run owner m h ls = (.returned st, h, ls')) ∧
        ∀ code, ∃ x h' ls', (pickup s number code).run owner m h ls = (.returned x, h', ls') ∧
          Answers s.policy number deeds m.stamp code h.ledger h'.ledger x := by
  obtain ⟨codes, t, recorded⟩ := tended.tallies unused
  have matched := t.matched
  refine ⟨codes, t.bank, matched.filed, matched.bijOn,
    fun a works => (matched.placed a.code a works).2, ?_, fun owner ls free => ⟨?_, fun code => ?_⟩⟩
  · intro owner ls st h' ls' ran
    rw [bankStatus_at_once ran]
    exact t.reports
  · obtain ⟨st, h', ls', ran, -, rfl, -⟩ := (freely_bankStatus number b).run free owner
    exact ⟨st, ls', ran⟩
  · obtain ⟨x, h', ls', ran, -, came⟩ := (freely_pickup s number code).run free owner
    exact ⟨x, h', ls', ran, t.answers recorded came⟩

/-- What Alice did when she left her parcel. -/
def alicesDeed : Deed :=
  ⟨⟨0, 0⟩, .deposit 0 Traffic.bankOfOne "Alice" .small, .parcel (.ok Traffic.alicesParcel)⟩

/-- The house with her parcel in it. -/
def withAlicesParcel : House :=
  ((alicesDeed.act.call .standard).run 0 alicesDeed.time Traffic.lockers .empty).2.1

/-- The house after a sweep at the time at which her code has expired. -/
def withoutAlicesParcel : House :=
  { withAlicesParcel with
    ledger := ((Ledger.sweep.bind fun n => .done (Reply.swept n)).run 0 ⟨0, 5⟩
      withAlicesParcel.ledger .empty).2.1 }

/-- Alice's code works until its time is over, and not when it is, whoever has noticed first. -/
theorem occupancy_matches_alices_code :
    Traffic.lockers.Unused 0 Traffic.bankOfOne ∧
    Tended .standard 0 Traffic.bankOfOne Traffic.lockers [alicesDeed] ⟨0, 4⟩ withAlicesParcel ∧
    Tended .standard 0 Traffic.bankOfOne Traffic.lockers [alicesDeed] ⟨0, 5⟩
      withoutAlicesParcel ∧
    (∃ a h' ls', (pickup .standard 0 Traffic.alicesParcel.code).run 0 ⟨0, 4⟩ withAlicesParcel
      .empty = (.returned (.ok a), h', ls')) ∧
    ∃ h' ls', (pickup .standard 0 Traffic.alicesParcel.code).run 0 ⟨0, 5⟩ withoutAlicesParcel
      .empty = (.returned (.error .codeExpired), h', ls') := by
  have unused : Traffic.lockers.Unused 0 Traffic.bankOfOne := by
    refine ⟨rfl, rfl, by decide, fun id hid => ?_⟩
    obtain rfl := List.mem_singleton.1 hid
    exact ⟨_, rfl, rfl⟩
  have leaves : Tended .standard 0 Traffic.bankOfOne Traffic.lockers [alicesDeed] ⟨0, 0⟩
      withAlicesParcel :=
    (Tended.opens ⟨0, 0⟩).act (.deposit "Alice" .small) 0 .empty (.returns rfl)
  have soon : Tended .standard 0 Traffic.bankOfOne Traffic.lockers [alicesDeed] ⟨0, 4⟩
      withAlicesParcel :=
    leaves.between (.elsewhere .none ⟨rfl, by decide⟩ (Moment.steady_of_le (by decide)) (.refl ..))
  have ord : withAlicesParcel.ledger.Orderly := by
    obtain ⟨result, h', ls', ran, -, -, quiet⟩ := (alicesDeed.act.freely_call (m := alicesDeed.time)
      .standard Traffic.orderly_lockers).run Locks.free_empty 0
    rw [withAlicesParcel, ran]
    exact quiet.ledger.sameBooks.orderly
      (alicesDeed.act.orderly_atOnce .standard Traffic.orderly_lockers)
  have swept : withAlicesParcel.ledger.Stretch .standard ⟨0, 5⟩ withoutAlicesParcel.ledger :=
    .begins _ .sweep 0 .empty Locks.free_empty rfl
  have late : Tended .standard 0 Traffic.bankOfOne Traffic.lockers [alicesDeed] ⟨0, 5⟩
      withoutAlicesParcel :=
    leaves.between
      (Meanwhile.none.stretch ord ⟨rfl, by decide⟩ (Moment.steady_of_le (by decide)) swept)
  have issued : Issued 0 [alicesDeed] Traffic.alicesParcel := by simp [Issued, alicesDeed]
  have unredeemed : ¬Redeemed 0 [alicesDeed] Traffic.alicesParcel.code := by
    simp [Redeemed, alicesDeed]
  obtain ⟨-, -, -, -, -, -, picks⟩ := occupancy_matches_codes unused soon
  obtain ⟨-, pickup⟩ := picks 0 .empty Locks.free_empty
  obtain ⟨x, h', ls', ran, answers⟩ := pickup Traffic.alicesParcel.code
  obtain ⟨a, rfl⟩ := answers.opens.2 ⟨unredeemed, _, ⟨issued, rfl⟩, by decide⟩
  obtain ⟨-, -, -, -, -, -, picks'⟩ := occupancy_matches_codes unused late
  obtain ⟨-, pickup'⟩ := picks' 0 .empty Locks.free_empty
  obtain ⟨x', h'', ls'', ran', answers'⟩ := pickup' Traffic.alicesParcel.code
  obtain rfl := answers'.expired.2 ⟨unredeemed, _, ⟨issued, rfl⟩, by decide⟩
  exact ⟨unused, soon, late, ⟨a, h', ls', ran⟩, h'', ls'', ran'⟩

end Tenure.House
