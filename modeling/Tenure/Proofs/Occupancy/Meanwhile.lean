import Tenure.Proofs.Interrupted
import Tenure.Proofs.Occupancy.Basic

/-!
# What happens beside a bank

The calls of a bank are done one after the other. In between, and whenever one of them waits for a
lock, time passes, chores are done, and other things happen in the house that leave the bank and
its compartments alone (`House.Meanwhile`). Codes and compartments stay matched all the time
(`Tallies.meanwhile`).

So a request for a hold and the giving up of one are decided in one stretch, in a house where that
is so (`bears_reserve`, `bears_cancelHold`), and what is read of the compartments is something that
was so while they were read (`bears_readEach`).
-/

namespace Tenure.House

variable {number : Nat} {b : Bank} {group : Id} {filed codes : Table String Assignment} {now : Int}
  {m m' : Moment} {h h' h₀ : House}

/-! ## What happens meanwhile -/

/-- Something happens in a house that leaves a bank alone, and its compartments. -/
structure Elsewhere (number : Nat) (group : Id) (h h' : House) : Prop where
  /-- the bank is the same -/
  bank : h'.banks[number]? = h.banks[number]?
  /-- its compartments are the same -/
  members : h'.ledger.members group = h.ledger.members group
  /-- nothing has become of any of them -/
  compartments : ∀ id ∈ h.ledger.members group,
    h'.ledger.resources.get? id = h.ledger.resources.get? id

theorem Elsewhere.refl (number : Nat) (group : Id) (h : House) : Elsewhere number group h h :=
  ⟨rfl, rfl, fun _ _ => rfl⟩

/-- What may happen in a house besides the calls of a bank: time passes, on a clock that does not
go backwards, chores are done, and other things that leave the bank alone. -/
inductive Meanwhile (number : Nat) (group : Id) (m : Moment) (h : House) :
    Moment → House → Prop where
  /-- nothing so far -/
  | none : Meanwhile number group m h m h
  /-- sweeps and the reaper do their work -/
  | chores {m₁ m' : Moment} {h' : House} {l : Ledger} (before : Meanwhile number group m h m₁ h')
    (time : m₁.Before m') (steady : m'.Steady) (upkeep : h'.ledger.Upkeep m' l) :
    Meanwhile number group m h m' { h' with ledger := l }
  /-- something else -/
  | elsewhere {m₁ m' : Moment} {h' h'' : House} (before : Meanwhile number group m h m₁ h')
    (time : m₁.Before m') (steady : m'.Steady) (elsewhere : Elsewhere number group h' h'') :
    Meanwhile number group m h m' h''

/-- A stretch of a sweep, or of the reaper, is such a chore. -/
theorem Meanwhile.stretch {s : CoordinatorSettings} {m₁ : Moment} {l : Ledger}
    (before : Meanwhile number group m h m₁ h') (ord : h'.ledger.Orderly) (time : m₁.Before m')
    (steady : m'.Steady) (stretch : h'.ledger.Stretch s m' l) :
    Meanwhile number group m h m' { h' with ledger := l } :=
  before.chores time steady (stretch.upkeep ord)

/-- What is preserved by holds being settled, and by anything elsewhere, lasts. -/
theorem Meanwhile.keeps {P : Int → House → Prop} (others : Meanwhile number group m h m' h')
    (later : ∀ {now now' h}, P now h → now ≤ now' → P now' h)
    (settled : ∀ {now h l}, P now h → h.ledger.Ahead now l → P now { h with ledger := l })
    (elsewhere : ∀ {now h h'}, P now h → Elsewhere number group h h' → P now h')
    (start : P m.stamp h) : P m'.stamp h' := by
  induction others with
  | none => exact start
  | @chores m₁ m' h' l before time steady upkeep ih =>
    have le : m₁.stamp ≤ m'.stamp := steady m₁ m' time (.refl m')
    exact settled (later ih le) (upkeep.ahead steady)
  | @elsewhere m₁ m' h' h'' before time steady leaves ih =>
    have le : m₁.stamp ≤ m'.stamp := steady m₁ m' time (.refl m')
    exact elsewhere (later ih le) leaves

/-! ## Codes and compartments -/

/-- The codes that a bank has on file, and the codes that its compartments match. The two differ
only while a pickup is underway. -/
structure Tallies (number : Nat) (b : Bank) (filed codes : Table String Assignment) (now : Int)
    (h : House) : Prop where
  /-- the codes on file -/
  bank : h.banks[number]? = some { b with assignments := filed }
  /-- the codes that the compartments match -/
  matched : Matched codes b.group now h.ledger

theorem Tallies.settled {l : Ledger} (t : Tallies number b filed codes now h)
    (ahead : h.ledger.Ahead now l) : Tallies number b filed codes now { h with ledger := l } :=
  ⟨t.bank, t.matched.leftAlone (ahead.leftAlone b.group)⟩

theorem Tallies.elsewhere (t : Tallies number b filed codes now h)
    (leaves : Elsewhere number b.group h h') : Tallies number b filed codes now h' :=
  ⟨leaves.bank.trans t.bank, t.matched.leftAlone
    ⟨leaves.members, fun id hid => .inl (leaves.compartments id hid)⟩⟩

/-- Whatever happens meanwhile, they match. -/
theorem Tallies.meanwhile (t : Tallies number b filed codes m.stamp h)
    (others : Meanwhile number b.group m h m' h') : Tallies number b filed codes m'.stamp h' :=
  others.keeps (P := Tallies number b filed codes) (fun t le => ⟨t.bank, t.matched.later le⟩)
    (fun t ahead => t.settled ahead) (fun t leaves => t.elsewhere leaves) t

theorem Tallies.count (t : Tallies number b filed codes now h) (x : Metric) :
    Tallies number b filed codes now { h with ledger := h.ledger.count x } :=
  t.settled (h.ledger.ahead_count now x)

/-- What a bank has on file changes with the bank only. -/
theorem getElem?_changeBank (here : h.banks[number]? = some b) (f : Bank → Bank) :
    (h.changeBank number f).banks[number]? = some (f b) := by
  simp [changeBank, here]

theorem Tallies.assignment? (t : Tallies number b filed codes now h) (code : String) :
    h.assignment? number code = filed.get? code := by
  rw [House.assignment?, t.bank, Option.bind_some]

theorem Tallies.activeCodes (t : Tallies number b filed codes now h) :
    h.activeCodes now number = filed.values.countP fun a => a.active now := by
  rw [House.activeCodes, t.bank, Option.map_some, Option.getD_some]

/-- The same compartments, each of its own size. -/
structure SameCompartments (group : Id) (h h' : House) : Prop where
  /-- the compartments are the same -/
  members : h'.ledger.members group = h.ledger.members group
  /-- each has the same size -/
  sizes : ∀ id ∈ h.ledger.members group, (h'.ledger.resources.get? id).map Resource.size =
    (h.ledger.resources.get? id).map Resource.size

theorem SameCompartments.refl (group : Id) (h : House) : SameCompartments group h h :=
  ⟨rfl, fun _ _ => rfl⟩

theorem SameCompartments.settled {l : Ledger} (same : SameCompartments group h₀ h)
    (ahead : h.ledger.Ahead now l) : SameCompartments group h₀ { h with ledger := l } := by
  refine ⟨(ahead.akin.members group).trans same.members, fun id hid => ?_⟩
  have sizes : (l.resources.get? id).map Resource.size =
      (h.ledger.resources.get? id).map Resource.size := by
    have blanks := congrArg (Option.map Resource.size) (ahead.akin.blanks id)
    simpa [Function.comp_def, Resource.blank] using blanks
  exact sizes.trans (same.sizes id hid)

theorem SameCompartments.meanwhile (same : SameCompartments group h₀ h)
    (others : Meanwhile number group m h m' h') : SameCompartments group h₀ h' :=
  others.keeps (P := fun _ => SameCompartments group h₀) (fun same _ => same)
    (fun same ahead => same.settled ahead)
    (fun same leaves => ⟨leaves.members.trans same.members, fun id hid =>
      (congrArg _ (leaves.compartments id (same.members ▸ hid))).trans (same.sizes id hid)⟩) same

/-! ## Calls on the ledger -/

variable {α β : Type} {others : Moment → House → Moment → House → Prop} {P : Moment → House → Prop}
  {ret : Moment → House → α → Prop} {id : Id}

/-- Work under a lock, or not, if that does not come in time. -/
theorem bears_underLock {c : Call Ledger α} {f : Int → Ledger → α × Ledger} {due : Nat}
    (stable : ∀ {m h m' h'}, P m h → others m h m' h' → P m' h')
    (count : ∀ {m h x}, P m h → P m { h with ledger := h.ledger.count x })
    (late : ∀ {m h}, P m h → (onLedger c).Bears others ret m h)
    (decided : ∀ {m h}, P m h →
      ret m { h with ledger := (f m.stamp h.ledger).2 } (f m.stamp h.ledger).1)
    (start : P m h) :
    (onLedger (Ledger.underLock id due c (Call.update f))).Bears others ret m h := by
  intro m' h' went got
  have counted := count (x := .lockWait) (stable start went)
  cases got with
  | false => exact late counted
  | true => exact decided counted

/-- The early look at a resource finds any status, or none. -/
theorem bears_peekStatus {k : Option Status → Call Ledger α}
    (each : ∀ status, (onLedger (k status)).Bears others ret m h) :
    (onLedger ((Ledger.peekStatus id).bind k)).Bears others ret m h := by
  intro free
  cases free with
  | false => exact each none
  | true => exact each _

/-- **A request for a hold** is refused, or decided in one stretch. -/
theorem bears_reserve (s : CoordinatorSettings) (id : Id) (holder : String) (duration : Nat)
    (price : Float → Float) {ret : Moment → House → Except CallError (Reservation Hold) → Prop}
    (stable : ∀ {m h m' h'}, P m h → others m h m' h' → P m' h')
    (count : ∀ {m h x}, P m h → P m { h with ledger := h.ledger.count x })
    (refused : ∀ {m h x}, P m h → (∀ hold, x ≠ .ok (.granted hold)) → ret m h x)
    (placed : ∀ {m h}, P m h →
      let r := h.ledger.place m.stamp id holder (duration / 1000000) price
      ret m { h with ledger := r.2 } r.1) (start : P m h) :
    (onLedger (Ledger.reserve s id holder duration price)).Bears others ret m h := by
  rcases Ledger.reserve_cases s id holder duration price with ⟨e, turned, -⟩ | ⟨placing, -⟩
  · rw [turned]
    exact refused start fun hold => by simp
  · rw [placing]
    have denied : ∀ {m h x reason}, P m h →
        ret m { h with ledger := h.ledger.count x } (.ok (.denied reason)) :=
      fun start => refused (count start) fun hold => by simp
    have locked : ∀ due, (onLedger (Ledger.underLock id due
        ((Call.modify fun l => l.count (.reservations "timeout")).bind fun _ =>
          .done (.ok (.denied (.contended id))))
        (Call.update fun now l => l.place now id holder (duration / 1000000) price))).Bears
          others ret m h :=
      fun due => bears_underLock stable count denied placed start
    change (Call.within _ _ (if _ then _ else _)).Bears others ret m h
    split
    · exact refused start fun hold => by simp
    · refine bears_peekStatus fun status => ?_
      cases status with
      | none => exact locked (m.elapsed + s.lockWait)
      | some status =>
        cases status with
        | available => exact locked (m.elapsed + s.lockWait)
        | reserved => exact denied start
        | booked => exact denied start

/-- **A hold is given up**, or that fails, in one stretch. -/
theorem bears_cancelHold (s : CoordinatorSettings) (id : Id) (holder : String)
    {ret : Moment → House → Except CallError Unit → Prop}
    (stable : ∀ {m h m' h'}, P m h → others m h m' h' → P m' h')
    (count : ∀ {m h x}, P m h → P m { h with ledger := h.ledger.count x })
    (failed : ∀ {m h e}, P m h → ret m h (.error e))
    (decided : ∀ {m h}, P m h →
      let r := h.ledger.cancel s.policy m.stamp id holder
      ret m { h with ledger := r.2 } r.1) (start : P m h) :
    (onLedger (Ledger.cancelHold s id holder)).Bears others ret m h := by
  have locked : ∀ due, (onLedger (Ledger.underLock id due (.done (.error (.lockTimeout id)))
      (Call.update fun now l => l.cancel s.policy now id holder))).Bears others ret m h :=
    fun due => bears_underLock stable count failed decided start
  change (Call.within _ _ (if _ then _ else _)).Bears others ret m h
  split
  · exact failed start
  · exact locked (m.elapsed + s.lockWait)

/-- A look at one resource, which may have to wait for its lock. -/
theorem bears_readOne {f : Resource → β} {Q : Option β → Prop}
    (stable : ∀ {m h m' h'}, P m h → others m h m' h' → P m' h')
    (sees : ∀ {m h}, P m h → Q ((h.ledger.resources.get? id).map f)) (start : P m h) :
    (onLedger (Ledger.readOne id f)).Bears others (fun m h read => P m h ∧ Q read) m h := by
  change (Call.within _ _ (if _ then _ else _)).Bears others _ m h
  split
  · exact fun m' h' went got => ⟨stable start went, sees (stable start went)⟩
  · next unknown =>
    have none : h.ledger.resources.get? id = none := by
      simpa [Table.contains_eq_isSome] using unknown
    have read := sees start
    rw [none, Option.map_none] at read
    exact ⟨start, read⟩

/-- Looks at several resources, one after the other. -/
theorem bears_readEach {f : Id → Resource → β} {Q : Id → Option β → Prop} {ids : List Id}
    (stable : ∀ {m h m' h'}, P m h → others m h m' h' → P m' h')
    (sees : ∀ {m h}, P m h → ∀ id ∈ ids, Q id ((h.ledger.resources.get? id).map (f id)))
    (start : P m h) :
    (onLedger (Ledger.readEach f ids)).Bears others
      (fun m h read => P m h ∧ ∃ each, List.Forall₂ Q ids each ∧ read = each.filterMap fun o => o)
      m h := by
  induction ids generalizing m h with
  | nil => exact ⟨start, [], .nil, rfl⟩
  | cons id ids ih =>
    have parts : onLedger (Ledger.readEach f (id :: ids)) =
        (onLedger (Ledger.readOne id (f id))).bind fun a =>
          (onLedger (Ledger.readEach f ids)).bind fun rest => .done (a.toList ++ rest) := by
      refine (Call.within_bind ..).trans (congrArg (Call.bind _) (funext fun a => ?_))
      exact Call.within_bind ..
    rw [parts]
    have first : (onLedger (Ledger.readOne id (f id))).Bears others
        (fun m h read => P m h ∧ Q id read) m h :=
      bears_readOne stable (fun known => sees known id List.mem_cons_self) start
    refine Call.bears_bind.2 (first.mono fun m h a ⟨known, read⟩ => ?_)
    have rest := ih (fun known id hid => sees known id (List.mem_cons_of_mem _ hid)) known
    refine Call.bears_bind.2 (rest.mono fun m h rest ⟨known, each, reads, e⟩ => ?_)
    refine ⟨known, a :: each, .cons read reads, ?_⟩
    cases a <;> simp [e]

end Tenure.House
