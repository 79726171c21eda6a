import Tenure.Proofs.Deadlines
import Tenure.Proofs.Naming.Basic

/-!
# Booking by names

A party that books by names reads members of the group until it has found who bears them, and then
books those as if it had listed them itself. What it finds is known beforehand, so the question is
what the look-up costs.

**Where every member that it reads can be read at once**, nobody can tell the two apart: not by
the answer, nor by when it comes, nor by what is left behind. **Where one of them is locked**, the
party waits for it without any deadline. All that it does in that time is to wait, and when it has
found all members it goes on as if it had listed them at that moment, so that its deadline begins
only then (`Traffic.booked_by_name_as_listed`). A seat that stays locked therefore keeps it longer
than any wait for a lock should last (`Traffic.looks_up_beyond_lockWait`).
-/

namespace Tenure

/-- The call of a client that makes the request `q` and takes note of the answer as one to `r`. -/
def Request.errandAs (s : CoordinatorSettings) (q r : Request) : Call Ledger Reply :=
  (q.call s).bind fun a => .done (.answered r a)

/-! ## Going on as if -/

variable {σ α : Type}

/-- The locks once a party has given back the one it has waited for, if any. -/
def Wait.handBack (owner : Owner) (ls : Locks) : Wait σ α → Locks
  | lock key _ _ _ => ls.release owner key
  | _ => ls

namespace Traffic

variable {t u v : Traffic σ α} {owner : Owner} {call : Call σ α}
  {Entry : Call σ α → (α → Option (Call σ α)) → Prop}

/-- A party goes on, until it waits again or is answered. -/
def Goes (t : Traffic σ α) (owner : Owner) (u : Traffic σ α) : Prop := ∃ go, t.Stretch owner go u

/-- The state in which a party has given back what it has waited for and is about to begin another
call. -/
inductive Instead (t : Traffic σ α) (owner : Owner) (call : Call σ α) : Traffic σ α → Prop where
  /-- the others are in flight as before -/
  | of {earlier later : List (Flight σ α)} {f : Flight σ α}
    (split : t.flights = earlier ++ f :: later) (own : f.owner = owner) :
    t.Instead owner call { t with
      locks := f.wait.handBack owner t.locks
      flights := earlier ++ { f with wait := .turn call } :: later }

/-- A party goes on, and from then on it is as if it had begun another call just now. -/
def GoesAsIf (Entry : Call σ α → (α → Option (Call σ α)) → Prop) (t : Traffic σ α) (owner : Owner)
    (call : Call σ α) (v : Traffic σ α) : Prop :=
  t.Goes owner v ∧ ∃ t' v', t.Instead owner call t' ∧ t'.Goes owner v' ∧ Twins Entry v v'

/-- Stretches that run as another call would lead to twins. -/
theorem twins_of_run {earlier later : List (Flight σ α)} {f : Flight σ α} {ls ls' : Locks}
    {go : Call σ α × σ × Locks} (alike : ls.Alike ls')
    (runs : go.1.run f.owner t.clock go.2.1 go.2.2 = call.run f.owner t.clock t.shared ls') :
    Twins Entry (t.resume f (earlier ++ later) go)
      (resume { t with locks := ls, flights := earlier ++ { f with wait := .turn call } :: later }
        { f with wait := .turn call } (earlier ++ later) (call, t.shared, ls)) := by
  refine (alike_resume rfl rfl rfl rfl rfl ?_).twins
  rw [runs]
  exact call.run_alike f.owner t.clock t.shared alike.symm

/-- The other call begins at once. -/
theorem goes_instead {earlier later : List (Flight σ α)} {f : Flight σ α} {ls : Locks} :
    Goes { t with locks := ls, flights := earlier ++ { f with wait := .turn call } :: later }
      f.owner
      (resume { t with locks := ls, flights := earlier ++ { f with wait := .turn call } :: later }
        { f with wait := .turn call } (earlier ++ later) (call, t.shared, ls)) :=
  ⟨(call, t.shared, ls), .of rfl rfl (.turn call)⟩

end Traffic

/-! ## A party that looks names up -/

namespace Traffic

/-- A party that has begun with `call` has still to read some resources before it goes on as
`rest`. It has not begun, or it waits for the lock of one of them, to share it and without
deadline. It is in no other row. -/
inductive LooksUp (l : Ledger) (rest call : Call Ledger Reply) (reads : List Id) (owner : Owner)
    (t : Traffic Ledger Reply) : Prop where
  /-- it has not begun -/
  | begins (here : ⟨owner, .turn call, fun _ => none⟩ ∈ t.flights)
    (skims : l.Skims rest reads call) (free : ∀ key, t.locks.places owner key = [])
  /-- it waits to read one of them -/
  | waits {id : Id} {more : List Id} {k : Bool → Call Ledger Reply} {d : Call Ledger Reply}
    (here : ⟨owner, .lock (.resource id) .shared none k, fun _ => none⟩ ∈ t.flights)
    (left : (id :: more) <:+ reads) (next : l.RunsAs (k true) (.release (.resource id) d))
    (skims : l.Skims rest more d)
    (only : ∀ key, t.locks.places owner key =
      if key = .resource id then [(owner, .shared)] else [])

variable {s : CoordinatorSettings} {l : Ledger} {rest call d : Call Ledger Reply}
  {reads ids : List Id} {owner : Owner} {t u v : Traffic Ledger Reply}
  {go : Call Ledger Reply × Ledger × Locks}
  {Entry : Call Ledger Reply → (Reply → Option (Call Ledger Reply)) → Prop}

/-- Whoever looks names up is in flight. -/
theorem LooksUp.here (h : LooksUp l rest call reads owner t) :
    ∃ f ∈ t.flights, f.owner = owner := by
  cases h with
  | begins here skims free => exact ⟨_, here, rfl⟩
  | waits here left next skims only => exact ⟨_, here, rfl⟩

/-- While it reads it changes nothing but locks, and nobody is answered. -/
structure ReadsOn (l : Ledger) (rest call : Call Ledger Reply) (reads : List Id) (owner : Owner)
    (t v : Traffic Ledger Reply) : Prop where
  /-- it looks further -/
  looks : LooksUp l rest call reads owner v
  /-- the ledger is the same -/
  shared : v.shared = t.shared
  /-- there is no answer -/
  returned : v.returned = t.returned

/-- A stretch that reads some more resources from where the party has no lock. -/
theorem readsOn_or_goesAsIf {earlier later : List (Flight Ledger Reply)} {w : Wait Ledger Reply}
    (split : t.flights = earlier ++ ⟨owner, w, fun _ => none⟩ :: later)
    (isOver : w.Over owner t.clock t.shared t.locks go) (akin : l.Akin t.shared)
    (skims : l.Skims rest ids d) (left : ids <:+ reads)
    (free : ∀ key, (w.handBack owner t.locks).places owner key = [])
    (runs : go.1.run owner t.clock go.2.1 go.2.2 =
      d.run owner t.clock t.shared (w.handBack owner t.locks)) :
    ReadsOn l rest call reads owner t (t.resume ⟨owner, w, fun _ => none⟩ (earlier ++ later) go) ∨
      GoesAsIf Entry t owner rest (t.resume ⟨owner, w, fun _ => none⟩ (earlier ++ later) go) := by
  have stretch : t.Stretch owner go (t.resume ⟨owner, w, fun _ => none⟩ (earlier ++ later) go) :=
    .of split rfl isOver
  rcases skims.run akin free with ⟨ls', alike, ends⟩ |
    ⟨id, more, k, d', ls', suffix, -, next, skims, alike, waits⟩
  · exact .inr ⟨⟨go, stretch⟩, _, _, .of split rfl, goes_instead,
      twins_of_run alike (runs.trans ends)⟩
  · have run := runs.trans waits
    refine .inl ⟨.waits ?_ (suffix.trans left) next skims fun key => ?_, ?_, ?_⟩
    · simp only [resume, run]
      exact List.mem_append_right _ (List.mem_singleton.2 rfl)
    · rw [stretch.locks, run, Locks.places_request, alike.places, free key]
      rfl
    · rw [stretch.shared, run]
    · rw [stretch.returned, run]

/-- **A stretch of the party** reads on, or ends the look-up. -/
theorem LooksUp.own (h : LooksUp l rest call reads owner t)
    (owners : (t.flights.map Flight.owner).Nodup) (akin : l.Akin t.shared)
    (stretch : t.Stretch owner go v) :
    ReadsOn l rest call reads owner t v ∨ GoesAsIf Entry t owner rest v := by
  obtain @⟨earlier, later, f, split, own, isOver⟩ := stretch
  have hf : f ∈ t.flights := (perm_of_split split).mem_iff.2 List.mem_cons_self
  have same : ∀ {g}, g ∈ t.flights → g.owner = owner → f = g :=
    fun hg mine => List.inj_on_of_nodup_map owners hf hg (own.trans mine.symm)
  cases h with
  | begins here skims free =>
    obtain rfl := same here rfl
    cases isOver
    exact readsOn_or_goesAsIf split (.turn _) akin skims List.suffix_rfl free rfl
  | @waits id more k d here left next skims only =>
    obtain rfl := same here rfl
    cases isOver with
    | granted _ k has =>
      have mine : t.locks.places owner (.resource id) = [(owner, .shared)] := by
        rw [only, if_pos rfl]
      refine readsOn_or_goesAsIf split (.granted none k has) akin skims
        ((List.suffix_cons id more).trans left) (fun key => ?_)
        (next owner t.clock t.shared t.locks akin)
      rw [Wait.handBack, Locks.places_release has mine, only]
      split <;> rfl
    | gaveUp k not passed => cases passed

/-- A party that stays in flight as it is, with the same places, is as far as before. -/
theorem LooksUp.stays (h : LooksUp l rest call reads owner t)
    (flights : ∀ f ∈ t.flights, f.owner = owner → f ∈ v.flights)
    (places : v.locks.places owner = t.locks.places owner) : LooksUp l rest call reads owner v := by
  cases h with
  | begins here skims free => exact .begins (flights _ here rfl) skims fun key => places ▸ free key
  | waits here left next skims only =>
    exact .waits (flights _ here rfl) left next skims fun key => places ▸ only key

/-- **A stretch of somebody else** leaves the party where it is. -/
theorem LooksUp.other {other : Owner} (h : LooksUp l rest call reads owner t)
    (stretch : t.Stretch other go v) (ne : owner ≠ other) : LooksUp l rest call reads owner v := by
  obtain ⟨f, -, -, isOver⟩ := stretch.flight
  refine h.stays (fun g hg own => (stretch.others (own ▸ ne)).2 hg) ?_
  rw [stretch.locks]
  exact Locks.places_stretch ne isOver

/-- **Moves** leave the party looking, or end the look-up. -/
theorem LooksUp.move (h : LooksUp l rest call reads owner t)
    (owners : (t.flights.map Flight.owner).Nodup) (akin : l.Akin t.shared) (move : Move Entry t v) :
    LooksUp l rest call reads owner v ∨ GoesAsIf Entry t owner rest v := by
  cases move with
  | @goOn earlier later f go split isOver =>
    by_cases own : owner = f.owner
    · exact (h.own owners akin (.of split own.symm (own ▸ isOver))).imp_left ReadsOn.looks
    · exact .inl (h.other (.of split rfl isOver) own)
  | elapse later => exact .inl (h.stays (fun _ hf _ => hf) rfl)
  | enter entry => exact .inl (h.stays (fun _ hf _ => List.mem_append_left _ hf) rfl)

/-- **Along every history** the party still looks, or at some time its look-up has ended. -/
theorem Prompt.looksUp (h : Prompt (Party s) (fun _ => True) t u)
    (kept : t.Kept Ledger.conduct Ledger.Upkeep fun m l l' a => a.Does s m l l')
    (akin : l.Akin t.shared) (looks : LooksUp l rest call reads owner t) :
    LooksUp l rest call reads owner u ∨
      ∃ t₁ v, Prompt (Party s) (fun _ => True) t t₁ ∧ LooksUp l rest call reads owner t₁ ∧
        GoesAsIf (Party s) t₁ owner rest v ∧ Prompt (Party s) (fun _ => True) v u := by
  induction h with
  | none here => exact .inl looks
  | @snoc u v before move onTime here ih =>
    rcases ih with looks | ⟨t₁, v₁, early, looks, goes, since⟩
    · obtain ⟨kept, rely⟩ := before.moves.rely Party.keepsTo kept
      rcases looks.move kept.owners (akin.trans rely.toAkin) move with looks | goes
      · exact .inl looks
      · exact .inr ⟨u, v, before, looks, goes, .none trivial⟩
    · exact .inr ⟨t₁, v₁, early, looks, goes, since.snoc move onTime here⟩

end Traffic

/-! ## By names, or as listed -/

namespace Ledger

variable {s : CoordinatorSettings} {l : Ledger} {group : Id} {holder : String}
  {names : List String} {ids : List Id} {price : Float → Float}

/-- A client that books by names reads the members, and then books those that it has found. -/
theorem skims_errand (all : l.allNamed group names = some ids) :
    l.Skims
      ((Request.book group holder ids price).errandAs s (.bookByName group holder names price))
      (l.readsForAll group names) ((Request.bookByName group holder names price).errand s) := by
  simp only [Request.errandAs, Request.errand, Request.call, Call.bind_assoc]
  exact skims_bookByName s all

theorem map_named (all : l.allNamed group names = some ids) :
    names.map (l.named group) = ids.map some := by
  induction names generalizing ids with
  | nil =>
    cases all
    rfl
  | cons name names ih =>
    rw [allNamed] at all
    split at all
    · cases all
    · next id first =>
      obtain ⟨others, allOthers, rfl⟩ := Option.map_eq_some_iff.1 all
      rw [List.map_cons, List.map_cons, first, ih allOthers]

/-- **A name that is repeated** is a resource that is repeated. -/
theorem bookGroup_of_repeated (all : l.allNamed group names = some ids)
    (repeated : ¬ names.Nodup) (known : holderFault? holder = none)
    (few : names.length ≤ maxBookingSize) :
    ∃ id, firstRepeated [] ids = some id ∧
      bookGroup s group holder ids price = .done (.error (.duplicateResource id)) := by
  have lengths : names.length = ids.length := by
    have lengths := congrArg List.length (map_named all)
    rwa [List.length_map, List.length_map] at lengths
  have twice : ¬ ids.Nodup := by
    intro apart
    refine repeated (List.Nodup.of_map (l.named group) ?_)
    rw [map_named all]
    exact apart.map (Option.some_injective Id)
  cases first : firstRepeated [] ids with
  | none => exact absurd (nodup_of_firstRepeated first).1 twice
  | some id =>
    have some : ids.isEmpty = false := by
      cases ids with
      | nil => exact absurd List.nodup_nil twice
      | cons id ids => rfl
    have fits : ¬ maxBookingSize < ids.length := Nat.not_lt.2 (lengths ▸ few)
    refine ⟨id, rfl, ?_⟩
    simp only [bookGroup, known, some, fits, first, if_false, Bool.false_eq_true]
    rfl

end Ledger

namespace Traffic

variable {s : CoordinatorSettings} {origin : Int} {l₀ : Ledger} {t₀ : Traffic Ledger Reply}
  {group : Id} {names : List String} {ids : List Id}

/-- **Booking by names is booking as listed, but for the wait.** A party enters in any reachable
state, and books members of a group by names that are all borne there; `ids` are the first members
that bear them. If every member that is read can be read at once and the party begins at once,
then it is from then on as if it had listed them. In any case, as long as nobody is late: until
its look-up has ended it changes nothing but locks, and once it has, it is as if the party had
given back what it has waited for and had listed them in that very moment. If a name is repeated,
so is a resource, and a list that is otherwise in order is refused for that. -/
theorem booked_by_name_as_listed (ord : l₀.Orderly)
    (h₀ : Moves (Party s) (Traffic.start origin l₀) t₀)
    (all : t₀.shared.allNamed group names = some ids) (holder : String) (price : Float → Float) :
    let byName := (Request.bookByName group holder names price).errand s
    let listed := (Request.book group holder ids price).errandAs s
      (.bookByName group holder names price)
    let reads := t₀.shared.readsForAll group names
    ((∀ id ∈ reads, (t₀.locks.get (.resource id)).ready .shared = true) →
      ∃ v v', (t₀.enter byName).Goes t₀.nextOwner v ∧ (t₀.enter listed).Goes t₀.nextOwner v' ∧
        Twins (Party s) v v') ∧
    (∀ u, Prompt (Party s) (fun _ => True) (t₀.enter byName) u →
      LooksUp t₀.shared listed byName reads t₀.nextOwner u ∨
      ∃ t₁ v, Prompt (Party s) (fun _ => True) (t₀.enter byName) t₁ ∧
        LooksUp t₀.shared listed byName reads t₀.nextOwner t₁ ∧
        GoesAsIf (Party s) t₁ t₀.nextOwner listed v ∧ Prompt (Party s) (fun _ => True) v u) ∧
    (∀ u v, Prompt (Party s) (fun _ => True) (t₀.enter byName) u →
      LooksUp t₀.shared listed byName reads t₀.nextOwner u → u.Goes t₀.nextOwner v →
      ReadsOn t₀.shared listed byName reads t₀.nextOwner u v ∨
        GoesAsIf (Party s) u t₀.nextOwner listed v) ∧
    (¬ names.Nodup → holderFault? holder = none → names.length ≤ maxBookingSize →
      ∃ id, Ledger.firstRepeated [] ids = some id ∧
        Ledger.bookGroup s group holder ids price = .done (.error (.duplicateResource id))) := by
  intro byName listed reads
  have skims : t₀.shared.Skims listed reads byName := Ledger.skims_errand all
  have sound₀ : t₀.Sound Ledger.conduct Ledger.Upkeep fun m l l' a => a.Does s m l l' :=
    h₀.invariant (fun move sound => move.sound Party.keepsTo sound) (sound_start ord)
  have kept : (t₀.enter byName).Kept Ledger.conduct Ledger.Upkeep
      fun m l l' a => a.Does s m l l' :=
    ((Move.enter (Client.once s _).party).effect Party.keepsTo sound₀.kept).1
  have free : ∀ key, t₀.locks.places t₀.nextOwner key = [] := by
    intro key
    refine List.filter_eq_nil_iff.2 fun h hh own => ?_
    exact Nat.ne_of_lt (sound₀.rows h.1 key h.2 hh) (of_decide_eq_true own)
  have looks : LooksUp t₀.shared listed byName reads t₀.nextOwner (t₀.enter byName) :=
    .begins (List.mem_append_right _ (List.mem_singleton.2 rfl)) skims free
  refine ⟨fun ready => ?_, fun u history => ?_, fun u v history looks' goes => ?_, ?_⟩
  · rcases skims.run (m := t₀.clock) (.refl t₀.shared) free with
      ⟨ls', alike, ends⟩ | ⟨id, more, k, d, ls', left, busy, -⟩
    · exact ⟨_, _, ⟨_, .of rfl rfl (.turn _)⟩, ⟨_, .of rfl rfl (.turn _)⟩, twins_of_run alike ends⟩
    · have first := left.subset List.mem_cons_self
      rw [ready id first] at busy
      cases busy
  · exact history.looksUp kept (.refl t₀.shared) looks
  · obtain ⟨kept, rely⟩ := history.moves.rely Party.keepsTo kept
    obtain ⟨go, stretch⟩ := goes
    exact looks'.own kept.owners rely.toAkin stretch
  · exact Ledger.bookGroup_of_repeated all

end Traffic

/-! ### An example -/

/-- A hall with two seats that have names. -/
def Ledger.namedHall : Ledger :=
  let seat (name : String) := Resource.fresh 1.0 (some ⟨0, 3⟩) (some name) none
  { Ledger.empty (.counting 4) with
    resources := (Table.empty.insert ⟨0, 1⟩ (seat "A1")).insert ⟨0, 2⟩ (seat "A2")
    groups := Table.empty.insert ⟨0, 3⟩ ⟨none, [⟨0, 1⟩, ⟨0, 2⟩]⟩ }

namespace Request

/-- Ann asks for seats by their names. -/
def annNames (names : List String) : Request := .bookByName ⟨0, 3⟩ "Ann" names id

/-- Ann lists seats. -/
def annLists (ids : List Id) : Request := .book ⟨0, 3⟩ "Ann" ids id

end Request

namespace Traffic

/-- Somebody has the lock of the second seat. -/
def vigilInHall : Traffic Ledger Reply :=
  ((Traffic.start 0 Ledger.namedHall).enter (vigil.bind fun _ => .done .looked)).settle 1

theorem moves_vigilInHall :
    Moves (Party .standard) (Traffic.start 0 Ledger.namedHall) vigilInHall :=
  (Moves.none.snoc (.enter (client_keeping ..).party)).trans (run_moves ..)

/-- So it is when Ann asks for the first seat while somebody has the lock of the second one, which
she need not read: it is as if she had listed it. When she asks for both she looks for the second
one until it is given back, and only then it is as if she had listed them. -/
theorem booked_by_name_as_listed_for_ann :
    Ledger.namedHall.Orderly ∧
      Moves (Party .standard) (Traffic.start 0 Ledger.namedHall) vigilInHall ∧
      vigilInHall.shared.allNamed ⟨0, 3⟩ ["A1"] = some [⟨0, 1⟩] ∧
      vigilInHall.shared.allNamed ⟨0, 3⟩ ["A2", "A1"] = some [⟨0, 2⟩, ⟨0, 1⟩] ∧
      (∃ v v', (vigilInHall.enter ((Request.annNames ["A1"]).errand .standard)).Goes 1 v ∧
        (vigilInHall.enter ((Request.annLists [⟨0, 1⟩]).errandAs .standard
          (.annNames ["A1"]))).Goes 1 v' ∧ Twins (Party .standard) v v') ∧
      ∃ t₁ v u, Prompt (Party .standard) (fun _ => True)
          (vigilInHall.enter ((Request.annNames ["A2", "A1"]).errand .standard)) t₁ ∧
        GoesAsIf (Party .standard) t₁ 1 ((Request.annLists [⟨0, 2⟩, ⟨0, 1⟩]).errandAs .standard
          (.annNames ["A2", "A1"])) v ∧
        Prompt (Party .standard) (fun _ => True) v u ∧
        (u.returned.map fun x => (x.owner, x.time)) = [(1, 5000), (0, 5000)] := by
  have ord : Ledger.namedHall.Orderly := Ledger.orderly_of_none fun _ => rfl
  have one : vigilInHall.shared.allNamed ⟨0, 3⟩ ["A1"] = some [⟨0, 1⟩] := by decide +kernel
  have both : vigilInHall.shared.allNamed ⟨0, 3⟩ ["A2", "A1"] = some [⟨0, 2⟩, ⟨0, 1⟩] := by
    decide +kernel
  obtain ⟨atOnce, -⟩ := booked_by_name_as_listed ord moves_vigilInHall one "Ann" id
  obtain ⟨-, later, -⟩ := booked_by_name_as_listed ord moves_vigilInHall both "Ann" id
  let t := vigilInHall.enter ((Request.annNames ["A2", "A1"]).errand .standard)
  have way : Prompt (Party .standard) (fun _ => True) t (t.run (fun _ => false) none 6) :=
    run_prompt _ _ 6 fun _ _ => trivial
  have gone : (t.run (fun _ => false) none 6).flights.length = 0 := by decide +kernel
  obtain ⟨t₁, v, early, -, goes, since⟩ := (later _ way).resolve_left fun looks => by
    obtain ⟨f, hf, -⟩ := looks.here
    rw [List.eq_nil_of_length_eq_zero gone] at hf
    cases hf
  exact ⟨ord, moves_vigilInHall, one, both, atOnce (by decide +kernel), t₁, v, _, early, goes,
    since, by decide +kernel⟩

/-- **A look-up outlasts the wait for locks.** Calls wait for locks for a second. Somebody keeps the
second seat locked for five. If Ann lists both seats she is told after one second that she has
missed its lock; if she asks for them by their names she waits all the five seconds, and books
them. -/
theorem looks_up_beyond_lockWait :
    CoordinatorSettings.standard.lockWait = 1000 ∧ Ledger.namedHall.Orderly ∧
      Moves (Party .standard) (Traffic.start 0 Ledger.namedHall) vigilInHall ∧
      vigilInHall.clock.elapsed = 0 ∧
      vigilInHall.shared.allNamed ⟨0, 3⟩ ["A2", "A1"] = some [⟨0, 2⟩, ⟨0, 1⟩] ∧
      let byName := (vigilInHall.enter ((Request.annNames ["A2", "A1"]).errand .standard)).run
        (fun _ => false) none 6
      let listed := (vigilInHall.enter ((Request.annLists [⟨0, 2⟩, ⟨0, 1⟩]).errand .standard)).run
        (fun _ => false) none 6
      (byName.returned.map fun x => (x.owner, x.answer.late?, x.time)) =
        [(1, none, 5000), (0, none, 5000)] ∧
      (listed.returned.map fun x => (x.owner, x.answer.late?, x.time)) =
        [(0, none, 5000), (1, some ⟨0, 2⟩, 1000)] ∧
      (byName.shared.resources.get? ⟨0, 1⟩).map Resource.status = some .booked ∧
      (listed.shared.resources.get? ⟨0, 1⟩).map Resource.status = some .available :=
  ⟨rfl, Ledger.orderly_of_none fun _ => rfl, moves_vigilInHall, by decide +kernel,
    by decide +kernel, by decide +kernel, by decide +kernel, by decide +kernel, by decide +kernel⟩

end Traffic

end Tenure
