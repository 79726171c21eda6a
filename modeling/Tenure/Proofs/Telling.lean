import Tenure.Proofs.Steps

/-!
# The events tell the whole truth

Somebody who hears every event in the order of sending, and nothing else, can tell how each
resource stands (`News`). It starts out as available, and each event says what becomes of it
(`News.hear`). No event surprises such a listener: whatever ends or confirms a claim names the
claim that the listener knows of (`Event.Sound`).

In every reachable state the news are what is stored (`events_tell_all`). For no resource changes
without an event in the same stretch (`Heard.step`). Events about several resources rest on the
agreement between claims and records: the resources that a group booking lists are those that
are freed when it is given up.
-/

namespace Tenure

/-! ## News -/

/-- How a resource stands, for somebody who has heard every event. -/
inductive News where
  /-- nobody has it -/
  | available
  /-- somebody holds it for a time -/
  | held (holder : String) (deadline : Int) (generation : UInt64)
  /-- somebody has booked it, on its own or as part of a group booking -/
  | booked (holder : String) (booking : Option Id)
  deriving DecidableEq

namespace News

/-- Its status. -/
def status : News → Status
  | available => .available
  | held .. => .reserved
  | booked .. => .booked

/-- Who has it. -/
def holder : News → Option String
  | available => none
  | held holder _ _ => some holder
  | booked holder _ => some holder

/-- Until when it is held. -/
def deadline : News → Option Int
  | held _ deadline _ => some deadline
  | _ => none

/-- The generation of the hold. -/
def generation : News → Option UInt64
  | held _ _ generation => some generation
  | _ => none

/-- The group booking that it is part of. -/
def booking : News → Option Id
  | booked _ booking => booking
  | _ => none

/-- What becomes of it when an event is heard. -/
def hear (id : Id) (n : News) : Event → News
  | .resourceAdded .. => n
  | .holdPlaced id' holder _ deadline generation =>
    if id = id' then held holder deadline generation else n
  | .holdExpired id' _ _ => if id = id' then available else n
  | .bookingConfirmed id' holder _ => if id = id' then booked holder none else n
  | .reservationCancelled id' _ => if id = id' then available else n
  | .groupBooked booking _ holder resources _ =>
    if id ∈ resources then booked holder (some booking) else n
  | .groupCancelled _ _ resources => if id ∈ resources then available else n

end News

/-- How a resource stands after a history of events, the newest first. -/
def newsOf (history : List (Id × Event)) (id : Id) : News :=
  history.foldr (fun x n => n.hear id x.2) .available

/-- The event is one that may come next, going by the news so far. -/
def Event.Sound (news : Id → News) : Event → Prop
  | resourceAdded id _ => news id = .available
  | holdPlaced id _ _ _ _ => news id = .available
  | holdExpired id holder generation => ∃ deadline, news id = .held holder deadline generation
  | bookingConfirmed id holder _ =>
    ∃ deadline generation, news id = .held holder deadline generation
  | reservationCancelled id holder =>
    (∃ deadline generation, news id = .held holder deadline generation) ∨
      news id = .booked holder none
  | groupBooked _ _ _ resources _ => ∀ id ∈ resources, news id = .available
  | groupCancelled booking _ resources =>
    ∃ holder, ∀ id ∈ resources, news id = .booked holder (some booking)

/-- The news of a resource are what is stored of it. -/
structure News.Matches (n : News) (r : Resource) : Prop where
  /-- the status -/
  status : r.status = n.status
  /-- who has it -/
  holder : r.holder = n.holder
  /-- until when it is held -/
  deadline : r.claim.bind Claim.deadline = n.deadline
  /-- which hold that is -/
  generation : ∀ g, n.generation = some g → r.claim.map Claim.generation = some g
  /-- the group booking that it is part of -/
  booking : r.claim.bind Claim.booking = n.booking

namespace News.Matches

variable {n : News} {r : Resource} {c : Claim}

theorem eq_available (h : n.Matches r) (free : r.status = .available) : n = .available := by
  have status := h.status
  rw [free] at status
  cases n with
  | available => rfl
  | held _ _ _ => cases status
  | booked _ _ => cases status

theorem eq_held (h : n.Matches r) (reserved : r.status = .reserved) (hc : r.claim = some c) :
    ∃ deadline, n = .held c.holder deadline c.generation := by
  have status := h.status
  rw [reserved] at status
  cases n with
  | available => cases status
  | booked _ _ => cases status
  | held holder deadline generation =>
    have same := h.generation generation rfl
    have own := h.holder
    rw [Resource.holder, hc, Option.map_some] at own
    rw [hc, Option.map_some] at same
    cases own
    cases same
    exact ⟨deadline, rfl⟩

theorem eq_booked (h : n.Matches r) (hc : r.claim = some c) {booking : Id}
    (part : c.booking = some booking) : n = .booked c.holder (some booking) := by
  have parts := h.booking
  have own := h.holder
  rw [hc, Option.bind_some, part] at parts
  rw [Resource.holder, hc, Option.map_some] at own
  cases n with
  | available => cases parts
  | held _ _ _ => cases parts
  | booked holder _ =>
    cases own
    cases parts
    rfl

/-- A claim on a single resource, whether it is held or booked. -/
theorem eq_single (h : n.Matches r) (taken : r.status ≠ .available)
    (single : r.claim.bind Claim.booking = none) :
    (∃ deadline generation, n = .held (r.holder.getD "") deadline generation) ∨
      n = .booked (r.holder.getD "") none := by
  have own := h.holder
  have part := h.booking
  cases n with
  | available => exact absurd h.status taken
  | held holder deadline generation =>
    rw [own]
    exact .inl ⟨deadline, generation, rfl⟩
  | booked holder booking =>
    rw [single] at part
    cases part
    rw [own]
    exact .inr rfl

theorem freed (r : Resource) : News.available.Matches r.freed :=
  ⟨rfl, rfl, rfl, fun _ => (nomatch ·), rfl⟩

theorem held (r : Resource) (h : Hold) :
    (News.held h.holder h.deadline h.generation).Matches (Ledger.held r h) :=
  ⟨rfl, rfl, rfl, fun _ e => e, rfl⟩

theorem confirmed (hc : r.claim = some c) (single : c.booking = none) :
    (News.booked c.holder none).Matches (Ledger.confirmed r) := by
  refine ⟨rfl, ?_, ?_, fun _ => (nomatch ·), ?_⟩
  · simp [Ledger.confirmed, Resource.holder, hc, News.holder]
  · simp [Ledger.confirmed, hc, News.deadline]
  · simp [Ledger.confirmed, hc, single, News.booking]

theorem bookedBy (r : Resource) (holder : String) (booking : Id) (price : Float → Float) :
    (News.booked holder (some booking)).Matches (Ledger.bookedBy r holder booking price) :=
  ⟨rfl, rfl, rfl, fun _ => (nomatch ·), rfl⟩

end News.Matches

namespace Ledger

variable {l l' : Ledger} {m : Moment} {id : Id}

/-! ## What is heard -/

/-- The news of the resources of a ledger. -/
abbrev news (l : Ledger) (id : Id) : News := newsOf l.hub.history id

/-- Whoever has heard every event knows how things stand. -/
structure Heard (l : Ledger) : Prop extends Agreement l, Orderly l where
  /-- the news are what is stored -/
  stored : ∀ id r, l.resources.get? id = some r → (l.news id).Matches r
  /-- no event was one that could not be -/
  sound : ∀ x earlier, x :: earlier <:+ l.hub.history → x.2.Sound (newsOf earlier)

/-- What nobody hears of makes no difference. -/
theorem Heard.congr (h : Heard l) (agreement : Agreement l') (ord : Orderly l')
    (resources : l'.resources = l.resources) (hub : l'.hub = l.hub) : Heard l' := by
  refine { agreement, ord with stored := fun id r hr => ?_, sound := fun x earlier later => ?_ }
  · rw [Ledger.news, hub]
    exact h.stored id r (resources ▸ hr)
  · exact h.sound x earlier (hub ▸ later)

/-- **One event.** It is sound, and tells what is stored from then on. -/
theorem Heard.tell {key : Id} {e : Event} (h : Heard l) (agreement : Agreement l')
    (ord : Orderly l') (hub : l'.hub = l.hub.send key e) (sound : e.Sound l.news)
    (told : ∀ id r, l'.resources.get? id = some r → ((l.news id).hear id e).Matches r) :
    Heard l' := by
  have history : l'.hub.history = (key, e) :: l.hub.history := by rw [hub]; rfl
  refine { agreement, ord with stored := fun id r hr => ?_, sound := fun x earlier later => ?_ }
  · rw [Ledger.news, history]
    exact told id r hr
  · rw [history] at later
    rcases List.suffix_cons_iff.1 later with same | older
    · cases same
      exact sound
    · exact h.sound x earlier older

/-- An event about one resource. -/
theorem Heard.tellOne {key : Id} {e : Event} {f : Resource → Resource} {r : Resource}
    (h : Heard l) (agreement : Agreement l') (ord : Orderly l')
    (hub : l'.hub = l.hub.send key e) (sound : e.Sound l.news)
    (here : l.resources.get? id = some r)
    (found : ∀ id', l'.resources.get? id' =
      if id' = id then (l.resources.get? id).map f else l.resources.get? id')
    (told : ((l.news id).hear id e).Matches (f r))
    (others : ∀ id' n, id' ≠ id → News.hear id' n e = n) : Heard l' := by
  refine h.tell agreement ord hub sound fun id' r' hr' => ?_
  rw [found] at hr'
  split at hr'
  · next same =>
    rw [here, Option.map_some] at hr'
    cases hr'
    exact same ▸ told
  · next other =>
    rw [others id' _ other]
    exact h.stored id' r' hr'

/-! ## Every step is told -/

/-- **Every step** is told by one event that is sound, unless nothing but counting is done. -/
theorem Heard.step (h : Heard l) (step : Step m l l') : Heard l' := by
  have agreement := step.agreement h.toAgreement h.toOrderly
  have ord := step.orderly h.toOrderly
  cases step with
  | count quiet =>
    obtain ⟨x, rfl⟩ := quiet
    exact h.congr agreement ord rfl rfl
  | @lapse id r c _ _ here gone claim =>
    obtain ⟨reserved, -⟩ := Resource.lapsed_iff.1 gone
    obtain ⟨deadline, known⟩ := (h.stored id r here).eq_held reserved claim
    refine h.tellOne agreement ord rfl ⟨deadline, known⟩ here (l.get?_turn id · true _) ?_ ?_
    · simpa [News.hear] using News.Matches.freed r
    · intro id' n other
      simp [News.hear, other]
  | @hold id r holder millis price here free =>
    have known := (h.stored id r here).eq_available free
    refine h.tellOne agreement ord rfl known here (l.get?_turn id · true _) ?_ ?_
    · rw [News.hear, if_pos rfl]
      exact .held r (holdOn r m.stamp id holder millis price)
    · intro id' n other
      simp [News.hear, other]
  | @confirm id r c here _ reserved claim =>
    have single := (h.resources id r here).single_of_reserved reserved
    rw [claim, Option.bind_some] at single
    obtain ⟨deadline, known⟩ := (h.stored id r here).eq_held reserved claim
    refine h.tellOne agreement ord rfl ⟨deadline, _, known⟩ here (l.get?_turn id · true _) ?_ ?_
    · simpa [News.hear] using News.Matches.confirmed claim single
    · intro id' n other
      simp [News.hear, other]
  | @cancel id r here _ taken single =>
    have known := (h.stored id r here).eq_single taken single
    refine h.tellOne agreement ord rfl known here (l.get?_turn id · true _) ?_ ?_
    · simpa [News.hear] using News.Matches.freed r
    · intro id' n other
      simp [News.hear, other]
  | @book _ b price books =>
    refine h.tell agreement ord books.hub (fun id hid => ?_) (fun id r' hr' => ?_)
    · obtain ⟨r, hr, free, -⟩ := books.free id hid
      exact (h.stored id r hr).eq_available free
    · rw [books.found] at hr'
      simp only [News.hear]
      split at hr'
      · next hid =>
        obtain ⟨r, -, rfl⟩ := Option.map_eq_some_iff.1 hr'
        rw [if_pos hid]
        exact .bookedBy r b.holder b.id price
      · next hid =>
        rw [if_neg hid]
        exact h.stored id r' hr'
  | @giveUp booking b stands =>
    obtain ⟨hb, confirmed⟩ := get?_of_standing stands
    obtain rfl := h.filed booking b hb
    refine h.tell agreement ord (l.hub_cancelBooking b) ⟨b.holder, fun id hid => ?_⟩
      (fun id r' hr' => ?_)
    · obtain ⟨r, hr, c, hc, part, own, -⟩ := h.listed b.id b hb confirmed id hid
      exact own ▸ (h.stored id r hr).eq_booked hc part
    · rw [get?_cancelBooking] at hr'
      simp only [News.hear]
      split at hr'
      · next hid =>
        -- it is listed, so it belongs to the booking and was freed
        obtain ⟨r, hr, belongs⟩ := h.listed b.id b hb confirmed id hid
        rw [hr, Option.map_some, Resource.givenUp, if_pos belongs.booking] at hr'
        cases hr'
        rw [if_pos hid]
        exact .freed r
      · next hid =>
        rw [if_neg hid]
        exact h.stored id r' hr'

theorem Heard.steps (h : Heard l) (steps : Steps m l l') : Heard l' :=
  steps.keeps (fun step h => h.step step) h

theorem Heard.upkeep (h : Heard l) (upkeep : Upkeep m l l') : Heard l' := by
  induction upkeep with
  | none => exact h
  | settle _ time id ih => exact ih.steps (Steps.none.settle time id)
  | tidy _ queue hand metrics ih =>
    exact ih.congr (ih.toAgreement.congr rfl rfl rfl) ⟨ih.filed, ih.fresh, ih.once⟩ rfl rfl

/-- **Every reply** leaves those in the know who hear every event. -/
theorem Heard.does (h : Heard l) {s : CoordinatorSettings} {a : Reply} (does : a.Does s m l l') :
    Heard l' := by
  rcases does with tells | upkeep
  · exact h.steps tells.steps
  · exact h.upkeep upkeep

/-! ## Where it starts -/

/-- The resources are registered and nobody has ever had one of them, and nothing else was told
so far. -/
structure Announced (l : Ledger) : Prop extends Untouched l where
  /-- whatever was told is that resources were registered -/
  history : ∀ x ∈ l.hub.history, ∃ id group, x.2 = .resourceAdded id group

/-- Registering tells nobody who has a resource. -/
theorem newsOf_registered {history : List (Id × Event)}
    (h : ∀ x ∈ history, ∃ id group, x.2 = .resourceAdded id group) (id : Id) :
    newsOf history id = .available := by
  induction history with
  | nil => rfl
  | cons x history ih =>
    obtain ⟨id', group, e⟩ := h x List.mem_cons_self
    rw [newsOf, List.foldr_cons, e]
    exact ih fun y hy => h y (List.mem_cons_of_mem _ hy)

theorem Announced.heard (h : Announced l) : Heard l := by
  refine { h.agreement, orderly_of_none h.bookings with stored := ?_, sound := ?_ }
  · intro id r hr
    obtain ⟨free, none⟩ := h.resources id r hr
    rw [news, newsOf_registered h.history]
    exact ⟨free, by simp [Resource.holder, none, News.holder], by simp [none, News.deadline],
      fun _ => (nomatch ·), by simp [none, News.booking]⟩
  · intro x earlier later
    obtain ⟨id, group, e⟩ := h.history x (later.subset List.mem_cons_self)
    rw [e]
    exact newsOf_registered (fun y hy => h.history y (later.subset (List.mem_cons_of_mem _ hy))) id

/-- **Registering** a resource that is available. -/
theorem Announced.add (h : Announced l) {id : Id} {r : Resource} (free : r.status = .available)
    (none : r.claim = none) (added : l.add id r = .ok l') : Announced l' := by
  simp only [Ledger.add] at added
  split at added
  · cases added
  · cases added
    refine { resources := fun id' r' hr' => ?_, bookings := h.bookings, turns := h.turns,
             history := fun x hx => ?_ }
    · change (l.resources.insert id r).get? id' = some r' at hr'
      rw [Table.get?_insert] at hr'
      split at hr'
      · cases hr'
        exact ⟨free, none⟩
      · exact h.resources id' r' hr'
    · rcases List.mem_cons.1 hx with rfl | hx
      · exact ⟨_, _, rfl⟩
      · exact h.history x hx

end Ledger

namespace Traffic

open Ledger

variable {s : CoordinatorSettings} {origin : Int} {l₀ : Ledger} {t : Traffic Ledger Reply}

/-- Those who hear every event know how things stand in every reachable state. -/
theorem Moves.heard (h : Moves (Party s) (Traffic.start origin l₀) t) (start : l₀.Announced) :
    t.shared.Heard :=
  (h.kept (P := fun t => t.shared.Heard) Party.keepsTo
    (fun {t u} _ effect heard => by
      cases effect with
      | still _ same _ => exact same ▸ heard
      | waits _ did _ => exact heard.upkeep did
      | answers _ a _ did _ => exact heard.does did)
    (kept_start (orderly_of_none start.bookings)) start.heard).2

/-- **The events tell the whole truth.** In every reachable state, whoever does what in whatever
order, the news of each resource after all events so far are its stored status and holder, the
deadline and the generation of the hold on it, and the group booking that it is part of. And
each of the events was sound when it was sent: whatever claim it ends or confirms is the one that
was there. -/
theorem events_tell_all (start : l₀.Announced)
    (h : Moves (Party s) (Traffic.start origin l₀) t) :
    (∀ id r, t.shared.resources.get? id = some r →
      r.status = (newsOf t.shared.hub.history id).status ∧
      r.holder = (newsOf t.shared.hub.history id).holder ∧
      r.claim.bind Claim.deadline = (newsOf t.shared.hub.history id).deadline ∧
      (∀ g, (newsOf t.shared.hub.history id).generation = some g →
        r.claim.map Claim.generation = some g) ∧
      r.claim.bind Claim.booking = (newsOf t.shared.hub.history id).booking) ∧
    ∀ x earlier, x :: earlier <:+ t.shared.hub.history → x.2.Sound (newsOf earlier) := by
  have heard := h.heard start
  refine ⟨fun id r hr => ?_, heard.sound⟩
  obtain ⟨status, holder, deadline, generation, booking⟩ := heard.stored id r hr
  exact ⟨status, holder, deadline, generation, booking⟩

/-- Ann has booked both seats of a hall. -/
def annBooked : Traffic Ledger Reply :=
  ((Traffic.start 0 Ledger.hallOfTwo).enter (Request.annBooks.errand .standard)).run
    (fun _ => false) none 5

/-- So it is then: one event tells of both seats. -/
theorem events_tell_of_ann :
    Ledger.hallOfTwo.Announced ∧
    Moves (Party .standard) (Traffic.start 0 Ledger.hallOfTwo) annBooked ∧
    ∃ x, annBooked.shared.hub.history = [x] ∧ x.2.Sound (newsOf []) ∧
      (newsOf [x] ⟨0, 1⟩).holder = some "Ann" ∧ (newsOf [x] ⟨0, 2⟩).status = .booked := by
  have start : Ledger.hallOfTwo.Announced :=
    ⟨Ledger.untouched_hallOfTwo, fun x hx => absurd hx List.not_mem_nil⟩
  have moves : Moves (Party .standard) (Traffic.start 0 Ledger.hallOfTwo) annBooked :=
    (Moves.none.snoc (.enter (Client.once .standard .annBooks).party)).trans (run_moves ..)
  obtain ⟨stored, sound⟩ := events_tell_all start moves
  have one : annBooked.shared.hub.history.length = 1 := by decide +kernel
  have holder : (annBooked.shared.resources.get? ⟨0, 1⟩).bind Resource.holder = some "Ann" := by
    decide +kernel
  have status : (annBooked.shared.resources.get? ⟨0, 2⟩).map Resource.status = some .booked := by
    decide +kernel
  obtain ⟨x, only⟩ := List.length_eq_one_iff.1 one
  obtain ⟨r, hr, own⟩ := Option.bind_eq_some_iff.1 holder
  obtain ⟨r', hr', booked⟩ := Option.map_eq_some_iff.1 status
  rw [only] at stored sound
  refine ⟨start, moves, x, only, sound x [] (List.suffix_refl _), ?_, ?_⟩
  · rw [← (stored _ r hr).2.1, own]
  · rw [← (stored _ r' hr').1, booked]

end Traffic

end Tenure
