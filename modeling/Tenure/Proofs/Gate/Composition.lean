import Tenure.House.Gate
import Tenure.Proofs.Admission.Exact
import Tenure.Proofs.Admission.Isolation
import Tenure.Proofs.Gate.Blind
import Tenure.Proofs.Gate.Scripts

/-!
# Through the gate

Whoever calls on the gate is first judged by the admission controller, and has dealings with the
ledger only if admitted. So the ledger goes through what it would go through if there were no gate
at all, and no calls but the direct ones and those that were admitted, each of them made at the
moment of its admission (`House.Lobby.Mirrors.play`).

A script for the house says who comes, directly or to the gate, and what the admission controller is
asked for besides. `Lobby.passed` is the script for the ledger alone that comes of it.
-/

namespace Tenure

namespace House

variable {s : CoordinatorSettings} {owner : Owner} {m : Moment} {h : House} {ls : Locks}

/-! ## Who comes -/

/-- A request for a hold, made at the gate. -/
structure GateCall where
  /-- the endpoint where it is made -/
  endpoint : String
  /-- the resource -/
  id : Id
  /-- who calls -/
  holder : String
  /-- for how long, in nanoseconds -/
  duration : Nat
  /-- the price for a weight -/
  price : Float → Float

namespace GateCall

/-- What it asks of the ledger, if it is admitted. -/
def request (g : GateCall) : Request := .reserve g.id g.holder g.duration g.price

/-- What it is answered if it is not. -/
def refusal (g : GateCall) : Reply :=
  .answered g.request (.hold (.ok (.denied (.rateLimited g.endpoint))))

/-- The call, which takes note of the answer. -/
def call (s : CoordinatorSettings) (g : GateCall) : Call House Reply :=
  (reserveAt s g.endpoint g.id g.holder g.duration g.price).bind fun r =>
    .done (.answered g.request (.hold r))

/-- The same without the gate. -/
def direct (s : CoordinatorSettings) (g : GateCall) : Entrant Ledger Reply :=
  ⟨g.request.errand s, fun _ => none⟩

/-- Whether it is admitted, and the house after the decision. -/
def judged (g : GateCall) (h : House) (m : Moment) : Bool × House :=
  h.judge g.endpoint g.holder m

/-- The decision comes first, and the rest is one stretch with it. -/
theorem run_call (g : GateCall) (owner : Owner) (m : Moment) (h : House) (ls : Locks) :
    (g.call s).run owner m h ls =
      ((if (g.judged h m).1 = true then
          onLedger (Ledger.reserve s g.id g.holder g.duration g.price)
        else .done (.ok (.denied (.rateLimited g.endpoint)))).bind fun r =>
          .done (Reply.answered g.request (.hold r))).run owner m (g.judged h m).2 ls := rfl

/-- **Admitted, it goes on** as if there were no gate. -/
theorem run_of_admitted {g : GateCall} (admitted : (g.judged h m).1 = true) :
    (g.call s).run owner m h ls =
      (onLedger (g.request.errand s)).run owner m (g.judged h m).2 ls := by
  rw [run_call, if_pos admitted, Request.errand, request, Request.call, Call.bind_assoc, onLedger,
    onLedger, Call.within_bind]
  rfl

/-- **Turned away, it is answered** at once. -/
theorem run_of_denied {g : GateCall} (denied : (g.judged h m).1 = false) :
    (g.call s).run owner m h ls = (.returned g.refusal, (g.judged h m).2, ls) := by
  rw [run_call, if_neg (by simp [denied])]
  rfl

/-- A decision only counts. -/
theorem quiet_judged (g : GateCall) (h : House) (m : Moment) :
    h.ledger.Quiet (g.judged h m).2.ledger := ⟨_, rfl⟩

end GateCall

/-- What the admission controller may be asked for besides. -/
inductive AdmissionOp where
  /-- one call of a client -/
  | allow (endpoint key : String)
  /-- several calls of a client at once -/
  | allowMany (endpoint key : String) (count : Nat)
  /-- anything that is no call, such as to let a limiter serve an endpoint -/
  | arrange (a : Controller.Act) (silent : ∀ c : Controller, c.asks a = [])

namespace AdmissionOp

/-- What it comes to for the controller at a moment. -/
def act (m : Moment) : AdmissionOp → Controller.Act
  | allow endpoint key => .allow endpoint key m.nanos
  | allowMany endpoint key count => .allowEach endpoint key (List.replicate count m.nanos)
  | arrange a _ => a

/-- The call, whose answer is its own business. -/
def call : AdmissionOp → Call House Reply
  | allow endpoint key => (House.allow endpoint key).bind fun _ => .done .looked
  | allowMany endpoint key count => (House.allowMany endpoint key count).bind fun _ => .done .looked
  | arrange a _ => (Call.modify fun h : House => { h with admission := h.admission.next a }).bind
      fun _ => .done .looked

/-- The house after it. -/
def done (op : AdmissionOp) (h : House) (m : Moment) : House := (op.call.run 0 m h Locks.empty).2.1

theorem run_call (op : AdmissionOp) (owner : Owner) (m : Moment) (h : House) (ls : Locks) :
    op.call.run owner m h ls = (.returned .looked, op.done h m, ls) := by
  cases op <;> rfl

/-- What is asked of the admission controller is no business of the ledger's, which only counts. -/
theorem quiet_done (op : AdmissionOp) (h : House) (m : Moment) :
    h.ledger.Quiet (op.done h m).ledger := by
  cases op with
  | allow endpoint key => exact ⟨_, rfl⟩
  | allowMany endpoint key count => exact ⟨_, rfl⟩
  | arrange a silent => exact .refl _

theorem admission_done (op : AdmissionOp) (h : House) (m : Moment) :
    (op.done h m).admission = h.admission.next (op.act m) := by
  cases op with
  | allow endpoint key => rfl
  | allowMany endpoint key count =>
    exact congrArg Prod.snd (h.admission.allowMany_eq_allowEach endpoint key m.nanos count)
  | arrange a silent => rfl

end AdmissionOp

/-- Who comes to the gate, or to the admission controller behind it. -/
inductive Caller where
  /-- with a request -/
  | gate (g : GateCall)
  /-- with something else -/
  | admission (op : AdmissionOp)

/-- What the caller does. -/
def Caller.call (s : CoordinatorSettings) : Caller → Call House Reply
  | gate g => g.call s
  | admission op => op.call

/-- Whoever comes to the house. -/
inductive Guest (s : CoordinatorSettings) where
  /-- a party that deals with the ledger directly -/
  | direct (call : Call Ledger Reply) (again : Reply → Option (Call Ledger Reply))
    (operator : Ledger.Operator s call again)
  /-- a caller -/
  | caller (w : Caller)

/-- What the guest does in the house. -/
def Guest.entrant : Guest s → Entrant House Reply
  | direct call again _ => ⟨onLedger call, fun a => (again a).map onLedger⟩
  | caller w => ⟨w.call s, fun _ => none⟩

/-! ## The lobby -/

/-- Where a party is. -/
inductive Place where
  /-- it has not come yet, or it is gone -/
  | absent
  /-- a caller that has not been heard -/
  | outside (w : Caller)
  /-- it deals with the ledger, or has done so -/
  | inside

/-- Whether it deals with the ledger. -/
def Place.isInside : Place → Bool
  | inside => true
  | _ => false

/-- Traffic in a house, and where everybody is. -/
structure Lobby where
  /-- the traffic -/
  traffic : Traffic House Reply
  /-- where the parties are, by number -/
  place : Owner → Place

namespace Lobby

/-- Nobody has come yet. -/
def start (origin : Int) (h : House) : Lobby := ⟨.start origin h, fun _ => .absent⟩

/-- Whether a gate call would be admitted now. -/
def admits (v : Lobby) (g : GateCall) : Bool := (g.judged v.traffic.shared v.traffic.clock).1

/-- Where a party is once its call has gone on. -/
def next (v : Lobby) (owner : Owner) : Place :=
  match v.place owner with
  | .outside (.gate g) => if v.admits g then .inside else .absent
  | .outside (.admission _) => .absent
  | p => p

/-- Where everybody is after a cue. -/
def moved (v : Lobby) : Cue (Guest s) → Owner → Place
  | .enter owner (.direct _ _ _) => Function.update v.place owner .inside
  | .enter owner (.caller w) => Function.update v.place owner (.outside w)
  | .goOn _ owner => Function.update v.place owner (v.next owner)
  | .elapse _ => v.place

/-- What a cue asks for happens, if it can. -/
def cue (v : Lobby) (c : Cue (Guest s)) : Option Lobby :=
  (v.traffic.cue (c.map Guest.entrant)).map fun t => ⟨t, v.moved c⟩

/-- A script is played, if it can be. -/
def play (v : Lobby) : List (Cue (Guest s)) → Option Lobby
  | [] => some v
  | c :: script => (v.cue c).bind fun w => w.play script

/-- What is on record of a script, if `f` says what is noted of a cue. -/
def record {β : Type} (f : Lobby → Cue (Guest s) → List β) (v : Lobby) :
    List (Cue (Guest s)) → List β
  | [] => []
  | c :: script => f v c ++ ((v.cue c).map fun w => w.record f script).getD []

/-- What a cue comes to for the ledger: a direct party goes its way, an admitted gate call is made
directly, and of all other callers the ledger knows nothing. -/
def passes (v : Lobby) : Cue (Guest s) → List (Cue (Entrant Ledger Reply))
  | .enter owner (.direct call again _) => [.enter owner ⟨call, again⟩]
  | .enter _ (.caller _) => []
  | .goOn alert owner =>
    match v.place owner with
    | .outside (.gate g) =>
      if v.admits g then [.enter owner (g.direct s), .goOn alert owner] else []
    | .inside => [.goOn alert owner]
    | _ => []
  | .elapse elapsed => [.elapse elapsed]

/-- The script for the ledger alone. -/
def passed (v : Lobby) (script : List (Cue (Guest s))) : List (Cue (Entrant Ledger Reply)) :=
  v.record passes script

/-- **What is played in the lobby is played in the house**: where everybody is has no bearing on
what happens. -/
theorem traffic_play (v : Lobby) (script : List (Cue (Guest s))) :
    (v.play script).map traffic = v.traffic.play (script.map (Cue.map Guest.entrant)) := by
  induction script generalizing v with
  | nil => rfl
  | cons c script ih =>
    simp only [play, cue, List.map_cons, Traffic.play]
    cases v.traffic.cue (c.map Guest.entrant) with
    | none => rfl
    | some t => exact ih ⟨t, v.moved c⟩

/-- **Every history** of guests in a house is played by a script. -/
theorem played_of_moves {origin : Int} {h₀ : House} {t : Traffic House Reply}
    (h : Traffic.Moves (fun call again => ∃ g : Guest s, g.entrant = ⟨call, again⟩)
      (Traffic.start origin h₀) t) :
    ∃ (script : List (Cue (Guest s))) (v : Lobby),
      (Lobby.start origin h₀).play script = some v ∧ v.traffic = t := by
  obtain ⟨script, played⟩ := h.played
  have same := ((Lobby.start origin h₀).traffic_play script).trans played
  obtain ⟨v, there, traffic⟩ := Option.map_eq_some_iff.1 same
  exact ⟨script, v, there, traffic⟩

theorem cue_eq_some {v w : Lobby} {c : Cue (Guest s)} (h : v.cue c = some w) :
    ∃ t, v.traffic.cue (c.map Guest.entrant) = some t ∧ w = ⟨t, v.moved c⟩ := by
  obtain ⟨t, happens, rfl⟩ := Option.map_eq_some_iff.1 h
  exact ⟨t, happens, rfl⟩

/-! ## The house and the ledger alone -/

/-- A call in flight in the house, and what is in flight on the ledger alone for it. -/
abbrev Shows : Flight House Reply → Flight Ledger Reply → Prop :=
  Flight.Shows Ledger.Quiet House.ledger fun l h => { h with ledger := l }

end Lobby

/-- What a party has in flight, in the house and on the ledger alone, as its place has it. -/
def Place.Fits (s : CoordinatorSettings) (owner : Owner) (t : Traffic House Reply)
    (u : Traffic Ledger Reply) : Place → Prop
  | absent => t.flight? owner = none ∧ u.flight? owner = none
  | outside w => t.flight? owner = some ⟨owner, .turn (w.call s), fun _ => none⟩ ∧
      u.flight? owner = none ∧ ∀ r ∈ t.returned, r.owner ≠ owner
  | inside => Option.Rel Lobby.Shows (t.flight? owner) (u.flight? owner)

namespace Lobby

/-- The ledger alone goes through what the ledger of the house goes through. -/
structure Mirrors (s : CoordinatorSettings) (v : Lobby) (u : Traffic Ledger Reply) : Prop where
  /-- at the same times -/
  clock : u.clock = v.traffic.clock
  /-- under the same locks -/
  locks : u.locks = v.traffic.locks
  /-- they differ in what was counted only -/
  ledger : v.traffic.shared.ledger.Quiet u.shared
  /-- whoever deals with the ledger has the same answers, and nobody else has any -/
  returned : u.returned = v.traffic.returned.filter fun r => (v.place r.owner).isInside
  /-- everybody has in flight what fits -/
  places : ∀ owner, (v.place owner).Fits s owner v.traffic u

end Lobby

/-- What others do leaves a party where it is. -/
theorem Place.Fits.later {p : Place} {t t' : Traffic House Reply} {u u' : Traffic Ledger Reply}
    (h : p.Fits s owner t u) (theirs : t'.flight? owner = t.flight? owner)
    (ours : u'.flight? owner = u.flight? owner)
    (answers : ∀ r ∈ t'.returned, r ∈ t.returned ∨ r.owner ≠ owner) : p.Fits s owner t' u' := by
  cases p with
  | absent => exact ⟨theirs.trans h.1, ours.trans h.2⟩
  | outside w =>
    refine ⟨theirs.trans h.1, ours.trans h.2.1, fun r hr => ?_⟩
    rcases answers r hr with hr | ne
    · exact h.2.2 r hr
    · exact ne
  | inside =>
    rw [Place.Fits, theirs, ours]
    exact h

/-- It is enough to look at the party that has moved. -/
theorem fits_update {place : Owner → Place} {p : Place} {t : Traffic House Reply}
    {u : Traffic Ledger Reply} (own : p.Fits s owner t u)
    (others : ∀ other, other ≠ owner → (place other).Fits s other t u) (other : Owner) :
    (Function.update place owner p other).Fits s other t u := by
  by_cases same : other = owner
  · subst same
    rw [Function.update_self]
    exact own
  · rw [Function.update_of_ne same]
    exact others other same

namespace Lobby

variable {v w : Lobby} {u : Traffic Ledger Reply} {t : Traffic House Reply} {alert : Bool}

theorem mirrors_start (s : CoordinatorSettings) (origin : Int) (h : House) :
    Mirrors s (start origin h) (.start origin h.ledger) :=
  ⟨rfl, rfl, .refl _, rfl, fun _ => ⟨rfl, rfl⟩⟩

/-- A party with nothing in flight in the house has nothing in flight on the ledger alone. -/
theorem Mirrors.not_knows (mirrors : Mirrors s v u) (nothing : u.flight? owner = none)
    (silent : ∀ r ∈ v.traffic.returned, r.owner ≠ owner) : u.knows owner = false := by
  refine Traffic.not_knows nothing fun r hr => silent r ?_
  rw [mirrors.returned] at hr
  exact (List.mem_filter.1 hr).1

theorem Mirrors.flight_eq_none (mirrors : Mirrors s v u)
    (nothing : v.traffic.flight? owner = none) : u.flight? owner = none := by
  have fits := mirrors.places owner
  cases place : v.place owner with
  | absent =>
    rw [place] at fits
    exact fits.2
  | outside w =>
    rw [place] at fits
    exact fits.2.1
  | inside =>
    rw [place, Place.Fits, nothing] at fits
    generalize u.flight? owner = g at fits ⊢
    cases fits
    rfl

/-- As long as a party has no answer it does not matter to the answers where it is. -/
theorem filter_update (silent : ∀ r ∈ t.returned, r.owner ≠ owner) (place : Owner → Place)
    (p : Place) :
    (t.returned.filter fun r => (Function.update place owner p r.owner).isInside) =
      t.returned.filter fun r => (place r.owner).isInside := by
  refine List.filter_congr fun r hr => ?_
  rw [Function.update_of_ne (silent r hr)]

/-! ### Cue by cue -/

/-- **A direct party** enters. -/
theorem Mirrors.direct (mirrors : Mirrors s v u) {call : Call Ledger Reply}
    {again : Reply → Option (Call Ledger Reply)} (operator : Ledger.Operator s call again)
    (h : v.traffic.arrive owner (Guest.direct call again operator).entrant = some t) :
    ∃ u', u.arrive owner ⟨call, again⟩ = some u' ∧
      Mirrors s ⟨t, Function.update v.place owner .inside⟩ u' := by
  have theirs := Traffic.arrived_of_arrive h
  have silent := Traffic.ne_of_not_knows theirs.new
  have nothing := mirrors.flight_eq_none (Traffic.flight_of_not_knows theirs.new)
  obtain ⟨u', entered⟩ := Traffic.arrive_of_new (mirrors.not_knows nothing silent) ⟨call, again⟩
  have ours := Traffic.arrived_of_arrive entered
  refine ⟨u', entered, ?_, ?_, ?_, ?_, fits_update ?_ fun other ne => ?_⟩
  · exact ours.clock.trans (mirrors.clock.trans theirs.clock.symm)
  · exact ours.locks.trans (mirrors.locks.trans theirs.locks.symm)
  · rw [ours.shared, theirs.shared]
    exact mirrors.ledger
  · rw [ours.returned, mirrors.returned, theirs.returned, filter_update silent]
  · have goesOn : ∀ a, Option.Rel (Call.Like Ledger.Quiet) (again a) (again a) := by
      intro a
      cases next : again a with
      | none => exact .none
      | some c => exact .some (operator.2 a c next).blind
    rw [Place.Fits, theirs.own, ours.own]
    exact .some ⟨⟨owner, .turn call, again⟩, rfl, rfl, .turn operator.1.blind, goesOn⟩
  · exact (mirrors.places other).later (theirs.others other ne) (ours.others other ne)
      fun r hr => .inl (theirs.returned ▸ hr)

/-- **A caller** comes to the gate, and the ledger knows nothing of it. -/
theorem Mirrors.caller (mirrors : Mirrors s v u) {w : Caller}
    (h : v.traffic.arrive owner (Guest.caller (s := s) w).entrant = some t) :
    Mirrors s ⟨t, Function.update v.place owner (.outside w)⟩ u := by
  have theirs := Traffic.arrived_of_arrive h
  have silent := Traffic.ne_of_not_knows theirs.new
  refine ⟨?_, ?_, ?_, ?_, fits_update ⟨theirs.own, ?_, ?_⟩ fun other ne => ?_⟩
  · exact mirrors.clock.trans theirs.clock.symm
  · exact mirrors.locks.trans theirs.locks.symm
  · rw [theirs.shared]
    exact mirrors.ledger
  · rw [mirrors.returned, theirs.returned, filter_update silent]
  · exact mirrors.flight_eq_none (Traffic.flight_of_not_knows theirs.new)
  · rw [theirs.returned]
    exact silent
  · exact (mirrors.places other).later (theirs.others other ne) rfl
      fun r hr => .inl (theirs.returned ▸ hr)

/-- **A call on the ledger** goes on. -/
theorem Mirrors.inside (mirrors : Mirrors s v u) (here : v.place owner = .inside)
    (h : v.traffic.goOn alert owner = some t) :
    ∃ u', u.goOn alert owner = some u' ∧ Mirrors s ⟨t, v.place⟩ u' ∧
      t.shared.admission = v.traffic.shared.admission := by
  have fits := mirrors.places owner
  rw [here, Place.Fits] at fits
  obtain ⟨u', gone, went⟩ := Traffic.went_of_goOn (by exact fun _ _ => rfl)
    (by exact fun _ _ _ => rfl) (by exact fun _ => rfl) mirrors.clock mirrors.locks mirrors.ledger
    fits h
  obtain ⟨answers, own, theirs, ours⟩ := went.returned
  obtain ⟨l, rest⟩ := went.rest
  refine ⟨u', gone, ⟨?_, went.locks, went.same, ?_, fun other => ?_⟩, ?_⟩
  · rw [went.clock.1, went.clock.2, mirrors.clock]
  · have all : ∀ r ∈ answers, (v.place r.owner).isInside = true := by
      intro r hr
      rw [own r hr, here]
      rfl
    rw [ours, theirs, List.filter_append, List.filter_eq_self.2 all, mirrors.returned]
  · by_cases same : other = owner
    · subst same
      rw [here]
      exact went.own
    · obtain ⟨theirs', ours'⟩ := went.others other same
      refine (mirrors.places other).later theirs' ours' fun r hr => ?_
      rw [theirs] at hr
      rcases List.mem_append.1 hr with hr | hr
      · exact .inr (own r hr ▸ Ne.symm same)
      · exact .inl hr
  · rw [rest]

/-- **A caller that is answered at once** leaves, and the ledger knows nothing of it. -/
theorem Mirrors.answered (mirrors : Mirrors s v u) {w : Caller} {a : Reply} {h' : House}
    (here : v.place owner = .outside w) (quiet : v.traffic.shared.ledger.Quiet h'.ledger)
    (run : (w.call s).run owner v.traffic.clock v.traffic.shared v.traffic.locks =
      (.returned a, h', v.traffic.locks))
    (h : v.traffic.goOn alert owner = some t) :
    Mirrors s ⟨t, Function.update v.place owner .absent⟩ u ∧ t.shared = h' ∧
      t.locks = v.traffic.locks ∧
      t.returned = ⟨owner, a, v.traffic.clock.elapsed⟩ :: v.traffic.returned := by
  have fits := mirrors.places owner
  rw [here] at fits
  obtain ⟨there, nothing, silent⟩ := fits
  obtain ⟨f, go, found, ended, rfl⟩ := Traffic.goOn_eq_some h
  obtain rfl := Option.some.inj (there.symm.trans found)
  obtain rfl := Option.some.inj ended
  have left := Traffic.left_resume v.traffic ⟨owner, .turn (w.call s), fun _ => none⟩
    (w.call s, v.traffic.shared, v.traffic.locks)
  simp only [run] at left
  refine ⟨⟨?_, ?_, ?_, ?_, fits_update ⟨left.own, nothing⟩ fun other ne => ?_⟩, left.shared,
    left.locks, left.returned⟩
  · exact mirrors.clock.trans left.clock.symm
  · exact mirrors.locks.trans left.locks.symm
  · rw [left.shared]
    exact quiet.symm.trans mirrors.ledger
  · rw [left.returned, mirrors.returned, ← filter_update silent v.place .absent]
    exact (List.filter_cons_of_neg (by simp [Place.isInside])).symm
  · refine (mirrors.places other).later (left.others other ne) rfl fun r hr => ?_
    rw [left.returned] at hr
    rcases List.mem_cons.1 hr with rfl | hr
    · exact .inr (Ne.symm ne)
    · exact .inl hr

/-- The lobby once a gate call was let in. -/
def letIn (s : CoordinatorSettings) (v : Lobby) (owner : Owner) (g : GateCall) : Lobby where
  traffic := { v.traffic with
    shared := (g.judged v.traffic.shared v.traffic.clock).2
    flights := v.traffic.others owner ++
      [⟨owner, .turn (onLedger (g.request.errand s)), fun _ => none⟩] }
  place := Function.update v.place owner .inside

/-- **An admitted gate call** goes on as it would had it come to the ledger directly. -/
theorem Mirrors.letIn (mirrors : Mirrors s v u) {g : GateCall}
    (here : v.place owner = .outside (.gate g)) (admitted : v.admits g = true) :
    (v.letIn s owner g).traffic.goOn alert owner = v.traffic.goOn alert owner ∧
      ∃ u', u.arrive owner (g.direct s) = some u' ∧ Mirrors s (v.letIn s owner g) u' := by
  have fits := mirrors.places owner
  rw [here] at fits
  obtain ⟨there, nothing, silent⟩ := fits
  have flights : ∀ other, (v.letIn s owner g).traffic.flight? other =
      if other = owner then some ⟨owner, .turn (onLedger (g.request.errand s)), fun _ => none⟩
      else v.traffic.flight? other := by
    intro other
    refine (Traffic.find_append_singleton _ _ _).trans ?_
    rw [Traffic.find_others]
    by_cases own : other = owner
    · simp [own]
    · simp [own, Ne.symm own]
  obtain ⟨u', entered⟩ := Traffic.arrive_of_new (mirrors.not_knows nothing silent) (g.direct s)
  have ours := Traffic.arrived_of_arrive entered
  refine ⟨?_, u', entered, ?_, ?_, ?_, ?_, fits_update ?_ fun other ne => ?_⟩
  · have others : (v.letIn s owner g).traffic.others owner = v.traffic.others owner := by
      simp [Traffic.others, Lobby.letIn]
    have come := (flights owner).trans (if_pos rfl)
    rw [Traffic.goOn_of_ended come rfl, Traffic.goOn_of_ended there rfl, others]
    have run : (g.call s).run owner v.traffic.clock v.traffic.shared v.traffic.locks = _ :=
      GateCall.run_of_admitted admitted
    simp only [Traffic.resume, Caller.call, run]
    rfl
  · exact ours.clock.trans mirrors.clock
  · exact ours.locks.trans mirrors.locks
  · rw [ours.shared]
    exact (g.quiet_judged _ _).symm.trans mirrors.ledger
  · rw [ours.returned, mirrors.returned]
    exact (filter_update silent v.place .inside).symm
  · have come := (flights owner).trans (if_pos rfl)
    rw [Place.Fits, come, ours.own]
    exact .some ⟨⟨owner, .turn (g.request.errand s), fun _ => none⟩, rfl, rfl,
      .turn (Ledger.runs_errand s _).blind, fun _ => .none⟩
  · exact (mirrors.places other).later ((flights other).trans (if_neg ne)) (ours.others other ne)
      fun r hr => .inl hr

theorem Mirrors.elapse (mirrors : Mirrors s v u) {elapsed : Nat}
    (h : v.traffic.pass elapsed = some t) :
    ∃ u', u.pass elapsed = some u' ∧ Mirrors s ⟨t, v.place⟩ u' := by
  obtain ⟨later, rfl⟩ := Traffic.pass_eq_some h
  refine ⟨_, if_pos (mirrors.clock ▸ later), ?_, mirrors.locks, mirrors.ledger, mirrors.returned,
    fun owner => (mirrors.places owner).later rfl rfl fun r hr => .inl hr⟩
  rw [Traffic.elapseTo, Traffic.elapseTo, mirrors.clock]

/-- What the admission controller is asked for at a cue. -/
def acts (v : Lobby) : Cue (Guest s) → List Controller.Act
  | .goOn _ owner =>
    match v.place owner with
    | .outside (.gate g) => [.allow g.endpoint g.holder v.traffic.clock.nanos]
    | .outside (.admission op) => [op.act v.traffic.clock]
    | _ => []
  | _ => []

/-- **A gate call** that is decided on. -/
theorem Mirrors.gate (mirrors : Mirrors s v u) {g : GateCall}
    (here : v.place owner = .outside (.gate g)) (gone : v.traffic.goOn alert owner = some t) :
    (∃ u', u.play (v.passes (.goOn alert owner : Cue (Guest s))) = some u' ∧
      Mirrors s ⟨t, Function.update v.place owner (v.next owner)⟩ u') ∧
    t.shared.admission = (g.judged v.traffic.shared v.traffic.clock).2.admission := by
  cases admitted : v.admits g with
  | true =>
    obtain ⟨same, u', entered, mirrors⟩ := mirrors.letIn here admitted
    obtain ⟨u'', went, mirrors, kept⟩ := mirrors.inside (Function.update_self ..) (same.trans gone)
    refine ⟨⟨u'', ?_, ?_⟩, kept⟩
    · simp only [passes, here, admitted, if_true, Traffic.play, Traffic.cue, entered,
        Option.bind_some, went]
    · simp only [next, here, admitted, if_true]
      exact mirrors
  | false =>
    obtain ⟨mirrors, left, -⟩ := mirrors.answered here (g.quiet_judged _ _)
      (GateCall.run_of_denied admitted) gone
    refine ⟨⟨u, ?_, ?_⟩, congrArg House.admission left⟩
    · simp [passes, here, admitted, Traffic.play]
    · simp only [next, here, admitted, Bool.false_eq_true, if_false]
      exact mirrors

/-- **Whoever goes on**, in the house and on the ledger alone. -/
theorem Mirrors.goOn (mirrors : Mirrors s v u) (gone : v.traffic.goOn alert owner = some t) :
    (∃ u', u.play (v.passes (.goOn alert owner : Cue (Guest s))) = some u' ∧
      Mirrors s ⟨t, Function.update v.place owner (v.next owner)⟩ u') ∧
    t.shared.admission =
      v.traffic.shared.admission.nextAll (v.acts (.goOn alert owner : Cue (Guest s))) := by
  cases here : v.place owner with
  | absent =>
    have fits := mirrors.places owner
    rw [here] at fits
    rw [Traffic.goOn, fits.1] at gone
    cases gone
  | outside w =>
    cases w with
    | gate g =>
      simp only [acts, here]
      exact mirrors.gate here gone
    | admission op =>
      obtain ⟨mirrors, left, -⟩ := mirrors.answered here (op.quiet_done _ _)
        (op.run_call owner _ _ _) gone
      refine ⟨⟨u, ?_, ?_⟩, ?_⟩
      · simp [passes, here, Traffic.play]
      · simp only [next, here]
        exact mirrors
      · simp only [acts, here, left]
        exact op.admission_done _ _
  | inside =>
    obtain ⟨u', went, mirrors, kept⟩ := mirrors.inside here gone
    refine ⟨⟨u', ?_, ?_⟩, ?_⟩
    · simp only [passes, here, Traffic.play, Traffic.cue, went, Option.bind_some]
    · have still : v.next owner = v.place owner := by simp only [next, here]
      rw [still, Function.update_eq_self]
      exact mirrors
    · simp only [acts, here]
      exact kept

/-- **Cue by cue** the ledger alone keeps up, and the controller hears from callers only. -/
theorem Mirrors.cue (mirrors : Mirrors s v u) {c : Cue (Guest s)} (h : v.cue c = some w) :
    (∃ u', u.play (v.passes c) = some u' ∧ Mirrors s w u') ∧
      w.traffic.shared.admission = v.traffic.shared.admission.nextAll (v.acts c) := by
  obtain ⟨t, happens, rfl⟩ := cue_eq_some h
  cases c with
  | enter owner guest =>
    have still := (Traffic.arrived_of_arrive happens).shared
    cases guest with
    | direct call again operator =>
      obtain ⟨u', entered, mirrors⟩ := mirrors.direct operator happens
      exact ⟨⟨u', by rw [passes, Traffic.play, Traffic.cue, entered]; rfl, mirrors⟩,
        congrArg House.admission still⟩
    | caller w =>
      exact ⟨⟨u, rfl, mirrors.caller happens⟩, congrArg House.admission still⟩
  | goOn _ owner => exact mirrors.goOn happens
  | elapse elapsed =>
    obtain ⟨u', passed, mirrors⟩ := mirrors.elapse happens
    refine ⟨⟨u', by rw [passes, Traffic.play, Traffic.cue, passed]; rfl, mirrors⟩, ?_⟩
    rw [(Traffic.pass_eq_some happens).2]
    rfl

/-! ### Script by script -/

theorem record_cons {β : Type} (f : Lobby → Cue (Guest s) → List β) {c : Cue (Guest s)}
    (h : v.cue c = some w) (script : List (Cue (Guest s))) :
    v.record f (c :: script) = f v c ++ w.record f script := by
  rw [record, h, Option.map_some, Option.getD_some]

/-- **The ledger mirrors the house without a gate**: it alone plays the script of what is passed on
to it, and goes through the same. -/
theorem Mirrors.play (mirrors : Mirrors s v u) {script : List (Cue (Guest s))}
    (h : v.play script = some w) :
    ∃ u', u.play (v.passed script) = some u' ∧ Mirrors s w u' := by
  induction script generalizing v u with
  | nil =>
    cases h
    exact ⟨u, rfl, mirrors⟩
  | cons c script ih =>
    obtain ⟨x, happens, rest⟩ := Option.bind_eq_some_iff.1 h
    obtain ⟨⟨u', first, mirrors⟩, -⟩ := mirrors.cue happens
    obtain ⟨u'', later, mirrors⟩ := ih mirrors rest
    refine ⟨u'', ?_, mirrors⟩
    rw [passed, record_cons passes happens, Traffic.play_append, first, Option.bind_some]
    exact later

end Lobby

end House

end Tenure
