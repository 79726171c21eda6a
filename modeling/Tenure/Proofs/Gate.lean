import Tenure.Proofs.Gate.Composition

/-!
# The gate

A gate in front of the ledger turns callers away, and does nothing else: the ledger goes through
what it would go through without a gate, with none but the admitted calls made, and whoever is
turned away is told so at once. If the endpoint has a sliding log of its own, it keeps its quota on
all the calls that come through, whatever the ledger makes of them (`House.gate_composes`).
-/

namespace Tenure

open Knock

/-! ## One limiter among others -/

theorem Knock.admitted_append {L : Type} {allow : L → String → Nat → Bool × L} {l : L}
    {key : String} (calls more : List Knock) :
    admitted allow l key (calls ++ more) =
      admitted allow l key calls ++ admitted allow (after allow l calls) key more := by
  simp only [admitted, decided_append, List.filter_append, List.map_append]

namespace Controller

theorem asked_append (c : Controller) (acts more : List Act) :
    c.asked (acts ++ more) = c.asked acts ++ (c.nextAll acts).asked more := by
  induction acts generalizing c with
  | nil => rfl
  | cons a acts ih =>
    rw [List.cons_append, asked, asked, ih, List.append_assoc]
    rfl

/-- **A limiter is changed by its own calls only**, whatever else the controller is asked for. -/
theorem limiter_next {c : Controller} {number : Nat} {l : Limiter}
    (there : c.limiters[number]? = some l) (a : Act) :
    (c.next a).limiters[number]? = some (after Limiter.allow l (callsTo number (c.asks a))) := by
  cases routes : a.routes with
  | true =>
    obtain ⟨newer, -, more⟩ := (reroutes_next (c := c) routes).more
    have known := (List.getElem?_eq_some_iff.1 there).1
    rw [asks_of_routes routes, more, List.getElem?_append_left known]
    exact there
  | false =>
    obtain ⟨endpoint, calls, allowed, denied, asks, after⟩ := c.next_of_calls routes
    rw [asks, after]
    by_cases own : c.numberFor endpoint = number
    · have known := (List.getElem?_eq_some_iff.1 there).1
      rw [own, callsTo_map, List.getElem?_set_self known, limiterFor, own, there, Option.getD_some]
    · rw [callsTo_map_of_ne own, List.getElem?_set_ne own]
      exact there

theorem limiter_nextAll {c : Controller} {number : Nat} {l : Limiter}
    (there : c.limiters[number]? = some l) (acts : List Act) :
    (c.nextAll acts).limiters[number]? =
      some (after Limiter.allow l (callsTo number (c.asked acts))) := by
  induction acts generalizing c l with
  | nil => exact there
  | cons a acts ih =>
    rw [asked, callsTo_append, after_append]
    exact ih (limiter_next there a)

end Controller

namespace House

variable {s : CoordinatorSettings}

/-- What was decided on a gate call. -/
structure Judgement where
  /-- who made it -/
  owner : Owner
  /-- the call -/
  call : GateCall
  /-- when it was decided on -/
  time : Moment
  /-- whether it was let in -/
  admitted : Bool

namespace Lobby

variable {v w : Lobby} {u : Traffic Ledger Reply} {c : Cue (Guest s)}

/-! ## What is decided -/

/-- What is decided at a cue. -/
def judged (v : Lobby) : Cue (Guest s) → List Judgement
  | .goOn _ owner =>
    match v.place owner with
    | .outside (.gate g) => [⟨owner, g, v.traffic.clock, v.admits g⟩]
    | _ => []
  | _ => []

/-- All that is decided in a script. -/
def judgements (v : Lobby) (script : List (Cue (Guest s))) : List Judgement :=
  v.record judged script

/-- The calls of a holder at an endpoint that are let in. -/
def letIns (v : Lobby) (endpoint holder : String) (script : List (Cue (Guest s))) :
    List Judgement :=
  (v.judgements script).filter fun j =>
    j.call.endpoint = endpoint ∧ j.call.holder = holder ∧ j.admitted = true

/-- Whether something holds at every moment of a script. -/
def throughout (P : Lobby → Bool) (v : Lobby) : List (Cue (Guest s)) → Bool
  | [] => P v
  | c :: script => P v && ((v.cue c).map fun w => w.throughout P script).getD true

/-- The controller. -/
def admission (v : Lobby) : Controller := v.traffic.shared.admission

/-- Time does not go backwards. -/
theorem nanos_cue (h : v.cue c = some w) : v.traffic.clock.nanos ≤ w.traffic.clock.nanos := by
  obtain ⟨t, happens, rfl⟩ := cue_eq_some h
  refine Nat.mul_le_mul_right _ ?_
  cases c with
  | enter owner guest =>
    exact Nat.le_of_eq (congrArg _ (Traffic.arrived_of_arrive happens).clock.symm)
  | goOn _ owner =>
    obtain ⟨f, go, -, -, rfl⟩ := Traffic.goOn_eq_some happens
    exact Nat.le_of_eq (congrArg _ (Traffic.clock_resume ..).symm)
  | elapse elapsed =>
    obtain ⟨later, rfl⟩ := Traffic.pass_eq_some happens
    exact later

/-- The calls that come to the controller at a cue come at its moment. -/
theorem time_of_asked (v : Lobby) (c : Cue (Guest s)) :
    ∀ x ∈ v.admission.asked (v.acts c), x.call.time = v.traffic.clock.nanos := by
  intro x hx
  cases c with
  | enter | elapse => cases hx
  | goOn _ owner =>
    rw [acts] at hx
    cases here : v.place owner with
    | absent | inside => simp [here, Controller.asked] at hx
    | outside w =>
      cases w with
      | gate g =>
        simp only [here, Controller.asked, Controller.asks, List.append_nil,
          List.mem_singleton] at hx
        rw [hx]
      | admission op =>
        cases op with
        | allow endpoint key =>
          simp only [here, Controller.asked, AdmissionOp.act, Controller.asks, List.append_nil,
            List.mem_singleton] at hx
          rw [hx]
        | allowMany endpoint key count =>
          simp only [here, Controller.asked, AdmissionOp.act, Controller.asks, List.append_nil,
            List.mem_map, List.mem_replicate] at hx
          obtain ⟨t, ⟨-, rfl⟩, rfl⟩ := hx
          rfl
        | arrange a silent =>
          simp [here, Controller.asked, AdmissionOp.act, silent] at hx

/-- So the calls that come to it in a script come in the order of time. -/
theorem times_of_asked (mirrors : Mirrors s v u) {script : List (Cue (Guest s))}
    (h : v.play script = some w) :
    ((v.admission.asked (v.record acts script)).map (·.call.time)).Pairwise (· ≤ ·) ∧
      ∀ x ∈ v.admission.asked (v.record acts script), v.traffic.clock.nanos ≤ x.call.time := by
  induction script generalizing v u with
  | nil => exact ⟨List.Pairwise.nil, fun x hx => absurd hx List.not_mem_nil⟩
  | cons c script ih =>
    obtain ⟨v', happens, rest⟩ := Option.bind_eq_some_iff.1 h
    obtain ⟨⟨u', -, mirrors⟩, asked⟩ := mirrors.cue happens
    obtain ⟨sorted, later⟩ := ih mirrors rest
    have now := time_of_asked v c
    have onward := nanos_cue happens
    rw [record_cons acts happens, Controller.asked_append, admission, ← asked]
    refine ⟨?_, fun x hx => ?_⟩
    · rw [List.map_append]
      refine List.pairwise_append.2 ⟨?_, sorted, fun a ha b hb => ?_⟩
      · refine List.pairwise_map.2 (List.pairwise_of_forall_mem_list fun a ha b hb => ?_)
        exact Nat.le_of_eq ((now a ha).trans (now b hb).symm)
      · obtain ⟨x, hx, rfl⟩ := List.mem_map.1 ha
        obtain ⟨y, hy, rfl⟩ := List.mem_map.1 hb
        rw [now x hx]
        exact Nat.le_trans onward (later y hy)
    · rcases List.mem_append.1 hx with hx | hx
      · exact Nat.le_of_eq (now x hx).symm
      · exact Nat.le_trans onward (later x hx)

/-! ## The quota -/

variable {endpoint holder : String} {number : Nat} {l : SlidingLog}

/-- Whoever is let in at a cue was admitted by the log that governs the endpoint. -/
theorem letIn_sublist (there : v.admission.limiters[number]? = some (.slidingLog l))
    (governs : v.admission.numberFor endpoint = number) (c : Cue (Guest s)) :
    (((v.judged c).filter fun j => j.call.endpoint = endpoint ∧ j.call.holder = holder ∧
      j.admitted = true).map (·.time.nanos)).Sublist
      (admitted SlidingLog.allow l holder
        (Controller.callsTo number (v.admission.asked (v.acts c)))) := by
  cases c with
  | enter | elapse => exact List.nil_sublist _
  | goOn _ owner =>
    cases here : v.place owner with
    | absent | inside => simp [judged, here]
    | outside w =>
      cases w with
      | admission op => simp [judged, here]
      | gate g =>
        simp only [judged, acts, here]
        by_cases own : g.endpoint = endpoint ∧ g.holder = holder ∧ v.admits g = true
        · obtain ⟨rfl, rfl, admits⟩ := own
          have decides : v.admits g = (l.allow g.holder v.traffic.clock.nanos).1 := by
            change ((v.admission.limiterFor g.endpoint).allow _ _).1 = _
            rw [Controller.limiterFor, governs, there]
            rfl
          have heard : Controller.callsTo number (v.admission.asked
              [.allow g.endpoint g.holder v.traffic.clock.nanos]) =
                [⟨g.holder, v.traffic.clock.nanos⟩] := by
            simp [Controller.asked, Controller.asks, Controller.callsTo, governs]
          have passed : admitted SlidingLog.allow l g.holder [⟨g.holder, v.traffic.clock.nanos⟩] =
              [v.traffic.clock.nanos] :=
            (admitted_snoc [] _).trans (if_pos ⟨rfl, decides.symm.trans admits⟩)
          rw [heard, passed, List.filter_cons_of_pos (by simp [admits])]
          exact .refl _
        · rw [List.filter_cons_of_neg (by simpa using own)]
          exact List.nil_sublist _

/-- **Whoever is let in was admitted by the log** that governs the endpoint. -/
theorem letIns_sublist (mirrors : Mirrors s v u)
    (there : v.admission.limiters[number]? = some (.slidingLog l)) {script : List (Cue (Guest s))}
    (h : v.play script = some w)
    (governed : v.throughout (fun x => x.admission.numberFor endpoint = number) script = true) :
    ((v.letIns endpoint holder script).map (·.time.nanos)).Sublist
      (admitted SlidingLog.allow l holder
        (Controller.callsTo number (v.admission.asked (v.record acts script)))) := by
  induction script generalizing v u l with
  | nil => exact .slnil
  | cons c script ih =>
    obtain ⟨v', happens, rest⟩ := Option.bind_eq_some_iff.1 h
    obtain ⟨⟨u', -, mirrors⟩, asked⟩ := mirrors.cue happens
    rw [throughout, happens, Option.map_some, Option.getD_some, Bool.and_eq_true,
      decide_eq_true_eq] at governed
    rw [letIns, judgements, record_cons judged happens, record_cons acts happens,
      Controller.asked_append, Controller.callsTo_append, admitted_append, List.filter_append,
      List.map_append]
    refine (letIn_sublist there governed.1 c).append ?_
    have left := Controller.limiter_nextAll there (v.acts c)
    rw [after_map Limiter.slidingLog fun _ _ _ => rfl] at left
    rw [admission, ← asked] at left ⊢
    exact ih mirrors left rest governed.2

/-- **The log keeps its quota** on the calls that are let in. -/
theorem countP_letIns_le (mirrors : Mirrors s v u)
    (there : v.admission.limiters[number]? = some (.slidingLog l))
    (unseen : l.logs.get? holder = none) {script : List (Cue (Guest s))}
    (h : v.play script = some w)
    (governed : v.throughout (fun x => x.admission.numberFor endpoint = number) script = true)
    {inside : Nat → Bool} (short : ∀ a b, inside a = true → inside b = true → b < a + l.length) :
    (v.letIns endpoint holder script).countP (fun j => inside j.time.nanos) ≤
      l.maxRequests.toNat := by
  by_cases positive : 0 < l.length
  · have forward : (readings holder (Controller.callsTo number
        (v.admission.asked (v.record acts script)))).Pairwise (· ≤ ·) := by
      have heard : (readings holder (Controller.callsTo number
          (v.admission.asked (v.record acts script)))).Sublist
            (((v.admission.asked (v.record acts script)).map (·.call)).map (·.time)) :=
        (List.filter_sublist.trans (List.filter_sublist.map _)).map _
      rw [List.map_map] at heard
      exact (times_of_asked mirrors h).1.sublist heard
    have rows : ((v.letIns endpoint holder script).map (·.time.nanos)).Sublist _ :=
      letIns_sublist mirrors there h governed
    have fewer := rows.countP_le (p := inside)
    rw [List.countP_map] at fewer
    exact Nat.le_trans fewer (SlidingLog.countP_le unseen positive forward short)
  · -- a window without length has no moment in it
    refine Nat.le_trans (Nat.le_of_eq (List.countP_eq_zero.2 fun j _ here => ?_)) (Nat.zero_le _)
    have := short _ _ here here
    omega

/-! ## The gate -/

/-- **A gate call is decided on at once.** If it is turned away it is told so, and that is all. -/
theorem Mirrors.decided (mirrors : Mirrors s v u) {alert : Bool} {owner : Owner} {g : GateCall}
    (here : v.place owner = .outside (.gate g)) :
    ∃ w, v.cue (.goOn alert owner : Cue (Guest s)) = some w ∧
      (v.admits g = true → w.place owner = .inside) ∧
      (v.admits g = false → w.place owner = .absent ∧
        v.traffic.shared.ledger.Quiet w.traffic.shared.ledger ∧
        w.traffic.locks = v.traffic.locks ∧
        w.traffic.returned =
          ⟨owner, g.refusal, v.traffic.clock.elapsed⟩ :: v.traffic.returned) := by
  have fits := mirrors.places owner
  rw [here] at fits
  have gone : v.traffic.goOn alert owner = _ := Traffic.goOn_of_ended fits.1 rfl
  have happens : v.cue (.goOn alert owner : Cue (Guest s)) =
      some ⟨_, v.moved (.goOn alert owner : Cue (Guest s))⟩ := congrArg (Option.map _) gone
  have place : v.moved (.goOn alert owner : Cue (Guest s)) owner = v.next owner :=
    Function.update_self ..
  refine ⟨_, happens, fun admitted => ?_, fun denied => ⟨?_, ?_⟩⟩
  · simp only [place, next, here, admitted, if_true]
  · simp only [place, next, here, denied, Bool.false_eq_true, if_false]
  · obtain ⟨-, left, locks, returned⟩ := mirrors.answered here (g.quiet_judged _ _)
      (GateCall.run_of_denied denied) gone
    refine ⟨?_, locks, returned⟩
    rw [left]
    exact g.quiet_judged _ _

end Lobby

/-- **Through the gate.** Whatever happens in a house, with calls on its gate among direct dealings
with the ledger and with the admission controller: the ledger goes through what it would go through
alone, if only those gate calls that were admitted had been made, directly and at those times, and
they are answered the same. Any other gate call is told at once that it is turned away, and leaves
everything as it was. And while an endpoint has a sliding log that has not seen a holder before, no
more of the holder's calls there come through within the length of its window than it permits,
whatever the ledger makes of them. -/
theorem gate_composes {origin : Int} {h₀ : House} {script : List (Cue (Guest s))} {v : Lobby}
    (h : (Lobby.start origin h₀).play script = some v) :
    (∃ u : Traffic Ledger Reply,
      (Traffic.start origin h₀.ledger).play ((Lobby.start origin h₀).passed script) = some u ∧
      u.clock = v.traffic.clock ∧ u.locks = v.traffic.locks ∧
      v.traffic.shared.ledger.Quiet u.shared ∧
      u.returned = v.traffic.returned.filter fun r => (v.place r.owner).isInside) ∧
    (∀ alert owner g, v.place owner = .outside (.gate g) →
      ∃ w, v.cue (.goOn alert owner : Cue (Guest s)) = some w ∧
        (v.admits g = true → w.place owner = .inside) ∧
        (v.admits g = false → w.place owner = .absent ∧
          v.traffic.shared.ledger.Quiet w.traffic.shared.ledger ∧
          w.traffic.locks = v.traffic.locks ∧
          w.traffic.returned =
            ⟨owner, g.refusal, v.traffic.clock.elapsed⟩ :: v.traffic.returned)) ∧
    ∀ (later : List (Cue (Guest s))) (endpoint holder : String) (number : Nat) (l : SlidingLog),
      (v.play later).isSome = true → v.admission.limiters[number]? = some (.slidingLog l) →
      l.logs.get? holder = none →
      v.throughout (fun x => x.admission.numberFor endpoint = number) later = true →
      ∀ first : Int,
        ((v.letIns endpoint holder later).countP fun j =>
          first ≤ j.time.nanos ∧ j.time.nanos < first + l.length) ≤ l.maxRequests.toNat ∧
        ((v.letIns endpoint holder later).countP fun j =>
          first < j.time.nanos ∧ j.time.nanos ≤ first + l.length) ≤ l.maxRequests.toNat := by
  obtain ⟨u, played, mirrors⟩ := (Lobby.mirrors_start s origin h₀).play h
  refine ⟨⟨u, played, mirrors.clock, mirrors.locks, mirrors.ledger, mirrors.returned⟩,
    fun alert owner g here => mirrors.decided here, ?_⟩
  intro later endpoint holder number l goesOn there unseen governed first
  obtain ⟨w, goesOn⟩ := Option.isSome_iff_exists.1 goesOn
  have quota : ∀ inside : Nat → Bool,
      (∀ a b, inside a = true → inside b = true → b < a + l.length) →
      (v.letIns endpoint holder later).countP (fun j => inside j.time.nanos) ≤
        l.maxRequests.toNat :=
    fun _ short => Lobby.countP_letIns_le mirrors there unseen goesOn governed short
  constructor
  · refine quota (fun t => first ≤ t ∧ t < first + l.length) fun a b ha hb => ?_
    simp only [decide_eq_true_eq] at ha hb
    omega
  · refine quota (fun t => first < t ∧ t ≤ first + l.length) fun a b ha hb => ?_
    simp only [decide_eq_true_eq] at ha hb
    omega

/-- A house with a hall of two seats, where one may call at the box office once in a second. -/
def boxOffice : House := ⟨Ledger.hallOfTwo, .new (.fixedWindow (.new 5 1000000000)), []⟩

/-- Bob asks for a seat at the box office, for a second. -/
def bobAsks (seat : Nat) : GateCall := ⟨"box", ⟨0, seat⟩, "Bob", 1000000000, id⟩

/-- A limiter is built for the box office. -/
def opens : List (Cue (Guest .standard)) :=
  [.enter 0 (.caller (.admission (.arrange (.register "box" (.slidingWindowLog 1 1000))
    fun _ => rfl))), .goOn false 0]

/-- Bob asks for one seat and for the other, while Ann books both without the gate. -/
def queue : List (Cue (Guest .standard)) :=
  [.enter 1 (.caller (.gate (bobAsks 1))), .enter 2 (.caller (.gate (bobAsks 2))),
    .enter 3 (.direct (Request.annBooks.errand .standard) (fun _ => none) (.once _ _)),
    .goOn false 1]

/-- Once his first request was heard, so is his second one, and Ann. A second later Bob asks for
the other seat again. -/
def evening : List (Cue (Guest .standard)) :=
  queue ++ [.goOn false 2, .goOn false 3, .elapse 1000, .enter 4 (.caller (.gate (bobAsks 2))),
    .goOn false 4]

/-- The lobby once the box office is open. -/
def opened : Lobby := ((Lobby.start 0 boxOffice).play opens).get (by decide +kernel)

/-- The lobby once Bob's first request was heard. -/
def busy : Lobby := ((Lobby.start 0 boxOffice).play (opens ++ queue)).get (by decide +kernel)

/-- The lobby at the end of the evening. -/
def closed : Lobby := ((Lobby.start 0 boxOffice).play (opens ++ evening)).get (by decide +kernel)

/-- Bob's second request is turned away. The ledger hears of his first and his third one, and of
Ann. -/
theorem gate_composes_for_bob :
    (Lobby.start 0 boxOffice).play (opens ++ evening) = some closed ∧
    ((opened.judgements evening).map fun j => (j.owner, j.admitted)) =
      [(1, true), (2, false), (4, true)] ∧
    (∃ u : Traffic Ledger Reply,
      (Traffic.start 0 boxOffice.ledger).play
        ((Lobby.start 0 boxOffice).passed (opens ++ evening)) = some u ∧
      (u.returned.map fun r => r.owner) = [4, 3, 1]) ∧
    (∃ w, busy.cue (.goOn false 2 : Cue (Guest .standard)) = some w ∧
      w.traffic.returned = ⟨2, (bobAsks 2).refusal, 0⟩ :: busy.traffic.returned) ∧
    ∀ first : Int, ((opened.letIns "box" "Bob" evening).countP fun j =>
      first ≤ j.time.nanos ∧ j.time.nanos < first + 1000000000) ≤ 1 := by
  have early : (Lobby.start 0 boxOffice).play opens = some opened := (Option.some_get _).symm
  have between : (Lobby.start 0 boxOffice).play (opens ++ queue) = some busy :=
    (Option.some_get _).symm
  have late : (Lobby.start 0 boxOffice).play (opens ++ evening) = some closed :=
    (Option.some_get _).symm
  obtain ⟨⟨u, played, -, -, -, returned⟩, -⟩ := gate_composes late
  obtain ⟨-, decided, -⟩ := gate_composes between
  obtain ⟨w, gone, -, denied⟩ := decided false 2 (bobAsks 2) rfl
  obtain ⟨-, -, quota⟩ := gate_composes early
  refine ⟨late, by decide +kernel, ⟨u, played, ?_⟩, ⟨w, gone, ?_⟩, fun first => ?_⟩
  · rw [returned]
    decide +kernel
  · exact (denied (by decide +kernel)).2.2.2
  · exact (quota evening "box" "Bob" 1 (.new 1 1000000000) (by decide +kernel) rfl rfl
      (by decide +kernel) first).1

end House

end Tenure
