import Tenure.Proofs.Admission.Resolution

/-!
# Isolation

What a controller decides on a client's call is what the limiter in force, as it was when it was
built, decides after that client's own earlier calls to it (`Controller.isolated`).

Who decides is told by the acts that are no calls (`Controller.bare_nextAll`), and what state a
limiter has is told by the record of calls (`Controller.Told`).
-/

namespace Tenure

open Knock

namespace Controller

/-! ## What becomes of the limiters -/

/-- What an act may do that bears on who decides: limiters are never taken away or touched, and
whoever comes to decide has a number that was given out. -/
structure Reroutes (c c' : Controller) : Prop where
  /-- new limiters come last -/
  more : ∃ newer : List Limiter, (∀ l ∈ newer, l.clients = 0) ∧ c'.limiters = c.limiters ++ newer
  /-- the default is an earlier one or one with a number -/
  fallback : c'.fallback = c.fallback ∨ c'.fallback < c'.limiters.length
  /-- so is the limiter of an endpoint -/
  endpoints : ∀ {endpoint : String} {number : Nat}, c'.endpoints.get? endpoint = some number →
    c.endpoints.get? endpoint = some number ∨ number < c'.limiters.length

theorem Reroutes.refl (c : Controller) : Reroutes c c where
  more := ⟨[], by simp, (List.append_nil _).symm⟩
  fallback := .inl rfl
  endpoints := .inl

theorem take_cases {c c' : Controller} {offer : Offer} {number : Nat}
    (h : c.take offer = some (number, c')) : number < c'.limiters.length ∧
      ∃ newer : List Limiter, (∀ l ∈ newer, l.clients = 0) ∧
        c' = { c with limiters := c.limiters ++ newer } := by
  cases offer with
  | new l unseen =>
    cases h
    exact ⟨by simp, [l], by simpa using unseen, rfl⟩
  | known =>
    rw [take] at h
    split at h
    · cases h
      exact ⟨‹_›, [], by simp, by rw [List.append_nil]⟩
    · cases h

theorem register_eq_ok {c c' : Controller} {endpoint : String} {number : Nat}
    (h : c.register endpoint number = .ok c') :
    c' = { c with endpoints := c.endpoints.insert endpoint number } := by
  rw [register] at h
  split at h
  · cases h
  split at h
  · cases h
  · exact (Except.ok.inj h).symm

theorem reroutes_serve {c c' : Controller} {endpoint : String} {offer : Offer}
    (h : c.outcome (.serve endpoint offer) = .ok c') : Reroutes c c' := by
  rw [outcome] at h
  cases taken : c.take offer with
  | none => rw [taken] at h; cases h; exact .refl c
  | some r =>
    rw [taken] at h
    obtain ⟨given, newer, unseen, rest⟩ := take_cases taken
    cases register_eq_ok h
    refine ⟨⟨newer, unseen, by rw [rest]⟩, .inl (by rw [rest]), fun {e n} found => ?_⟩
    rw [Table.get?_insert] at found
    split at found
    · cases found; exact .inr given
    · rw [rest] at found; exact .inl found

theorem reroutes_fallBackOn {c c' : Controller} {offer : Offer}
    (h : c.outcome (.fallBackOn offer) = .ok c') : Reroutes c c' := by
  rw [outcome] at h
  cases taken : c.take offer with
  | none => rw [taken] at h; cases h; exact .refl c
  | some r =>
    rw [taken] at h
    obtain ⟨given, newer, unseen, rest⟩ := take_cases taken
    cases h
    exact ⟨⟨newer, unseen, by rw [rest]⟩, .inr given, fun found => .inl (by rwa [rest] at found)⟩

theorem reroutes_outcome {c c' : Controller} {a : Act} (routes : a.routes = true)
    (h : c.outcome a = .ok c') : Reroutes c c' := by
  cases a with
  | register endpoint config =>
    cases built : config.build with
    | error f => simp only [outcome, registerConfig, built] at h; cases h
    | ok l => exact reroutes_serve (outcome_register built ▸ h)
  | serve => exact reroutes_serve h
  | remove endpoint =>
    rw [outcome, remove] at h
    split at h
    · cases h
      refine ⟨⟨[], by simp, (List.append_nil _).symm⟩, .inl rfl, fun {e n} found => ?_⟩
      rw [Table.get?_erase] at found
      split at found
      · cases found
      · exact .inl found
    · cases h
  | setDefault config =>
    cases built : config.build with
    | error f => simp only [outcome, setDefault, built] at h; cases h
    | ok l => exact reroutes_fallBackOn (outcome_setDefault built ▸ h)
  | fallBackOn => exact reroutes_fallBackOn h
  | allow | allowEach | stats => cases routes

theorem reroutes_next {c : Controller} {a : Act} (routes : a.routes = true) :
    Reroutes c (c.next a) := by
  rw [next]
  cases done : c.outcome a with
  | ok c' => exact reroutes_outcome routes done
  | error e => exact .refl c

theorem asks_of_routes {c : Controller} {a : Act} (routes : a.routes = true) : c.asks a = [] := by
  cases a with
  | register | serve | remove | setDefault | fallBackOn => rfl
  | allow | allowEach | stats => cases routes

/-! ## The record tells -/

@[simp] theorem callsTo_append (number : Nat) (log more : List Asked) :
    callsTo number (log ++ more) = callsTo number log ++ callsTo number more := by
  rw [callsTo, List.filter_append, List.map_append, callsTo, callsTo]

theorem callsTo_map (number : Nat) (calls : List Knock) :
    callsTo number (calls.map (Asked.mk number)) = calls := by
  simp [callsTo, List.filter_map, Function.comp_def]

theorem callsTo_eq_nil {number : Nat} {log : List Asked} (h : ∀ x ∈ log, x.number ≠ number) :
    callsTo number log = [] := by
  simpa [callsTo] using h

theorem callsTo_map_of_ne {number other : Nat} (ne : other ≠ number) (calls : List Knock) :
    callsTo number (calls.map (Asked.mk other)) = [] :=
  callsTo_eq_nil fun x hx => by obtain ⟨_, _, rfl⟩ := List.mem_map.1 hx; exact ne

/-- The controller is as the record of its calls tells. -/
structure Told (log : List Asked) (c : Controller) : Prop where
  /-- the default limiter is there -/
  fallback : c.fallback < c.limiters.length
  /-- so is that of each endpoint -/
  endpoints : ∀ {endpoint : String} {number : Nat},
    c.endpoints.get? endpoint = some number → number < c.limiters.length
  /-- nobody else was asked -/
  asked : ∀ x ∈ log, x.number < c.limiters.length
  /-- a limiter has the state that its calls leave -/
  limiters : ∀ {number : Nat} {l : Limiter}, c.limiters[number]? = some l →
    l = after Limiter.allow l.fresh (callsTo number log)

namespace Told

variable {log : List Asked} {c : Controller}

theorem start {l : Limiter} (unseen : l.clients = 0) : Told [] (new l) where
  fallback := Nat.one_pos
  endpoints h := by cases h
  asked x hx := by cases hx
  limiters {number l'} h := by
    cases List.mem_singleton.1 (List.mem_of_getElem? h)
    exact (Limiter.fresh_eq_self unseen).symm

theorem numberFor_lt (told : Told log c) (endpoint : String) :
    c.numberFor endpoint < c.limiters.length := by
  rw [numberFor]
  cases h : c.endpoints.get? endpoint with
  | none => exact told.fallback
  | some number => exact told.endpoints h

/-- **The limiter in force is what the record makes of it.** -/
theorem limiterFor (told : Told log c) (endpoint : String) : c.limiterFor endpoint =
    after Limiter.allow (c.limiterFor endpoint).fresh (callsTo (c.numberFor endpoint) log) := by
  have there := List.getElem?_eq_getElem (told.numberFor_lt endpoint)
  rw [Controller.limiterFor, there]
  exact told.limiters there

theorem reroutes (told : Told log c) {c' : Controller} (h : Reroutes c c') : Told log c' := by
  obtain ⟨newer, unseen, more⟩ := h.more
  have grown : c.limiters.length ≤ c'.limiters.length := by simp [more]
  refine ⟨?_, fun found => ?_, fun x hx => Nat.lt_of_lt_of_le (told.asked x hx) grown,
    fun {n l} there => ?_⟩
  · rcases h.fallback with same | given
    · exact same ▸ Nat.lt_of_lt_of_le told.fallback grown
    · exact given
  · rcases h.endpoints found with same | given
    · exact Nat.lt_of_lt_of_le (told.endpoints same) grown
    · exact given
  · rw [more] at there
    by_cases old : n < c.limiters.length
    · exact told.limiters (List.getElem?_append_left old ▸ there)
    -- nobody can have asked a limiter before it was put in use
    · rw [List.getElem?_append_right (Nat.le_of_not_lt old)] at there
      have silent : callsTo n log = [] :=
        callsTo_eq_nil fun x hx e => old (e ▸ told.asked x hx)
      rw [silent, after_nil, Limiter.fresh_eq_self (unseen l (List.mem_of_getElem? there))]

theorem calls (told : Told log c) (endpoint : String) (calls : List Knock)
    (allowed denied : UInt64) :
    Told (log ++ calls.map (Asked.mk (c.numberFor endpoint))) { c with
      limiters := c.limiters.set (c.numberFor endpoint)
        (after Limiter.allow (c.limiterFor endpoint) calls)
      allowed := allowed, denied := denied } where
  fallback := by simpa using told.fallback
  endpoints h := by simpa using told.endpoints h
  asked x hx := by
    rw [List.length_set]
    rcases List.mem_append.1 hx with earlier | now
    · exact told.asked x earlier
    · obtain ⟨_, _, rfl⟩ := List.mem_map.1 now
      exact told.numberFor_lt endpoint
  limiters {number l} there := by
    rw [callsTo_append, after_append]
    by_cases own : c.numberFor endpoint = number
    · subst own
      rw [List.getElem?_set_self (told.numberFor_lt endpoint)] at there
      cases there
      rw [callsTo_map, Limiter.fresh_after, ← told.limiterFor]
    · rw [List.getElem?_set_ne own] at there
      rw [callsTo_map_of_ne own, after_nil]
      exact told.limiters there

theorem next (told : Told log c) (a : Act) : Told (log ++ c.asks a) (c.next a) := by
  cases h : a.routes with
  | true =>
    rw [asks_of_routes h, List.append_nil]
    exact told.reroutes (reroutes_next h)
  | false =>
    obtain ⟨endpoint, calls, allowed, denied, asks, after⟩ := c.next_of_calls h
    rw [asks, after]
    exact told.calls endpoint calls allowed denied

theorem nextAll (told : Told log c) (acts : List Act) :
    Told (log ++ c.asked acts) (c.nextAll acts) := by
  induction acts generalizing log c with
  | nil => exact (List.append_nil log).symm ▸ told
  | cons a acts ih =>
    rw [Controller.asked, ← List.append_assoc]
    exact ih (told.next a)

end Told

/-! ## Two controllers -/

theorem asks_bare (c : Controller) (a : Act) : c.bare.asks a = c.asks a := by cases a <;> rfl

/-- Calls never change who decides. -/
theorem bare_nextAll (c : Controller) (acts : List Act) :
    (c.nextAll acts).bare = c.bare.nextAll (acts.filter Act.routes) := by
  induction acts generalizing c with
  | nil => rfl
  | cons a acts ih =>
    cases h : a.routes with
    | true =>
      rw [List.filter_cons_of_pos h]
      exact (ih (c.next a)).trans (by rw [bare_next_of_routes c h]; rfl)
    | false =>
      rw [List.filter_cons_of_neg (by simp [h])]
      exact (ih (c.next a)).trans (by rw [bare_next_of_calls c h])

theorem bare_next_congr {c d : Controller} (same : c.bare = d.bare) (a : Act) :
    (c.next a).bare = (d.next a).bare := by
  cases h : a.routes with
  | true => rw [bare_next_of_routes c h, bare_next_of_routes d h, same]
  | false => rw [bare_next_of_calls c h, bare_next_of_calls d h, same]

/-- Whether an act can matter to a client of the limiter with a number: the client calls it, or the
act bears on who decides and is not refused. -/
def matters (c : Controller) (number : Nat) (key : String) (a : Act) : Bool :=
  if a.routes then (c.outcome a).isOk
  else (c.asks a).any fun x => x.number = number && x.call.key = key

/-- The acts that can matter to a client of the limiter with a number. -/
def relevant (c : Controller) (number : Nat) (key : String) : List Act → List Act
  | [] => []
  | a :: acts =>
    if c.matters number key a then a :: (c.next a).relevant number key acts
    else (c.next a).relevant number key acts

/-- An act that cannot matter leaves it as it is who decides, and the client says nothing. -/
theorem of_not_matters {c : Controller} {number : Nat} {key : String} {a : Act}
    (h : c.matters number key a = false) :
    (c.next a).bare = c.bare ∧ of key (callsTo number (c.asks a)) = [] := by
  cases r : a.routes with
  | true =>
    rw [matters, if_pos r] at h
    refine ⟨?_, by rw [asks_of_routes r]; rfl⟩
    rw [next]
    cases done : c.outcome a with
    | ok c' => rw [done] at h; cases h
    | error e => rfl
  | false =>
    rw [matters, if_neg (by simp [r])] at h
    refine ⟨bare_next_of_calls c r, ?_⟩
    simp only [List.any_eq_false, Bool.and_eq_true, decide_eq_true_eq, not_and] at h
    simp only [of, callsTo, List.filter_map, List.filter_filter, List.map_eq_nil_iff,
      List.filter_eq_nil_iff, Function.comp_apply, Bool.and_eq_true, decide_eq_true_eq, not_and]
    exact fun x asks own number => h x asks number own

/-- What does not matter can as well be left out. -/
theorem relevant_spec {c d : Controller} {log log' : List Asked} (number : Nat) (key : String)
    (same : c.bare = d.bare) (heard : of key (callsTo number log) = of key (callsTo number log'))
    (acts : List Act) :
    (c.nextAll acts).bare = (d.nextAll (c.relevant number key acts)).bare ∧
      of key (callsTo number (log ++ c.asked acts)) =
        of key (callsTo number (log' ++ d.asked (c.relevant number key acts))) := by
  induction acts generalizing c d log log' with
  | nil => exact ⟨same, by simpa [asked, relevant] using heard⟩
  | cons a acts ih =>
    rw [relevant, asked, ← List.append_assoc]
    cases h : c.matters number key a with
    | true =>
      rw [if_pos rfl, asked, ← List.append_assoc]
      refine ih (bare_next_congr same a) ?_
      rw [callsTo_append, callsTo_append, of_append, of_append, heard, ← asks_bare c, same,
        asks_bare]
    | false =>
      obtain ⟨still, silent⟩ := of_not_matters h
      rw [if_neg Bool.false_ne_true]
      refine ih (still.trans same) ?_
      rw [callsTo_append, of_append, silent, List.append_nil, heard]

theorem outcome_eq_ok_next {c : Controller} {a : Act} (accepted : (c.outcome a).isOk = true) :
    c.outcome a = .ok (c.next a) := by
  rw [next]
  cases done : c.outcome a with
  | ok => rfl
  | error => rw [done] at accepted; cases accepted

/-! ## Isolation -/

/-- The limiter that decides for an endpoint after the acts if nobody ever calls. -/
def inForce (c : Controller) (acts : List Act) (endpoint : String) : Limiter :=
  (c.nextAll (acts.filter Act.routes)).limiterFor endpoint

/-- The calls of a client, among the acts, that were decided on by the very limiter that decides for
an endpoint after them. -/
def heard (c : Controller) (acts : List Act) (endpoint key : String) : List Knock :=
  of key (callsTo ((c.nextAll acts).numberFor endpoint) (c.asked acts))

/-- The limiter that decides for an endpoint after the acts, had it been asked nothing but what a
client asked it. -/
def alone (c : Controller) (acts : List Act) (endpoint key : String) : Limiter :=
  after Limiter.allow (c.inForce acts endpoint) (c.heard acts endpoint key)

variable {l : Limiter} {log : List Asked} {c c' : Controller}

theorem inForce_eq (unseen : l.clients = 0) (acts : List Act) (endpoint : String) :
    (new l).inForce acts endpoint = (((new l).nextAll acts).limiterFor endpoint).fresh := by
  rw [← limiterFor_bare, bare_nextAll, bare_new unseen, inForce]

theorem Told.allow_eq (told : Told log c) (endpoint key : String) (now : Nat) :
    (c.allow endpoint key now).1 =
      (Limiter.allow (after Limiter.allow (c.limiterFor endpoint).fresh
        (of key (callsTo (c.numberFor endpoint) log))) key now).1 := by
  rw [← Limiter.allow_after_of, ← told.limiterFor]
  rfl

theorem Told.allowEach_eq (told : Told log c) (endpoint key : String) (readings : List Nat) :
    let decisions := (decided Limiter.allow (after Limiter.allow (c.limiterFor endpoint).fresh
        (of key (callsTo (c.numberFor endpoint) log))) (readings.map (Knock.mk key))).map
      (·.admitted)
    (c.allowEach endpoint key readings).1 = (decisions.count true, decisions.count false) := by
  rw [← Limiter.admitted_after_of, ← told.limiterFor]
  rfl

/-- A client's decisions stay as they are when everything is left out that does not matter. -/
theorem allow_relevant (unseen : l.clients = 0) (acts : List Act) (endpoint key : String)
    (now : Nat) :
    (((new l).nextAll acts).allow endpoint key now).1 =
      (((new l).nextAll ((new l).relevant (((new l).nextAll acts).numberFor endpoint) key
        acts)).allow endpoint key now).1 := by
  obtain ⟨bare, heard⟩ :=
    relevant_spec (((new l).nextAll acts).numberFor endpoint) key rfl rfl acts
  have number := congrArg (·.numberFor endpoint) bare
  have limiter := congrArg (·.limiterFor endpoint) bare
  simp only [numberFor_bare, limiterFor_bare] at number limiter
  rw [((Told.start unseen).nextAll acts).allow_eq, ((Told.start unseen).nextAll _).allow_eq,
    limiter, ← number, heard]

theorem nextAll_snoc (c : Controller) (acts : List Act) (a : Act) :
    c.nextAll (acts ++ [a]) = (c.nextAll acts).next a := List.foldl_append

theorem asked_snoc (c : Controller) (acts : List Act) (a : Act) :
    c.asked (acts ++ [a]) = c.asked acts ++ (c.nextAll acts).asks a := by
  induction acts generalizing c with
  | nil => simp [asked, nextAll]
  | cons b acts ih => rw [List.cons_append, asked, ih, asked, List.append_assoc]; rfl

/-- Nobody has called a limiter that is new. -/
theorem Told.serve_new (told : Told log c) {endpoint : String} (unseen : l.clients = 0)
    (h : c.outcome (.serve endpoint (.new l unseen)) = .ok c') :
    c'.limiterFor endpoint = l ∧ callsTo (c'.numberFor endpoint) log = [] := by
  rw [outcome, take] at h
  have number : c'.numberFor endpoint = c.limiters.length := by
    rw [register_eq_ok h, numberFor, Table.get?_insert, if_pos rfl]
    rfl
  constructor
  · rw [Controller.limiterFor, number, register_eq_ok h]
    simp
  · rw [number]
    exact callsTo_eq_nil fun x hx => Nat.ne_of_lt (told.asked x hx)

theorem Told.register_new (told : Told log c) {endpoint : String} {config : LimiterConfig}
    (accepted : (c.outcome (.register endpoint config)).isOk = true) :
    (c.next (.register endpoint config)).limiterFor endpoint = config.limiter ∧
      config.limiter.clients = 0 ∧
      callsTo ((c.next (.register endpoint config)).numberFor endpoint) log = [] := by
  have done := outcome_eq_ok_next accepted
  cases built : config.build with
  | error f => simp only [outcome, registerConfig, built] at done; cases done
  | ok l =>
    have unseen := unseen_of_build built
    obtain ⟨limiter, silent⟩ := told.serve_new unseen (outcome_register built ▸ done)
    rw [eq_of_build built] at limiter unseen
    exact ⟨limiter, unseen, silent⟩

theorem next_remove {endpoint : String} (accepted : (c.outcome (.remove endpoint)).isOk = true) :
    (c.next (.remove endpoint)).numberFor endpoint = c.fallback ∧
      (c.next (.remove endpoint)).limiters = c.limiters ∧
      ∀ other, other ≠ endpoint →
        (c.next (.remove endpoint)).numberFor other = c.numberFor other := by
  have done := outcome_eq_ok_next accepted
  generalize c.next (.remove endpoint) = c' at done
  rw [outcome, remove] at done
  split at done
  · cases done
    refine ⟨?_, rfl, fun other ne => ?_⟩
    · rw [numberFor, Table.get?_erase, if_pos rfl]
      rfl
    · rw [numberFor, Table.get?_erase, if_neg ne]
      rfl
  · cases done

/-- **Admission is isolated.** After any row of acts, every endpoint's limiter decides on a client's
call, or on several in a row, as the limiter in force there would, fresh as it was built, if it had
been asked nothing but what this client asked this very limiter. So whatever else was asked for can
be left out: calls of others, calls decided on by other limiters, and all that was refused. The
limiter that comes to serve an endpoint by registration is fresh and has heard nobody, and the
removal of an endpoint gives it to the default limiter and changes nothing else. -/
theorem isolated (unseen : l.clients = 0) (acts : List Act) :
    let c := (new l).nextAll acts
    (∀ endpoint key,
      let alone := (new l).alone acts endpoint key
      (∀ now, (c.allow endpoint key now).1 = (alone.allow key now).1) ∧
      (∀ readings,
        let decisions := (decided Limiter.allow alone (readings.map (Knock.mk key))).map (·.admitted)
        (c.allowEach endpoint key readings).1 = (decisions.count true, decisions.count false)) ∧
      ∀ now n, c.allowMany endpoint key now n = c.allowEach endpoint key (List.replicate n now)) ∧
    (∀ endpoint key now, (c.allow endpoint key now).1 =
      (((new l).nextAll ((new l).relevant (c.numberFor endpoint) key acts)).allow
        endpoint key now).1) ∧
    (∀ endpoint config, let registration : Act := .register endpoint config
      (c.outcome registration).isOk = true →
      (c.next registration).limiterFor endpoint = config.limiter ∧ config.limiter.clients = 0 ∧
      ∀ key, (new l).heard (acts ++ [registration]) endpoint key = []) ∧
    ∀ endpoint, let c' := c.next (.remove endpoint)
      (c.outcome (.remove endpoint)).isOk = true →
      c'.numberFor endpoint = c.fallback ∧ c'.limiters = c.limiters ∧
      ∀ other, other ≠ endpoint → c'.numberFor other = c.numberFor other := by
  have told := (Told.start unseen).nextAll acts
  refine ⟨fun endpoint key => ⟨fun now => ?_, fun readings => ?_, allowMany_eq_allowEach _ _ _⟩,
    allow_relevant unseen acts, fun endpoint config accepted => ?_, fun endpoint accepted => ?_⟩
  · rw [alone, inForce_eq unseen]
    exact told.allow_eq endpoint key now
  · rw [alone, inForce_eq unseen]
    exact told.allowEach_eq endpoint key readings
  · obtain ⟨limiter, unseen, silent⟩ := told.register_new accepted
    refine ⟨limiter, unseen, fun key => ?_⟩
    rw [heard, nextAll_snoc, asked_snoc, asks_of_routes rfl, List.append_nil]
    exact congrArg (of key) silent
  · exact next_remove accepted

/-- One call in ten nanoseconds, for endpoints without a limiter. -/
def annsDefault : Limiter := .fixedWindow (.new 1 10)

/-- A limiter is built for the search. -/
def annsSearch : Act := .register "search" (.fixedWindow 2 1)

/-- Ann calls two endpoints that one limiter serves, and a third one that the default serves. Bob
calls too, and two registrations are refused. -/
def annsErrands : List Act :=
  [annsSearch, .allow "search" "Ann" 0, .allow "help" "Ann" 1, .serve "browse" (.known 1),
    .allow "browse" "Bob" 2, .allow "browse" "Ann" 3, .register "search" (.fixedWindow 5 0),
    .register "" (.fixedWindow 5 1)]

/-- Ann's two calls are all that the limiter of the search knows of her: the third is denied, and of
three more the first, as the others come when its window is over. The limiter that is built for it
next knows nobody, and when that is gone the default decides. -/
theorem isolated_for_ann :
    annsDefault.clients = 0 ∧
    (new annsDefault).heard annsErrands "search" "Ann" = [⟨"Ann", 0⟩, ⟨"Ann", 3⟩] ∧
    ((new annsDefault).relevant 1 "Ann" annsErrands).length = 4 ∧
    (((new annsDefault).nextAll annsErrands).allow "search" "Ann" 4).1 = false ∧
    (((new annsDefault).nextAll annsErrands).allowEach "search" "Ann" [4, 1000000, 1000001]).1 =
      (2, 1) ∧
    ((((new annsDefault).nextAll annsErrands).next annsSearch).limiterFor "search").clients = 0 ∧
    (((new annsDefault).nextAll (annsErrands ++ [annsSearch])).next (.remove "search")).numberFor
      "search" = 0 := by
  have fresh : annsDefault.clients = 0 := rfl
  obtain ⟨alone, -, registered, -⟩ := isolated fresh annsErrands
  obtain ⟨limiter, unseen, -⟩ := registered "search" (.fixedWindow 2 1) (by decide +kernel)
  obtain ⟨-, -, -, removed⟩ := isolated fresh (annsErrands ++ [annsSearch])
  have gone := (removed "search" (by decide +kernel)).1
  refine ⟨fresh, by decide +kernel, by decide +kernel, ?_, ?_, ?_, ?_⟩
  · exact ((alone "search" "Ann").1 4).trans (by decide +kernel)
  · exact ((alone "search" "Ann").2.1 _).trans (by decide +kernel)
  · exact (congrArg Limiter.clients limiter).trans unseen
  · exact gone.trans (by decide +kernel)

end Controller

end Tenure
