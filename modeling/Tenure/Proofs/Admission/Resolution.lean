import Tenure.Admission.Controller
import Tenure.Proofs.Admission.Clients

/-!
# Who decides

A controller is asked for many things in a row: to let limiters serve endpoints, to let them go, to
put another default limiter in use, and to decide on calls. Each call is decided by the limiter that
serves its endpoint at that moment, and `Controller.asked` is the record of which limiter that was.

A limiter that is offered to the controller is one that has just been built or one that the
controller has had before, so that it may come to serve several endpoints, or an endpoint again.

When all clients are forgotten, what is left of a controller says who decides (`Controller.bare`).
Calls leave that as it is, and every other act does to it what it does to the controller.
-/

namespace Tenure

open Knock

/-! ## Limiters without their clients -/

/-- A table without entries is the empty table. -/
theorem Table.eq_empty_of_size_eq_zero {κ α : Type} {t : Table κ α} (h : t.size = 0) :
    t = Table.empty := by
  obtain ⟨entries, _⟩ := t
  cases List.length_eq_zero_iff.1 h
  rfl

namespace Limiter

/-- The limiter as it was when it was built. -/
def fresh : Limiter → Limiter
  | tokenBucket l => tokenBucket { l with buckets := Table.empty }
  | fixedWindow l => fixedWindow { l with windows := Table.empty }
  | slidingLog l => slidingLog { l with logs := Table.empty }

theorem fresh_eq_self {l : Limiter} (unseen : l.clients = 0) : l.fresh = l := by
  cases l with
  | tokenBucket l =>
    obtain ⟨capacity, rate, buckets⟩ := l
    cases Table.eq_empty_of_size_eq_zero unseen
    rfl
  | fixedWindow l =>
    obtain ⟨maxRequests, length, windows⟩ := l
    cases Table.eq_empty_of_size_eq_zero unseen
    rfl
  | slidingLog l =>
    obtain ⟨maxRequests, length, logs⟩ := l
    cases Table.eq_empty_of_size_eq_zero unseen
    rfl

@[simp] theorem fresh_allow (l : Limiter) (key : String) (now : Nat) :
    (l.allow key now).2.fresh = l.fresh := by cases l <;> rfl

@[simp] theorem fresh_after (l : Limiter) (calls : List Knock) :
    (after allow l calls).fresh = l.fresh := by
  induction calls generalizing l with
  | nil => rfl
  | cons k calls ih => rw [after_cons, ih, fresh_allow]

/-- A decision depends on the client's own earlier calls only, whatever the algorithm. -/
theorem allow_after_of (l : Limiter) (key : String) (calls : List Knock) (now : Nat) :
    (allow (after allow l calls) key now).1 = (allow (after allow l (of key calls)) key now).1 := by
  cases l with
  | tokenBucket l =>
    rw [after_map tokenBucket fun _ _ _ => rfl, after_map tokenBucket fun _ _ _ => rfl]
    exact (TokenBucket.apart l.capacity l.rate).allow_after_of ⟨rfl, rfl⟩ key calls now
  | fixedWindow l =>
    rw [after_map fixedWindow fun _ _ _ => rfl, after_map fixedWindow fun _ _ _ => rfl]
    exact (FixedWindow.apart l.maxRequests l.length).allow_after_of ⟨rfl, rfl⟩ key calls now
  | slidingLog l =>
    rw [after_map slidingLog fun _ _ _ => rfl, after_map slidingLog fun _ _ _ => rfl]
    exact (SlidingLog.apart l.maxRequests l.length).allow_after_of ⟨rfl, rfl⟩ key calls now

/-- The same holds of the decisions on several calls of the client in a row. -/
theorem admitted_after_of (l : Limiter) (key : String) (earlier : List Knock)
    (readings : List Nat) :
    (decided allow (after allow l earlier) (readings.map (Knock.mk key))).map (·.admitted) =
      (decided allow (after allow l (of key earlier)) (readings.map (Knock.mk key))).map
        (·.admitted) := by
  induction readings generalizing earlier with
  | nil => rfl
  | cons t readings ih =>
    have rest := ih (earlier ++ [⟨key, t⟩])
    rw [of_append, after_append, after_append, of_cons, if_pos rfl] at rest
    simp only [List.map_cons, decided]
    rw [allow_after_of]
    exact congrArg _ rest

/-- Calls at one moment are a row of calls. -/
theorem allowMany_eq (l : Limiter) (key : String) (now n : Nat) :
    l.allowMany key now n =
      ((decided allow l (List.replicate n ⟨key, now⟩)).map (·.admitted),
        after allow l (List.replicate n ⟨key, now⟩)) := by
  induction n generalizing l with
  | zero => rfl
  | succ n ih =>
    rw [allowMany, ih, List.replicate_succ]
    rfl

end Limiter

namespace Controller

/-! ## Calls with a clock reading each -/

/-- Several calls of a client, each with its own clock reading: how many were admitted and how many
turned away. -/
def allowEach (c : Controller) (endpoint key : String) (readings : List Nat) :
    (Nat × Nat) × Controller :=
  let calls := readings.map (Knock.mk key)
  let decisions := (decided Limiter.allow (c.limiterFor endpoint) calls).map (·.admitted)
  let allowed := decisions.count true
  let denied := decisions.count false
  let c := { c with
    limiters := c.limiters.set (c.numberFor endpoint)
      (after Limiter.allow (c.limiterFor endpoint) calls) }
  ((allowed, denied), (c.record true allowed).record false denied)

/-- Calls at one moment are calls that all have the same clock reading. -/
theorem allowMany_eq_allowEach (c : Controller) (endpoint key : String) (now n : Nat) :
    c.allowMany endpoint key now n = c.allowEach endpoint key (List.replicate n now) := by
  rw [allowMany, allowEach, Limiter.allowMany_eq, List.map_replicate]

/-! ## What a controller is asked for -/

/-- A limiter that is offered to a controller. -/
inductive Offer where
  /-- one that was just built -/
  | new (l : Limiter) (unseen : l.clients = 0)
  /-- one that the controller has had before, by its number -/
  | known (number : Nat)

/-- What a controller may be asked for. -/
inductive Act where
  /-- a limiter is to be built for an endpoint -/
  | register (endpoint : String) (config : LimiterConfig)
  /-- a limiter is to serve an endpoint -/
  | serve (endpoint : String) (offer : Offer)
  /-- an endpoint is to go back to the default limiter -/
  | remove (endpoint : String)
  /-- a new default limiter is to be built -/
  | setDefault (config : LimiterConfig)
  /-- a limiter is to be the default -/
  | fallBackOn (offer : Offer)
  /-- a client calls -/
  | allow (endpoint key : String) (now : Nat)
  /-- a client calls several times -/
  | allowEach (endpoint key : String) (readings : List Nat)
  /-- somebody asks about a client -/
  | stats (endpoint key : String)

/-- Takes up an offer: the number of the limiter. Nobody has a limiter whose number was never
given out. -/
def take (c : Controller) : Offer → Option (Nat × Controller)
  | .new l _ => some (c.enlist l)
  | .known number => if number < c.limiters.length then some (number, c) else none

/-- What comes of it: the controller afterwards, or why it refused. -/
def outcome (c : Controller) : Act → Except AdmissionError Controller
  | .register endpoint config => c.registerConfig endpoint config
  | .serve endpoint offer =>
    match c.take offer with
    | some (number, c) => c.register endpoint number
    | none => .ok c
  | .remove endpoint => c.remove endpoint
  | .setDefault config => c.setDefault config
  | .fallBackOn offer =>
    match c.take offer with
    | some (number, c) => .ok { c with fallback := number }
    | none => .ok c
  | .allow endpoint key now => .ok (c.allow endpoint key now).2
  | .allowEach endpoint key readings => .ok (c.allowEach endpoint key readings).2
  | .stats .. => .ok c

/-- The controller afterwards; a refusal leaves it as it was. -/
def next (c : Controller) (a : Act) : Controller :=
  match c.outcome a with
  | .ok c => c
  | .error _ => c

/-- The controller after a row of acts. -/
def nextAll (c : Controller) (acts : List Act) : Controller := acts.foldl next c

/-! ## Who was asked -/

/-- A call together with the number of the limiter that decided on it. -/
structure Asked where
  /-- the limiter -/
  number : Nat
  /-- the call -/
  call : Knock

/-- The calls of an act and who decides on them. -/
def asks (c : Controller) : Act → List Asked
  | .allow endpoint key now => [⟨c.numberFor endpoint, ⟨key, now⟩⟩]
  | .allowEach endpoint key readings => readings.map fun t => ⟨c.numberFor endpoint, ⟨key, t⟩⟩
  | _ => []

/-- The calls of a row of acts and who decided on them. -/
def asked (c : Controller) : List Act → List Asked
  | [] => []
  | a :: acts => c.asks a ++ (c.next a).asked acts

/-- The calls that one limiter decided on. -/
def callsTo (number : Nat) (log : List Asked) : List Knock :=
  (log.filter (·.number = number)).map (·.call)

/-! ## Who decides -/

/-- Whether an act bears on who decides. -/
def Act.routes : Act → Bool
  | .register .. | .serve .. | .remove .. | .setDefault .. | .fallBackOn .. => true
  | .allow .. | .allowEach .. | .stats .. => false

/-- The controller with all clients and all counts forgotten: what is left says who decides. -/
def bare (c : Controller) : Controller :=
  { c with limiters := c.limiters.map Limiter.fresh, allowed := 0, denied := 0 }

theorem bare_new {l : Limiter} (unseen : l.clients = 0) : (new l).bare = new l := by
  rw [bare, new, List.map_singleton, Limiter.fresh_eq_self unseen]

@[simp] theorem endpoints_bare (c : Controller) : c.bare.endpoints = c.endpoints := rfl

@[simp] theorem length_limiters_bare (c : Controller) :
    c.bare.limiters.length = c.limiters.length := List.length_map _

@[simp] theorem numberFor_bare (c : Controller) (endpoint : String) :
    c.bare.numberFor endpoint = c.numberFor endpoint := rfl

theorem limiterFor_bare (c : Controller) (endpoint : String) :
    c.bare.limiterFor endpoint = (c.limiterFor endpoint).fresh := by
  rw [limiterFor, limiterFor, numberFor_bare, bare, List.getElem?_map]
  cases c.limiters[c.numberFor endpoint]? <;> rfl

theorem bare_enlist (c : Controller) {l : Limiter} (unseen : l.clients = 0) :
    c.bare.enlist l = ((c.enlist l).1, (c.enlist l).2.bare) := by
  simp only [enlist, bare, List.length_map, List.map_append, List.map_singleton,
    Limiter.fresh_eq_self unseen]

theorem bare_take (c : Controller) (offer : Offer) :
    c.bare.take offer = (c.take offer).map fun r => (r.1, r.2.bare) := by
  cases offer with
  | new l unseen => exact congrArg some (c.bare_enlist unseen)
  | known number =>
    rw [take, take, length_limiters_bare]
    split <;> rfl

theorem bare_register (c : Controller) (endpoint : String) (number : Nat) :
    c.bare.register endpoint number = (c.register endpoint number).map bare := by
  rw [register, register, endpoints_bare]
  split
  · rfl
  split <;> rfl

theorem eq_of_build {config : LimiterConfig} {l : Limiter} (h : config.build = .ok l) :
    l = config.limiter := by
  rw [LimiterConfig.build] at h
  split at h
  · cases h
  · exact (Except.ok.inj h).symm

theorem unseen_of_build {config : LimiterConfig} {l : Limiter} (h : config.build = .ok l) :
    l.clients = 0 := by
  rw [eq_of_build h]
  cases config <;> rfl

/-- A limiter built from a configuration is a new one. -/
theorem outcome_register {c : Controller} {endpoint : String} {config : LimiterConfig} {l : Limiter}
    (built : config.build = .ok l) : c.outcome (.register endpoint config) =
      c.outcome (.serve endpoint (.new l (unseen_of_build built))) := by
  simp only [outcome, registerConfig, built, take]

theorem outcome_setDefault {c : Controller} {config : LimiterConfig} {l : Limiter}
    (built : config.build = .ok l) :
    c.outcome (.setDefault config) = c.outcome (.fallBackOn (.new l (unseen_of_build built))) := by
  simp only [outcome, setDefault, built, take]

theorem bare_outcome_serve (c : Controller) (endpoint : String) (offer : Offer) :
    c.bare.outcome (.serve endpoint offer) = (c.outcome (.serve endpoint offer)).map bare := by
  simp only [outcome, bare_take]
  cases c.take offer with
  | none => rfl
  | some r => exact bare_register ..

theorem bare_outcome_fallBackOn (c : Controller) (offer : Offer) :
    c.bare.outcome (.fallBackOn offer) = (c.outcome (.fallBackOn offer)).map bare := by
  simp only [outcome, bare_take]
  cases c.take offer <;> rfl

/-- An act that bears on who decides does the same whether or not anybody called. -/
theorem bare_outcome (c : Controller) {a : Act} (h : a.routes = true) :
    c.bare.outcome a = (c.outcome a).map bare := by
  cases a with
  | register endpoint config =>
    cases built : config.build with
    | error f => simp only [outcome, registerConfig, built]; rfl
    | ok l => simp only [outcome_register built, bare_outcome_serve]
  | serve endpoint offer => exact c.bare_outcome_serve endpoint offer
  | remove endpoint =>
    rw [outcome, outcome, remove, remove, endpoints_bare]
    split <;> rfl
  | setDefault config =>
    cases built : config.build with
    | error f => simp only [outcome, setDefault, built]; rfl
    | ok l => simp only [outcome_setDefault built, bare_outcome_fallBackOn]
  | fallBackOn offer => exact c.bare_outcome_fallBackOn offer
  | allow | allowEach | stats => cases h

theorem bare_next_of_routes (c : Controller) {a : Act} (h : a.routes = true) :
    (c.next a).bare = c.bare.next a := by
  rw [next, next, bare_outcome c h]
  cases c.outcome a <;> rfl

/-! ## Calls -/

theorem set_limiterFor (c : Controller) (endpoint : String) :
    c.limiters.set (c.numberFor endpoint) (c.limiterFor endpoint) = c.limiters := by
  rw [limiterFor]
  cases h : c.limiters[c.numberFor endpoint]? with
  | none => exact List.set_eq_of_length_le (List.getElem?_eq_none_iff.1 h)
  | some l =>
    obtain ⟨_, rfl⟩ := List.getElem?_eq_some_iff.1 h
    exact List.set_getElem_self _

/-- The act of calling: the limiter in force is asked the calls, and the decisions are counted. -/
theorem next_of_calls (c : Controller) {a : Act} (h : a.routes = false) :
    ∃ (endpoint : String) (calls : List Knock) (allowed denied : UInt64),
      c.asks a = calls.map (Asked.mk (c.numberFor endpoint)) ∧
      c.next a = { c with
        limiters := c.limiters.set (c.numberFor endpoint)
          (after Limiter.allow (c.limiterFor endpoint) calls)
        allowed := allowed, denied := denied } := by
  cases a with
  | allow endpoint key now =>
    refine ⟨endpoint, [⟨key, now⟩], (c.next (.allow endpoint key now)).allowed,
      (c.next (.allow endpoint key now)).denied, rfl, ?_⟩
    simp only [next, outcome, allow, record]
    split <;> rfl
  | allowEach endpoint key readings =>
    exact ⟨endpoint, readings.map (Knock.mk key), _, _, by simp [asks], rfl⟩
  | stats endpoint key =>
    refine ⟨endpoint, [], c.allowed, c.denied, rfl, ?_⟩
    rw [after_nil, set_limiterFor]
    rfl
  | register | serve | remove | setDefault | fallBackOn => cases h

theorem bare_next_of_calls (c : Controller) {a : Act} (h : a.routes = false) :
    (c.next a).bare = c.bare := by
  obtain ⟨endpoint, calls, allowed, denied, -, e⟩ := c.next_of_calls h
  have kept := c.bare.set_limiterFor endpoint
  rw [limiterFor_bare, numberFor_bare] at kept
  rw [e, bare, List.map_set, Limiter.fresh_after]
  exact congrArg (fun limiters => { c.bare with limiters := limiters }) kept

end Controller

end Tenure
