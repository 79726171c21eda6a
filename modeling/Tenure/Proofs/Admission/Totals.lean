import Mathlib.Data.Bool.Count
import Tenure.House.Gate
import Tenure.Proofs.Acts
import Tenure.Proofs.Admission.Isolation

/-!
# Counting decisions

Several calls made at once are calls made one after the other at the same moment: the limiter is
looked up once or each time, and the decisions are counted together or one by one, but the
decisions are the same, the limiter is left the same, and so is what was counted
(`Controller.allowInTurn_eq`, `House.run_allowInTurn`).

The totals of a controller are the decisions that it has handed out, whoever serves the endpoints
meanwhile: only calls count, and each counts what it answers (`Controller.totals_next`).
-/

namespace Tenure

/-! ## The controller -/

namespace Controller

variable {c : Controller} {endpoint key : String} {now n : Nat}

/-- The controller once so many more calls were admitted and turned away. -/
def tally (c : Controller) (allowed denied : Nat) : Controller :=
  { c with
    allowed := c.allowed + UInt64.ofNat allowed
    denied := c.denied + UInt64.ofNat denied }

/-- The controller once the limiter of an endpoint was left as `l`. -/
def leave (c : Controller) (endpoint : String) (l : Limiter) : Controller :=
  { c with limiters := c.limiters.set (c.numberFor endpoint) l }

theorem tally_zero (c : Controller) : c.tally 0 0 = c := by
  simp [tally]

theorem tally_tally (c : Controller) (allowed denied allowed' denied' : Nat) :
    (c.tally allowed denied).tally allowed' denied' =
      c.tally (allowed + allowed') (denied + denied') := by
  simp only [tally, UInt64.ofNat_add, UInt64.add_assoc]

/-- One decision is counted. -/
theorem record_eq_tally (c : Controller) (ok : Bool) :
    c.record ok 1 = c.tally ([ok].count true) ([ok].count false) := by
  cases ok <;> simp [record, tally]

theorem leave_limiterFor (c : Controller) (endpoint : String) :
    c.leave endpoint (c.limiterFor endpoint) = c := by
  rw [leave, set_limiterFor]

/-- Only how the limiter was left last matters, and what is counted in between is kept. -/
theorem leave_tally_leave (c : Controller) (endpoint : String) (l l' : Limiter)
    (allowed denied : Nat) :
    ((c.leave endpoint l).tally allowed denied).leave endpoint l' =
      (c.leave endpoint l').tally allowed denied := by
  change { (c.leave endpoint l).tally allowed denied with
    limiters := (c.limiters.set (c.numberFor endpoint) l).set (c.numberFor endpoint) l' } = _
  rw [List.set_set]
  rfl

/-- The next call finds the limiter as the last has left it. -/
theorem limiterFor_leave (known : c.numberFor endpoint < c.limiters.length) (l : Limiter) :
    (c.leave endpoint l).limiterFor endpoint = l := by
  have there : (c.limiters.set (c.numberFor endpoint) l)[c.numberFor endpoint]? = some l := by
    rw [List.getElem?_set_self known]
  exact congrArg (fun l : Option Limiter => l.getD noLimiter) there

/-- Calls of a client at one moment, one after the other: their decisions. -/
def allowInTurn (c : Controller) (endpoint key : String) (now : Nat) :
    (n : Nat) → List Bool × Controller
  | 0 => ([], c)
  | n + 1 =>
    let r := c.allow endpoint key now
    let rest := r.2.allowInTurn endpoint key now n
    (r.1 :: rest.1, rest.2)

/-- The decisions of the limiter in force on calls at one moment. -/
def decisions (c : Controller) (endpoint key : String) (now n : Nat) : List Bool :=
  ((c.limiterFor endpoint).allowMany key now n).1

theorem allowMany_eq (c : Controller) (endpoint key : String) (now n : Nat) :
    (c.allowMany endpoint key now n).2 =
      (c.leave endpoint ((c.limiterFor endpoint).allowMany key now n).2).tally
        ((c.decisions endpoint key now n).count true)
        ((c.decisions endpoint key now n).count false) := rfl

/-- One call is a row of one. -/
theorem allow_eq_allowMany (c : Controller) (endpoint key : String) (now : Nat) :
    c.decisions endpoint key now 1 = [(c.allow endpoint key now).1] ∧
      (c.allow endpoint key now).2 = (c.allowMany endpoint key now 1).2 := by
  refine ⟨rfl, ?_⟩
  rw [allowMany_eq]
  exact record_eq_tally (c.leave endpoint ((c.limiterFor endpoint).allow key now).2) _

/-- A limiter that admits none admits none of many. -/
theorem allowMany_of_none {l : FixedWindow} (none : l.maxRequests = 0) (key : String)
    (now n : Nat) :
    ((Limiter.fixedWindow l).allowMany key now n).1 = List.replicate n false := by
  have refused : ∀ (w : Window), (w.call 0 l.length now).1 = false := by
    intro w
    simp [Window.call]
  induction n generalizing l with
  | zero => rfl
  | succ n ih =>
    rw [Limiter.allowMany, List.replicate_succ]
    refine congrArg₂ List.cons ?_ (ih (l := (l.allow key now).2) none refused)
    simp only [Limiter.allow, FixedWindow.allow, none, refused]

/-- Without a limiter calls are turned away, and no limiter changes. -/
theorem allowMany_of_unknown (unknown : c.limiters.length ≤ c.numberFor endpoint) (key : String)
    (now n : Nat) :
    c.decisions endpoint key now n = List.replicate n false ∧
      (c.allowMany endpoint key now n).2 = c.tally 0 n := by
  have missing : c.limiterFor endpoint = noLimiter := by
    rw [limiterFor, List.getElem?_eq_none unknown, Option.getD_none]
  have refused : c.decisions endpoint key now n = List.replicate n false := by
    rw [decisions, missing]
    exact allowMany_of_none rfl key now n
  refine ⟨refused, ?_⟩
  rw [allowMany_eq, refused, leave, List.set_eq_of_length_le unknown]
  simp [List.count_replicate]

/-- **The first of many calls** might as well have been made alone. -/
theorem allowMany_succ (c : Controller) (endpoint key : String) (now n : Nat) :
    let r := c.allow endpoint key now
    c.decisions endpoint key now (n + 1) = r.1 :: r.2.decisions endpoint key now n ∧
      (c.allowMany endpoint key now (n + 1)).2 = (r.2.allowMany endpoint key now n).2 := by
  obtain ⟨one, left⟩ := c.allow_eq_allowMany endpoint key now
  dsimp only
  rw [left]
  by_cases known : c.numberFor endpoint < c.limiters.length
  · have next : (c.allowMany endpoint key now 1).2.limiterFor endpoint =
        ((c.limiterFor endpoint).allow key now).2 := limiterFor_leave known _
    have decided : c.decisions endpoint key now (n + 1) =
        (c.allow endpoint key now).1 ::
          (c.allowMany endpoint key now 1).2.decisions endpoint key now n := by
      rw [decisions, decisions, next]
      rfl
    refine ⟨decided, ?_⟩
    rw [allowMany_eq _ _ _ _ n, next, allowMany_eq, decided]
    generalize (c.allowMany endpoint key now 1).2.decisions endpoint key now n = later
    rw [allowMany_eq, one, leave_tally_leave, tally_tally]
    simp only [List.count_cons, List.count_nil, Nat.zero_add, Nat.add_comm]
    rfl
  · obtain ⟨refused, counted⟩ := allowMany_of_unknown (Nat.le_of_not_lt known) key now 1
    have unknown : (c.tally 0 1).limiters.length ≤ (c.tally 0 1).numberFor endpoint :=
      Nat.le_of_not_lt known
    obtain ⟨later, rest⟩ := allowMany_of_unknown unknown key now n
    obtain ⟨all, whole⟩ := allowMany_of_unknown (Nat.le_of_not_lt known) key now (n + 1)
    rw [refused] at one
    rw [counted, all, whole, later, rest, tally_tally, Nat.add_comm 1 n, ← (List.cons.inj one).1]
    exact ⟨rfl, rfl⟩

/-- **One by one is all at once.** -/
theorem allowInTurn_eq (c : Controller) (endpoint key : String) (now n : Nat) :
    c.allowInTurn endpoint key now n =
      (c.decisions endpoint key now n, (c.allowMany endpoint key now n).2) := by
  induction n generalizing c with
  | zero =>
    rw [allowMany_eq]
    exact congrArg (Prod.mk []) ((congrArg (tally · 0 0) (c.leave_limiterFor endpoint)).trans
      c.tally_zero).symm
  | succ n ih =>
    obtain ⟨decided, left⟩ := c.allowMany_succ endpoint key now n
    rw [allowInTurn, ih, decided, left]

/-! ### What was handed out -/

/-- How many decisions an act hands out: calls that are admitted, and calls that are turned away. -/
def handsOut (c : Controller) : Act → Nat × Nat
  | .allow endpoint key now => if (c.allow endpoint key now).1 then (1, 0) else (0, 1)
  | .allowEach endpoint key readings => (c.allowEach endpoint key readings).1
  | _ => (0, 0)

/-- How many decisions a row of acts hands out. -/
def handedOut (c : Controller) : List Act → Nat × Nat
  | [] => (0, 0)
  | a :: acts =>
    let rest := (c.next a).handedOut acts
    ((c.handsOut a).1 + rest.1, (c.handsOut a).2 + rest.2)

theorem totals_serve {c c' : Controller} {offer : Offer}
    (h : c.outcome (.serve endpoint offer) = .ok c') :
    c'.allowed = c.allowed ∧ c'.denied = c.denied := by
  rw [outcome] at h
  cases taken : c.take offer with
  | none => rw [taken] at h; cases h; exact ⟨rfl, rfl⟩
  | some r =>
    rw [taken] at h
    obtain ⟨-, newer, -, rest⟩ := take_cases taken
    cases register_eq_ok h
    rw [rest]
    exact ⟨rfl, rfl⟩

theorem totals_fallBackOn {c c' : Controller} {offer : Offer}
    (h : c.outcome (.fallBackOn offer) = .ok c') :
    c'.allowed = c.allowed ∧ c'.denied = c.denied := by
  rw [outcome] at h
  cases taken : c.take offer with
  | none => rw [taken] at h; cases h; exact ⟨rfl, rfl⟩
  | some r =>
    rw [taken] at h
    obtain ⟨-, newer, -, rest⟩ := take_cases taken
    cases h
    rw [rest]
    exact ⟨rfl, rfl⟩

/-- An act that bears on who decides leaves the totals alone. -/
theorem totals_of_routes {c c' : Controller} {a : Act} (routes : a.routes = true)
    (h : c.outcome a = .ok c') : c'.allowed = c.allowed ∧ c'.denied = c.denied := by
  cases a with
  | register endpoint config =>
    cases built : config.build with
    | error f => simp only [outcome, registerConfig, built] at h; cases h
    | ok l => exact totals_serve (outcome_register built ▸ h)
  | serve => exact totals_serve h
  | remove endpoint =>
    rw [outcome, remove] at h
    split at h
    · cases h; exact ⟨rfl, rfl⟩
    · cases h
  | setDefault config =>
    cases built : config.build with
    | error f => simp only [outcome, setDefault, built] at h; cases h
    | ok l => exact totals_fallBackOn (outcome_setDefault built ▸ h)
  | fallBackOn => exact totals_fallBackOn h
  | allow | allowEach | stats => cases routes

/-- **Each act counts what it hands out.** -/
theorem totals_next (c : Controller) (a : Act) :
    (c.next a).allowed = c.allowed + UInt64.ofNat (c.handsOut a).1 ∧
      (c.next a).denied = c.denied + UInt64.ofNat (c.handsOut a).2 := by
  -- an act that hands nothing out
  have none : ∀ c' : Controller, c'.allowed = c.allowed ∧ c'.denied = c.denied →
      c'.allowed = c.allowed + UInt64.ofNat 0 ∧ c'.denied = c.denied + UInt64.ofNat 0 := by
    rintro c' ⟨allowed, denied⟩
    exact ⟨allowed.trans (UInt64.add_zero _).symm, denied.trans (UInt64.add_zero _).symm⟩
  have refuses : a.routes = true → (c.next a).allowed = c.allowed ∧ (c.next a).denied = c.denied := by
    intro routes
    rw [next]
    cases h : c.outcome a with
    | error e => exact ⟨rfl, rfl⟩
    | ok c' => exact totals_of_routes routes h
  cases a with
  | allow endpoint key now =>
    change (record _ (c.allow endpoint key now).1 1).allowed = _ ∧
      (record _ (c.allow endpoint key now).1 1).denied = _
    rw [handsOut]
    cases (c.allow endpoint key now).1 with
    | true => exact ⟨rfl, (UInt64.add_zero _).symm⟩
    | false => exact ⟨(UInt64.add_zero _).symm, rfl⟩
  | allowEach => exact ⟨rfl, rfl⟩
  | stats => exact none c ⟨rfl, rfl⟩
  | _ => exact none _ (refuses rfl)

/-- **So does a row of acts.** -/
theorem totals_nextAll (c : Controller) (acts : List Act) :
    (c.nextAll acts).allowed = c.allowed + UInt64.ofNat (c.handedOut acts).1 ∧
      (c.nextAll acts).denied = c.denied + UInt64.ofNat (c.handedOut acts).2 := by
  induction acts generalizing c with
  | nil => exact ⟨(UInt64.add_zero _).symm, (UInt64.add_zero _).symm⟩
  | cons a acts ih =>
    obtain ⟨allowed, denied⟩ := ih (c.next a)
    obtain ⟨allowed', denied'⟩ := c.totals_next a
    rw [allowed', UInt64.add_assoc, ← UInt64.ofNat_add] at allowed
    rw [denied', UInt64.add_assoc, ← UInt64.ofNat_add] at denied
    exact ⟨allowed, denied⟩

end Controller

/-! ## What is counted for an endpoint -/

namespace Metrics

/-- A counter that was touched, or not, once `n` more came in; none does not touch it. -/
def more (touched : Option Nat) (n : Nat) : Option Nat :=
  if n = 0 then touched else some (touched.getD 0 + n)

theorem more_more (touched : Option Nat) (n n' : Nat) :
    more (more touched n) n' = more touched (n + n') := by
  rw [more, more, more]
  by_cases h : n = 0 <;> by_cases h' : n' = 0 <;> simp [h, h', Nat.add_assoc]

theorem get?_recordDecisions (s : Metrics) (endpoint : String) (ok : Bool) (n : Nat) (x : Metric) :
    (s.recordDecisions endpoint ok n).values.get? x =
      if x = .admissions endpoint ok then more (s.values.get? x) n else s.values.get? x := by
  rw [recordDecisions, more]
  by_cases none : n = 0
  · simp [none]
  · rw [if_neg none, if_neg none, add, Table.get?_insert]
    by_cases own : x = .admissions endpoint ok
    · rw [if_pos own, if_pos own, own]
    · rw [if_neg own, if_neg own]

/-- Those admitted and those turned away are counted apart. -/
theorem admissions_ne (endpoint : String) :
    Metric.admissions endpoint true ≠ Metric.admissions endpoint false := by
  intro same
  simp [Metric.admissions] at same

/-- What is counted of decisions that come one by one. -/
def recordEach (s : Metrics) (endpoint : String) (decisions : List Bool) : Metrics :=
  decisions.foldl (fun s ok => s.recordDecisions endpoint ok 1) s

/-- **One by one is counted like all at once.** -/
theorem get?_recordEach (s : Metrics) (endpoint : String) (decisions : List Bool) (x : Metric) :
    (s.recordEach endpoint decisions).values.get? x =
      ((s.recordDecisions endpoint true (decisions.count true)).recordDecisions endpoint false
        (decisions.count false)).values.get? x := by
  have apart := admissions_ne endpoint
  simp only [get?_recordDecisions]
  induction decisions generalizing s with
  | nil => simp [recordEach, more]
  | cons ok decisions ih =>
    rw [recordEach, List.foldl_cons]
    refine (ih _).trans ?_
    rw [get?_recordDecisions]
    by_cases yes : x = .admissions endpoint true
    · have no : x ≠ .admissions endpoint false := yes ▸ apart
      cases ok <;> simp [yes, apart, more_more, Nat.add_comm]
    · by_cases no : x = .admissions endpoint false
      · cases ok <;> simp [no, apart.symm, more_more, Nat.add_comm]
      · cases ok <;> simp [yes, no]

end Metrics

/-! ## Calls -/

namespace House

/-- Calls of a client at an endpoint, one after the other: their decisions. -/
def allowInTurn (endpoint key : String) : (n : Nat) → Call House (List Bool)
  | 0 => return []
  | n + 1 => do
    let ok ← allow endpoint key
    let rest ← allowInTurn endpoint key n
    return ok :: rest

variable {owner : Owner} {m : Moment} {h : House} {ls : Locks} {endpoint key : String} {n : Nat}

/-- What they come to at one moment. -/
theorem run_allowInTurn (endpoint key : String) (n : Nat) (owner : Owner) (m : Moment) (h : House)
    (ls : Locks) :
    (allowInTurn endpoint key n).run owner m h ls =
      (.returned (h.admission.decisions endpoint key m.nanos n),
        { h with
          ledger :=
            { h.ledger with
              metrics := h.ledger.metrics.recordEach endpoint
                (h.admission.decisions endpoint key m.nanos n) }
          admission := (h.admission.allowMany endpoint key m.nanos n).2 }, ls) := by
  suffices turns : (allowInTurn endpoint key n).run owner m h ls =
      (.returned (h.admission.allowInTurn endpoint key m.nanos n).1,
        { h with
          ledger :=
            { h.ledger with
              metrics := h.ledger.metrics.recordEach endpoint
                (h.admission.allowInTurn endpoint key m.nanos n).1 }
          admission := (h.admission.allowInTurn endpoint key m.nanos n).2 }, ls) by
    rw [turns, Controller.allowInTurn_eq]
  induction n generalizing h with
  | zero => rfl
  | succ n ih =>
    change ((allowInTurn endpoint key n).bind fun rest =>
      Call.done ((h.judge endpoint key m).1 :: rest)).run owner m (h.judge endpoint key m).2 ls = _
    rw [Call.run_bind, ih]
    rfl

theorem length_decisions (c : Controller) (endpoint key : String) (now n : Nat) :
    (c.decisions endpoint key now n).length = n := Limiter.length_allowMany ..

/-- **Decisions are counted once.** In every house several calls at once are decided like as many
calls one after the other at the same moment: those admitted and those turned away are as many as
there are calls, and the controller, the banks, the ledger and every count are left the same.
Whatever a new controller is asked for, its totals are the decisions that it has handed out, in
64-bit words. -/
theorem decisions_counted :
    (∀ (endpoint key : String) (n : Nat) (owner : Owner) (m : Moment) (h : House) (ls : Locks),
      ∃ decisions h₁ h₂,
        (allowInTurn endpoint key n).run owner m h ls = (.returned decisions, h₁, ls) ∧
        (allowMany endpoint key n).run owner m h ls =
          (.returned (decisions.count true, decisions.count false), h₂, ls) ∧
        decisions.length = n ∧ decisions.count true + decisions.count false = n ∧
        Quiet h₁ h₂ ∧
        ∀ x, h₂.ledger.metrics.values.get? x = h₁.ledger.metrics.values.get? x) ∧
    ∀ (l : Limiter) (acts : List Controller.Act),
      ((Controller.new l).nextAll acts).allowed.toNat =
          ((Controller.new l).handedOut acts).1 % 2 ^ 64 ∧
        ((Controller.new l).nextAll acts).denied.toNat =
          ((Controller.new l).handedOut acts).2 % 2 ^ 64 := by
  constructor
  · intro endpoint key n owner m h ls
    have length := length_decisions h.admission endpoint key m.nanos n
    refine ⟨_, _, _, run_allowInTurn endpoint key n owner m h ls, rfl, length, ?_,
      ⟨⟨_, rfl⟩, rfl, rfl⟩, fun x => ?_⟩
    · rw [List.count_true_add_count_false, length]
    · exact (Metrics.get?_recordEach ..).symm
  · intro l acts
    obtain ⟨allowed, denied⟩ := (Controller.new l).totals_nextAll acts
    have start : ∀ n, (0 + UInt64.ofNat n).toNat = n % 2 ^ 64 := by
      intro n
      rw [UInt64.zero_add, UInt64.toNat_ofNat']
    rw [allowed, denied]
    exact ⟨start _, start _⟩

end House

end Tenure
