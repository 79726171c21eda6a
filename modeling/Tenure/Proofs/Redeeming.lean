import Mathlib.Algebra.GroupWithZero.Nat
import Tenure.Proofs.Codes
import Tenure.Proofs.Redeeming.Basic

/-!
# Codes work once

However visits are interleaved, the openings of a code balance: those that have come about and
those that are underway, by pickups past the check of the code, are as many as the code is
marked, so one at most (`Traffic.Accounted`). A stretch of a pickup moves an opening from one
side to another, and a stretch of anybody else leaves them all alone (`House.Balances`).

A code that is handed out is one that its bank did not have on file. From then on it has, so a bank
hands out no code twice.
-/

namespace Tenure

namespace House

variable {s : CoordinatorSettings} {m : Moment} {h h' : House} {number : Nat} {code : String}
  {a : Assignment} {owner : Owner} {ls : Locks}

/-! ## One stretch -/

open Classical in

/-- One if a pickup of the code is past the check, else none. -/
noncomputable def underway (s : CoordinatorSettings) (number : Nat) (code : String)
    (w : Wait House Report) : Nat :=
  if PastCheck s number code w then 1 else 0

/-- One if a stretch ends with an opening of the code, which has come about or is underway, else
none. -/
noncomputable def opening (s : CoordinatorSettings) (number : Nat) (code : String) :
    Stop House Report → Nat
  | .waiting w => underway s number code w
  | .returned a => if a.opened? = some (number, code) then 1 else 0

/-- One if a stretch ends with the code being handed out, else none. -/
def issuing (number : Nat) (code : String) : Stop House Report → Nat
  | .waiting _ => 0
  | .returned a => if a.issued? = some (number, code) then 1 else 0

/-- In a stretch that began with `before` openings underway a code is marked for each new one. -/
def Balances (s : CoordinatorSettings) (number : Nat) (code : String) (before : Nat) (h : House)
    (r : Stop House Report × House × Locks) : Prop :=
  opening s number code r.1 + h.used number code = before + r.2.1.used number code

theorem underway_of_past {w : Wait House Report} (past : PastCheck s number code w) (h : House)
    (number' : Nat) (code' : String) :
    underway s number' code' w = if number = number' ∧ code = code' then 1 else 0 := by
  rw [underway]
  by_cases own : number = number' ∧ code = code'
  · obtain ⟨rfl, rfl⟩ := own
    rw [if_pos past, if_pos ⟨rfl, rfl⟩]
  · rw [if_neg fun past' => own (past.unique past' h), if_neg own]

/-- **After the check** the opening is underway until it comes about or is taken back. -/
theorem Frees.balances {stop : Stop House Report} (frees : Frees s number code h stop h')
    (here : h.assignment? number code = some a) (marked : a.pickedUp = true) (number' : Nat)
    (code' : String) :
    opening s number' code' stop + h.used number' code' =
      (if number = number' ∧ code = code' then 1 else 0) + h'.used number' code' := by
  cases frees with
  | waits past same => rw [used_congr same, opening, underway_of_past past h]
  | opens a same =>
    rw [used_congr same, opening]
    simp only [Report.opened?, Option.some.injEq, Prod.mk.injEq]
  | fails e back =>
    rw [used_congr back, used_mark here, opening]
    simp only [Report.opened?]
    by_cases own : number = number' ∧ code = code'
    · obtain ⟨rfl, rfl⟩ := own
      rw [used_of_assignment here, marked]
      simp
    · simp [own]

/-- **Before the check** none is. -/
theorem balances_pickup (number' : Nat) (code' : String) :
    Balances s number' code' 0 h (((Act.pickup number code).visit s).run owner m h ls) := by
  rcases run_pickup s number code owner m h ls with ⟨e, run⟩ | ⟨a, ha, unused, frees⟩
  · rw [run]
    rfl
  · have here := (assignment?_mark h number code true number code).trans (if_pos ⟨rfl, rfl⟩)
    rw [ha, Option.map_some] at here
    have balance := frees.balances here rfl number' code'
    rw [used_mark ha] at balance
    rw [Balances]
    by_cases own : number = number' ∧ code = code'
    · obtain ⟨rfl, rfl⟩ := own
      simp only [and_self, if_true] at balance
      rw [used_of_assignment ha, unused, if_neg Bool.false_ne_true]
      omega
    · rw [if_neg own, if_neg own] at balance
      exact balance

/-! ## Visitors in flight -/

/-- Where a visitor may stand, among these locks. -/
inductive Stands (s : CoordinatorSettings) (m : Moment) (h : House) (ls : Locks) (owner : Owner) :
    Wait House Report → Prop where
  /-- a pickup is about to begin -/
  | comes (number : Nat) (code : String) : Stands s m h ls owner
    (.turn ((Act.pickup number code).visit s))
  /-- a pickup is past the check of its code -/
  | past {w : Wait House Report} {number : Nat} {code : String} (past : PastCheck s number code w) :
    Stands s m h ls owner w
  /-- the visit is another one -/
  | visits {w : Wait House Report} {held : List Key} (grants : ls.Grants owner held)
    (meets : w.Meets conduct SameBanks (fun _ _ h h' a => a.Files h h') held m h) :
    Stands s m h ls owner w

/-- What a stretch of a visitor comes to that waited for `w`. -/
structure Turns (s : CoordinatorSettings) (m : Moment) (h : House) (owner : Owner)
    (w : Wait House Report) (r : Stop House Report × House × Locks) : Prop where
  /-- the openings of every code balance -/
  balances : ∀ number code, Balances s number code (underway s number code w) h r
  /-- it stands somewhere again -/
  stands : ∀ w', r.1 = .waiting w' → Stands s m r.2.1 r.2.2 owner w'
  /-- in a bank that there is the codes on file are those that were handed out -/
  files : ∀ number code, number < h.banks.length →
    issuing number code r.1 + h.filed number code = r.2.1.filed number code

theorem used_eq_one : h.used number code = 1 ↔
    ∃ a, h.assignment? number code = some a ∧ a.pickedUp = true := by
  rw [used]
  cases h.assignment? number code with
  | none => simp
  | some a => cases used : a.pickedUp <;> simp [used]

/-- A visit that is no pickup does not stand where pickups wait. -/
theorem not_past_of_meets {w : Wait House Report} {held : List Key}
    (meets : w.Meets conduct SameBanks (fun _ _ h h' a => a.Files h h') held m h)
    (ord : h.ledger.Orderly) : underway s number code w = 0 := by
  rw [underway, if_neg]
  rintro ⟨a, due, rfl⟩
  -- it would come to the answer of a pickup if the lock did not come
  have late := (meets m h (.refl m) (Rely.refl held h) ord).2 rfl
  exact Report.Files.not_pickup late.2.2

theorem not_past_turn (c : Call House Report) : underway s number code (.turn c) = 0 := by
  rw [underway, if_neg]
  rintro ⟨a, due, same⟩
  cases same

/-- A stretch of a pickup. -/
theorem Turns.ofFrees {w : Wait House Report} {r : Stop House Report × House × Locks}
    (balances : ∀ number code, Balances s number code (underway s number code w) h r)
    (codes : SameCodes h h') (frees : Frees s number code h' r.1 r.2.1) : Turns s m h owner w r := by
  have filed := (codes.trans frees.sameCodes).filed_eq
  obtain ⟨stop, h₁, ls⟩ := r
  refine ⟨balances, fun w' stop => ?_, fun number' code' _ => ?_⟩
  · cases frees with
    | waits past =>
      cases stop
      exact .past past
    | _ => cases stop
  · have none : issuing number' code' stop = 0 := by cases frees <;> rfl
    rw [none, Nat.zero_add]
    exact (filed number' code').symm

/-- A stretch of a visit that is no pickup. -/
theorem Turns.ofFiles {w : Wait House Report} {r : Stop House Report × House × Locks}
    (none : ∀ number code, underway s number code w = 0)
    (leaves : Leaves conduct SameBanks (fun _ _ h h' a => a.Files h h') owner m h h ls r) :
    Turns s m h owner w r := by
  obtain ⟨stop, h', ls'⟩ := r
  obtain ⟨ends, ord', -, -⟩ := leaves
  cases stop with
  | waiting w' =>
    obtain ⟨same, held, grants, meets⟩ := ends
    refine ⟨fun number code => ?_, fun w₁ stop => ?_, fun number code _ => ?_⟩
    · rw [Balances, none, opening, not_past_of_meets meets ord', used_congr same]
    · cases stop
      exact .visits grants meets
    · exact (Nat.zero_add _).trans ((SameCodes.of_banks same).filed_eq number code).symm
  | returned a =>
    obtain ⟨-, files⟩ := ends
    refine ⟨fun number code => ?_, fun w₁ stop => (nomatch stop), fun number code known => ?_⟩
    · rw [Balances, none, opening, files.opened?_eq, files.used_eq]
      rfl
    · exact files.filed_eq known code

/-- **From place to place.** In each of its stretches a visitor keeps the balance. -/
theorem Stands.turns {w : Wait House Report} {go : Call House Report × House × Locks}
    (stands : Stands s m h ls owner w) (ord : h.ledger.Orderly) (proper : ls.Proper)
    (marked : ∀ number code, PastCheck s number code w → h.used number code = 1)
    (isOver : w.Over owner m h ls go) :
    Turns s m h owner w (go.1.run owner m go.2.1 go.2.2) := by
  cases stands with
  | comes number code =>
    cases isOver
    have balances : ∀ number' code', Balances s number' code'
        (underway s number' code' (.turn ((Act.pickup number code).visit s))) h
        (((Act.pickup number code).visit s).run owner m h ls) := by
      intro number' code'
      rw [not_past_turn]
      exact balances_pickup number' code'
    rcases run_pickup s number code owner m h ls with ⟨e, run⟩ | ⟨a, -, -, frees⟩
    · rw [run] at balances ⊢
      exact ⟨balances, fun w' stop => (nomatch stop), fun _ _ _ => Nat.zero_add _⟩
    · exact .ofFrees balances (sameCodes_mark h number code true) frees
  | @past _ number code past =>
    have one := marked number code past
    obtain ⟨a, here, used⟩ := used_eq_one.1 one
    obtain ⟨a', due, rfl⟩ := id past
    have frees : Frees s number code h (go.1.run owner m go.2.1 go.2.2).1
        (go.1.run owner m go.2.1 go.2.2).2.1 := by
      cases isOver with
      | granted patience k has => exact frees_freeing true
      | gaveUp k not passed => exact frees_freeing false
    refine .ofFrees (fun number' code' => ?_) (.refl h) frees
    rw [Balances, underway_of_past past h]
    exact frees.balances here used number' code'
  | @visits _ held grants meets =>
    have leaves : Leaves conduct SameBanks (fun _ _ h h' a => a.Files h h') owner m h h ls
        (go.1.run owner m go.2.1 go.2.2) := meets.leaves ord proper grants isOver
    exact .ofFiles (fun number code => not_past_of_meets meets ord) leaves

/-- Where a visitor stands while somebody else goes on. -/
theorem Stands.later {w : Wait House Report} {other : Owner} {m' : Moment} {ls' : Locks}
    (stands : Stands s m h ls owner w) (time : m.Before m') (ne : owner ≠ other)
    (others : Undisturbed conduct other h ls h' ls') : Stands s m' h' ls' owner w := by
  cases stands with
  | comes number code => exact .comes number code
  | past past => exact .past past
  | visits grants meets =>
    obtain ⟨grants', rely⟩ := others owner _ ne grants
    exact .visits grants' (meets.later time rely)

/-- Where a visitor stands that is about to begin. -/
theorem Visit.stands {c : Call House Report} (visit : Visit s c) :
    Stands s m h ls owner (.turn c) := by
  rcases visit.files with ⟨number, code, rfl⟩ | keeps
  · exact .comes number code
  · exact .visits Locks.grants_nil fun m' h' _ _ ord => keeps m' h' ord

/-- Where a visitor stands after a stretch, if it is still there. -/
theorem Turns.after {f g : Flight House Report} {r : Stop House Report × House × Locks}
    (turns : Turns s m h f.owner f.wait r) (again : ∀ a c, f.again a = some c → Visit s c)
    (mem : g ∈ f.after r.1) : Stands s m r.2.1 r.2.2 g.owner g.wait := by
  obtain ⟨stop, h', ls'⟩ := r
  cases stop with
  | waiting w =>
    obtain rfl := List.mem_singleton.1 mem
    exact turns.stands w rfl
  | returned a =>
    obtain ⟨c, hc, rfl⟩ := List.mem_map.1 mem
    exact (again a c (Option.mem_toList.1 hc)).stands

end House

namespace Traffic

open House

variable {s : CoordinatorSettings} {origin : Int} {h₀ : House} {t u : Traffic House Report}
  {number : Nat} {code : String}

/-! ## Every reachable state -/

/-- The codes that were handed out, and their banks. -/
def issued (returned : List (Return Report)) : List (Nat × String) :=
  returned.filterMap fun r => r.answer.issued?

/-- The codes that have opened, and their banks. -/
def opened (returned : List (Return Report)) : List (Nat × String) :=
  returned.filterMap fun r => r.answer.opened?

/-- How many pickups in flight are past the check of a code. -/
noncomputable def redeeming (s : CoordinatorSettings) (number : Nat) (code : String)
    (flights : List (Flight House Report)) : Nat :=
  (flights.map fun f => underway s number code f.wait).sum

theorem count_issued_cons (r : Return Report) (returned : List (Return Report))
    (x : Nat × String) : (issued (r :: returned)).count x =
      (issued returned).count x + if r.answer.issued? = some x then 1 else 0 := by
  simp only [issued, List.count_filterMap, List.countP_cons, beq_iff_eq]

theorem count_opened_cons (r : Return Report) (returned : List (Return Report))
    (x : Nat × String) : (opened (r :: returned)).count x =
      (opened returned).count x + if r.answer.opened? = some x then 1 else 0 := by
  simp only [opened, List.count_filterMap, List.countP_cons, beq_iff_eq]

/-- The openings of every code are accounted for. -/
structure Accounted (s : CoordinatorSettings) (t : Traffic House Report) : Prop where
  /-- everybody stands somewhere -/
  stands : ∀ f ∈ t.flights, Stands s t.clock t.shared t.locks f.owner f.wait
  /-- whoever goes on makes a visit -/
  again : ∀ f ∈ t.flights, ∀ a c, f.again a = some c → Visit s c
  /-- the openings that have come about or are underway are as many as the code is marked -/
  balance : ∀ number code,
    (opened t.returned).count (number, code) + redeeming s number code t.flights =
      t.shared.used number code
  /-- in a bank that there is a code was handed out as often as it is on file -/
  files : ∀ number code, number < t.shared.banks.length →
    (issued t.returned).count (number, code) = t.shared.filed number code

/-- One party counts for itself. -/
theorem redeeming_of_perm {flights rest : List (Flight House Report)} {f : Flight House Report}
    (perm : flights.Perm (f :: rest)) (number : Nat) (code : String) :
    redeeming s number code flights =
      underway s number code f.wait + redeeming s number code rest := by
  rw [redeeming, (perm.map _).sum_nat, List.map_cons, List.sum_cons, redeeming]

theorem redeeming_pos {flights : List (Flight House Report)} :
    0 < redeeming s number code flights ↔ ∃ f ∈ flights, PastCheck s number code f.wait := by
  induction flights with
  | nil => simp [redeeming]
  | cons f flights ih =>
    rw [redeeming_of_perm (.refl _), underway]
    by_cases past : PastCheck s number code f.wait
    · simp only [past, if_true, List.mem_cons, exists_eq_or_imp, true_or, iff_true]
      omega
    · simp [past, ih]

/-- After a stretch there is one opening more, come about or underway, if it ends with one. -/
theorem openings_resume (f : Flight House Report) (rest : List (Flight House Report))
    (go : Call House Report × House × Locks) (number : Nat) (code : String) :
    (opened (t.resume f rest go).returned).count (number, code) +
        redeeming s number code (t.resume f rest go).flights =
      opening s number code (go.1.run f.owner t.clock go.2.1 go.2.2).1 +
        ((opened t.returned).count (number, code) + redeeming s number code rest) := by
  have flights : redeeming s number code (t.resume f rest go).flights = redeeming s number code _ :=
    ((flights_resume t f rest go).map _).sum_nat
  rw [flights, returned_resume]
  cases (go.1.run f.owner t.clock go.2.1 go.2.2).1 with
  | waiting w =>
    have own : redeeming s number code ({ f with wait := w } :: rest) =
        underway s number code w + redeeming s number code rest := redeeming_of_perm (.refl _) ..
    rw [Flight.after, List.singleton_append, own, opening]
    dsimp only
    omega
  | returned a =>
    -- whoever goes straight on to another visit is not past a check
    have next : redeeming s number code (f.after (.returned a) ++ rest) =
        redeeming s number code rest := by
      rw [Flight.after]
      cases f.again a with
      | none => rfl
      | some c =>
        refine (redeeming_of_perm (.refl _) ..).trans ?_
        rw [not_past_turn, Nat.zero_add]
        rfl
    rw [next, count_opened_cons, opening]
    dsimp only
    omega

/-- And the code was handed out once more, if it ends with that. -/
theorem issued_resume (f : Flight House Report) (rest : List (Flight House Report))
    (go : Call House Report × House × Locks) (number : Nat) (code : String) :
    (issued (t.resume f rest go).returned).count (number, code) =
      issuing number code (go.1.run f.owner t.clock go.2.1 go.2.2).1 +
        (issued t.returned).count (number, code) := by
  rw [returned_resume]
  cases (go.1.run f.owner t.clock go.2.1 go.2.2).1 with
  | waiting w => exact (Nat.zero_add _).symm
  | returned a => rw [count_issued_cons, issuing, Nat.add_comm]

/-- Whoever is past the check of a code has marked it. -/
theorem Accounted.marked (accounted : t.Accounted s) {f : Flight House Report} (mem : f ∈ t.flights)
    (past : PastCheck s number code f.wait) : t.shared.used number code = 1 := by
  have underway : 0 < redeeming s number code t.flights := redeeming_pos.2 ⟨f, mem, past⟩
  have balance := accounted.balance number code
  have := t.shared.used_le_one number code
  omega

/-- A stretch of one visitor leaves the others where they stand. -/
theorem Accounted.rest (accounted : t.Accounted s) {f : Flight House Report}
    {rest : List (Flight House Report)} (perm : t.flights.Perm (f :: rest))
    (owners : (t.flights.map Flight.owner).Nodup) {h' : House} {ls' : Locks}
    (others : Undisturbed conduct f.owner t.shared t.locks h' ls') :
    ∀ g ∈ rest, Stands s t.clock h' ls' g.owner g.wait := fun g hg =>
  (accounted.stands g (perm.mem_iff.2 (List.mem_cons_of_mem _ hg))).later (.refl _)
    (owner_ne_of_perm perm owners hg) others

/-- **Going on.** A stretch of any visitor keeps the account. -/
theorem Accounted.goOn {earlier later : List (Flight House Report)} {f : Flight House Report}
    {go : Call House Report × House × Locks} {wait : Moment → House → House → Prop}
    {ret : Moment → House → House → Report → Prop} (accounted : t.Accounted s)
    (kept : t.Kept conduct wait ret) (split : t.flights = earlier ++ f :: later)
    (isOver : f.wait.Over f.owner t.clock t.shared t.locks go) :
    (t.resume f (earlier ++ later) go).Accounted s := by
  have perm := perm_of_split split
  have mem : f ∈ t.flights := perm.mem_iff.2 List.mem_cons_self
  have leaves := (kept.flights f mem).leaves kept.inv kept.proper isOver
  have turns := (accounted.stands f mem).turns kept.inv kept.proper
    (fun number code past => accounted.marked mem past) isOver
  have shared := shared_resume t f (earlier ++ later) go
  refine ⟨fun g hg => ?_, fun g hg => ?_, fun number code => ?_, fun number code known => ?_⟩
  · rw [clock_resume, shared, locks_resume]
    rcases mem_resume.1 hg with own | other
    · exact turns.after (accounted.again f mem) own
    · exact accounted.rest perm kept.owners leaves.others g other
  · obtain ⟨g', mem', -, same⟩ := exists_of_mem_resume hg
    exact same ▸ accounted.again g' (perm.mem_iff.2 mem')
  · have before := accounted.balance number code
    have now := turns.balances number code
    rw [redeeming_of_perm perm] at before
    rw [Balances] at now
    rw [openings_resume, shared]
    omega
  · have banks : (t.resume f (earlier ++ later) go).shared.banks.length = t.shared.banks.length :=
      shared ▸ (leaves.others (f.owner + 1) [] (Nat.succ_ne_self _) Locks.grants_nil).2.banks
    have known : number < t.shared.banks.length := banks ▸ known
    rw [issued_resume, shared, accounted.files number code known]
    exact turns.files number code known

/-- **Moves** keep the account, whatever happens in them. -/
theorem Accounted.move {wait : Moment → House → House → Prop}
    {ret : Moment → House → House → Report → Prop} (accounted : t.Accounted s)
    (kept : t.Kept conduct wait ret) (move : Move (Visitor s) t u) : u.Accounted s := by
  cases move with
  | goOn split isOver => exact accounted.goOn kept split isOver
  | @elapse elapsed later =>
    have time : t.clock.Before { t.clock with elapsed := elapsed } := ⟨rfl, later⟩
    refine ⟨fun f hf => ?_, accounted.again, accounted.balance, accounted.files⟩
    exact (accounted.stands f hf).later time (Nat.succ_ne_self f.owner).symm .refl
  | @enter call again entry =>
    refine ⟨fun f hf => ?_, fun f hf => ?_, fun number code => ?_, accounted.files⟩
    · rcases List.mem_append.1 hf with hf | hf
      · exact accounted.stands f hf
      · obtain rfl := List.mem_singleton.1 hf
        exact entry.1.stands
    · rcases List.mem_append.1 hf with hf | hf
      · exact accounted.again f hf
      · obtain rfl := List.mem_singleton.1 hf
        exact entry.2
    · refine Eq.trans ?_ (accounted.balance number code)
      change (opened t.returned).count (number, code) + redeeming s number code (t.flights ++ [_]) = _
      rw [redeeming_of_perm (List.perm_append_singleton ..), not_past_turn, Nat.zero_add]

/-- **Along every history** the openings of every code are accounted for. -/
theorem Moves.accounted (ord : h₀.ledger.Orderly) (unissued : h₀.Unissued)
    (h : Moves (Visitor s) (Traffic.start origin h₀) t) : t.Accounted s := by
  induction h with
  | none =>
    refine ⟨fun f hf => absurd hf List.not_mem_nil, fun f hf => absurd hf List.not_mem_nil,
      fun number code => ?_, fun number code _ => ?_⟩
    · change 0 = h₀.used number code
      rw [used, unissued]
      rfl
    · change 0 = h₀.filed number code
      rw [filed, unissued]
      rfl
  | snoc before move ih => exact ih.move (before.handedOut ord unissued).1 move

/-- **A code works once.** However visits of any number of visitors are interleaved, a bank hands out
no code twice, and has on file those that it has handed out. At most one pickup of a code has opened
it or is past the check of the code, and the code is marked as used exactly if one has or is. So a
pickup that fails, for whatever reason, does not leave a code marked that nobody has used. -/
theorem codes_work_once (ord : h₀.ledger.Orderly) (unissued : h₀.Unissued)
    (h : Moves (Visitor s) (Traffic.start origin h₀) t) :
    (∀ number code, number < t.shared.banks.length →
      (issued t.returned).count (number, code) ≤ 1 ∧
      ((number, code) ∈ issued t.returned ↔ ∃ a, t.shared.assignment? number code = some a)) ∧
    (∀ number code,
      (opened t.returned).count (number, code) + redeeming s number code t.flights ≤ 1) ∧
    ∀ number code a, t.shared.assignment? number code = some a →
      (a.pickedUp = true ↔
        (number, code) ∈ opened t.returned ∨ ∃ f ∈ t.flights, PastCheck s number code f.wait) := by
  have accounted := h.accounted ord unissued
  refine ⟨fun number code known => ?_, fun number code => ?_, fun number code a here => ?_⟩
  · rw [← List.count_pos_iff, accounted.files number code known, filed, ← Option.isSome_iff_exists]
    cases (t.shared.assignment? number code).isSome <;> decide
  · rw [accounted.balance]
    exact t.shared.used_le_one number code
  · have balance := accounted.balance number code
    have marked : t.shared.used number code = 1 ↔ a.pickedUp = true := by
      rw [used_of_assignment here]
      cases a.pickedUp <;> decide
    rw [← marked, ← balance, ← redeeming_pos, ← List.count_pos_iff]
    have := t.shared.used_le_one number code
    omega

/-- Alice has sent two people for her parcel while somebody has the lock of the compartment. -/
def aliceSendsTwo : Traffic House Report :=
  (((aliceDeposited.enter (visitFor (watch.bind fun _ => .done .looked))).enter
    ((Act.pickup 0 alicesParcel.code).visit .standard)).enter
    ((Act.pickup 0 alicesParcel.code).visit .standard)).run (fun _ => false) none 3

/-- The code is marked though it has not opened, so one of them has got past the check. -/
theorem code_works_once_for_alice :
    lockers.ledger.Orderly ∧ lockers.Unissued ∧
    Moves (Visitor .standard) (Traffic.start 0 lockers) aliceSendsTwo ∧
    aliceSendsTwo.shared.assignment? 0 alicesParcel.code =
      some { alicesParcel with pickedUp := true } ∧
    opened aliceSendsTwo.returned = [] ∧
    ∃ f ∈ aliceSendsTwo.flights, PastCheck .standard 0 alicesParcel.code f.wait := by
  have deposits : Moves (Visitor .standard) (Traffic.start 0 lockers) aliceDeposited :=
    (Move.moves (.enter (Visit.act _).visitor)).trans (run_moves ..)
  have looks : Visit .standard (visitFor (watch.bind fun _ => .done .looked)) :=
    .party (.inl (errand_keeping ..))
  have moves : Moves (Visitor .standard) (Traffic.start 0 lockers) aliceSendsTwo :=
    (((deposits.snoc (.enter looks.visitor)).snoc (.enter (Visit.act _).visitor)).snoc
      (.enter (Visit.act _).visitor)).trans (run_moves ..)
  have here : aliceSendsTwo.shared.assignment? 0 alicesParcel.code =
      some { alicesParcel with pickedUp := true } := rfl
  have none : opened aliceSendsTwo.returned = [] := rfl
  have ⟨_, _, marked⟩ := codes_work_once orderly_lockers unissued_lockers moves
  refine ⟨orderly_lockers, unissued_lockers, moves, here, none, ?_⟩
  refine ((marked 0 alicesParcel.code _ here).1 rfl).resolve_left fun opened => ?_
  rw [none] at opened
  cases opened

end Traffic

end Tenure
